import Mathlib.Data.List.Basic

/-!
# Computations in `Except`

A function of C code that returns a status and stops at the first failure is a computation in
`Except`. Two facts take such computations apart: a bind that succeeded ran both of its parts to
success, and a `mapM` over a list that succeeded mapped every element, each result coming from an
element.
-/

namespace Rsyslog.Common

variable {ε α β : Type}

theorem bind_eq_ok {x : Except ε α} {k : α → Except ε β} {b : β} (h : x >>= k = .ok b) :
    ∃ a, x = .ok a ∧ k a = .ok b := by
  cases x with
  | error e => cases h
  | ok a => exact ⟨a, rfl, h⟩

theorem map_eq_ok {x : Except ε α} {f : α → β} {b : β} (h : f <$> x = .ok b) :
    ∃ a, x = .ok a ∧ f a = b := by
  cases x with
  | error e => cases h
  | ok a =>
    cases h
    exact ⟨a, rfl, rfl⟩

/-- A list mapped without error: every result comes from an element, and every element has its
result. -/
theorem mapM_eq_ok_mem {f : α → Except ε β} :
    ∀ {xs : List α} {ys : List β}, xs.mapM f = .ok ys →
      (∀ y ∈ ys, ∃ x ∈ xs, f x = .ok y) ∧ (∀ x ∈ xs, ∃ y ∈ ys, f x = .ok y)
  | [], ys, h => by
    simp only [List.mapM_nil] at h
    cases h
    simp
  | x :: xs, ys, h => by
    rw [List.mapM_cons] at h
    obtain ⟨y, hx, h⟩ := bind_eq_ok h
    obtain ⟨ys', hxs, h⟩ := bind_eq_ok h
    cases h
    obtain ⟨hfrom, hto⟩ := mapM_eq_ok_mem hxs
    refine ⟨fun z hz => ?_, fun z hz => ?_⟩
    · rcases List.mem_cons.mp hz with rfl | hz
      · exact ⟨x, List.mem_cons_self, hx⟩
      · obtain ⟨w, hw, hfw⟩ := hfrom z hz
        exact ⟨w, List.mem_cons_of_mem _ hw, hfw⟩
    · rcases List.mem_cons.mp hz with rfl | hz
      · exact ⟨y, List.mem_cons_self, hx⟩
      · obtain ⟨w, hw, hfw⟩ := hto z hz
        exact ⟨w, List.mem_cons_of_mem _ hw, hfw⟩

end Rsyslog.Common
