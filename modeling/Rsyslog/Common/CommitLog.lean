import Mathlib.Data.List.TakeWhile
import Mathlib.Data.List.Forall2

/-!
# Ordered commit logs

An abstract account of a consumer that acknowledges work in arrival order. Items wait in a
pending list; new items arrive at its tail, an operation sets the finished flags of the items
whose ids it marks and of no other, and only the longest finished prefix of the list is
committed. `Commits` relates a pending list, item by item, to the list that remains after some
of these operations: the items that arrived, the ids that were marked, the items that were
committed, in order, and the rest. Its rules are one per operation.

An item's `key` is what identifies it apart from its flag, and `ident` reads its id off the key.
-/

namespace Rsyslog.Common

namespace CommitLog

/-- Two relations composed item by item. -/
theorem forall₂_comp {α β γ : Type} {R : α → β → Prop} {S : β → γ → Prop} {T : α → γ → Prop}
    (hRS : ∀ a b c, R a b → S b c → T a c) {l₁ : List α} {l₂ : List β} {l₃ : List γ}
    (h : List.Forall₂ R l₁ l₂) (h' : List.Forall₂ S l₂ l₃) : List.Forall₂ T l₁ l₃ := by
  induction h generalizing l₃ with
  | nil =>
    cases h'
    exact .nil
  | cons hab _ ih =>
    cases h' with
    | cons hbc h' => exact .cons (hRS _ _ _ hab hbc) (ih h')

variable {β κ ι : Type} (key : β → κ) (ident : κ → ι) (finished : β → Bool)

/-- The item `y` became `x` while the ids `marked` were marked: the key is the same, a flag
that was set stays set, and a flag that is set now was set before or belongs to a marked id. -/
def Marks (marked : List ι) (y x : β) : Prop :=
  key x = key y ∧ (finished y = true → finished x = true) ∧
    (finished x = true → finished y = true ∨ ident (key x) ∈ marked)

/-- From `pending`, after `arrived` joined at the tail and the ids `marked` were marked,
`committed` left from the head, each finished when it left, and `rest` remains: item by item,
the committed and remaining items are the old ones followed by the arrivals. -/
def Commits (pending arrived : List β) (marked : List ι) (committed rest : List β) : Prop :=
  List.Forall₂ (Marks key ident finished marked) (pending ++ arrived) (committed ++ rest) ∧
    ∀ x ∈ committed, finished x = true

variable {key ident finished}

theorem Marks.refl (marked : List ι) (x : β) : Marks key ident finished marked x x :=
  ⟨rfl, id, Or.inl⟩

/-- Marks made one after the other are the marks of both. -/
theorem Marks.trans {marked marked' : List ι} {x y z : β}
    (h : Marks key ident finished marked x y) (h' : Marks key ident finished marked' y z) :
    Marks key ident finished (marked ++ marked') x z := by
  obtain ⟨hk, hset, hnew⟩ := h
  obtain ⟨hk', hset', hnew'⟩ := h'
  refine ⟨hk'.trans hk, hset' ∘ hset, fun hz => ?_⟩
  rcases hnew' hz with hy | hm'
  · rcases hnew hy with hx | hm
    · exact Or.inl hx
    · -- the id is read off the key, which the second change kept
      rw [hk']
      exact Or.inr (List.mem_append_left _ hm)
  · exact Or.inr (List.mem_append_right _ hm')

theorem forall₂_marks_refl (marked : List ι) (l : List β) :
    List.Forall₂ (Marks key ident finished marked) l l :=
  List.forall₂_same.mpr fun x _ => Marks.refl marked x

/-- Doing nothing commits nothing. -/
theorem commits_refl (pending : List β) (marked : List ι) :
    Commits key ident finished pending [] marked [] pending := by
  refine ⟨?_, by simp⟩
  rw [List.append_nil, List.nil_append]
  exact forall₂_marks_refl marked pending

/-- An item arriving joins the tail of what remains. -/
theorem Commits.arrive {pending arrived committed rest : List β} {marked : List ι}
    (h : Commits key ident finished pending arrived marked committed rest) (x : β) :
    Commits key ident finished pending (arrived ++ [x]) marked committed (rest ++ [x]) := by
  refine ⟨?_, h.2⟩
  rw [← List.append_assoc, ← List.append_assoc]
  exact List.rel_append h.1 (forall₂_marks_refl marked [x])

/-- An operation that marks the ids `marked'` sets the flags of remaining items with those ids
and of no other. -/
theorem Commits.mark {pending arrived committed rest rest' : List β} {marked : List ι}
    (h : Commits key ident finished pending arrived marked committed rest) (marked' : List ι)
    (hmark : List.Forall₂ (Marks key ident finished marked') rest rest') :
    Commits key ident finished pending arrived (marked ++ marked') committed rest' := by
  refine ⟨forall₂_comp (fun _ _ _ => Marks.trans) h.1 ?_, h.2⟩
  exact List.rel_append (forall₂_marks_refl marked' committed) hmark

/-- Committing the longest finished prefix of what remains. -/
theorem Commits.commit {pending arrived committed rest : List β} {marked : List ι}
    (h : Commits key ident finished pending arrived marked committed rest) :
    Commits key ident finished pending arrived marked (committed ++ rest.takeWhile finished)
      (rest.dropWhile finished) := by
  refine ⟨by rw [List.append_assoc, List.takeWhile_append_dropWhile]; exact h.1, ?_⟩
  intro x hx
  rcases List.mem_append.mp hx with hold | hnew
  · exact h.2 x hold
  · exact List.mem_takeWhile_imp hnew

/-- Dropping as many items as the longest finished prefix has leaves the rest. -/
theorem drop_length_takeWhile (l : List β) :
    l.drop (l.takeWhile finished).length = l.dropWhile finished := by
  calc l.drop (l.takeWhile finished).length
      = (l.takeWhile finished ++ l.dropWhile finished).drop (l.takeWhile finished).length := by
        rw [List.takeWhile_append_dropWhile]
    _ = l.dropWhile finished := List.drop_left

/-- What remains after a commit does not start with a finished item. -/
theorem head_dropWhile_not_finished (l : List β) :
    ∀ x ∈ (l.dropWhile finished).head?, finished x = false := by
  intro x hx
  have h := List.head?_dropWhile_not finished l
  rw [show (l.dropWhile finished).head? = some x from hx] at h
  exact h

end CommitLog

end Rsyslog.Common
