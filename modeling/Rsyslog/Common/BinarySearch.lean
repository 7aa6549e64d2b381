import Mathlib.Data.List.Sort

/-!
# Bisection over a sorted list

glibc's `bsearch` and a lower-bound variant of it share one bisection loop over a half-open
range `[l, u)`: probe the middle, compare the key with it, and keep the half that can still hold
the key. `bsearch` answers the probe that compared equal, if any. The lower-bound variant answers,
when no probe did, the element before or at the last probe, according to the last comparison.

The comparison is `compare key (f x)` for a key function `f` into a linear order, over a list
sorted by `f`. Then a probe that compares equal has found the key, an exhausted search proves the
key absent (`bsearch_eq_none`), and the lower-bound answer is an element with the greatest key not
above `key` (`bsearchLte_eq_some`), or nothing when every key is above it (`bsearchLte_eq_none`).
-/

namespace Rsyslog.Common

/-- The end of the bisection loop: a probe that compared equal, or, once the range is empty, the
last probe and its comparison. -/
inductive Bisection
  | found (idx : ℕ)
  | exhausted (idx : ℕ) (c : Ordering)
deriving DecidableEq, Repr

section Loop

variable {β : Type*} (cmp : β → Ordering) (xs : List β)

/-- The bisection loop over `[l, u)`, carrying the last probe `idx` and its comparison `c`. Each
round shrinks the range, so `u - l` rounds of fuel are enough. -/
def bisect : ℕ → ℕ → ℕ → ℕ → Ordering → Bisection
  | 0, _, _, idx, c => .exhausted idx c
  | fuel + 1, l, u, idx, c =>
    if l < u then
      let idx := (l + u) / 2
      match xs[idx]? with
      | none => .exhausted idx c
      | some p =>
        match cmp p with
        | .lt => bisect fuel l idx idx .lt
        | .gt => bisect fuel (idx + 1) u idx .gt
        | .eq => .found idx
    else .exhausted idx c

/-- glibc's `bsearch`: the index of an element comparing equal to the key. -/
def bsearch : Option ℕ :=
  match bisect cmp xs xs.length 0 xs.length 0 .eq with
  | .found idx => some idx
  | .exhausted _ _ => none

/-- A lower-bound bisection (rsyslog's bsearch_lte): an element comparing equal, or else the one
just below the place of the key. -/
def bsearchLte : Option ℕ :=
  if xs.length = 0 then none else
  match bisect cmp xs xs.length 0 xs.length 0 .eq with
  | .found idx => some idx
  | .exhausted idx c => if c = .lt then (if idx = 0 then none else some (idx - 1)) else some idx

end Loop

section Sorted

variable {β γ : Type*} [LinearOrder γ] (f : β → γ) (key : γ) (xs : List β)

/-- The state of the bisection loop: the keys before `l` are below `key`, those from `u` on are
above it, and when the range is empty its bound is next to the last probe, on the side its
comparison says. -/
def BisectInv (l u idx : ℕ) (c : Ordering) : Prop :=
  l ≤ u ∧ u ≤ xs.length ∧
    (∀ j (hj : j < xs.length), j < l → f xs[j] < key) ∧
    (∀ j (hj : j < xs.length), u ≤ j → key < f xs[j]) ∧
    (l < u ∨ c = .lt ∧ idx = u ∧ u < xs.length ∨ c = .gt ∧ l = idx + 1)

variable {f key xs}

theorem le_of_sorted (hs : xs.Pairwise fun a b => f a ≤ f b) {i j : ℕ} (hij : i ≤ j)
    (hi : i < xs.length) (hj : j < xs.length) : f xs[i] ≤ f xs[j] := by
  rcases Nat.lt_or_eq_of_le hij with hlt | rfl
  · exact List.pairwise_iff_getElem.mp hs i j _ hj hlt
  · exact le_refl _

theorem bisectInv_init (c : Ordering) (hpos : 0 < xs.length) : BisectInv f key xs 0 xs.length 0 c :=
  ⟨Nat.zero_le _, Nat.le_refl _, fun _ _ hj => absurd hj (Nat.not_lt_zero _),
    fun _ hj hle => absurd hj (Nat.not_lt_of_le hle), .inl hpos⟩

/-- A probe below the key moves the range past it. -/
theorem BisectInv.probe_gt (hs : xs.Pairwise fun a b => f a ≤ f b) {l u idx : ℕ} {c : Ordering}
    (h : BisectInv f key xs l u idx c) (hlu : l < u) (hmid : (l + u) / 2 < xs.length)
    (hgt : f xs[(l + u) / 2] < key) :
    BisectInv f key xs ((l + u) / 2 + 1) u ((l + u) / 2) .gt := by
  obtain ⟨-, hu, hbelow, habove, -⟩ := h
  refine ⟨by omega, hu, fun j hj hlt => ?_, habove, .inr (.inr ⟨rfl, rfl⟩)⟩
  exact lt_of_le_of_lt (le_of_sorted hs (by omega) hj hmid) hgt

/-- A probe above the key moves the range before it. -/
theorem BisectInv.probe_lt (hs : xs.Pairwise fun a b => f a ≤ f b) {l u idx : ℕ} {c : Ordering}
    (h : BisectInv f key xs l u idx c) (hlu : l < u) (hmid : (l + u) / 2 < xs.length)
    (hlt : key < f xs[(l + u) / 2]) :
    BisectInv f key xs l ((l + u) / 2) ((l + u) / 2) .lt := by
  obtain ⟨-, hu, hbelow, habove, -⟩ := h
  refine ⟨by omega, by omega, hbelow, fun j hj hle => ?_, ?_⟩
  · exact lt_of_lt_of_le hlt (le_of_sorted hs hle hmid hj)
  · by_cases hmid : l < (l + u) / 2
    · exact .inl hmid
    · exact .inr (.inl ⟨rfl, rfl, by omega⟩)

/-- The bisection loop, run with enough fuel from a state of the invariant, either finds the key
or ends at an empty range `[m, m)` of the invariant. -/
theorem bisect_spec (hs : xs.Pairwise fun a b => f a ≤ f b) (fuel l u idx : ℕ) (c : Ordering)
    (h : BisectInv f key xs l u idx c) (hfuel : u - l ≤ fuel) :
    (∀ i, bisect (fun p => compare key (f p)) xs fuel l u idx c = .found i →
      ∃ hi : i < xs.length, f xs[i] = key) ∧
    (∀ i c', bisect (fun p => compare key (f p)) xs fuel l u idx c = .exhausted i c' →
      ∃ m, BisectInv f key xs m m i c') := by
  fun_induction bisect (fun p => compare key (f p)) xs fuel l u idx c with
  | case1 l u idx c =>
    -- no fuel is left only once the range is empty
    refine ⟨fun i hi => (nomatch hi), fun i c' hi => ?_⟩
    cases hi
    have hul : u = l := by have := h.1; omega
    subst hul
    exact ⟨u, h⟩
  | case2 fuel l u idx c hlu mid hnone =>
    -- the probe lies in the list
    have hmid : mid < xs.length := by have := h.2.1; show (l + u) / 2 < _; omega
    rw [List.getElem?_eq_getElem hmid] at hnone
    cases hnone
  | case3 fuel l u idx c hlu mid p hp hcmp ih =>
    have hmid : mid < xs.length := by have := h.2.1; show (l + u) / 2 < _; omega
    obtain ⟨_, hpeq⟩ := List.getElem?_eq_some_iff.mp hp
    rw [← hpeq] at hcmp
    exact ih (h.probe_lt hs hlu hmid (compare_lt_iff_lt.mp hcmp)) (by show (l + u) / 2 - l ≤ fuel; omega)
  | case4 fuel l u idx c hlu mid p hp hcmp ih =>
    have hmid : mid < xs.length := by have := h.2.1; show (l + u) / 2 < _; omega
    obtain ⟨_, hpeq⟩ := List.getElem?_eq_some_iff.mp hp
    rw [← hpeq] at hcmp
    exact ih (h.probe_gt hs hlu hmid (compare_gt_iff_gt.mp hcmp)) (by show u - ((l + u) / 2 + 1) ≤ fuel; omega)
  | case5 fuel l u idx c hlu mid p hp hcmp =>
    obtain ⟨hmid, hpeq⟩ := List.getElem?_eq_some_iff.mp hp
    rw [← hpeq] at hcmp
    refine ⟨fun i hi => ?_, fun i c' hi => (nomatch hi)⟩
    cases hi
    exact ⟨hmid, (compare_eq_iff_eq.mp hcmp).symm⟩
  | case6 fuel l u idx c hlu =>
    refine ⟨fun i hi => (nomatch hi), fun i c' hi => ?_⟩
    cases hi
    have hul : u = l := by have := h.1; omega
    subst hul
    exact ⟨u, h⟩

/-- Insertion sort under a relation that orders by a key function leaves a list that the
bisections can search. -/
theorem pairwise_insertionSort_key {r : β → β → Prop} [DecidableRel r]
    (hr : ∀ a b, r a b ↔ f a ≤ f b) (xs : List β) :
    (xs.insertionSort r).Pairwise fun a b => f a ≤ f b := by
  have : Std.Total r := ⟨fun a b => by rw [hr, hr]; exact le_total _ _⟩
  have : IsTrans β r := ⟨fun a b c hab hbc => (hr a c).2 (le_trans ((hr a b).1 hab) ((hr b c).1 hbc))⟩
  exact (List.pairwise_insertionSort r xs).imp fun h => (hr _ _).1 h

/-- The key is absent when the loop runs out of range, wherever the range ends. -/
theorem BisectInv.ne_of_empty {m i : ℕ} {c : Ordering} (h : BisectInv f key xs m m i c) (j : ℕ)
    (hj : j < xs.length) : f xs[j] ≠ key := by
  by_cases hjm : j < m
  · exact ne_of_lt (h.2.2.1 j hj hjm)
  · exact ne_of_gt (h.2.2.2.1 j hj (Nat.le_of_not_lt hjm))

theorem bsearch_eq_some (hs : xs.Pairwise fun a b => f a ≤ f b) {i : ℕ}
    (h : bsearch (fun p => compare key (f p)) xs = some i) : ∃ hi : i < xs.length, f xs[i] = key := by
  rcases Nat.eq_zero_or_pos xs.length with hzero | hpos
  · rw [List.length_eq_zero_iff.mp hzero] at h
    simp [bsearch, bisect] at h
  · unfold bsearch at h
    split at h
    · next idx hfound =>
      cases h
      exact (bisect_spec hs _ _ _ _ _ (bisectInv_init .eq hpos) (Nat.sub_le _ _)).1 _ hfound
    · cases h

theorem bsearch_eq_none (hs : xs.Pairwise fun a b => f a ≤ f b)
    (h : bsearch (fun p => compare key (f p)) xs = none) (j : ℕ) (hj : j < xs.length) :
    f xs[j] ≠ key := by
  have hpos : 0 < xs.length := Nat.lt_of_le_of_lt (Nat.zero_le j) hj
  unfold bsearch at h
  split at h
  · cases h
  · next idx c hexhausted =>
    obtain ⟨m, hm⟩ :=
      (bisect_spec hs _ _ _ _ _ (bisectInv_init .eq hpos) (Nat.sub_le _ _)).2 _ _ hexhausted
    exact hm.ne_of_empty j hj

/-- bsearch finds an element exactly when one has the key. -/
theorem bsearch_isSome_iff (hs : xs.Pairwise fun a b => f a ≤ f b) :
    (bsearch (fun p => compare key (f p)) xs).isSome ↔ ∃ j, ∃ hj : j < xs.length, f xs[j] = key := by
  constructor
  · intro hsome
    obtain ⟨i, hi⟩ := Option.isSome_iff_exists.mp hsome
    exact ⟨i, bsearch_eq_some hs hi⟩
  · rintro ⟨j, hj, hkey⟩
    cases hb : bsearch (fun p => compare key (f p)) xs with
    | none => exact absurd hkey (bsearch_eq_none hs hb j hj)
    | some i => rfl

/-- The lower-bound search answers an element with the greatest key not above `key`. -/
theorem bsearchLte_eq_some (hs : xs.Pairwise fun a b => f a ≤ f b) {i : ℕ}
    (h : bsearchLte (fun p => compare key (f p)) xs = some i) :
    ∃ hi : i < xs.length, f xs[i] ≤ key ∧ ∀ j (hj : j < xs.length), f xs[j] ≤ key → f xs[j] ≤ f xs[i] := by
  unfold bsearchLte at h
  split at h
  · cases h
  · next hne =>
    have hpos : 0 < xs.length := Nat.pos_of_ne_zero hne
    have hspec := bisect_spec hs _ _ _ _ _ (bisectInv_init .eq hpos : BisectInv f key xs 0 xs.length 0 .eq) (Nat.sub_le _ _)
    split at h
    · next idx hfound =>
      -- a probe found the key itself
      cases h
      obtain ⟨hi, hkey⟩ := hspec.1 _ hfound
      exact ⟨hi, le_of_eq hkey, fun j hj hle => hkey ▸ hle⟩
    · next idx c hexhausted =>
      obtain ⟨m, hbelow', hlen, hbelow, habove, hlast⟩ := hspec.2 _ _ hexhausted
      -- every key not above `key` lies before `m`
      have hbefore : ∀ j (hj : j < xs.length), f xs[j] ≤ key → j < m := fun j hj hle =>
        Nat.lt_of_not_le fun hmj => absurd hle (not_le_of_gt (habove j hj hmj))
      rcases hlast with hmm | ⟨rfl, rfl, hm⟩ | ⟨rfl, rfl⟩
      · exact absurd hmm (Nat.lt_irrefl m)
      · -- the last probe was above the key: the answer is the element before it
        rw [if_pos rfl] at h
        split at h
        · cases h
        · cases h
          refine ⟨by omega, le_of_lt (hbelow _ _ (by omega)), fun j hj hle => ?_⟩
          exact le_of_sorted hs (Nat.le_sub_one_of_lt (hbefore j hj hle)) hj _
      · -- the last probe was below the key: it is the answer
        simp only [reduceCtorEq, if_false] at h
        cases h
        refine ⟨by omega, le_of_lt (hbelow _ _ (Nat.lt_succ_self _)), fun j hj hle => ?_⟩
        exact le_of_sorted hs (Nat.le_of_lt_succ (hbefore j hj hle)) hj _

example : bsearchLte (fun p => compare 5 p) [1, 3, 7] = some 1 := by decide

/-- The lower-bound search answers nothing only when every key is above `key`. -/
theorem bsearchLte_eq_none (hs : xs.Pairwise fun a b => f a ≤ f b)
    (h : bsearchLte (fun p => compare key (f p)) xs = none) (j : ℕ) (hj : j < xs.length) :
    key < f xs[j] := by
  have hpos : 0 < xs.length := Nat.lt_of_le_of_lt (Nat.zero_le j) hj
  unfold bsearchLte at h
  rw [if_neg (Nat.pos_iff_ne_zero.mp hpos)] at h
  have hspec := bisect_spec hs _ _ _ _ _ (bisectInv_init .eq hpos : BisectInv f key xs 0 xs.length 0 .eq) (Nat.sub_le _ _)
  split at h
  · cases h
  · next idx c hexhausted =>
    obtain ⟨m, -, -, -, habove, hlast⟩ := hspec.2 _ _ hexhausted
    rcases hlast with hmm | ⟨rfl, rfl, -⟩ | ⟨rfl, rfl⟩
    · exact absurd hmm (Nat.lt_irrefl m)
    · -- only a first element above the key gives no answer
      rw [if_pos rfl] at h
      split at h
      · next hzero =>
        exact habove j hj (by omega)
      · cases h
    · simp at h

end Sorted

end Rsyslog.Common
