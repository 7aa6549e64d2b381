import Mathlib.Data.List.Nodup

/-!
# Doubly linked lists by their links

A doubly linked list over nodes of a type `α` lives in the links of its nodes, the previous and
the next node of each, and in its first and last node (`DllLinks`). The links hold a list `l`
(`DllLinks.Holds`) when no node occurs twice in `l`, the ends are those of `l`, and the next and
the previous node of every node are its neighbours in `l`, none for a node off the list. A list
so held is a well-formed doubly linked list: the first node has no previous node and the last
no next one, next and previous are inverse to each other, and the walk along the next links
from the first node visits `l` and reaches none.

The two operations a C program performs on such a list, unlinking a node by its own links and
linking a node after the last one, are written as the C statements run, one field write after
the other; on links that hold `l` they hold `l.erase x` and `l ++ [x]`.
-/

namespace Rsyslog.Common

variable {α : Type} [DecidableEq α]

/-- The node after `x` in `l`; none for the last node and for a node off the list. -/
def succIn : List α → α → Option α
  | a :: b :: rest, x => if a = x then some b else succIn (b :: rest) x
  | _, _ => none

/-- The links of a doubly linked list: each node's previous and next node, and the first and
the last node. -/
structure DllLinks (α : Type) where
  prev : α → Option α
  next : α → Option α
  head : Option α
  tail : Option α

/-- No node is linked. -/
def DllLinks.empty : DllLinks α :=
  ⟨fun _ => none, fun _ => none, none, none⟩

/-- The links hold the list `l`, walked from the first node. -/
structure DllLinks.Holds (d : DllLinks α) (l : List α) : Prop where
  nodup : l.Nodup
  head_eq : d.head = l.head?
  tail_eq : d.tail = l.getLast?
  next_eq : ∀ x, d.next x = succIn l x
  prev_eq : ∀ x, d.prev x = succIn l.reverse x

/-- Takes `x` out by its own links, as C does it, each field as the writes leave it: the next
of `x`'s previous node becomes `x`'s next, then the previous of `x`'s next node becomes `x`'s
previous, an end that was `x` moves to its neighbour, and the links of `x` are cleared. -/
def DllLinks.unlink (d : DllLinks α) (x : α) : DllLinks α :=
  -- `if (x->prev != NULL) x->prev->next = x->next;`
  let next := fun y => if d.prev x = some y then d.next x else d.next y
  -- `if (x->next != NULL) x->next->prev = x->prev;`
  let prev := fun y => if next x = some y then d.prev x else d.prev y
  let head := if d.head = some x then next x else d.head
  let tail := if d.tail = some x then prev x else d.tail
  ⟨fun y => if y = x then none else prev y, fun y => if y = x then none else next y, head, tail⟩

/-- Links `x` after the last node, as C does it: `x`'s previous is the old last node, whose next
becomes `x`; `x` is the new last node, and the first one if there was none. -/
def DllLinks.linkLast (d : DllLinks α) (x : α) : DllLinks α :=
  -- `x->prev = tail; if (tail != NULL) tail->next = x;`
  let prev := fun y => if y = x then d.tail else d.prev y
  let next := fun y => if d.tail = some y then some x else d.next y
  ⟨prev, next, if d.head = none then some x else d.head, some x⟩

/-- A node just allocated and zeroed: it has no links of its own. -/
def DllLinks.fresh (d : DllLinks α) (x : α) : DllLinks α :=
  ⟨fun y => if y = x then none else d.prev y, fun y => if y = x then none else d.next y, d.head,
    d.tail⟩

/-- The nodes met following the next links from `p` for at most `n` steps, and where the walk
stands then. -/
def followNext (next : α → Option α) : Option α → ℕ → List α × Option α
  | p, 0 => ([], p)
  | none, _ + 1 => ([], none)
  | some a, n + 1 => ((a :: (followNext next (next a) n).1), (followNext next (next a) n).2)

/-! ## The successor in a list -/

@[simp] theorem succIn_nil (x : α) : succIn [] x = none := rfl

theorem succIn_cons (a : α) (l : List α) (x : α) :
    succIn (a :: l) x = if a = x then l.head? else succIn l x := by
  cases l with
  | nil => simp [succIn]
  | cons b rest => rfl

theorem succIn_of_not_mem {l : List α} {x : α} (hx : x ∉ l) : succIn l x = none := by
  induction l with
  | nil => rfl
  | cons a l ih =>
    rw [List.mem_cons, not_or] at hx
    rw [succIn_cons, if_neg (Ne.symm hx.1), ih hx.2]

/-- In a list without repetitions `b` follows `a` exactly where the list reads `a, b`. -/
theorem succIn_eq_some_iff {l : List α} (hl : l.Nodup) {a b : α} :
    succIn l a = some b ↔ ∃ s t, l = s ++ a :: b :: t := by
  induction l with
  | nil => simp
  | cons c l ih =>
    rw [List.nodup_cons] at hl
    rw [succIn_cons]
    by_cases hca : c = a
    · subst hca
      rw [if_pos rfl]
      constructor
      · intro h
        obtain ⟨t, rfl⟩ : ∃ t, l = b :: t := by
          cases l with
          | nil => simp at h
          | cons d t => exact ⟨t, by simp_all⟩
        exact ⟨[], t, rfl⟩
      · rintro ⟨s, t, hst⟩
        -- `c` cannot occur again further on, so `s` is empty
        cases s with
        | nil => simp_all
        | cons d s =>
          simp only [List.cons_append, List.cons.injEq] at hst
          exact absurd (hst.2 ▸ List.mem_append_right s List.mem_cons_self) hl.1
    · rw [if_neg hca, ih hl.2]
      constructor
      · rintro ⟨s, t, rfl⟩
        exact ⟨c :: s, t, rfl⟩
      · rintro ⟨s, t, hst⟩
        cases s with
        | nil => simp_all
        | cons d s =>
          simp only [List.cons_append, List.cons.injEq] at hst
          exact ⟨s, t, hst.2⟩

/-- Next and previous are inverse to each other. -/
theorem succIn_reverse_eq_some_iff {l : List α} (hl : l.Nodup) {a b : α} :
    succIn l.reverse b = some a ↔ succIn l a = some b := by
  rw [succIn_eq_some_iff (List.nodup_reverse.mpr hl), succIn_eq_some_iff hl]
  constructor
  · rintro ⟨s, t, hst⟩
    refine ⟨t.reverse, s.reverse, ?_⟩
    rw [← List.reverse_reverse l, hst]
    simp
  · rintro ⟨s, t, rfl⟩
    exact ⟨t.reverse, s.reverse, by simp⟩

/-- Appending `x` makes it the successor of the old last node. -/
theorem succIn_append_singleton {l : List α} (hl : l.Nodup) {x : α} (hx : x ∉ l) (y : α) :
    succIn (l ++ [x]) y = if l.getLast? = some y then some x else succIn l y := by
  induction l with
  | nil =>
    simp [succIn]
  | cons a l ih =>
    rw [List.nodup_cons] at hl
    rw [List.mem_cons, not_or] at hx
    rw [List.cons_append, succIn_cons, succIn_cons, ih hl.2 hx.2]
    cases l with
    | nil => simp
    | cons b rest =>
      -- the last node of `a :: b :: rest` is that of `b :: rest`, which is not `a`
      have hlast : (b :: rest).getLast? ≠ some a := by
        intro h
        exact hl.1 (List.mem_of_getLast? h)
      by_cases hay : a = y
      · subst hay
        simp [hlast]
      · simp [hay]

/-- The last node has no successor. -/
theorem succIn_append_singleton_self {l : List α} (hl : l.Nodup) {x : α} (hx : x ∉ l) :
    succIn (l ++ [x]) x = none := by
  rw [succIn_append_singleton hl hx, if_neg (fun h => hx (List.mem_of_getLast? h)),
    succIn_of_not_mem hx]

theorem head?_erase {l : List α} (hl : l.Nodup) (x : α) :
    (l.erase x).head? = if l.head? = some x then succIn l x else l.head? := by
  cases l with
  | nil => simp
  | cons a l =>
    by_cases hax : a = x
    · subst hax
      simp [succIn_cons]
    · simp [hax]

/-- Erasing `x` links the node before it to the node after it. -/
theorem succIn_erase {l : List α} (hl : l.Nodup) (x y : α) :
    succIn (l.erase x) y = if y = x then none else if succIn l y = some x then succIn l x
      else succIn l y := by
  by_cases hyx : y = x
  · rw [if_pos hyx, hyx, succIn_of_not_mem (List.Nodup.not_mem_erase hl)]
  rw [if_neg hyx]
  induction l with
  | nil => simp
  | cons a l ih =>
    rw [List.nodup_cons] at hl
    by_cases hax : a = x
    · -- erasing the first node; `x` does not occur again, so it follows nothing
      subst hax
      have hnot : succIn l y ≠ some a := by
        rw [Ne, succIn_eq_some_iff hl.2]
        rintro ⟨s, t, rfl⟩
        simp at hl
      rw [List.erase_cons_head, succIn_cons, if_neg (Ne.symm hyx), if_neg hnot]
    · have herase : (a :: l).erase x = a :: l.erase x := by simp [hax]
      rw [herase, succIn_cons, succIn_cons, succIn_cons, if_neg hax]
      by_cases hay : a = y
      · rw [if_pos hay, if_pos hay, head?_erase hl.2]
      · rw [if_neg hay, if_neg hay, ih hl.2]

theorem reverse_erase {l : List α} (hl : l.Nodup) (x : α) :
    (l.erase x).reverse = l.reverse.erase x := by
  rw [hl.erase_eq_filter, (List.nodup_reverse.mpr hl).erase_eq_filter, List.filter_reverse]

theorem getLast?_erase {l : List α} (hl : l.Nodup) (x : α) :
    (l.erase x).getLast? = if l.getLast? = some x then succIn l.reverse x else l.getLast? := by
  rw [← List.head?_reverse, reverse_erase hl, head?_erase (List.nodup_reverse.mpr hl),
    List.head?_reverse]

/-! ## The operations on the links -/

theorem unlink_next (d : DllLinks α) (x y : α) :
    (d.unlink x).next y =
      if y = x then none else if d.prev x = some y then d.next x else d.next y :=
  rfl

/-- The read of `x`'s next link after the first write finds it unchanged. -/
theorem unlink_prev (d : DllLinks α) (x y : α) :
    (d.unlink x).prev y =
      if y = x then none else if d.next x = some y then d.prev x else d.prev y := by
  simp only [DllLinks.unlink, ite_self]

theorem unlink_head (d : DllLinks α) (x : α) :
    (d.unlink x).head = if d.head = some x then d.next x else d.head := by
  simp only [DllLinks.unlink, ite_self]

theorem unlink_tail (d : DllLinks α) (x : α) :
    (d.unlink x).tail = if d.tail = some x then d.prev x else d.tail := by
  simp only [DllLinks.unlink, ite_self]

theorem linkLast_next (d : DllLinks α) (x y : α) :
    (d.linkLast x).next y = if d.tail = some y then some x else d.next y :=
  rfl

theorem linkLast_prev (d : DllLinks α) (x y : α) :
    (d.linkLast x).prev y = if y = x then d.tail else d.prev y :=
  rfl

theorem linkLast_head (d : DllLinks α) (x : α) :
    (d.linkLast x).head = if d.head = none then some x else d.head :=
  rfl

theorem linkLast_tail (d : DllLinks α) (x : α) : (d.linkLast x).tail = some x :=
  rfl

/-! ## Links that hold a list -/

namespace DllLinks.Holds

variable {d : DllLinks α} {l : List α}

theorem empty : (DllLinks.empty : DllLinks α).Holds [] :=
  ⟨List.nodup_nil, rfl, rfl, fun _ => rfl, fun _ => rfl⟩

/-- A node is linked, by a link of its own or as the first node, exactly when it is on the
list. -/
theorem linked_iff (h : d.Holds l) (x : α) :
    (d.prev x ≠ none ∨ d.next x ≠ none ∨ d.head = some x) ↔ x ∈ l := by
  constructor
  · intro hlinked
    by_contra hx
    have hxr : x ∉ l.reverse := by simpa using hx
    rw [h.prev_eq, h.next_eq, h.head_eq, succIn_of_not_mem hx, succIn_of_not_mem hxr] at hlinked
    simp only [ne_eq, not_true_eq_false, false_or] at hlinked
    exact hx (List.mem_of_mem_head? hlinked)
  · intro hx
    obtain ⟨s, t, rfl⟩ := List.append_of_mem hx
    cases s with
    | nil => exact .inr (.inr (by rw [h.head_eq]; rfl))
    | cons a s =>
      -- the node before `x` is the last of `a :: s`
      left
      obtain ⟨p, hp⟩ : ∃ p, (a :: s).getLast? = some p := ⟨_, List.getLast?_eq_some_getLast (by simp)⟩
      have hsucc : succIn ((a :: s) ++ x :: t) p = some x := by
        rw [succIn_eq_some_iff h.nodup]
        obtain ⟨s', hs'⟩ := List.getLast?_eq_some_iff.mp hp
        exact ⟨s', t, by rw [hs']; simp⟩
      rw [h.prev_eq, (succIn_reverse_eq_some_iff h.nodup).mpr hsucc]
      simp

/-- Zeroing the links of a node off the list changes nothing: it had none. -/
theorem fresh (h : d.Holds l) {x : α} (hx : x ∉ l) : (d.fresh x).Holds l := by
  have hxr : x ∉ l.reverse := by simpa using hx
  refine ⟨h.nodup, h.head_eq, h.tail_eq, fun y => ?_, fun y => ?_⟩
  · show (if y = x then none else d.next y) = _
    split
    · next hyx => rw [hyx, succIn_of_not_mem hx]
    · exact h.next_eq y
  · show (if y = x then none else d.prev y) = _
    split
    · next hyx => rw [hyx, succIn_of_not_mem hxr]
    · exact h.prev_eq y

theorem unlink (h : d.Holds l) (x : α) : (d.unlink x).Holds (l.erase x) := by
  have hinv := fun a b => succIn_reverse_eq_some_iff (l := l) h.nodup (a := a) (b := b)
  refine ⟨h.nodup.erase x, ?_, ?_, fun y => ?_, fun y => ?_⟩
  · rw [unlink_head, head?_erase h.nodup, h.head_eq, h.next_eq]
  · rw [unlink_tail, getLast?_erase h.nodup, h.tail_eq, h.prev_eq]
  · -- the node before `x` takes `x`'s successor
    rw [unlink_next, succIn_erase h.nodup, h.prev_eq, h.next_eq, h.next_eq]
    simp only [hinv]
  · rw [unlink_prev, reverse_erase h.nodup, succIn_erase (List.nodup_reverse.mpr h.nodup)]
    simp only [h.next_eq, h.prev_eq, hinv]

theorem linkLast (h : d.Holds l) {x : α} (hx : x ∉ l) : (d.linkLast x).Holds (l ++ [x]) := by
  refine ⟨h.nodup.append (List.nodup_singleton x) (by simpa using hx), ?_, ?_, fun y => ?_,
    fun y => ?_⟩
  · rw [linkLast_head, h.head_eq]
    cases l <;> simp
  · rw [linkLast_tail]
    simp
  · rw [linkLast_next, succIn_append_singleton h.nodup hx, h.tail_eq, h.next_eq]
  · rw [linkLast_prev, List.reverse_append, List.reverse_singleton, List.singleton_append,
      succIn_cons, h.tail_eq, h.prev_eq, ← List.head?_reverse]
    by_cases hyx : y = x
    · simp [hyx]
    · simp [hyx, Ne.symm hyx]

/-! ### Well-formedness -/

theorem prev_head (h : d.Holds l) {x : α} (hx : d.head = some x) : d.prev x = none := by
  rw [h.head_eq] at hx
  obtain ⟨t, rfl⟩ : ∃ t, l = x :: t := by
    cases l with
    | nil => simp at hx
    | cons a t => exact ⟨t, by simp_all⟩
  -- read backwards the list ends with `x`
  have hnd := h.nodup
  rw [List.nodup_cons] at hnd
  rw [h.prev_eq, List.reverse_cons, succIn_append_singleton_self (List.nodup_reverse.mpr hnd.2)
    (by simpa using hnd.1)]

theorem next_tail (h : d.Holds l) {x : α} (hx : d.tail = some x) : d.next x = none := by
  rw [h.tail_eq, List.getLast?_eq_some_iff] at hx
  obtain ⟨s, rfl⟩ := hx
  have hnd := h.nodup
  rw [List.nodup_append] at hnd
  rw [h.next_eq, succIn_append_singleton_self hnd.1 (fun hxs => hnd.2.2 x hxs x (by simp) rfl)]

theorem next_eq_some_iff (h : d.Holds l) (a b : α) : d.next a = some b ↔ d.prev b = some a := by
  rw [h.next_eq, h.prev_eq, succIn_reverse_eq_some_iff h.nodup]

/-- Following the next links from a node of the list visits the rest of the list and reaches
none. -/
theorem followNext_suffix (h : d.Holds l) :
    ∀ (s t : List α), l = s ++ t → followNext d.next t.head? t.length = (t, none) := by
  intro s t
  induction t generalizing s with
  | nil => intro _; rfl
  | cons a t ih =>
    intro hst
    have hnext : d.next a = t.head? := by
      rw [h.next_eq]
      cases t with
      | nil =>
        -- `a` is the last node
        have hnd := h.nodup
        rw [hst, List.nodup_append] at hnd
        rw [hst]
        exact succIn_append_singleton_self hnd.1 (fun has => hnd.2.2 a has a (by simp) rfl)
      | cons b t =>
        show succIn l a = some b
        rw [succIn_eq_some_iff h.nodup]
        exact ⟨s, t, hst⟩
    have hrest := ih (s ++ [a]) (by rw [hst]; simp)
    simp only [List.head?_cons, List.length_cons, followNext, hnext, hrest]

/-- The walk from the first node visits the list and ends: the links have no cycle. -/
theorem followNext_head (h : d.Holds l) : followNext d.next d.head l.length = (l, none) := by
  rw [h.head_eq]
  exact h.followNext_suffix [] l rfl

end DllLinks.Holds

end Rsyslog.Common
