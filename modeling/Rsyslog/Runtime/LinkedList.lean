import Mathlib.Data.Finset.Card
import Mathlib.Data.List.Nodup
import Rsyslog.Runtime.Basic

/-!
# The generic linked list (`runtime/linkedlist.c`)

A `linkedList_t` is a singly linked chain of `llElt_t` cells from `pRoot`, with the last cell in
`pLast` and the count of cells in `iNumElts`. The model keeps the cells in a heap of addresses;
`calloc` hands out `brk`, the first address never used, and `free` empties a cell. The element
destructors and the key destructor are the caller's and act on the data only, so they are not
modelled; the key comparison `cmpOp` is a parameter.

A list holds a sequence of keys and data when its chain from `pRoot` visits distinct cells
carrying them and ends in NULL, `pLast` is the last of them and `iNumElts` counts them
(`LinkedList.Holds`). Every operation keeps this and acts on the sequence as its abstract
counterpart says: `llAppend` adds at the end, `llFindAndDelete` takes out the first element
whose key compares equal, `llDestroyRootElt` the first, and `llExecFunc` calls the callback on
each element in order up to the first error and takes out those it answered
`RS_RET_OK_DELETE_LISTENTRY` for (`execSpec`).
-/

namespace Rsyslog

/-- The return codes of the list functions and of their callbacks: a code of the runtime, or
one of the three the list adds. -/
inductive LlRet
  | rs (code : RsRetVal)
  /-- `RS_RET_OK_DELETE_LISTENTRY`, a callback's request to delete its element. -/
  | okDeleteListentry
  /-- `RS_RET_EMPTY_LIST`. -/
  | emptyList
  /-- `RS_RET_END_OF_LINKEDLIST`. -/
  | endOfLinkedlist
  deriving DecidableEq, Repr

section Model

variable {κ δ σ : Type}

/-- A cell of the list (`llElt_t`). -/
structure LlElt (κ δ : Type) where
  pNext : Option ℕ
  pKey : κ
  pData : δ

/-- A heap of list cells, by address; `none` is a cell never allocated or freed. -/
abbrev LlHeap (κ δ : Type) := ℕ → Option (LlElt κ δ)

/-- `p->pNext = next` for the cell at `a`. -/
def heapSetNext (heap : LlHeap κ δ) (a : ℕ) (next : Option ℕ) : LlHeap κ δ :=
  match heap a with
  | some c => Function.update heap a (some { c with pNext := next })
  | none => heap

/-- The `pNext` of the cell at `a`. -/
def heapNext (heap : LlHeap κ δ) (a : ℕ) : Option ℕ :=
  (heap a).bind (·.pNext)

/-- A list (`linkedList_t`) with the heap its cells live in. -/
structure LinkedList (κ δ : Type) where
  iNumElts : ℤ
  pRoot : Option ℕ
  pLast : Option ℕ
  heap : LlHeap κ δ
  brk : ℕ

/-- `llInit`: an empty list. -/
def llInit : LinkedList κ δ :=
  ⟨0, none, none, fun _ => none, 0⟩

/-- `llDestroyElt`: frees the cell and counts one element less. -/
def llDestroyElt (l : LinkedList κ δ) (pElt : ℕ) : LinkedList κ δ :=
  { l with heap := Function.update l.heap pElt none, iNumElts := l.iNumElts - 1 }

/-- `llAppend`: a new cell from `calloc` at the end of the list; when `calloc` fails
(`allocOk` false) the list is unchanged and the result is `RS_RET_OUT_OF_MEMORY`. -/
def llAppend (l : LinkedList κ δ) (pKey : κ) (pData : δ) (allocOk : Bool) :
    LlRet × LinkedList κ δ :=
  if allocOk then
    let pElt := l.brk
    let heap := Function.update l.heap pElt (some ⟨none, pKey, pData⟩)
    let heap := match l.pLast with
      | none => heap
      | some pLast => heapSetNext heap pLast (some pElt)
    let pRoot := if l.pLast = none then some pElt else l.pRoot
    (.rs .ok, ⟨l.iNumElts + 1, pRoot, some pElt, heap, l.brk + 1⟩)
  else
    (.rs .outOfMemory, l)

/-- `llDestroyRootElt`: unlinks and frees the first cell; an empty list answers
`RS_RET_EMPTY_LIST`. -/
def llDestroyRootElt (l : LinkedList κ δ) : LlRet × LinkedList κ δ :=
  match l.pRoot with
  | none => (.emptyList, l)
  | some pPrev =>
    let l := if heapNext l.heap pPrev = none then { l with pLast := none, pRoot := none }
      else { l with pRoot := heapNext l.heap pPrev }
    (.rs .ok, llDestroyElt l pPrev)

/-- `llUnlinkElt`: takes the cell at `pElt` out of the chain, given the cell before it
(`none` for the root). -/
def llUnlinkElt (l : LinkedList κ δ) (pElt : ℕ) (pEltPrev : Option ℕ) : LinkedList κ δ :=
  let l := match pEltPrev with
    | none => { l with pRoot := heapNext l.heap pElt }
    | some prev => { l with heap := heapSetNext l.heap prev (heapNext l.heap pElt) }
  if l.pLast = some pElt then { l with pLast := pEltPrev } else l

/-- `llUnlinkAndDelteElt`. -/
def llUnlinkAndDelteElt (l : LinkedList κ δ) (pElt : ℕ) (pEltPrev : Option ℕ) :
    LinkedList κ δ :=
  llDestroyElt (llUnlinkElt l pElt pEltPrev) pElt

@[simp] theorem llUnlinkElt_heap (l : LinkedList κ δ) (pElt : ℕ) (pEltPrev : Option ℕ) :
    (llUnlinkElt l pElt pEltPrev).heap = match pEltPrev with
      | none => l.heap
      | some prev => heapSetNext l.heap prev (heapNext l.heap pElt) := by
  unfold llUnlinkElt
  cases pEltPrev <;> dsimp only <;> split <;> rfl

@[simp] theorem llUnlinkElt_pRoot (l : LinkedList κ δ) (pElt : ℕ) (pEltPrev : Option ℕ) :
    (llUnlinkElt l pElt pEltPrev).pRoot = match pEltPrev with
      | none => heapNext l.heap pElt
      | some _ => l.pRoot := by
  unfold llUnlinkElt
  cases pEltPrev <;> dsimp only <;> split <;> rfl

@[simp] theorem llUnlinkElt_pLast (l : LinkedList κ δ) (pElt : ℕ) (pEltPrev : Option ℕ) :
    (llUnlinkElt l pElt pEltPrev).pLast = if l.pLast = some pElt then pEltPrev else l.pLast := by
  unfold llUnlinkElt
  cases pEltPrev <;> dsimp only <;> split <;> simp_all

@[simp] theorem llUnlinkElt_iNumElts (l : LinkedList κ δ) (pElt : ℕ) (pEltPrev : Option ℕ) :
    (llUnlinkElt l pElt pEltPrev).iNumElts = l.iNumElts := by
  unfold llUnlinkElt
  cases pEltPrev <;> dsimp only <;> split <;> rfl

@[simp] theorem llUnlinkElt_brk (l : LinkedList κ δ) (pElt : ℕ) (pEltPrev : Option ℕ) :
    (llUnlinkElt l pElt pEltPrev).brk = l.brk := by
  unfold llUnlinkElt
  cases pEltPrev <;> dsimp only <;> split <;> rfl

/-- The loop of `llFindElt`: from `pElt`, with `pEltPrev` the cell before it, the first cell
whose key compares equal to `pKey`, and the cell before that one. Every round moves one cell on,
so `fuel` bounds the rounds. -/
def llFindEltLoop (cmpOp : κ → κ → ℤ) (heap : LlHeap κ δ) (pKey : κ) :
    ℕ → Option ℕ → Option ℕ → Option (ℕ × Option ℕ)
  | 0, _, _ => none
  | _ + 1, none, _ => none
  | fuel + 1, some pElt, pEltPrev =>
    match heap pElt with
    | none => none
    | some c =>
      if cmpOp pKey c.pKey = 0 then some (pElt, pEltPrev)
      else llFindEltLoop cmpOp heap pKey fuel c.pNext (some pElt)

/-- `llFindElt`: the loop from the root, with as many rounds as cells were ever allocated. -/
def llFindElt (cmpOp : κ → κ → ℤ) (l : LinkedList κ δ) (pKey : κ) : Option (ℕ × Option ℕ) :=
  llFindEltLoop cmpOp l.heap pKey (l.brk + 1) l.pRoot none

/-- `llFindAndDelete`: deletes the first element whose key compares equal to `pKey`, or answers
`RS_RET_NOT_FOUND`. -/
def llFindAndDelete (cmpOp : κ → κ → ℤ) (l : LinkedList κ δ) (pKey : κ) :
    LlRet × LinkedList κ δ :=
  match llFindElt cmpOp l pKey with
  | none => (.rs .notFound, l)
  | some (pElt, pEltPrev) => (.rs .ok, llUnlinkAndDelteElt l pElt pEltPrev)

/-- `llGetNextElt`: the cell after the cookie, the root for a NULL cookie. -/
def llGetNextElt (l : LinkedList κ δ) : Option ℕ → Option ℕ
  | none => l.pRoot
  | some c => heapNext l.heap c

/-- The loop of `llExecFunc`, with the cookie `llCookie`, the cell before it `llCookiePrev`, the
callback's parameter and `iRet`. The callback is a function of an element's data and of the
parameter it shares with the caller. -/
def llExecFuncLoop (pFunc : δ → σ → LlRet × σ) :
    ℕ → LinkedList κ δ → Option ℕ → Option ℕ → σ → LlRet → LlRet × LinkedList κ δ × σ
  | 0, l, _, _, pParam, iRet => (iRet, l, pParam)
  | fuel + 1, l, llCookie, llCookiePrev, pParam, iRet =>
    match llGetNextElt l llCookie with
    | none => (iRet, l, pParam)
    | some pElt =>
      match l.heap pElt with
      | none => (iRet, l, pParam)
      | some c =>
        let r := pFunc c.pData pParam
        if r.1 = .okDeleteListentry then
          -- the cookie falls back to the cell before the deleted one
          llExecFuncLoop pFunc fuel (llUnlinkAndDelteElt l pElt llCookiePrev) llCookiePrev
            llCookiePrev r.2 (.rs .ok)
        else if r.1 ≠ .rs .ok then (r.1, l, r.2)
        else llExecFuncLoop pFunc fuel l (some pElt) (some pElt) r.2 r.1

/-- `llExecFunc`: the callback on each element in turn, until it fails. -/
def llExecFunc (pFunc : δ → σ → LlRet × σ) (l : LinkedList κ δ) (pParam : σ) :
    LlRet × LinkedList κ δ × σ :=
  llExecFuncLoop pFunc (l.brk + 1) l none none pParam (.rs .ok)

end Model

/-! ## The sequence a list holds -/

section Representation

variable {κ δ σ : Type}

/-- The chain from `p` visits the cells `cells`, each at its address with its key and data,
and ends in NULL. -/
inductive ListRep (heap : LlHeap κ δ) : Option ℕ → List (ℕ × κ × δ) → Prop
  | nil : ListRep heap none []
  | cons {a : ℕ} {next : Option ℕ} {k : κ} {d : δ} {rest : List (ℕ × κ × δ)} :
      heap a = some ⟨next, k, d⟩ → ListRep heap next rest →
        ListRep heap (some a) ((a, k, d) :: rest)

/-- A list holds the cells `cells`: its chain from `pRoot` visits them, each once, `pLast` is
the last of them (NULL for none), `iNumElts` counts them and each lies below `brk`. -/
structure LinkedList.Holds (l : LinkedList κ δ) (cells : List (ℕ × κ × δ)) : Prop where
  rep : ListRep l.heap l.pRoot cells
  nodup : (cells.map Prod.fst).Nodup
  last : l.pLast = cells.getLast?.map Prod.fst
  count : l.iNumElts = cells.length
  below : ∀ x ∈ cells, x.1 < l.brk

theorem heapSetNext_of_ne (heap : LlHeap κ δ) {a b : ℕ} (h : b ≠ a) (next : Option ℕ) :
    heapSetNext heap a next b = heap b := by
  unfold heapSetNext
  cases heap a with
  | some c => exact Function.update_of_ne h _ _
  | none => rfl

theorem ListRep.nil_iff {heap : LlHeap κ δ} {p : Option ℕ} : ListRep heap p [] ↔ p = none := by
  constructor
  · intro h
    cases h
    rfl
  · rintro rfl
    exact .nil

theorem ListRep.cons_iff {heap : LlHeap κ δ} {p : Option ℕ} {x : ℕ × κ × δ}
    {rest : List (ℕ × κ × δ)} :
    ListRep heap p (x :: rest) ↔
      p = some x.1 ∧ ∃ next, heap x.1 = some ⟨next, x.2.1, x.2.2⟩ ∧ ListRep heap next rest := by
  constructor
  · intro h
    cases h with
    | cons ha hrest => exact ⟨rfl, _, ha, hrest⟩
  · rintro ⟨rfl, next, ha, hrest⟩
    exact .cons ha hrest

/-- A store into a cell the chain does not visit keeps the chain. -/
theorem ListRep.update_of_not_mem {heap : LlHeap κ δ} {p : Option ℕ}
    {cells : List (ℕ × κ × δ)} (h : ListRep heap p cells) {a : ℕ}
    (ha : a ∉ cells.map Prod.fst) (c : Option (LlElt κ δ)) :
    ListRep (Function.update heap a c) p cells := by
  induction h with
  | nil => exact .nil
  | @cons b next k d rest hb _ ih =>
    simp only [List.map_cons, List.mem_cons, not_or] at ha
    exact .cons (by rw [Function.update_of_ne (Ne.symm ha.1)]; exact hb) (ih ha.2)

theorem ListRep.setNext_of_not_mem {heap : LlHeap κ δ} {p : Option ℕ}
    {cells : List (ℕ × κ × δ)} (h : ListRep heap p cells) {a : ℕ}
    (ha : a ∉ cells.map Prod.fst) (next : Option ℕ) :
    ListRep (heapSetNext heap a next) p cells := by
  unfold heapSetNext
  split
  · exact h.update_of_not_mem ha _
  · exact h

/-- Pointing the last of the cells `pre` at a chain `q` of the cells `post` links `post` after
`pre`. This is the store of both `llAppend` and `llUnlinkElt`. -/
theorem ListRep.relink {heap : LlHeap κ δ} {post : List (ℕ × κ × δ)} {q : Option ℕ}
    (hq : ListRep heap q post) :
    ∀ {pre rest : List (ℕ × κ × δ)} {p : Option ℕ} (hpre : pre ≠ []),
      ListRep heap p (pre ++ rest) → (pre.map Prod.fst).Nodup →
      (∀ x ∈ pre, x.1 ∉ post.map Prod.fst) →
      ListRep (heapSetNext heap (pre.getLast hpre).1 q) p (pre ++ post)
  | [x], rest, p, _, h, _, hdisj => by
    obtain ⟨rfl, next, hx, _⟩ := ListRep.cons_iff.mp h
    have hq' := hq.update_of_not_mem (hdisj x (List.mem_singleton_self x))
      (some ⟨q, x.2.1, x.2.2⟩)
    simp only [List.getLast_singleton, List.singleton_append, heapSetNext, hx]
    exact .cons (Function.update_self _ _ _) hq'
  | x :: y :: pre, rest, p, _, h, hnd, hdisj => by
    obtain ⟨rfl, next, hx, hrest⟩ := ListRep.cons_iff.mp h
    have hlast : ((y :: pre).getLast (List.cons_ne_nil _ _)).1 ≠ x.1 := by
      intro heq
      have hmem : ((y :: pre).getLast (List.cons_ne_nil _ _)).1 ∈ (y :: pre).map Prod.fst :=
        List.mem_map_of_mem (List.getLast_mem _)
      rw [heq] at hmem
      exact (List.nodup_cons.mp hnd).1 hmem
    have ih := ListRep.relink hq (List.cons_ne_nil y pre) hrest (List.nodup_cons.mp hnd).2
      fun z hz => hdisj z (List.mem_cons_of_mem _ hz)
    have hx' : heapSetNext heap ((y :: pre).getLast (List.cons_ne_nil _ _)).1 q x.1 =
        some ⟨next, x.2.1, x.2.2⟩ := by
      rw [heapSetNext_of_ne _ (Ne.symm hlast)]
      exact hx
    rw [List.getLast_cons (List.cons_ne_nil y pre)]
    exact .cons hx' ih

/-- The chain through the cells `pre ++ x :: post` reaches `x` and goes on through `post`. -/
theorem ListRep.split {heap : LlHeap κ δ} {x : ℕ × κ × δ} {post : List (ℕ × κ × δ)} :
    ∀ {pre : List (ℕ × κ × δ)} {p : Option ℕ}, ListRep heap p (pre ++ x :: post) →
      ∃ next, heap x.1 = some ⟨next, x.2.1, x.2.2⟩ ∧ ListRep heap next post
  | [], _, h => (ListRep.cons_iff.mp h).2
  | _ :: pre, _, h => by
    obtain ⟨_, _, _, hrest⟩ := ListRep.cons_iff.mp h
    exact ListRep.split hrest

theorem holds_llInit : (llInit : LinkedList κ δ).Holds [] where
  rep := .nil
  nodup := List.nodup_nil
  last := rfl
  count := rfl
  below := by simp

/-- `llAppend` with a successful `calloc` adds an element at the end. -/
theorem holds_llAppend {l : LinkedList κ δ} {cells : List (ℕ × κ × δ)}
    (h : l.Holds cells) (pKey : κ) (pData : δ) :
    (llAppend l pKey pData true).2.Holds (cells ++ [(l.brk, pKey, pData)]) := by
  have hfresh : l.brk ∉ cells.map Prod.fst := by
    simp only [List.mem_map, not_exists, not_and]
    intro x hx heq
    exact absurd (heq ▸ h.below x hx) (Nat.lt_irrefl _)
  have hrep := h.rep.update_of_not_mem hfresh (some ⟨none, pKey, pData⟩)
  have hnew : ListRep (Function.update l.heap l.brk (some ⟨none, pKey, pData⟩)) (some l.brk)
      [(l.brk, pKey, pData)] := .cons (Function.update_self _ _ _) .nil
  refine ⟨?_, ?_, ?_, ?_, ?_⟩
  · -- the new cell becomes the root of an empty list, or follows the old last cell
    rcases List.eq_nil_or_concat' cells with rfl | ⟨pre, y, rfl⟩
    · have hroot : l.pRoot = none := ListRep.nil_iff.mp h.rep
      have hlast : l.pLast = none := h.last
      simpa [llAppend, hlast] using hnew
    · have hlast : l.pLast = some y.1 := by simpa using h.last
      have hrel := hnew.relink (by simp)
        (by simpa using hrep : ListRep _ l.pRoot ((pre ++ [y]) ++ []))
        (by simpa using h.nodup) (by
          intro z hz
          simp only [List.map_cons, List.map_nil, List.mem_singleton]
          intro heq
          apply hfresh
          rw [← heq]
          exact List.mem_map_of_mem hz)
      simpa [llAppend, hlast] using hrel
  · have hne : ∀ a (k : κ) (d : δ), (a, k, d) ∈ cells → a ≠ l.brk := by
      intro a k d hmem heq
      apply hfresh
      rw [← heq]
      exact List.mem_map_of_mem (f := Prod.fst) hmem
    simpa [List.nodup_append] using ⟨h.nodup, hne⟩
  · simp [llAppend]
  · simp [llAppend, h.count]
  · intro x hx
    simp only [List.mem_append, List.mem_singleton] at hx
    rcases hx with hx | rfl
    · exact Nat.lt_succ_of_lt (h.below x hx)
    · exact Nat.lt_succ_self _

/-- `llUnlinkElt` keeps the last pointer right: it moves to the cell before `x` exactly when `x`
was the last cell. -/
theorem llUnlinkElt_pLast_of_holds {l : LinkedList κ δ} {pre post : List (ℕ × κ × δ)}
    {x : ℕ × κ × δ} (h : l.Holds (pre ++ x :: post)) :
    (llUnlinkElt l x.1 (pre.getLast?.map Prod.fst)).pLast = (pre ++ post).getLast?.map Prod.fst := by
  have hlast := h.last
  have hxpost : x.1 ∉ post.map Prod.fst := by
    have hnd := h.nodup
    simp only [List.map_append, List.map_cons, List.nodup_append, List.nodup_cons] at hnd
    exact hnd.2.1.1
  rw [llUnlinkElt_pLast]
  rcases List.eq_nil_or_concat' post with rfl | ⟨post', y, rfl⟩
  · simp [hlast]
  · have hy : y.1 ≠ x.1 := fun heq => hxpost (by simp [← heq])
    have hlast' : l.pLast = some y.1 := by
      rw [hlast, ← List.cons_append, ← List.append_assoc, List.getLast?_concat]
      rfl
    rw [if_neg (by rw [hlast']; simpa using hy), hlast', ← List.append_assoc,
      List.getLast?_concat]
    rfl

/-- `llUnlinkAndDelteElt`, given the cell before `x`, takes `x` out of the list. -/
theorem holds_llUnlinkAndDelteElt {l : LinkedList κ δ} {pre post : List (ℕ × κ × δ)}
    {x : ℕ × κ × δ} (h : l.Holds (pre ++ x :: post)) :
    (llUnlinkAndDelteElt l x.1 (pre.getLast?.map Prod.fst)).Holds (pre ++ post) := by
  obtain ⟨next, hx, hpost⟩ := h.rep.split
  have hnext : heapNext l.heap x.1 = next := by simp [heapNext, hx]
  have hnd := h.nodup
  simp only [List.map_append, List.map_cons, List.nodup_append, List.nodup_cons] at hnd
  have hxout : x.1 ∉ (pre ++ post).map Prod.fst := by
    simp only [List.map_append, List.mem_append, not_or]
    exact ⟨fun hmem => hnd.2.2 _ hmem _ List.mem_cons_self rfl, hnd.2.1.1⟩
  -- the chain without `x`, before the cell of `x` is freed
  have hrep : ListRep (llUnlinkElt l x.1 (pre.getLast?.map Prod.fst)).heap
      (llUnlinkElt l x.1 (pre.getLast?.map Prod.fst)).pRoot (pre ++ post) := by
    rcases List.eq_nil_or_concat' pre with rfl | ⟨pre', y, rfl⟩
    · have hroot : l.pRoot = some x.1 := (ListRep.cons_iff.mp h.rep).1
      simpa [hnext] using hpost
    · have hrel := hpost.relink (by simp) h.rep
        hnd.1 (fun z hz hzpost => hnd.2.2 _ (List.mem_map_of_mem hz) _
          (List.mem_cons_of_mem _ hzpost) rfl)
      simpa [hnext] using hrel
  refine ⟨?_, ?_, ?_, ?_, ?_⟩
  · exact hrep.update_of_not_mem hxout none
  · simp only [List.map_append, List.nodup_append]
    exact ⟨hnd.1, hnd.2.1.2, fun a ha b hb => hnd.2.2 a ha b (List.mem_cons_of_mem _ hb)⟩
  · exact llUnlinkElt_pLast_of_holds h
  · simp only [llUnlinkAndDelteElt, llDestroyElt, llUnlinkElt_iNumElts, h.count,
      List.length_append, List.length_cons]
    omega
  · intro z hz
    simp only [llUnlinkAndDelteElt, llDestroyElt, llUnlinkElt_brk]
    exact h.below z (by simp only [List.mem_append, List.mem_cons] at hz ⊢; tauto)

/-- On a list that holds cells, `llDestroyRootElt` is `llUnlinkAndDelteElt` at the root. -/
theorem llDestroyRootElt_eq_unlink {l : LinkedList κ δ} {x : ℕ × κ × δ}
    {post : List (ℕ × κ × δ)} (h : l.Holds (x :: post)) :
    llDestroyRootElt l = (.rs .ok, llUnlinkAndDelteElt l x.1 none) := by
  obtain ⟨hroot, next, hx, hpost⟩ := ListRep.cons_iff.mp h.rep
  have hnext : heapNext l.heap x.1 = next := by simp [heapNext, hx]
  have hlast := h.last
  unfold llDestroyRootElt llUnlinkAndDelteElt llUnlinkElt
  rw [hroot]
  simp only [hnext]
  cases post with
  | nil =>
    obtain rfl := ListRep.nil_iff.mp hpost
    simp [hlast]
  | cons y post =>
    -- the root has a successor, so it is not the last cell
    obtain ⟨rfl, -⟩ := ListRep.cons_iff.mp hpost
    have hnd := h.nodup
    have hne : l.pLast ≠ some x.1 := by
      rw [hlast, List.getLast?_cons_cons]
      intro heq
      have hmem : x.1 ∈ (y :: post).map Prod.fst := by
        obtain ⟨z, hz, hzx⟩ := Option.map_eq_some_iff.mp heq
        rw [← hzx]
        exact List.mem_map_of_mem (List.mem_of_getLast? hz)
      exact (List.nodup_cons.mp (by simpa using hnd)).1 hmem
    simp [hne]

/-- `llDestroyRootElt` takes the first element out of a list that has one. -/
theorem holds_llDestroyRootElt {l : LinkedList κ δ} {x : ℕ × κ × δ}
    {post : List (ℕ × κ × δ)} (h : l.Holds (x :: post)) :
    (llDestroyRootElt l).2.Holds post := by
  rw [llDestroyRootElt_eq_unlink h]
  exact holds_llUnlinkAndDelteElt (show l.Holds ([] ++ x :: post) from h)

theorem ListRep.eq_head {heap : LlHeap κ δ} {p : Option ℕ} {cells : List (ℕ × κ × δ)}
    (h : ListRep heap p cells) : p = cells.head?.map Prod.fst := by
  cases h <;> rfl

/-- A list never holds more cells than were allocated. -/
theorem LinkedList.Holds.length_le {l : LinkedList κ δ} {cells : List (ℕ × κ × δ)}
    (h : l.Holds cells) : cells.length ≤ l.brk := by
  have hsub : (cells.map Prod.fst).toFinset ⊆ Finset.range l.brk := by
    intro a ha
    obtain ⟨x, hx, rfl⟩ := List.mem_map.mp (List.mem_toFinset.mp ha)
    exact Finset.mem_range.mpr (h.below x hx)
  calc cells.length = (cells.map Prod.fst).toFinset.card := by
        rw [List.toFinset_card_of_nodup h.nodup, List.length_map]
    _ ≤ (Finset.range l.brk).card := Finset.card_le_card hsub
    _ = l.brk := Finset.card_range _

/-! ### Finding a key -/

/-- The first of the cells whose key compares equal to `pKey`, with the cell before it; `prev`
stands before the first cell. -/
def findFirstCell (cmpOp : κ → κ → ℤ) (pKey : κ) :
    List (ℕ × κ × δ) → Option ℕ → Option (ℕ × Option ℕ)
  | [], _ => none
  | x :: xs, prev => if cmpOp pKey x.2.1 = 0 then some (x.1, prev)
    else findFirstCell cmpOp pKey xs (some x.1)

/-- With a round for each cell and one more, the loop of `llFindElt` walks the chain to its
first match. -/
theorem llFindEltLoop_eq {cmpOp : κ → κ → ℤ} {heap : LlHeap κ δ} {pKey : κ} {p : Option ℕ}
    {cells : List (ℕ × κ × δ)} (h : ListRep heap p cells) :
    ∀ {fuel : ℕ} (prev : Option ℕ), cells.length < fuel →
      llFindEltLoop cmpOp heap pKey fuel p prev = findFirstCell cmpOp pKey cells prev := by
  induction h with
  | nil =>
    intro fuel prev hfuel
    obtain ⟨fuel, rfl⟩ := Nat.exists_eq_add_of_lt hfuel
    rfl
  | @cons a next k d rest ha _ ih =>
    intro fuel prev hfuel
    obtain ⟨fuel, rfl⟩ := Nat.exists_eq_add_of_lt (Nat.lt_of_le_of_lt (Nat.zero_le _) hfuel)
    simp only [llFindEltLoop, ha, findFirstCell]
    split
    · rfl
    · exact ih (some a) (by simp at hfuel; omega)

theorem findFirstCell_eq_none {cmpOp : κ → κ → ℤ} {pKey : κ} :
    ∀ {cells : List (ℕ × κ × δ)} {prev : Option ℕ}, findFirstCell cmpOp pKey cells prev = none →
      ∀ x ∈ cells, cmpOp pKey x.2.1 ≠ 0
  | [], _, _ => by simp
  | x :: xs, prev, h => by
    simp only [findFirstCell] at h
    split at h
    · cases h
    · intro y hy
      rcases List.mem_cons.mp hy with rfl | hy
      · assumption
      · exact findFirstCell_eq_none h y hy

theorem findFirstCell_eq_some {cmpOp : κ → κ → ℤ} {pKey : κ} {r : ℕ × Option ℕ} :
    ∀ {cells : List (ℕ × κ × δ)} {prev : Option ℕ}, findFirstCell cmpOp pKey cells prev = some r →
      ∃ pre x post, cells = pre ++ x :: post ∧ (∀ y ∈ pre, cmpOp pKey y.2.1 ≠ 0) ∧
        cmpOp pKey x.2.1 = 0 ∧ r = (x.1, (pre.getLast?.map Prod.fst).or prev)
  | [], _, h => by cases h
  | x :: xs, prev, h => by
    simp only [findFirstCell] at h
    split at h
    · cases h
      exact ⟨[], x, xs, rfl, by simp, by assumption, rfl⟩
    · obtain ⟨pre, y, post, rfl, hpre, hy, rfl⟩ := findFirstCell_eq_some h
      refine ⟨x :: pre, y, post, rfl, ?_, hy, ?_⟩
      · intro z hz
        rcases List.mem_cons.mp hz with rfl | hz
        · assumption
        · exact hpre z hz
      · cases pre <;> simp [List.getLast?_cons]

/-- `llFindAndDelete` takes out of the sequence the first element whose key compares equal. -/
theorem holds_llFindAndDelete (cmpOp : κ → κ → ℤ) {l : LinkedList κ δ}
    {cells : List (ℕ × κ × δ)} (h : l.Holds cells) (pKey : κ) :
    ∃ cells', (llFindAndDelete cmpOp l pKey).2.Holds cells' ∧
      cells'.map Prod.snd = (cells.map Prod.snd).eraseP fun e => cmpOp pKey e.1 = 0 := by
  have hfind : llFindElt cmpOp l pKey = findFirstCell cmpOp pKey cells none :=
    llFindEltLoop_eq h.rep none (Nat.lt_succ_of_le h.length_le)
  unfold llFindAndDelete
  rw [hfind]
  split
  · rename_i hnone
    refine ⟨cells, h, ?_⟩
    rw [List.eraseP_of_forall_not]
    intro e he
    obtain ⟨x, hx, rfl⟩ := List.mem_map.mp he
    simpa using findFirstCell_eq_none hnone x hx
  · rename_i pElt pEltPrev hsome
    obtain ⟨pre, x, post, rfl, hpre, hx, hr⟩ := findFirstCell_eq_some hsome
    cases hr
    refine ⟨pre ++ post, by simpa using holds_llUnlinkAndDelteElt h, ?_⟩
    rw [List.map_append, List.map_append, List.map_cons, List.eraseP_append_right,
      List.eraseP_cons_of_pos (by simpa using hx)]
    intro e he
    obtain ⟨y, hy, rfl⟩ := List.mem_map.mp he
    simpa using hpre y hy

/-! ### Walking the list with a callback -/

/-- What `llExecFunc` does to the sequence a list holds: the callback runs on each element in
order, an element it answers `RS_RET_OK_DELETE_LISTENTRY` for is dropped, and the first answer
that is neither that nor `RS_RET_OK` ends the walk with the rest kept. The result is the new
sequence, the callback's parameter and the return code. -/
def execSpec (pFunc : δ → σ → LlRet × σ) :
    List (κ × δ) → σ → LlRet → List (κ × δ) × σ × LlRet
  | [], pParam, iRet => ([], pParam, iRet)
  | e :: es, pParam, _ =>
    let r := pFunc e.2 pParam
    if r.1 = .okDeleteListentry then execSpec pFunc es r.2 (.rs .ok)
    else if r.1 ≠ .rs .ok then (e :: es, r.2, r.1)
    else
      let t := execSpec pFunc es r.2 r.1
      (e :: t.1, t.2)

/-- The cookie of a walk that has kept the cells `kept` is the last of them, and the next cell
is the first of the rest. -/
theorem llGetNextElt_of_holds {l : LinkedList κ δ} {kept rest : List (ℕ × κ × δ)}
    (h : l.Holds (kept ++ rest)) :
    llGetNextElt l (kept.getLast?.map Prod.fst) = rest.head?.map Prod.fst := by
  rcases List.eq_nil_or_concat' kept with rfl | ⟨pre, y, rfl⟩
  · exact h.rep.eq_head
  · have hsplit : ListRep l.heap l.pRoot (pre ++ y :: rest) := by simpa using h.rep
    obtain ⟨next, hy, hrest⟩ := hsplit.split
    simp [llGetNextElt, heapNext, hy, hrest.eq_head]

/-- The loop of `llExecFunc` refines `execSpec`: from a cookie at the last of the cells `kept`,
with a round for each cell of the rest and one more, the loop leaves `kept` and a rest holding
what `execSpec` makes of the old rest, with the parameter and return code `execSpec` gives. The
induction is on the rest; a deleted cell leaves the cookie where it was, a kept one moves it on. -/
theorem llExecFuncLoop_spec (pFunc : δ → σ → LlRet × σ) :
    ∀ (rest : List (ℕ × κ × δ)) {kept : List (ℕ × κ × δ)} {l : LinkedList κ δ} {fuel : ℕ}
      (pParam : σ) (iRet : LlRet), l.Holds (kept ++ rest) → rest.length < fuel →
      ∃ rest', (llExecFuncLoop pFunc fuel l (kept.getLast?.map Prod.fst)
          (kept.getLast?.map Prod.fst) pParam iRet).2.1.Holds (kept ++ rest') ∧
        (rest'.map Prod.snd,
          (llExecFuncLoop pFunc fuel l (kept.getLast?.map Prod.fst)
            (kept.getLast?.map Prod.fst) pParam iRet).2.2,
          (llExecFuncLoop pFunc fuel l (kept.getLast?.map Prod.fst)
            (kept.getLast?.map Prod.fst) pParam iRet).1) =
          execSpec pFunc (rest.map Prod.snd) pParam iRet
  | [], kept, l, fuel + 1, pParam, iRet, h, _ => by
    have hnext := llGetNextElt_of_holds h
    simp only [List.head?_nil, Option.map_none] at hnext
    have hrun : llExecFuncLoop pFunc (fuel + 1) l (kept.getLast?.map Prod.fst)
        (kept.getLast?.map Prod.fst) pParam iRet = (iRet, l, pParam) := by
      simp [llExecFuncLoop, hnext]
    rw [hrun]
    exact ⟨[], h, rfl⟩
  | x :: rest, kept, l, fuel + 1, pParam, iRet, h, hfuel => by
    have hfuel' : rest.length < fuel := by simpa using hfuel
    have hnext := llGetNextElt_of_holds h
    obtain ⟨next, hx, -⟩ := h.rep.split
    simp only [List.head?_cons, Option.map_some] at hnext
    simp only [llExecFuncLoop, hnext, hx, List.map_cons, execSpec]
    split
    · -- the cell is deleted and the cookie stays on the last kept cell
      exact llExecFuncLoop_spec pFunc rest _ _ (holds_llUnlinkAndDelteElt h) hfuel'
    · split
      · exact ⟨x :: rest, h, rfl⟩
      · -- the cell is kept and becomes the cookie
        have hkept : l.Holds ((kept ++ [x]) ++ rest) := by simpa using h
        obtain ⟨rest', hrest', heq⟩ := llExecFuncLoop_spec pFunc rest _ _ hkept hfuel'
        simp only [List.getLast?_concat, Option.map_some] at hrest' heq
        refine ⟨x :: rest', by simpa using hrest', ?_⟩
        rw [List.map_cons, ← heq]

/-- `llExecFunc` on a list that holds `cells` leaves a list holding what `execSpec` makes of
them, with the parameter and return code `execSpec` gives. -/
theorem holds_llExecFunc (pFunc : δ → σ → LlRet × σ) {l : LinkedList κ δ}
    {cells : List (ℕ × κ × δ)} (h : l.Holds cells) (pParam : σ) :
    ∃ cells', (llExecFunc pFunc l pParam).2.1.Holds cells' ∧
      (cells'.map Prod.snd, (llExecFunc pFunc l pParam).2.2, (llExecFunc pFunc l pParam).1) =
        execSpec pFunc (cells.map Prod.snd) pParam (.rs .ok) :=
  llExecFuncLoop_spec pFunc cells pParam (.rs .ok) (show l.Holds ([] ++ cells) from h)
    (Nat.lt_succ_of_le h.length_le)

theorem LinkedList.Holds.pLast_eq_none_iff {l : LinkedList κ δ} {cells : List (ℕ × κ × δ)}
    (h : l.Holds cells) : l.pLast = none ↔ cells = [] := by
  rw [h.last, Option.map_eq_none_iff, List.getLast?_eq_none_iff]

/-- On an empty list `llDestroyRootElt` answers `RS_RET_EMPTY_LIST` and changes nothing. -/
theorem llDestroyRootElt_of_holds_nil {l : LinkedList κ δ} (h : l.Holds []) :
    llDestroyRootElt l = (.emptyList, l) := by
  unfold llDestroyRootElt
  rw [ListRep.nil_iff.mp h.rep]

/-! ## Runs of calls -/

/-- A call on a list: the `calloc` outcome of an append, and the callback and parameter of a
walk, are part of the call. -/
inductive LlCall (κ δ σ : Type)
  | append (pKey : κ) (pData : δ) (allocOk : Bool)
  | findAndDelete (pKey : κ)
  | destroyRootElt
  | execFunc (pFunc : δ → σ → LlRet × σ) (pParam : σ)

/-- The list after a call. -/
def llCall (cmpOp : κ → κ → ℤ) (l : LinkedList κ δ) : LlCall κ δ σ → LinkedList κ δ
  | .append pKey pData allocOk => (llAppend l pKey pData allocOk).2
  | .findAndDelete pKey => (llFindAndDelete cmpOp l pKey).2
  | .destroyRootElt => (llDestroyRootElt l).2
  | .execFunc pFunc pParam => (llExecFunc pFunc l pParam).2.1

/-- The sequence after a call, as the abstract list sees it. -/
def llCallSpec (cmpOp : κ → κ → ℤ) (s : List (κ × δ)) : LlCall κ δ σ → List (κ × δ)
  | .append pKey pData allocOk => if allocOk then s ++ [(pKey, pData)] else s
  | .findAndDelete pKey => s.eraseP fun e => cmpOp pKey e.1 = 0
  | .destroyRootElt => s.tail
  | .execFunc pFunc pParam => (execSpec pFunc s pParam (.rs .ok)).1

/-- The list a run of calls leaves, from `llInit`. -/
def llRun (cmpOp : κ → κ → ℤ) (calls : List (LlCall κ δ σ)) : LinkedList κ δ :=
  calls.foldl (llCall cmpOp) llInit

/-- One call keeps a list holding its cells, and acts on their keys and data as the abstract
call does. -/
theorem holds_llCall (cmpOp : κ → κ → ℤ) {l : LinkedList κ δ} {cells : List (ℕ × κ × δ)}
    (h : l.Holds cells) (c : LlCall κ δ σ) :
    ∃ cells', (llCall cmpOp l c).Holds cells' ∧
      cells'.map Prod.snd = llCallSpec cmpOp (cells.map Prod.snd) c := by
  cases c with
  | append pKey pData allocOk =>
    cases allocOk with
    | true => exact ⟨_, holds_llAppend h pKey pData, by simp [llCallSpec]⟩
    | false => exact ⟨cells, h, rfl⟩
  | findAndDelete pKey => exact holds_llFindAndDelete cmpOp h pKey
  | destroyRootElt =>
    cases cells with
    | nil => exact ⟨[], by simpa [llCall, llDestroyRootElt_of_holds_nil h] using h, rfl⟩
    | cons x post => exact ⟨post, holds_llDestroyRootElt h, rfl⟩
  | execFunc pFunc pParam =>
    obtain ⟨cells', hcells', heq⟩ := holds_llExecFunc pFunc h pParam
    exact ⟨cells', hcells', by simp only [llCallSpec, ← heq]⟩

/-- A run of calls keeps a list holding its cells, and acts on their keys and data as the
abstract run does; the induction is on the calls, from any list. -/
theorem holds_llCalls (cmpOp : κ → κ → ℤ) :
    ∀ (calls : List (LlCall κ δ σ)) {l : LinkedList κ δ} {cells : List (ℕ × κ × δ)},
      l.Holds cells → ∃ cells', (calls.foldl (llCall cmpOp) l).Holds cells' ∧
        cells'.map Prod.snd = calls.foldl (llCallSpec cmpOp) (cells.map Prod.snd)
  | [], _, cells, h => ⟨cells, h, rfl⟩
  | c :: calls, _, _, h => by
    obtain ⟨cells', hcells', heq⟩ := holds_llCall cmpOp h c
    obtain ⟨cells'', hcells'', heq'⟩ := holds_llCalls cmpOp calls hcells'
    exact ⟨cells'', hcells'', by rw [heq', heq]; rfl⟩

/-- The bookkeeping of a list stays exact over every run of calls: the list holds a sequence
of distinct cells, reachable from `pRoot` and ending in NULL, with `iNumElts` their number,
`pLast` the last of them and NULL exactly when there is none, and the keys and data the abstract
run gives; and `llExecFunc` on it does what `execSpec` says. -/
theorem llRun_exact (cmpOp : κ → κ → ℤ) (calls : List (LlCall κ δ σ)) :
    ∃ cells, ListRep (llRun cmpOp calls).heap (llRun cmpOp calls).pRoot cells ∧
      (cells.map Prod.fst).Nodup ∧
      (llRun cmpOp calls).iNumElts = cells.length ∧
      (llRun cmpOp calls).pLast = cells.getLast?.map Prod.fst ∧
      ((llRun cmpOp calls).pLast = none ↔ cells = []) ∧
      cells.map Prod.snd = calls.foldl (llCallSpec cmpOp) [] ∧
      ∀ (pFunc : δ → σ → LlRet × σ) (pParam : σ), ∃ cells',
        (llExecFunc pFunc (llRun cmpOp calls) pParam).2.1.Holds cells' ∧
        (cells'.map Prod.snd, (llExecFunc pFunc (llRun cmpOp calls) pParam).2.2,
          (llExecFunc pFunc (llRun cmpOp calls) pParam).1) =
          execSpec pFunc (cells.map Prod.snd) pParam (.rs .ok) := by
  obtain ⟨cells, h, heq⟩ := holds_llCalls cmpOp calls (holds_llInit (κ := κ) (δ := δ))
  exact ⟨cells, h.rep, h.nodup, h.count, h.last, h.pLast_eq_none_iff, heq,
    fun pFunc pParam => holds_llExecFunc pFunc h pParam⟩

end Representation

end Rsyslog
