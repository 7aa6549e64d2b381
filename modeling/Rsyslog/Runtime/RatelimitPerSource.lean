import Mathlib.Data.List.Nodup
import Rsyslog.Runtime.Ratelimit

/-!
# The invariant of a per-source shard (`runtime/ratelimit.c`)

A shard of the per-source limiter keeps one state per key in its table, the keys of its active
states from the least to the most recently used, and the count of its active states. Between
two calls every shard satisfies `PsBucket.Inv`: the keys of the table are distinct, the LRU
list holds each key once, its keys are exactly those of the active states, `activeStates` is
its length, every inactive state carries an override of the policy or is still the zeroed state
calloc gave it, and the shard's cap is positive. Such a zeroed state is one that the first pass
of a reload created: the second pass gives it its override, and a reload whose first pass failed
leaves it behind.

The table is read through `PsBucket.search`, the hashtable lookup, which the steps of the calls
change in a way each lemma below states for every key at once.
-/

namespace Rsyslog

namespace PsBucket

/-! ## Looking up the table -/

theorem put_key (e x : PsEntry) : (if x.key = e.key then e else x).key = x.key := by
  split <;> simp_all

theorem search_eq_find (b : PsBucket) (k : List UInt8) :
    b.search k = b.ht.find? (·.key == k) :=
  rfl

theorem search_put (b : PsBucket) (e : PsEntry) (k : List UInt8) :
    (b.put e).search k = (b.search k).map fun x => if x.key = e.key then e else x := by
  simp only [search, put, List.find?_map]
  congr 2
  funext x
  simp only [Function.comp, put_key]

theorem mem_of_search {b : PsBucket} {k : List UInt8} {e : PsEntry} (h : b.search k = some e) :
    e ∈ b.ht ∧ e.key = k :=
  ⟨List.mem_of_find?_eq_some h, by simpa using List.find?_some h⟩

/-- A state with the key it replaces is found under its key, and the others stay. -/
theorem search_put_of_key {b : PsBucket} {e old : PsEntry} (hold : b.search e.key = some old)
    (k : List UInt8) : (b.put e).search k = if k = e.key then some e else b.search k := by
  rw [search_put]
  by_cases hk : k = e.key
  · subst hk
    simp [hold, (mem_of_search hold).2]
  · rw [if_neg hk]
    cases hs : b.search k with
    | none => rfl
    | some x =>
      -- the state found has the key looked for
      have hx : x.key = k := by simpa using List.find?_some hs
      simp [hx, hk]

theorem search_create {b : PsBucket} {key : List UInt8} (habsent : b.search key = none)
    (k : List UInt8) :
    (ratelimitPerSourceCreateEntry b key).1.search k =
      if k = key then some (PsEntry.new key) else b.search k := by
  simp only [ratelimitPerSourceCreateEntry, search, List.find?_append]
  by_cases hk : k = key
  · subst hk
    rw [if_pos rfl, show b.ht.find? (·.key == k) = none from habsent]
    simp [PsEntry.new]
  · rw [if_neg hk]
    cases b.ht.find? (·.key == k) with
    | some x => rfl
    | none => simp [PsEntry.new, Ne.symm hk]

theorem search_eq_none_iff (b : PsBucket) (k : List UInt8) :
    b.search k = none ↔ ∀ e ∈ b.ht, e.key ≠ k := by
  simp [search, List.find?_eq_none]

/-- With distinct keys every state of the table is found under its key. -/
theorem search_of_mem {b : PsBucket} (hnd : (b.ht.map PsEntry.key).Nodup) {e : PsEntry}
    (he : e ∈ b.ht) : b.search e.key = some e := by
  cases hs : b.search e.key with
  | none => exact absurd rfl ((search_eq_none_iff b e.key).mp hs e he)
  | some x =>
    obtain ⟨hx, hxk⟩ := mem_of_search hs
    rw [List.inj_on_of_nodup_map hnd hx he hxk]

/-- Dropping the states that fail a test, with distinct keys, drops them from the lookup. -/
theorem search_filter {b : PsBucket} (hnd : (b.ht.map PsEntry.key).Nodup) (q : PsEntry → Bool)
    (k : List UInt8) :
    ({ b with ht := b.ht.filter q } : PsBucket).search k = (b.search k).filter q := by
  cases hs : b.search k with
  | none =>
    rw [Option.filter_none, search_eq_none_iff]
    rw [search_eq_none_iff] at hs
    exact fun e he => hs e (List.mem_filter.mp he).1
  | some x =>
    obtain ⟨hx, hxk⟩ := mem_of_search hs
    by_cases hq : q x = true
    · rw [Option.filter_some, if_pos hq, ← hxk]
      exact search_of_mem (hnd.sublist (List.filter_sublist.map _)) (List.mem_filter.mpr ⟨hx, hq⟩)
    · rw [Option.filter_some, if_neg hq, search_eq_none_iff]
      intro e he hek
      have he' := (List.mem_filter.mp he)
      rw [List.inj_on_of_nodup_map hnd he'.1 hx (hek.trans hxk.symm)] at he'
      exact hq he'.2

/-- A map of the table that keeps every key is looked up through the old table. -/
theorem search_map {b : PsBucket} (f : PsEntry → PsEntry) (hf : ∀ e, (f e).key = e.key)
    (k : List UInt8) : ({ b with ht := b.ht.map f } : PsBucket).search k = (b.search k).map f := by
  simp only [search, List.find?_map]
  congr 2
  funext e
  simp [Function.comp, hf]

theorem keys_put (b : PsBucket) (e : PsEntry) : (b.put e).ht.map PsEntry.key = b.ht.map PsEntry.key := by
  simp only [put, List.map_map]
  congr 1
  funext x
  exact put_key e x

/-! ## The invariant -/

/-- The invariant of a shard between calls. -/
structure Inv (b : PsBucket) : Prop where
  keys_nodup : (b.ht.map PsEntry.key).Nodup
  lru_nodup : b.lru.Nodup
  mem_lru : ∀ k, k ∈ b.lru ↔ ∃ e, b.search k = some e ∧ e.stateActive = true
  activeStates_eq : b.activeStates = b.lru.length
  /-- An inactive state carries an override, or no write has touched it since calloc. -/
  hasOverride : ∀ k e, b.search k = some e → e.stateActive = false →
    e.hasOverride = true ∨ e = PsEntry.new k
  maxStates_pos : 0 < b.maxStates

variable {b : PsBucket}

/-- An empty shard with a positive cap. -/
theorem inv_empty {m : ℕ} (hm : 0 < m) : (⟨[], [], 0, m⟩ : PsBucket).Inv :=
  ⟨List.nodup_nil, List.nodup_nil, fun k => by simp [search], rfl,
    fun k e hs => by simp [search] at hs, hm⟩

/-- A new cap leaves everything else of the invariant as it was. -/
theorem Inv.setMaxStates (h : b.Inv) {m : ℕ} (hm : 0 < m) :
    ({ b with maxStates := m } : PsBucket).Inv :=
  { h with maxStates_pos := hm }

/-- A key without a state is not on the LRU list. -/
theorem Inv.not_mem_lru_of_search (h : b.Inv) {k : List UInt8}
    (hk : ∀ e, b.search k = some e → e.stateActive = false) : k ∉ b.lru := by
  rw [h.mem_lru]
  rintro ⟨e, hs, hact⟩
  simp [hk e hs] at hact

/-- `ratelimitPerSourceCreateEntry` adds an inactive zeroed state. -/
theorem Inv.create (h : b.Inv) {key : List UInt8} (habsent : b.search key = none) :
    (ratelimitPerSourceCreateEntry b key).1.Inv := by
  have hsearch := search_create habsent
  have hkey : key ∉ b.ht.map PsEntry.key := by
    simpa using (search_eq_none_iff b key).mp habsent
  refine ⟨?_, h.lru_nodup, fun k => ?_, h.activeStates_eq, fun k e hs hact => ?_,
    h.maxStates_pos⟩
  · simpa [ratelimitPerSourceCreateEntry, List.nodup_append, PsEntry.new] using
      ⟨h.keys_nodup, fun x hx hxk => hkey (hxk ▸ List.mem_map_of_mem hx)⟩
  · show k ∈ b.lru ↔ _
    rw [h.mem_lru, hsearch]
    by_cases hk : k = key
    · subst hk
      simp [habsent, PsEntry.new]
    · rw [if_neg hk]
  · rw [hsearch] at hs
    by_cases hk : k = key
    · rw [if_pos hk] at hs
      cases hs
      exact Or.inr (by rw [hk])
    · rw [if_neg hk] at hs
      exact h.hasOverride k e hs hact

/-! ## Eviction -/

/-- `ratelimitPerSourceEvictOne` on a shard whose LRU list starts with `evict`, whose state is
`e`: the list loses its head, the count one, and the state is made inactive and dropped unless
the policy overrides its key. -/
theorem evictOne_eq {evict : List UInt8} {rest : List (List UInt8)} (hlru : b.lru = evict :: rest)
    {e : PsEntry} (he : b.search evict = some e) :
    ratelimitPerSourceEvictOne b =
      let c : PsBucket := (⟨b.ht, rest, b.activeStates - 1, b.maxStates⟩ : PsBucket).put
        { e with stateActive := false }
      if e.hasOverride then c else { c with ht := c.ht.filter (·.key ≠ evict) } := by
  rw [search_eq_find] at he
  simp only [ratelimitPerSourceEvictOne, hlru, ratelimitPerSourceLruRemove, List.erase_cons_head,
    search, he]

/-- The state `ratelimitPerSourceEvictOne` leaves under each key: the evicted key's state,
inactive, if the policy overrides it, and none otherwise; every other key keeps its state. -/
theorem search_evictOne (hnd : (b.ht.map PsEntry.key).Nodup) {evict : List UInt8}
    {rest : List (List UInt8)} (hlru : b.lru = evict :: rest) {e : PsEntry}
    (he : b.search evict = some e) (k : List UInt8) :
    (ratelimitPerSourceEvictOne b).search k =
      if k = evict then (if e.hasOverride then some { e with stateActive := false } else none)
      else b.search k := by
  have hek : e.key = evict := (mem_of_search he).2
  -- the state written back replaces `e`, under the same key
  have hput : ∀ k, ((⟨b.ht, rest, b.activeStates - 1, b.maxStates⟩ : PsBucket).put
      { e with stateActive := false }).search k =
      if k = evict then some { e with stateActive := false } else b.search k := by
    intro k
    have hold : (⟨b.ht, rest, b.activeStates - 1, b.maxStates⟩ : PsBucket).search
        ({ e with stateActive := false } : PsEntry).key = some e := by
      rw [← hek] at he
      exact he
    rw [search_put_of_key hold]
    show (if k = e.key then _ else b.search k) = _
    rw [hek]
  rw [evictOne_eq hlru he]
  by_cases ho : e.hasOverride = true
  · rw [if_pos ho, if_pos ho]
    exact hput k
  · rw [if_neg ho, if_neg ho]
    rw [search_filter (by rw [keys_put]; exact hnd), hput]
    by_cases hk : k = evict
    · simp [hk, hek]
    · rw [if_neg hk, if_neg hk]
      cases hs : b.search k with
      | none => rfl
      | some x => simp [(mem_of_search hs).2, hk]

theorem evictOne_nil (hlru : b.lru = []) : ratelimitPerSourceEvictOne b = b := by
  simp only [ratelimitPerSourceEvictOne, hlru]

@[simp] theorem lru_evictOne (b : PsBucket) : (ratelimitPerSourceEvictOne b).lru = b.lru.tail := by
  unfold ratelimitPerSourceEvictOne
  split
  · next hlru => rw [hlru]; rfl
  · next evict rest hlru =>
    simp only [ratelimitPerSourceLruRemove, hlru, List.erase_cons_head, List.tail_cons]
    split
    · rfl
    · split <;> rfl

@[simp] theorem maxStates_evictOne (b : PsBucket) :
    (ratelimitPerSourceEvictOne b).maxStates = b.maxStates := by
  unfold ratelimitPerSourceEvictOne
  split
  · rfl
  · dsimp only
    split
    · rfl
    · split <;> rfl

theorem activeStates_evictOne {evict : List UInt8} {rest : List (List UInt8)}
    (hlru : b.lru = evict :: rest) :
    (ratelimitPerSourceEvictOne b).activeStates = b.activeStates - 1 := by
  simp only [ratelimitPerSourceEvictOne, hlru]
  split
  · rfl
  · split <;> rfl

/-- One eviction keeps the invariant: the head of the LRU list, active, is the state it
deactivates, and the state is kept only with an override. -/
theorem Inv.evictOne (h : b.Inv) : (ratelimitPerSourceEvictOne b).Inv := by
  rcases hlru : b.lru with _ | ⟨evict, rest⟩
  · rwa [evictOne_nil hlru]
  obtain ⟨e, he, hact⟩ := (h.mem_lru evict).mp (by rw [hlru]; exact List.mem_cons_self)
  have hsearch := search_evictOne h.keys_nodup hlru he
  have hnd : (evict :: rest).Nodup := hlru ▸ h.lru_nodup
  refine ⟨?_, ?_, fun k => ?_, ?_, fun k e' hs hinact => ?_, ?_⟩
  · -- the table only loses the evicted state
    rw [evictOne_eq hlru he]
    dsimp only
    split
    · rw [keys_put]
      exact h.keys_nodup
    · exact (List.filter_sublist.map _).nodup (by rw [keys_put]; exact h.keys_nodup)
  · simpa [hlru] using hnd.of_cons
  · rw [lru_evictOne, hlru, List.tail_cons, hsearch]
    by_cases hk : k = evict
    · subst hk
      simp only [if_true, List.nodup_cons.mp hnd |>.1, false_iff]
      split <;> simp
    · rw [if_neg hk, ← h.mem_lru, hlru, List.mem_cons, or_iff_right hk]
  · rw [activeStates_evictOne hlru, lru_evictOne, h.activeStates_eq, hlru]
    simp
  · rw [hsearch] at hs
    by_cases hke : k = evict
    · rw [if_pos hke] at hs
      split at hs
      · next ho =>
        cases hs
        exact Or.inl ho
      · cases hs
    · rw [if_neg hke] at hs
      exact h.hasOverride k e' hs hinact
  · rw [maxStates_evictOne]
    exact h.maxStates_pos

/-- A state off the LRU list is not the one an eviction takes. -/
theorem Inv.search_evictOne_of_not_mem (h : b.Inv) {k : List UInt8}
    (hk : k ∉ b.lru) : (ratelimitPerSourceEvictOne b).search k = b.search k := by
  rcases hlru : b.lru with _ | ⟨evict, rest⟩
  · rw [evictOne_nil hlru]
  obtain ⟨e, he, -⟩ := (h.mem_lru evict).mp (by rw [hlru]; exact List.mem_cons_self)
  have hke : k ≠ evict := fun hke => hk (by rw [hlru, hke]; exact List.mem_cons_self)
  rw [search_evictOne h.keys_nodup hlru he, if_neg hke]

@[simp] theorem maxStates_evictLoop (b : PsBucket) (n : ℕ) :
    (ratelimitPerSourceEvictLoop b n).maxStates = b.maxStates := by
  induction n generalizing b with
  | zero => rfl
  | succ n ih =>
    simp only [ratelimitPerSourceEvictLoop]
    split
    · rw [ih, maxStates_evictOne]
    · rfl

section EvictLoop

variable (h : b.Inv)
include h

theorem Inv.evictLoop (n : ℕ) : (ratelimitPerSourceEvictLoop b n).Inv := by
  induction n generalizing b with
  | zero => exact h
  | succ n ih =>
    simp only [ratelimitPerSourceEvictLoop]
    split
    · exact ih h.evictOne
    · exact h

/-- The eviction loop leaves the states off the LRU list as they were. -/
theorem Inv.search_evictLoop_of_not_mem {k : List UInt8} (hk : k ∉ b.lru) (n : ℕ) :
    (ratelimitPerSourceEvictLoop b n).search k = b.search k := by
  induction n generalizing b with
  | zero => rfl
  | succ n ih =>
    simp only [ratelimitPerSourceEvictLoop]
    split
    · have hk' : k ∉ (ratelimitPerSourceEvictOne b).lru := by
        rw [lru_evictOne]
        exact fun hk' => hk (List.mem_of_mem_tail hk')
      rw [ih h.evictOne hk', h.search_evictOne_of_not_mem hk]
    · rfl

/-- With a round for each state on the LRU list, the eviction loop ends below the cap. -/
theorem Inv.activeStates_evictLoop_lt {n : ℕ} (hn : b.lru.length ≤ n) :
    (ratelimitPerSourceEvictLoop b n).activeStates < (ratelimitPerSourceEvictLoop b n).maxStates := by
  induction n generalizing b with
  | zero =>
    -- no state is active
    have hnil : b.lru = [] := List.eq_nil_of_length_eq_zero (by omega)
    simp only [ratelimitPerSourceEvictLoop, h.activeStates_eq, hnil, List.length_nil]
    exact h.maxStates_pos
  | succ n ih =>
    simp only [ratelimitPerSourceEvictLoop]
    split
    · next hcond =>
      apply ih h.evictOne
      rw [lru_evictOne, List.length_tail]
      omega
    · next hcond =>
      have hpos := h.maxStates_pos
      have hcount := h.activeStates_eq
      by_cases hnil : b.lru = []
      · rw [hnil] at hcount
        simp only [hcount, List.length_nil]
        exact hpos
      · exact Nat.lt_of_not_le fun hle => hcond ⟨hpos, hle, hnil⟩

end EvictLoop

/-! ## Touching and writing back -/

theorem search_congr {c : PsBucket} (hht : b.ht = c.ht) (k : List UInt8) :
    b.search k = c.search k := by
  simp only [search, hht]

@[simp] theorem ht_lruTouch (b : PsBucket) (key : List UInt8) :
    (ratelimitPerSourceLruTouch b key).ht = b.ht := by
  unfold ratelimitPerSourceLruTouch
  split <;> rfl

@[simp] theorem activeStates_lruTouch (b : PsBucket) (key : List UInt8) :
    (ratelimitPerSourceLruTouch b key).activeStates = b.activeStates := by
  unfold ratelimitPerSourceLruTouch
  split <;> rfl

@[simp] theorem maxStates_lruTouch (b : PsBucket) (key : List UInt8) :
    (ratelimitPerSourceLruTouch b key).maxStates = b.maxStates := by
  unfold ratelimitPerSourceLruTouch
  split <;> rfl

/-- On a list without repeats, touching a key moves it to the end, or puts it there. -/
theorem lru_lruTouch (hnd : b.lru.Nodup) (key : List UInt8) :
    (ratelimitPerSourceLruTouch b key).lru = b.lru.erase key ++ [key] := by
  unfold ratelimitPerSourceLruTouch
  split
  · next hlast =>
    -- the list already ends with `key`, which occurs once
    obtain ⟨s, hs⟩ := List.getLast?_eq_some_iff.mp hlast
    rw [hs] at hnd ⊢
    have hks : key ∉ s := fun hk => (List.nodup_append.mp hnd).2.2 key hk key (by simp) rfl
    rw [List.erase_append_right _ hks, List.erase_cons_head, List.append_nil]
  · rfl

@[simp] theorem lru_put (b : PsBucket) (e : PsEntry) : (b.put e).lru = b.lru :=
  rfl

@[simp] theorem activeStates_put (b : PsBucket) (e : PsEntry) :
    (b.put e).activeStates = b.activeStates :=
  rfl

@[simp] theorem maxStates_put (b : PsBucket) (e : PsEntry) : (b.put e).maxStates = b.maxStates :=
  rfl

/-- The end of every check: the key's state, active, is written back into the shard after the
key was moved to the end of the LRU list, the count raised by one if the state was inactive. -/
theorem Inv.touch_put {key : List UInt8} {old : PsEntry} (h : b.Inv)
    (hold : b.search key = some old) {e : PsEntry} (hkey : e.key = key)
    (hact : e.stateActive = true) :
    ((ratelimitPerSourceLruTouch
      (if old.stateActive then b else { b with activeStates := b.activeStates + 1 }) key).put e).Inv := by
  set c := if old.stateActive then b else { b with activeStates := b.activeStates + 1 } with hc
  have hht : c.ht = b.ht := by rw [hc]; split <;> rfl
  have hlru : c.lru = b.lru := by rw [hc]; split <;> rfl
  have hmax : c.maxStates = b.maxStates := by rw [hc]; split <;> rfl
  -- the key is on the list exactly when its state was active
  have hcount : c.activeStates = (b.lru.erase key ++ [key]).length := by
    rw [hc, h.activeStates_eq]
    split
    · next hactive =>
      have hmem : key ∈ b.lru := (h.mem_lru key).mpr ⟨old, hold, hactive⟩
      rw [List.length_append, List.length_erase_of_mem hmem, List.length_singleton]
      have hcount := h.activeStates_eq
      have := List.length_pos_of_mem hmem
      omega
    · next hinactive =>
      have hmem : key ∉ b.lru :=
        h.not_mem_lru_of_search fun e' he' => by
          rw [hold, Option.some.injEq] at he'
          rw [← he']
          exact Bool.eq_false_iff.mpr hinactive
      rw [List.erase_of_not_mem hmem, List.length_append, List.length_singleton]
  have hold' : (ratelimitPerSourceLruTouch c key).search e.key = some old := by
    rw [search_congr (c := b) (by rw [ht_lruTouch, hht]), hkey, hold]
  have hsearch : ∀ k, ((ratelimitPerSourceLruTouch c key).put e).search k =
      if k = key then some e else b.search k := by
    intro k
    rw [search_put_of_key hold', hkey, search_congr (c := b) (by rw [ht_lruTouch, hht])]
  have hlist : ((ratelimitPerSourceLruTouch c key).put e).lru = b.lru.erase key ++ [key] := by
    rw [lru_put, lru_lruTouch (hlru ▸ h.lru_nodup), hlru]
  refine ⟨?_, ?_, fun k => ?_, ?_, fun k e' hs hinact => ?_, ?_⟩
  · rw [keys_put, ht_lruTouch, hht]
    exact h.keys_nodup
  · rw [hlist]
    refine (h.lru_nodup.erase key).append (List.nodup_singleton key) ?_
    simp [h.lru_nodup.mem_erase_iff]
  · rw [hlist, hsearch]
    by_cases hk : k = key
    · subst hk
      simp [hact]
    · rw [if_neg hk, List.mem_append, List.mem_erase_of_ne hk, h.mem_lru]
      simp [hk]
  · rw [hlist, activeStates_put, activeStates_lruTouch, hcount]
  · rw [hsearch] at hs
    by_cases hk : k = key
    · rw [if_pos hk] at hs
      cases hs
      simp [hact] at hinact
    · rw [if_neg hk] at hs
      exact h.hasOverride k e' hs hinact
  · rw [maxStates_put, maxStates_lruTouch, hmax]
    exact h.maxStates_pos

/-! ## The check in three parts -/

/-- The first part of `ratelimitPerSourceCheckBucket`: the key's state, created if missing. -/
def findOrCreate (b : PsBucket) (key : List UInt8) : PsBucket × PsEntry :=
  match b.search key with
  | some e => (b, e)
  | none => ratelimitPerSourceCreateEntry b key

/-- The second part: an inactive state is made active, with its window starting at `tt`, after
the eviction loop has made room for it. -/
def activate (b : PsBucket) (entry : PsEntry) (tt : ℤ) : PsBucket × PsEntry :=
  if entry.stateActive then (b, entry) else
  let b := ratelimitPerSourceEvictLoop b b.lru.length
  ({ b with activeStates := b.activeStates + 1 }, { entry with stateActive := true, windowStart := tt })

end PsBucket

/-- The last part: the window of the active state, whether the message passes, and the state to
write back. -/
def PsEntry.checkWindow (entry : PsEntry) (defaultMax defaultWindow : ℕ) (tt : ℤ) : Bool × PsEntry :=
  let max := if entry.hasOverride && entry.hasMax then entry.max else defaultMax
  let window := if entry.hasOverride && entry.hasWindow then entry.window else defaultWindow
  if max = 0 ∨ window = 0 then (true, entry) else
  let entry := if entry.windowStart = 0 ∨ tt - entry.windowStart ≥ window ∨ tt < entry.windowStart
    then { entry with windowStart := tt, count := 0 } else entry
  if entry.count < max then (true, { entry with count := entry.count + 1 }) else (false, entry)

@[simp] theorem PsEntry.key_checkWindow (entry : PsEntry) (defaultMax defaultWindow : ℕ) (tt : ℤ) :
    (entry.checkWindow defaultMax defaultWindow tt).2.key = entry.key := by
  simp only [PsEntry.checkWindow]
  split_ifs <;> rfl

@[simp] theorem PsEntry.stateActive_checkWindow (entry : PsEntry) (defaultMax defaultWindow : ℕ)
    (tt : ℤ) : (entry.checkWindow defaultMax defaultWindow tt).2.stateActive = entry.stateActive := by
  simp only [PsEntry.checkWindow]
  split_ifs <;> rfl

/-- `ratelimitPerSourceCheckBucket` is its three parts in turn, the key moved to the end of the LRU
list before the state is written back. -/
theorem ratelimitPerSourceCheckBucket_eq (defaultMax defaultWindow : ℕ) (b : PsBucket)
    (key : List UInt8) (tt : ℤ) :
    ratelimitPerSourceCheckBucket defaultMax defaultWindow b key tt =
      let found := b.findOrCreate key
      let act := found.1.activate found.2 tt
      let r := act.2.checkWindow defaultMax defaultWindow tt
      (r.1, (ratelimitPerSourceLruTouch act.1 key).put r.2) := by
  -- both sides look the key up by their own match: settle it first
  cases hs : b.search key <;>
  · simp only [ratelimitPerSourceCheckBucket, PsBucket.findOrCreate, PsBucket.activate,
      PsEntry.checkWindow, hs]
    split_ifs <;> rfl

namespace PsBucket

variable {b : PsBucket}

/-- Activating an inactive state: the eviction loop makes room, and the key's state, which it
leaves alone, is written back active at the end of the list. -/
theorem Inv.touch_put_evictLoop {key : List UInt8} {old : PsEntry} (h : b.Inv)
    (hold : b.search key = some old) (hinactive : old.stateActive = false) {e : PsEntry}
    (hkey : e.key = key) (hact : e.stateActive = true) :
    ((ratelimitPerSourceLruTouch
      { ratelimitPerSourceEvictLoop b b.lru.length with
        activeStates := (ratelimitPerSourceEvictLoop b b.lru.length).activeStates + 1 } key).put e).Inv := by
  have hmem : key ∉ b.lru := h.not_mem_lru_of_search fun e' he' => by
    rw [hold, Option.some.injEq] at he'
    rw [← he']
    exact hinactive
  have hold' : (ratelimitPerSourceEvictLoop b b.lru.length).search key = some old := by
    rw [h.search_evictLoop_of_not_mem hmem, hold]
  have hput := (h.evictLoop b.lru.length).touch_put hold' hkey hact
  rwa [if_neg (by simp [hinactive])] at hput

theorem activate_key (b : PsBucket) (entry : PsEntry) (tt : ℤ) :
    (b.activate entry tt).2.key = entry.key := by
  unfold activate
  split <;> rfl

theorem activate_stateActive (b : PsBucket) (entry : PsEntry) (tt : ℤ) :
    (b.activate entry tt).2.stateActive = true := by
  unfold activate
  split
  · assumption
  · rfl

/-- The key's state is found, or created. -/
theorem Inv.findOrCreate (h : b.Inv) (key : List UInt8) :
    (b.findOrCreate key).1.Inv ∧
      (b.findOrCreate key).1.search key = some (b.findOrCreate key).2 := by
  unfold PsBucket.findOrCreate
  split
  · next e hs => exact ⟨h, hs⟩
  · next hs => exact ⟨h.create hs, by rw [search_create hs, if_pos rfl]; rfl⟩

/-- Activating the key's state, moving the key to the end of the list and writing the state back
restore the invariant. -/
theorem Inv.touch_put_activate {key : List UInt8} {old : PsEntry} (h : b.Inv)
    (hold : b.search key = some old) (tt : ℤ) {e : PsEntry} (hkey : e.key = key)
    (hact : e.stateActive = true) :
    ((ratelimitPerSourceLruTouch (b.activate old tt).1 key).put e).Inv := by
  cases hactive : old.stateActive
  · simp only [activate, hactive]
    exact h.touch_put_evictLoop hold hactive hkey hact
  · simp only [activate, hactive, if_true]
    have hput := h.touch_put hold hkey hact
    rwa [if_pos hactive] at hput

theorem Inv.checkBucket (h : b.Inv) (defaultMax defaultWindow : ℕ) (key : List UInt8) (tt : ℤ) :
    (ratelimitPerSourceCheckBucket defaultMax defaultWindow b key tt).2.Inv := by
  rw [ratelimitPerSourceCheckBucket_eq]
  obtain ⟨h₁, hs₁⟩ := Inv.findOrCreate h key
  apply h₁.touch_put_activate hs₁ tt
  · rw [PsEntry.key_checkWindow, activate_key]
    exact (mem_of_search hs₁).2
  · rw [PsEntry.stateActive_checkWindow, activate_stateActive]

/-- A check that finds its key's state missing or inactive leaves the shard within its cap. -/
theorem Inv.activeStates_checkBucket_le (h : b.Inv) (defaultMax defaultWindow : ℕ)
    {key : List UInt8} (hinactive : ∀ e, b.search key = some e → e.stateActive = false) (tt : ℤ) :
    (ratelimitPerSourceCheckBucket defaultMax defaultWindow b key tt).2.activeStates ≤
      (ratelimitPerSourceCheckBucket defaultMax defaultWindow b key tt).2.maxStates := by
  rw [ratelimitPerSourceCheckBucket_eq]
  obtain ⟨h₁, hs₁⟩ := Inv.findOrCreate h key
  -- the state found or created is inactive
  have hfound : (b.findOrCreate key).2.stateActive = false := by
    unfold PsBucket.findOrCreate
    split
    · next e hs => exact hinactive e hs
    · rfl
  simp only [activeStates_put, activeStates_lruTouch, maxStates_put, maxStates_lruTouch, activate,
    hfound, Bool.false_eq_true, if_false]
  exact h₁.activeStates_evictLoop_lt le_rfl

/-! ## Reloading the overrides -/

/-- Setting the overrides of a shard's keys, one override after the other, maps every state by
one function, which keeps its key and its activity. -/
theorem foldl_overrides_eq_map (shard : ℕ) (overrides : List PsOverride) (ht : List PsEntry) :
    ∃ F : PsEntry → PsEntry, (∀ e, (F e).key = e.key ∧ (F e).stateActive = e.stateActive) ∧
      overrides.foldl (fun ht o => if ratelimitPerSourceBucket o.key ≠ shard then ht else
        ht.map fun e => if e.key = o.key then e.withOverride o else e) ht = ht.map F := by
  induction overrides generalizing ht with
  | nil => exact ⟨id, fun _ => ⟨rfl, rfl⟩, (List.map_id _).symm⟩
  | cons o overrides ih =>
    rw [List.foldl_cons]
    split
    · exact ih ht
    · obtain ⟨F, hF, hfold⟩ :=
        ih (ht.map fun (e : PsEntry) => if e.key = o.key then e.withOverride o else e)
      refine ⟨F ∘ fun (e : PsEntry) => if e.key = o.key then e.withOverride o else e,
        fun e => ?_, ?_⟩
      · rw [Function.comp_apply, (hF _).1, (hF _).2]
        split <;> exact ⟨rfl, rfl⟩
      · rw [hfold, List.map_map]

/-- The reload of a shard's overrides leaves only states that are active or overridden, and the
LRU list as it was: whatever states the reload created, the shard keeps the invariant. -/
theorem Inv.shardOverrides (h : b.Inv) (shard : ℕ) (overrides : List PsOverride) :
    (ratelimitPerSourceShardOverrides shard overrides b).Inv := by
  let clear : PsEntry → PsEntry := fun e =>
    { e with hasOverride := false, hasMax := false, hasWindow := false, max := 0, window := 0 }
  obtain ⟨F, hF, hfold⟩ := foldl_overrides_eq_map shard overrides (b.ht.map clear)
  -- the whole pass is one map, keeping keys and activity, then the filter
  let q : PsEntry → Bool := fun e => e.stateActive || e.hasOverride
  have hG : ∀ e, (F (clear e)).key = e.key ∧ (F (clear e)).stateActive = e.stateActive :=
    fun e => hF (clear e)
  have hkeys : (b.ht.map (F ∘ clear)).map PsEntry.key = b.ht.map PsEntry.key := by
    rw [List.map_map]
    exact List.map_congr_left fun e _ => (hG e).1
  have hsearch : ∀ k, (ratelimitPerSourceShardOverrides shard overrides b).search k =
      ((b.search k).map (F ∘ clear)).filter q := by
    intro k
    rw [← search_map (F ∘ clear) (fun e => (hG e).1), ← search_filter (by rw [hkeys]; exact h.keys_nodup)]
    apply search_congr
    show (List.foldl _ (b.ht.map clear) overrides).filter q = _
    rw [hfold, List.map_map]
  refine ⟨?_, h.lru_nodup, fun k => ?_, h.activeStates_eq, fun k e hs hinact => ?_,
    h.maxStates_pos⟩
  · show ((List.foldl _ (b.ht.map clear) overrides).filter q).map PsEntry.key |>.Nodup
    rw [hfold, List.map_map]
    exact (List.filter_sublist.map _).nodup (by rw [hkeys]; exact h.keys_nodup)
  · show k ∈ b.lru ↔ _
    rw [h.mem_lru, hsearch]
    cases hs : b.search k with
    | none => simp
    | some x =>
      -- an active state passes the filter; an inactive one is inactive either way
      cases hx : x.stateActive <;> simp [q, hx, (hG x).2]
  · rw [hsearch, Option.filter_eq_some_iff] at hs
    exact Or.inl (by simpa [q, hinact] using hs.2)

end PsBucket

/-! ## The shared state -/

/-- A share of a positive cap is positive. -/
theorem ratelimitPerSourceShardCap_pos {maxStates : ℕ} (hm : 0 < maxStates) (shard : ℕ) :
    0 < ratelimitPerSourceShardCap maxStates shard := by
  unfold ratelimitPerSourceShardCap ratelimitPersourceShards
  split_ifs <;> omega

/-- The first pass of `ratelimitPerSourceApplyOverrides` for one override: its key gets a state
in its shard if it has none. -/
def PsShared.ensureOverrideEntry (s : PsShared) (o : PsOverride) : PsShared :=
  let i := ratelimitPerSourceBucket o.key
  match (s.shards i).search o.key with
  | some _ => s
  | none => s.setShard i (ratelimitPerSourceCreateEntry (s.shards i) o.key).1

theorem ratelimitPerSourceApplyOverrides_eq (s : PsShared) (overrides : List PsOverride) :
    ratelimitPerSourceApplyOverrides s overrides =
      let s := overrides.foldl PsShared.ensureOverrideEntry s
      { s with shards := fun i => ratelimitPerSourceShardOverrides i overrides (s.shards i) } :=
  rfl

end Rsyslog
