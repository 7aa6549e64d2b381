import Rsyslog.Common.DoublyLinked
import Rsyslog.Runtime.Basic
import Rsyslog.Runtime.RatelimitPerSource

/-!
# The per-source LRU lists by their links (`runtime/ratelimit.c`)

The C code keeps a shard's LRU list in the `lru_prev` and `lru_next` fields of its states and in
the shard's `lru_head` and `lru_tail`. `PsShard` is a shard so, its links stored under the keys
of the states (the table holds each key once), and the functions below are the C functions
on it, pointer for pointer: `ratelimitPerSourceLruTouch` decides from the links and the head
whether a state is linked, `ratelimitPerSourceEvictOne` takes the state at `lru_head`.

The allocations of ratelimitPerSourceCreateEntry may fail: a check then drops its message and
changes nothing, and a reload stops after the states its first pass created so far. A pointer
shard refines a list shard (`PsShard.Refines`) when its links hold the list shard's LRU list and
the rest is equal. Every call keeps the relation with a list-level state where the invariant
`PsBucket.Inv` holds; through the relation it gives the pointer shards their shape
(`PsShard.WellFormed`).
-/

namespace Rsyslog

open Common

/-- A shard of the per-source table as the C code keeps it (ratelimit_ps_bucket_t): the states,
the links of the LRU list, the count of active states and the cap. -/
structure PsShard where
  ht : List PsEntry
  lru : DllLinks (List UInt8)
  activeStates : ℕ
  maxStates : ℕ

namespace PsShard

/-- The state of a key (hashtable_search_prehashed). -/
def search (b : PsShard) (key : List UInt8) : Option PsEntry :=
  b.ht.find? (·.key == key)

/-- Writes a state back, through the entry pointer the code holds. -/
def put (b : PsShard) (e : PsEntry) : PsShard :=
  { b with ht := b.ht.map fun x => if x.key = e.key then e else x }

/-- ratelimitPerSourceCreateEntry: a state from calloc, with no links, inserted into the table.
When calloc, strdup or the insertion fails (`allocOk` is false) it frees what it allocated and
returns RS_RET_OUT_OF_MEMORY, the shard as it was. -/
def ratelimitPerSourceCreateEntry (b : PsShard) (key : List UInt8) (allocOk : Bool) :
    Except RsRetVal (PsShard × PsEntry) :=
  if allocOk then
    .ok ({ b with ht := b.ht ++ [PsEntry.new key], lru := b.lru.fresh key }, PsEntry.new key)
  else .error .outOfMemory

/-- ratelimitPerSourceLruRemove: unlinks a state by its own links. -/
def ratelimitPerSourceLruRemove (b : PsShard) (key : List UInt8) : PsShard :=
  { b with lru := b.lru.unlink key }

/-- ratelimitPerSourceLruTouch: nothing for the tail; a state that has a link or is the head is
unlinked first; then it is linked after the tail. -/
def ratelimitPerSourceLruTouch (b : PsShard) (key : List UInt8) : PsShard :=
  if b.lru.tail = some key then b else
  let b := if b.lru.prev key ≠ none ∨ b.lru.next key ≠ none ∨ b.lru.head = some key
    then ratelimitPerSourceLruRemove b key else b
  { b with lru := b.lru.linkLast key }

/-- ratelimitPerSourceEvictOne: unlinks the state at `lru_head`, lowers the count, deactivates the
state and drops it from the table unless the policy overrides its key. -/
def ratelimitPerSourceEvictOne (b : PsShard) : PsShard :=
  match b.lru.head with
  | none => b
  | some evict =>
    let b := ratelimitPerSourceLruRemove b evict
    let b := { b with activeStates := b.activeStates - 1 }
    match b.search evict with
    | none => b
    | some e =>
      let b := b.put { e with stateActive := false }
      if e.hasOverride then b else { b with ht := b.ht.filter (·.key ≠ evict) }

/-- The eviction loop of ratelimitPerSourceCheck: while the shard is at its cap, evict, unless
`lru_head` is NULL. Each round lowers `active_states`, so `active_states` rounds are enough
(`evictLoop_exits`). -/
def ratelimitPerSourceEvictLoop (b : PsShard) : ℕ → PsShard
  | 0 => b
  | n + 1 =>
    if 0 < b.maxStates ∧ b.maxStates ≤ b.activeStates then
      if b.lru.head = none then b else ratelimitPerSourceEvictLoop (ratelimitPerSourceEvictOne b) n
    else b

/-- The key's state in ratelimitPerSourceCheck, created if missing. -/
def findOrCreate (b : PsShard) (key : List UInt8) (allocOk : Bool) :
    Except RsRetVal (PsShard × PsEntry) :=
  match b.search key with
  | some e => .ok (b, e)
  | none => ratelimitPerSourceCreateEntry b key allocOk

/-- An inactive state is made active, with its window starting at `tt`, after the eviction loop
has made room for it. -/
def activate (b : PsShard) (entry : PsEntry) (tt : ℤ) : PsShard × PsEntry :=
  if entry.stateActive then (b, entry) else
  let b := ratelimitPerSourceEvictLoop b b.activeStates
  ({ b with activeStates := b.activeStates + 1 }, { entry with stateActive := true, windowStart := tt })

/-- The part of ratelimitPerSourceCheck under the shard's lock: find or create the state,
activate it, touch it in the LRU list, then count the message in its window. `false` when the
call does not return RS_RET_OK: RS_RET_DISCARDMSG for a full window, or the error of a failed
creation, which leaves the shard as it was; the caller drops the message either way. -/
def ratelimitPerSourceCheckBucket (defaultMax defaultWindow : ℕ) (b : PsShard) (key : List UInt8)
    (tt : ℤ) (allocOk : Bool) : Bool × PsShard :=
  match b.findOrCreate key allocOk with
  | .error _ => (false, b)
  | .ok found =>
    let act := found.1.activate found.2 tt
    let b := ratelimitPerSourceLruTouch act.1 key
    let r := act.2.checkWindow defaultMax defaultWindow tt
    (r.1, b.put r.2)

/-- The per-shard pass of ratelimitPerSourceApplyOverrides: clears every state's override, sets
those of the overridden keys of this shard, and drops the inactive states left without one. -/
def ratelimitPerSourceShardOverrides (shard : ℕ) (overrides : List PsOverride) (b : PsShard) :
    PsShard :=
  let ht := b.ht.map fun e =>
    { e with hasOverride := false, hasMax := false, hasWindow := false, max := 0, window := 0 }
  let ht := overrides.foldl (fun ht o =>
    if ratelimitPerSourceBucket o.key ≠ shard then ht else
    ht.map fun e => if e.key = o.key then e.withOverride o else e) ht
  { b with ht := ht.filter fun e => e.stateActive || e.hasOverride }

end PsShard

/-! ## The rounds of the eviction loop -/

namespace PsShard

@[simp] theorem maxStates_evictOne (b : PsShard) :
    b.ratelimitPerSourceEvictOne.maxStates = b.maxStates := by
  unfold ratelimitPerSourceEvictOne
  split
  · rfl
  · dsimp only
    split
    · rfl
    · split <;> rfl

theorem activeStates_evictOne {b : PsShard} {evict : List UInt8} (hhead : b.lru.head = some evict) :
    b.ratelimitPerSourceEvictOne.activeStates = b.activeStates - 1 := by
  simp only [ratelimitPerSourceEvictOne, hhead]
  split
  · rfl
  · split <;> rfl

/-- With at least `active_states` rounds the eviction loop stops as the C loop does: below the
cap, or with no state left to evict. -/
theorem evictLoop_exits (b : PsShard) {n : ℕ} (hn : b.activeStates ≤ n) :
    ¬(0 < (b.ratelimitPerSourceEvictLoop n).maxStates ∧
      (b.ratelimitPerSourceEvictLoop n).maxStates ≤ (b.ratelimitPerSourceEvictLoop n).activeStates ∧
      (b.ratelimitPerSourceEvictLoop n).lru.head ≠ none) := by
  induction n generalizing b with
  | zero =>
    simp only [ratelimitPerSourceEvictLoop]
    omega
  | succ n ih =>
    simp only [ratelimitPerSourceEvictLoop]
    split
    · next hcap =>
      split
      · next hnil => exact fun h => h.2.2 hnil
      · next hnil =>
        -- each round evicts the head and lowers the count
        obtain ⟨evict, hevict⟩ := Option.ne_none_iff_exists'.mp hnil
        apply ih
        rw [activeStates_evictOne hevict]
        omega
    · next hcap => exact fun h => hcap ⟨h.1, h.2.1⟩

end PsShard

/-! ## The pointer shard refines the list shard -/

namespace PsShard

/-- The pointer shard `b` refines the list shard `a`: its links hold `a`'s LRU list, and its
table and counts are `a`'s. -/
structure Refines (b : PsShard) (a : PsBucket) : Prop where
  lru : b.lru.Holds a.lru
  ht : b.ht = a.ht
  activeStates : b.activeStates = a.activeStates
  maxStates : b.maxStates = a.maxStates

variable {b : PsShard} {a : PsBucket}

/-- The list shard erases keys with the lists' own `==`; the links' lemmas erase with the test
of equality. The two agree. -/
theorem erase_eq_erase (l : List (List UInt8)) (key : List UInt8) :
    l.erase key = @List.erase _ instBEqOfDecidableEq l key :=
  congrArg (fun inst => @List.erase _ inst l key) (lawful_beq_subsingleton _ _)

theorem Refines.search (hr : b.Refines a) (k : List UInt8) : b.search k = a.search k := by
  simp only [PsShard.search, PsBucket.search, hr.ht]

theorem Refines.put (hr : b.Refines a) (e : PsEntry) : (b.put e).Refines (a.put e) :=
  ⟨hr.lru, by simp only [PsShard.put, PsBucket.put, hr.ht], hr.activeStates, hr.maxStates⟩

/-- A creation fails only for want of memory. -/
theorem createEntry_eq_error {key : List UInt8} {allocOk : Bool} {r : RsRetVal}
    (h : b.ratelimitPerSourceCreateEntry key allocOk = .error r) : r = .outOfMemory := by
  unfold ratelimitPerSourceCreateEntry at h
  split at h <;> cases h
  rfl

/-- A created state is the list shard's new state: its key is on no list, and the zeroed links
of its entry change nothing. -/
theorem Refines.createEntry (hr : b.Refines a) {key : List UInt8} (hk : key ∉ a.lru)
    {allocOk : Bool} {c : PsShard × PsEntry}
    (h : b.ratelimitPerSourceCreateEntry key allocOk = .ok c) :
    c.1.Refines (Rsyslog.ratelimitPerSourceCreateEntry a key).1 ∧
      c.2 = (Rsyslog.ratelimitPerSourceCreateEntry a key).2 := by
  unfold ratelimitPerSourceCreateEntry at h
  split at h
  · cases h
    exact ⟨⟨hr.lru.fresh hk, by simp only [Rsyslog.ratelimitPerSourceCreateEntry, hr.ht],
      hr.activeStates, hr.maxStates⟩, rfl⟩
  · cases h

theorem Refines.lruRemove (hr : b.Refines a) (key : List UInt8) :
    (b.ratelimitPerSourceLruRemove key).Refines (Rsyslog.ratelimitPerSourceLruRemove a key) := by
  refine ⟨?_, hr.ht, hr.activeStates, hr.maxStates⟩
  show (b.lru.unlink key).Holds (a.lru.erase key)
  rw [erase_eq_erase]
  exact hr.lru.unlink key

/-- Touching by the links moves the key to the end of the list, as the list-level touch does:
the test of the links and the head finds the key linked exactly when it is on the list. -/
theorem Refines.lruTouch (hr : b.Refines a) (key : List UInt8) :
    (b.ratelimitPerSourceLruTouch key).Refines (Rsyslog.ratelimitPerSourceLruTouch a key) := by
  have hnd := hr.lru.nodup
  have hlinked := hr.lru.linked_iff key
  unfold ratelimitPerSourceLruTouch Rsyslog.ratelimitPerSourceLruTouch
  rw [hr.lru.tail_eq]
  split
  · exact hr
  · by_cases hmem : key ∈ a.lru
    · rw [if_pos (hlinked.mpr hmem)]
      have hr₁ := hr.lruRemove key
      refine ⟨?_, hr.ht, hr.activeStates, hr.maxStates⟩
      show ((b.ratelimitPerSourceLruRemove key).lru.linkLast key).Holds (a.lru.erase key ++ [key])
      exact hr₁.lru.linkLast (by show key ∉ a.lru.erase key; simp [hnd.mem_erase_iff])
    · rw [if_neg (mt hlinked.mp hmem)]
      refine ⟨?_, hr.ht, hr.activeStates, hr.maxStates⟩
      show (b.lru.linkLast key).Holds (a.lru.erase key ++ [key])
      rw [List.erase_of_not_mem hmem]
      exact hr.lru.linkLast hmem

/-- The state at `lru_head` is the head of the list; both levels evict it alike. -/
theorem Refines.evictOne (hr : b.Refines a) :
    b.ratelimitPerSourceEvictOne.Refines (Rsyslog.ratelimitPerSourceEvictOne a) := by
  unfold ratelimitPerSourceEvictOne Rsyslog.ratelimitPerSourceEvictOne
  rw [hr.lru.head_eq]
  cases hlru : a.lru with
  | nil => exact hr
  | cons evict rest =>
    dsimp only [List.head?_cons]
    -- both unlink the head, lower the count, and look its state up in the same table
    have hr₁ : Refines { b.ratelimitPerSourceLruRemove evict with
        activeStates := (b.ratelimitPerSourceLruRemove evict).activeStates - 1 }
        { Rsyslog.ratelimitPerSourceLruRemove a evict with
          activeStates := (Rsyslog.ratelimitPerSourceLruRemove a evict).activeStates - 1 } :=
      ⟨(hr.lruRemove evict).lru, hr.ht, by simp only [ratelimitPerSourceLruRemove,
        Rsyslog.ratelimitPerSourceLruRemove, hr.activeStates], hr.maxStates⟩
    rw [hr₁.search evict]
    cases hs : PsBucket.search _ evict with
    | none => exact hr₁
    | some e =>
      dsimp only
      have hr₂ := hr₁.put { e with stateActive := false }
      split
      · exact hr₂
      · exact ⟨hr₂.lru, by rw [hr₂.ht], hr₂.activeStates, hr₂.maxStates⟩

theorem Refines.evictLoop (hr : b.Refines a) (n : ℕ) :
    (b.ratelimitPerSourceEvictLoop n).Refines (Rsyslog.ratelimitPerSourceEvictLoop a n) := by
  induction n generalizing b a with
  | zero => exact hr
  | succ n ih =>
    simp only [ratelimitPerSourceEvictLoop, Rsyslog.ratelimitPerSourceEvictLoop, hr.maxStates,
      hr.activeStates, hr.lru.head_eq, List.head?_eq_none_iff]
    by_cases hcap : 0 < a.maxStates ∧ a.maxStates ≤ a.activeStates
    · by_cases hnil : a.lru = []
      · rw [if_pos hcap, if_pos hnil, if_neg (fun h => h.2.2 hnil)]
        exact hr
      · rw [if_pos hcap, if_neg hnil, if_pos ⟨hcap.1, hcap.2, hnil⟩]
        exact ih hr.evictOne
    · rw [if_neg hcap, if_neg (fun h => hcap ⟨h.1, h.2.1⟩)]
      exact hr

theorem Refines.findOrCreate (hr : b.Refines a) (hinv : a.Inv) (key : List UInt8)
    {allocOk : Bool} {c : PsShard × PsEntry} (h : b.findOrCreate key allocOk = .ok c) :
    c.1.Refines (a.findOrCreate key).1 ∧ c.2 = (a.findOrCreate key).2 := by
  unfold PsShard.findOrCreate at h
  unfold PsBucket.findOrCreate
  rw [hr.search key] at h
  cases hs : a.search key with
  | some e =>
    rw [hs] at h
    cases h
    exact ⟨hr, rfl⟩
  | none =>
    rw [hs] at h
    exact hr.createEntry (hinv.not_mem_lru_of_search (by simp [hs])) h

/-- The eviction loop's rounds agree: `active_states` here, the length of the list there, equal
under the invariant. -/
theorem Refines.activate (hr : b.Refines a) (hinv : a.Inv)
    (entry : PsEntry) (tt : ℤ) :
    (b.activate entry tt).1.Refines (a.activate entry tt).1 ∧
      (b.activate entry tt).2 = (a.activate entry tt).2 := by
  unfold PsShard.activate PsBucket.activate
  split
  · exact ⟨hr, rfl⟩
  · rw [hr.activeStates, hinv.activeStates_eq]
    have hl := hr.evictLoop a.lru.length
    exact ⟨⟨hl.lru, hl.ht, by simp only [hl.activeStates], hl.maxStates⟩, rfl⟩

/-- A check either fails to create its key's state and leaves the shard, or is the list-level
check. -/
theorem Refines.checkBucket (hr : b.Refines a) (hinv : a.Inv) (defaultMax defaultWindow : ℕ)
    (key : List UInt8) (tt : ℤ) (allocOk : Bool) :
    b.ratelimitPerSourceCheckBucket defaultMax defaultWindow key tt allocOk = (false, b) ∨
      ((b.ratelimitPerSourceCheckBucket defaultMax defaultWindow key tt allocOk).1 =
          (Rsyslog.ratelimitPerSourceCheckBucket defaultMax defaultWindow a key tt).1 ∧
        (b.ratelimitPerSourceCheckBucket defaultMax defaultWindow key tt allocOk).2.Refines
          (Rsyslog.ratelimitPerSourceCheckBucket defaultMax defaultWindow a key tt).2) := by
  rw [ratelimitPerSourceCheckBucket_eq]
  unfold PsShard.ratelimitPerSourceCheckBucket
  split
  · exact Or.inl rfl
  · next found hfound =>
    obtain ⟨hf, hfe⟩ := hr.findOrCreate hinv key hfound
    have ha := hf.activate (PsBucket.Inv.findOrCreate hinv key).1 (a.findOrCreate key).2 tt
    refine Or.inr ?_
    simp only [hfe, ha.2, true_and]
    exact (ha.1.lruTouch key).put _

theorem Refines.shardOverrides (hr : b.Refines a) (shard : ℕ) (overrides : List PsOverride) :
    (b.ratelimitPerSourceShardOverrides shard overrides).Refines
      (Rsyslog.ratelimitPerSourceShardOverrides shard overrides a) :=
  ⟨hr.lru, by simp only [ratelimitPerSourceShardOverrides,
    Rsyslog.ratelimitPerSourceShardOverrides, hr.ht], hr.activeStates, hr.maxStates⟩

end PsShard

/-- RATELIMIT_PERSOURCE_DEFAULT_MAX_STATES: the cap on active states when none is configured. -/
def ratelimitPersourceDefaultMaxStates : ℕ := 10000

/-- The shard of a key, an index into the array of shards. -/
def ratelimitPerSourceShard (key : List UInt8) : Fin ratelimitPersourceShards :=
  ⟨ratelimitPerSourceBucket key, Nat.mod_lt _ (by decide)⟩

@[simp] theorem val_ratelimitPerSourceShard (key : List UInt8) :
    (ratelimitPerSourceShard key : ℕ) = ratelimitPerSourceBucket key :=
  rfl

/-- The per-source side of a shared limiter: the array of shards and the policy's settings. -/
structure PsSharedLru where
  shards : Fin ratelimitPersourceShards → PsShard
  perSourceEnabled : Bool
  perSourceDefaultMax : ℕ
  perSourceDefaultWindow : ℕ

namespace PsSharedLru

/-- Replaces one shard. -/
def setShard (s : PsSharedLru) (i : Fin ratelimitPersourceShards) (b : PsShard) : PsSharedLru :=
  { s with shards := fun j => if j = i then b else s.shards j }

/-- ratelimitPerSourceCheck: `false` when the message is dropped, because the key has used up
its window (RS_RET_DISCARDMSG) or its state could not be created; an empty key and a disabled
per-source policy let every message pass. `allocOk` is the outcome of the creation's
allocations. -/
def ratelimitPerSourceCheck (s : PsSharedLru) (key : List UInt8) (tt clock : ℤ)
    (allocOk : Bool) : Bool × PsSharedLru :=
  if key = [] then (true, s) else
  let tt := if tt = 0 then clock else tt
  if !s.perSourceEnabled then (true, s) else
  let i := ratelimitPerSourceShard key
  let r := (s.shards i).ratelimitPerSourceCheckBucket s.perSourceDefaultMax
    s.perSourceDefaultWindow key tt allocOk
  (r.1, s.setShard i r.2)

/-- The first pass of ratelimitPerSourceApplyOverrides for one override: its key gets a state in
its shard if it has none; a failed creation returns its error with the shards as they were. -/
def ensureOverrideEntry (s : PsSharedLru) (o : PsOverride) (allocOk : Bool) :
    RsRetVal × PsSharedLru :=
  let i := ratelimitPerSourceShard o.key
  match (s.shards i).search o.key with
  | some _ => (.ok, s)
  | none =>
    match (s.shards i).ratelimitPerSourceCreateEntry o.key allocOk with
    | .ok created => (.ok, s.setShard i created.1)
    | .error r => (r, s)

/-- The first pass of ratelimitPerSourceApplyOverrides, over the overrides in turn: the `n`-th
override takes the `n`-th allocation outcome (success past the end of `allocs`), and the pass
stops at the first creation that fails. -/
def ensureOverrideEntries (s : PsSharedLru) : List PsOverride → List Bool → RsRetVal × PsSharedLru
  | [], _ => (.ok, s)
  | o :: os, allocs =>
    let r := s.ensureOverrideEntry o (allocs.headD true)
    if r.1 ≠ .ok then r else r.2.ensureOverrideEntries os allocs.tail

/-- ratelimitPerSourceApplyOverrides: every overridden key gets a state in its shard, then each
shard takes the new overrides. A failed creation in the first pass returns at once (FINALIZE):
the states created before it stay, and no shard takes the new overrides. -/
def ratelimitPerSourceApplyOverrides (s : PsSharedLru) (overrides : List PsOverride)
    (allocs : List Bool) : RsRetVal × PsSharedLru :=
  let r := s.ensureOverrideEntries overrides allocs
  if r.1 ≠ .ok then r else
  (.ok, { r.2 with shards := fun i => (r.2.shards i).ratelimitPerSourceShardOverrides i overrides })

/-- ratelimitSetPerSourceShardCaps: every shard gets its share of the cap, the default cap when
none is given. -/
def ratelimitSetPerSourceShardCaps (s : PsSharedLru) (maxStates : ℕ) : PsSharedLru :=
  let maxStates := if maxStates = 0 then ratelimitPersourceDefaultMaxStates else maxStates
  { s with shards := fun i => { s.shards i with maxStates := ratelimitPerSourceShardCap maxStates i } }

/-- ratelimitInitPerSourceShards on a zeroed shared state: empty tables and lists, then the caps. -/
def ratelimitInitPerSourceShards (s : PsSharedLru) (maxStates : ℕ) : PsSharedLru :=
  ratelimitSetPerSourceShardCaps { s with shards := fun _ => ⟨[], DllLinks.empty, 0, 0⟩ } maxStates

end PsSharedLru

/-- The calls that change the per-source state: a message checked, a policy reload's overrides,
and a new cap; the first two with the outcomes of the allocations they may make. -/
inductive PsCall where
  | check (key : List UInt8) (tt clock : ℤ) (allocOk : Bool)
  | applyOverrides (overrides : List PsOverride) (allocs : List Bool)
  | setShardCaps (maxStates : ℕ)

namespace PsSharedLru

/-- The state after one call. -/
def call (s : PsSharedLru) : PsCall → PsSharedLru
  | .check key tt clock allocOk => (s.ratelimitPerSourceCheck key tt clock allocOk).2
  | .applyOverrides overrides allocs => (s.ratelimitPerSourceApplyOverrides overrides allocs).2
  | .setShardCaps maxStates => s.ratelimitSetPerSourceShardCaps maxStates

/-- The state after a run of calls. -/
def run (s : PsSharedLru) (calls : List PsCall) : PsSharedLru :=
  calls.foldl call s

end PsSharedLru

/-! ## Runs of calls -/

namespace PsSharedLru

/-- The pointer state `s` refines the list state `t`: each shard refines its list shard, which
keeps the invariant, and the policy's settings are the same. -/
structure Refines (s : PsSharedLru) (t : PsShared) : Prop where
  shards : ∀ i : Fin ratelimitPersourceShards, (s.shards i).Refines (t.shards i)
  inv : ∀ i : Fin ratelimitPersourceShards, (t.shards i).Inv
  perSourceEnabled : s.perSourceEnabled = t.perSourceEnabled
  perSourceDefaultMax : s.perSourceDefaultMax = t.perSourceDefaultMax
  perSourceDefaultWindow : s.perSourceDefaultWindow = t.perSourceDefaultWindow

variable {s : PsSharedLru} {t : PsShared}

theorem setShard_self (s : PsSharedLru) (i : Fin ratelimitPersourceShards) :
    s.setShard i (s.shards i) = s := by
  cases s with
  | mk shards enabled defaultMax defaultWindow =>
    simp only [setShard, mk.injEq, and_true]
    funext j
    split
    · next h => rw [h]
    · rfl

theorem Refines.setShard (hr : s.Refines t) (i : Fin ratelimitPersourceShards)
    {b : PsShard} {a : PsBucket} (hb : b.Refines a) (ha : a.Inv) :
    (s.setShard i b).Refines (t.setShard i a) := by
  refine ⟨fun j => ?_, fun j => ?_, hr.perSourceEnabled, hr.perSourceDefaultMax,
    hr.perSourceDefaultWindow⟩
  · simp only [PsSharedLru.setShard, PsShared.setShard, Fin.val_inj]
    split
    · exact hb
    · exact hr.shards j
  · simp only [PsShared.setShard, Fin.val_inj]
    split
    · exact ha
    · exact hr.inv j

/-- A check either fails to create its key's state and changes nothing, or is matched by the
list-level check, with the same result. -/
theorem Refines.check (hr : s.Refines t) (key : List UInt8) (tt clock : ℤ) (allocOk : Bool) :
    s.ratelimitPerSourceCheck key tt clock allocOk = (false, s) ∨
      ((s.ratelimitPerSourceCheck key tt clock allocOk).1 =
          (Rsyslog.ratelimitPerSourceCheck t key tt clock).1 ∧
        (s.ratelimitPerSourceCheck key tt clock allocOk).2.Refines
          (Rsyslog.ratelimitPerSourceCheck t key tt clock).2) := by
  unfold ratelimitPerSourceCheck Rsyslog.ratelimitPerSourceCheck
  rw [hr.perSourceEnabled]
  by_cases hkey : key = []
  · simp only [hkey, if_true]
    exact Or.inr ⟨by trivial, hr⟩
  rw [if_neg hkey, if_neg hkey]
  dsimp only
  cases hen : t.perSourceEnabled
  · exact Or.inr ⟨by trivial, hr⟩
  -- the key's shard is checked at both levels
  let i := ratelimitPerSourceShard key
  simp only [Bool.not_true, Bool.false_eq_true, if_false, hr.perSourceDefaultMax,
    hr.perSourceDefaultWindow]
  rcases (hr.shards i).checkBucket (hr.inv i) t.perSourceDefaultMax t.perSourceDefaultWindow key
    (if tt = 0 then clock else tt) allocOk with hfail | hc
  · left
    rw [hfail]
    exact congrArg (Prod.mk false) (setShard_self s i)
  · exact Or.inr ⟨hc.1, hr.setShard i hc.2 ((hr.inv i).checkBucket _ _ key _)⟩

/-- The first pass for one override either fails to create the key's state, for want of memory
and changing nothing, or is the list-level pass. -/
theorem Refines.ensureOverrideEntry (hr : s.Refines t) (o : PsOverride) (allocOk : Bool) :
    s.ensureOverrideEntry o allocOk = (.outOfMemory, s) ∨
      ((s.ensureOverrideEntry o allocOk).1 = .ok ∧
        (s.ensureOverrideEntry o allocOk).2.Refines (t.ensureOverrideEntry o)) := by
  let i := ratelimitPerSourceShard o.key
  have hinv : (t.shards (ratelimitPerSourceBucket o.key)).Inv := hr.inv i
  unfold PsSharedLru.ensureOverrideEntry PsShared.ensureOverrideEntry
  dsimp only
  rw [(hr.shards i).search o.key, val_ratelimitPerSourceShard]
  cases hs : (t.shards (ratelimitPerSourceBucket o.key)).search o.key with
  | some _ => exact Or.inr ⟨rfl, hr⟩
  | none =>
    dsimp only
    split
    · next created hcreate =>
      have hc := (hr.shards i).createEntry (hinv.not_mem_lru_of_search (by simp [hs])) hcreate
      exact Or.inr ⟨rfl, hr.setShard i hc.1 (hinv.create hs)⟩
    · next r hcreate =>
      rw [PsShard.createEntry_eq_error hcreate]
      exact Or.inl rfl

/-- The first pass either stops at a failed creation, with the states created so far, or is the
list-level pass; either way the list shards keep the invariant. -/
theorem Refines.ensureOverrideEntries (hr : s.Refines t) (os : List PsOverride)
    (allocs : List Bool) :
    ∃ t', (s.ensureOverrideEntries os allocs).2.Refines t' ∧
      ((s.ensureOverrideEntries os allocs).1 = .ok →
        t' = os.foldl PsShared.ensureOverrideEntry t) := by
  induction os generalizing s t allocs with
  | nil => exact ⟨t, hr, fun _ => rfl⟩
  | cons o os ih =>
    unfold PsSharedLru.ensureOverrideEntries
    dsimp only
    rcases hr.ensureOverrideEntry o (allocs.headD true) with hfail | ⟨hok, hr₁⟩
    · -- the creation failed: the pass returns its error, nothing changed
      rw [hfail]
      exact ⟨t, hr, fun h => absurd h (by simp)⟩
    · rw [if_neg (not_not_intro hok)]
      exact ih hr₁ allocs.tail

/-- A reload either fails in its first pass, leaving a state that the invariant admits, or is
the list-level reload. -/
theorem Refines.applyOverrides (hr : s.Refines t) (overrides : List PsOverride)
    (allocs : List Bool) :
    ∃ t', (s.ratelimitPerSourceApplyOverrides overrides allocs).2.Refines t' ∧
      ((s.ratelimitPerSourceApplyOverrides overrides allocs).1 = .ok →
        t' = Rsyslog.ratelimitPerSourceApplyOverrides t overrides) := by
  obtain ⟨t₁, h₁, hok₁⟩ := hr.ensureOverrideEntries overrides allocs
  unfold PsSharedLru.ratelimitPerSourceApplyOverrides
  dsimp only
  split
  · next hfail => exact ⟨t₁, h₁, fun h => absurd h hfail⟩
  · -- the second pass, shard by shard
    next hok =>
    obtain rfl := hok₁ (not_not.mp hok)
    refine ⟨Rsyslog.ratelimitPerSourceApplyOverrides t overrides, ?_, fun _ => rfl⟩
    rw [ratelimitPerSourceApplyOverrides_eq]
    exact ⟨fun i => (h₁.shards i).shardOverrides i overrides,
      fun i => (h₁.inv i).shardOverrides i overrides, h₁.perSourceEnabled,
      h₁.perSourceDefaultMax, h₁.perSourceDefaultWindow⟩

theorem Refines.setShardCaps (hr : s.Refines t) (maxStates : ℕ) :
    (s.ratelimitSetPerSourceShardCaps maxStates).Refines
      { t with shards := fun n => { t.shards n with
          maxStates := ratelimitPerSourceShardCap
            (if maxStates = 0 then ratelimitPersourceDefaultMaxStates else maxStates) n } } := by
  have hpos : 0 < if maxStates = 0 then ratelimitPersourceDefaultMaxStates else maxStates := by
    unfold ratelimitPersourceDefaultMaxStates
    split <;> omega
  exact ⟨fun i => ⟨(hr.shards i).lru, (hr.shards i).ht, (hr.shards i).activeStates, rfl⟩,
    fun i => (hr.inv i).setMaxStates (ratelimitPerSourceShardCap_pos hpos i), hr.perSourceEnabled,
    hr.perSourceDefaultMax, hr.perSourceDefaultWindow⟩

/-- Every call is matched at the list level. -/
theorem Refines.call (hr : s.Refines t) (c : PsCall) : ∃ t', (s.call c).Refines t' := by
  cases c with
  | check key tt clock allocOk =>
    rcases hr.check key tt clock allocOk with hfail | hc
    · exact ⟨t, by rw [PsSharedLru.call, hfail]; exact hr⟩
    · exact ⟨_, hc.2⟩
  | applyOverrides overrides allocs =>
    obtain ⟨t', ht', -⟩ := hr.applyOverrides overrides allocs
    exact ⟨t', ht'⟩
  | setShardCaps maxStates => exact ⟨_, hr.setShardCaps maxStates⟩

theorem Refines.run (hr : s.Refines t) (calls : List PsCall) : ∃ t', (s.run calls).Refines t' := by
  induction calls generalizing s t with
  | nil => exact ⟨t, hr⟩
  | cons c calls ih =>
    obtain ⟨t₁, h₁⟩ := hr.call c
    exact ih h₁

/-- The shards as initialised refine empty list shards with their caps. -/
theorem refines_init (s : PsSharedLru) (maxStates : ℕ) :
    ∃ t, (s.ratelimitInitPerSourceShards maxStates).Refines t := by
  let m := if maxStates = 0 then ratelimitPersourceDefaultMaxStates else maxStates
  have hpos : 0 < m := by
    unfold m ratelimitPersourceDefaultMaxStates
    split <;> omega
  exact ⟨⟨fun n => ⟨[], [], 0, ratelimitPerSourceShardCap m n⟩, s.perSourceEnabled,
      s.perSourceDefaultMax, s.perSourceDefaultWindow⟩,
    fun i => ⟨DllLinks.Holds.empty, rfl, rfl, rfl⟩,
    fun i => PsBucket.inv_empty (ratelimitPerSourceShardCap_pos hpos i), rfl, rfl, rfl⟩

end PsSharedLru

/-! ## The shape of every reachable shard -/

namespace PsShard

/-- The shape the C code relies on in a shard: the LRU list from `lru_head` is a well-formed
doubly linked list (nothing before the head or after the tail, `lru_next` and `lru_prev` inverse
to each other, the walk from the head reaching NULL after its nodes, each once) that ends at
`lru_tail`; its members are the active states of the table, `active_states` is its length, the
table holds each key once, and every inactive state carries an override or is the zeroed state
calloc gave it. -/
structure WellFormed (b : PsShard) : Prop where
  head_prev : ∀ x, b.lru.head = some x → b.lru.prev x = none
  tail_next : ∀ x, b.lru.tail = some x → b.lru.next x = none
  next_iff_prev : ∀ x y, b.lru.next x = some y ↔ b.lru.prev y = some x
  walk : ∃ l : List (List UInt8), followNext b.lru.next b.lru.head l.length = (l, none) ∧
    l.Nodup ∧ b.lru.tail = l.getLast? ∧ b.activeStates = l.length ∧
    ∀ k, k ∈ l ↔ ∃ e ∈ b.ht, e.key = k ∧ e.stateActive = true
  keys_nodup : (b.ht.map PsEntry.key).Nodup
  inactive_override : ∀ e ∈ b.ht, e.stateActive = false →
    e.hasOverride = true ∨ e = PsEntry.new e.key

variable {b : PsShard} {a : PsBucket}

/-- A pointer shard over a list shard that keeps the invariant has the shape. -/
theorem Refines.wellFormed (hr : b.Refines a) (hinv : a.Inv) : b.WellFormed := by
  have hnd : (b.ht.map PsEntry.key).Nodup := hr.ht ▸ hinv.keys_nodup
  refine ⟨fun x hx => hr.lru.prev_head hx, fun x hx => hr.lru.next_tail hx,
    hr.lru.next_eq_some_iff, ⟨a.lru, hr.lru.followNext_head, hr.lru.nodup, hr.lru.tail_eq,
      hr.activeStates.trans hinv.activeStates_eq, fun k => ?_⟩, hnd, fun e he hinact => ?_⟩
  · -- the members of the list are the keys of the active states
    rw [hinv.mem_lru k]
    constructor
    · rintro ⟨e, hs, hact⟩
      obtain ⟨he, hek⟩ := PsBucket.mem_of_search hs
      exact ⟨e, hr.ht ▸ he, hek, hact⟩
    · rintro ⟨e, he, rfl, hact⟩
      exact ⟨e, PsBucket.search_of_mem hinv.keys_nodup (hr.ht ▸ he), hact⟩
  · exact hinv.hasOverride e.key e (PsBucket.search_of_mem hinv.keys_nodup (hr.ht ▸ he)) hinact

/-- The second pass of a reload leaves an override on every inactive state of the shard. -/
theorem hasOverride_shardOverrides (b : PsShard) (shard : ℕ) (overrides : List PsOverride) :
    ∀ e ∈ (b.ratelimitPerSourceShardOverrides shard overrides).ht, e.stateActive = false →
      e.hasOverride = true := by
  intro e he hinact
  have hq := (List.mem_filter.mp he).2
  simpa [hinact] using hq

end PsShard

namespace PsSharedLru

variable {s : PsSharedLru} {t : PsShared}

/-- A reload that returns RS_RET_OK ran its second pass on every shard. -/
theorem hasOverride_applyOverrides (s : PsSharedLru) {overrides : List PsOverride}
    {allocs : List Bool} (hok : (s.ratelimitPerSourceApplyOverrides overrides allocs).1 = .ok)
    (i : Fin ratelimitPersourceShards) :
    ∀ e ∈ ((s.ratelimitPerSourceApplyOverrides overrides allocs).2.shards i).ht,
      e.stateActive = false → e.hasOverride = true := by
  unfold ratelimitPerSourceApplyOverrides at hok ⊢
  dsimp only at hok ⊢
  by_cases hfail : (s.ensureOverrideEntries overrides allocs).1 ≠ .ok
  · rw [if_pos hfail] at hok
    exact absurd hok hfail
  · rw [if_neg hfail]
    exact PsShard.hasOverride_shardOverrides _ i overrides

/-- A check that activates its key's state leaves the key's shard within its cap. -/
theorem Refines.activeStates_check_le (hr : s.Refines t) {key : List UInt8} {tt clock : ℤ}
    {allocOk : Bool}
    (hbefore : ∀ e, (s.shards (ratelimitPerSourceShard key)).search key = some e →
      e.stateActive = false)
    (hafter : ∃ e, ((s.ratelimitPerSourceCheck key tt clock allocOk).2.shards
      (ratelimitPerSourceShard key)).search key = some e ∧ e.stateActive = true) :
    ((s.ratelimitPerSourceCheck key tt clock allocOk).2.shards
        (ratelimitPerSourceShard key)).activeStates ≤
      ((s.ratelimitPerSourceCheck key tt clock allocOk).2.shards
        (ratelimitPerSourceShard key)).maxStates := by
  let i := ratelimitPerSourceShard key
  obtain ⟨e, hs, hact⟩ := hafter
  -- a call that returns early leaves the shard, where the key's state is not active
  have hearly : (s.shards i).search key = some e → False := fun hs' => by
    simp [hbefore e hs'] at hact
  unfold ratelimitPerSourceCheck at hs ⊢
  by_cases hkey : key = []
  · rw [if_pos hkey] at hs
    exact (hearly hs).elim
  rw [if_neg hkey] at hs ⊢
  dsimp only at hs ⊢
  cases hen : s.perSourceEnabled
  · simp only [hen, Bool.not_false, if_true] at hs
    exact (hearly hs).elim
  -- the key's shard is checked, at the list level too
  simp only [hen, Bool.not_true, Bool.false_eq_true, if_false, PsSharedLru.setShard, if_true]
    at hs ⊢
  rcases (hr.shards i).checkBucket (hr.inv i) s.perSourceDefaultMax s.perSourceDefaultWindow key
    (if tt = 0 then clock else tt) allocOk with hfail | hc
  · -- a failed creation left the shard, where the key's state is not active
    rw [hfail] at hs
    exact (hearly hs).elim
  rw [hc.2.activeStates, hc.2.maxStates]
  apply PsBucket.Inv.activeStates_checkBucket_le (hr.inv i)
  intro e' he'
  exact hbefore e' (by rw [(hr.shards i).search]; exact he')

end PsSharedLru

/-- The per-source state stays well formed over every run of checks, reloads and new caps from
the initialised shards, whatever the allocations do: every shard has the shape
`PsShard.WellFormed`, a check that activates its key's state leaves the key's shard within its
cap, and a reload that returns RS_RET_OK leaves an override on every inactive state. -/
theorem ratelimitPerSource_wellFormed (s : PsSharedLru) (maxStates : ℕ) (calls : List PsCall) :
    let s := (s.ratelimitInitPerSourceShards maxStates).run calls
    (∀ i, (s.shards i).WellFormed) ∧
      (∀ (key : List UInt8) (tt clock : ℤ) (allocOk : Bool),
        (∀ e, (s.shards (ratelimitPerSourceShard key)).search key = some e →
          e.stateActive = false) →
        (∃ e, ((s.ratelimitPerSourceCheck key tt clock allocOk).2.shards
          (ratelimitPerSourceShard key)).search key = some e ∧ e.stateActive = true) →
        ((s.ratelimitPerSourceCheck key tt clock allocOk).2.shards
            (ratelimitPerSourceShard key)).activeStates ≤
          ((s.ratelimitPerSourceCheck key tt clock allocOk).2.shards
            (ratelimitPerSourceShard key)).maxStates) ∧
      ∀ (overrides : List PsOverride) (allocs : List Bool),
        (s.ratelimitPerSourceApplyOverrides overrides allocs).1 = .ok →
        ∀ i, ∀ e ∈ ((s.ratelimitPerSourceApplyOverrides overrides allocs).2.shards i).ht,
          e.stateActive = false → e.hasOverride = true := by
  intro s'
  obtain ⟨t₀, h₀⟩ := PsSharedLru.refines_init s maxStates
  obtain ⟨t, ht⟩ := h₀.run calls
  exact ⟨fun i => (ht.shards i).wellFormed (ht.inv i),
    fun key tt clock allocOk hbefore hafter => ht.activeStates_check_le hbefore hafter,
    fun overrides allocs hok => s'.hasOverride_applyOverrides hok⟩

/-- The first message of a key, on freshly initialised shards, activates the key's state. -/
theorem ratelimitPerSource_wellFormed_firstKey :
    let s := ((⟨fun _ => ⟨[], DllLinks.empty, 0, 0⟩, true, 10, 60⟩ : PsSharedLru)
      |>.ratelimitInitPerSourceShards 0).run []
    let s' := (s.ratelimitPerSourceCheck (asciiBytes "a") 100 0 true).2
    let i := ratelimitPerSourceShard (asciiBytes "a")
    (∀ e, (s.shards i).search (asciiBytes "a") = some e → e.stateActive = false) ∧
      (∃ e, (s'.shards i).search (asciiBytes "a") = some e ∧ e.stateActive = true) ∧
      (s'.shards i).activeStates ≤ (s'.shards i).maxStates := by
  intro s s' i
  have hbefore : ∀ e, (s.shards i).search (asciiBytes "a") = some e → e.stateActive = false := by
    intro e he
    cases he
  have hafter : ∃ e, (s'.shards i).search (asciiBytes "a") = some e ∧ e.stateActive = true :=
    ⟨_, rfl, rfl⟩
  exact ⟨hbefore, hafter,
    (ratelimitPerSource_wellFormed _ 0 []).2.1 (asciiBytes "a") 100 0 true hbefore hafter⟩

/-- A reload of two overrides whose second creation fails returns RS_RET_OUT_OF_MEMORY and leaves
the state its first creation made: inactive, and without an override. -/
theorem ratelimitPerSource_failedReload_bareState :
    let s := (⟨fun _ => ⟨[], DllLinks.empty, 0, 0⟩, true, 10, 60⟩ : PsSharedLru)
      |>.ratelimitInitPerSourceShards 0
    let overrides : List PsOverride :=
      [⟨asciiBytes "a", true, 1, true, 10⟩, ⟨asciiBytes "b", true, 1, true, 10⟩]
    (s.ratelimitPerSourceApplyOverrides overrides [true, false]).1 = .outOfMemory ∧
      ∃ e ∈ ((s.run [.applyOverrides overrides [true, false]]).shards
          (ratelimitPerSourceShard (asciiBytes "a"))).ht,
        e.stateActive = false ∧ e.hasOverride = false := by
  decide

end Rsyslog
