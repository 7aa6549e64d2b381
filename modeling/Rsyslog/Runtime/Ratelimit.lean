import Mathlib.Data.List.Induction
import Rsyslog.Common.ByteBuffer

/-!
# Message rate limiting

A limiter (ratelimit_t) counts the messages it let through since the start of its fixed window
and lets one through while that count is below the burst. `withinRatelimit` (behind
ratelimitMsg and ratelimitMsgCount) and `ratelimitMsgCountWait` differ in how a window restarts.
The per-source limiter keeps one window per key in 32 shards, each with a cap on its active
states; reaching the cap evicts the least recently used state, and a state the policy overrides
survives eviction with its count.

Times are time_t seconds, as integers, and the clock is an argument of each call. The log lines
and the statistics counters are left out.
-/

namespace Rsyslog

open Rsyslog.Common

/-- The settings a limiter reads at each call: the shared policy's interval and burst, and the
limiter's own choice to read the clock instead of the message time (bNoTimeCache). -/
structure RatelimitConfig where
  interval : ℕ
  burst : ℕ
  bNoTimeCache : Bool

/-- The window of a limiter: its start (0 while unset), the messages let through in it, and the
messages dropped since the last report of lost messages. -/
structure Ratelimit where
  begin : ℤ
  done : ℕ
  missed : UInt32
deriving DecidableEq, Repr

/-- A fresh limiter, as ratelimitNew leaves it. -/
def Ratelimit.init : Ratelimit :=
  ⟨0, 0, 0⟩

/-- tellLostCnt: reports the dropped messages, if any, and clears their count. -/
def tellLostCnt (rl : Ratelimit) : Ratelimit :=
  { rl with missed := 0 }

/-- The time `withinRatelimit` judges a call by. -/
def withinRatelimitTime (cfg : RatelimitConfig) (tt clock : ℤ) : ℤ :=
  if cfg.bNoTimeCache then clock else tt

/-- withinRatelimit: whether a message at time `tt` is within the rate limit. -/
def withinRatelimit (cfg : RatelimitConfig) (rl : Ratelimit) (tt clock : ℤ) : Bool × Ratelimit :=
  if cfg.interval = 0 then (true, rl) else
  let tt := withinRatelimitTime cfg tt clock
  let rl := if rl.begin = 0 then { rl with begin := tt } else rl
  -- resume if we go out of the time window or if time has gone backwards
  let rl := if tt > rl.begin + cfg.interval ∨ tt < rl.begin then
      tellLostCnt { rl with begin := 0, done := 0 } else rl
  if cfg.burst > rl.done then (true, { rl with done := rl.done + 1 })
  else (false, { rl with missed := rl.missed + 1 })

/-- ratelimitMsgCount: RS_RET_OK, as `true`, when the message may be processed. -/
def ratelimitMsgCount (cfg : RatelimitConfig) (rl : Ratelimit) (tt clock : ℤ) : Bool × Ratelimit :=
  if cfg.interval ≠ 0 then withinRatelimit cfg rl tt clock else (true, rl)

/-- The time `ratelimitMsgCountWait` judges a call by. -/
def ratelimitMsgCountWaitTime (cfg : RatelimitConfig) (tt clock : ℤ) : ℤ :=
  if cfg.bNoTimeCache || tt = 0 then clock else tt

/-- The window `ratelimitMsgCountWait` judges a call at time `tt` in: an unset window starts at
`tt`, and one that has run out or lies ahead restarts at `tt`. -/
def waitWindow (interval : ℕ) (rl : Ratelimit) (tt : ℤ) : Ratelimit :=
  let rl := if rl.begin = 0 then { rl with begin := tt } else rl
  if tt ≥ rl.begin + interval ∨ tt < rl.begin then
    tellLostCnt { rl with begin := tt, done := 0 } else rl

/-- ratelimitMsgCountWait: whether the message may be processed, and for a dropped one the
microseconds until its window ends (at least a second, at most UINT_MAX). -/
def ratelimitMsgCountWait (cfg : RatelimitConfig) (rl : Ratelimit) (tt clock : ℤ) :
    Bool × ℕ × Ratelimit :=
  if cfg.interval = 0 then (true, 0, rl) else
  let tt := ratelimitMsgCountWaitTime cfg tt clock
  let rl := waitWindow cfg.interval rl tt
  if cfg.burst > rl.done then (true, 0, { rl with done := rl.done + 1 })
  else
    let resumeTime := rl.begin + cfg.interval
    let waitSec := if resumeTime > tt then resumeTime - tt else 1
    (false, if waitSec > 4294 then 4294967295 else waitSec.toNat * 1000000, rl)

/-- `ratelimitMsgCountWait` as a step of a run: the verdict and the new state. -/
def ratelimitMsgCountWaitStep (cfg : RatelimitConfig) (rl : Ratelimit) (tt clock : ℤ) :
    Bool × Ratelimit :=
  ((ratelimitMsgCountWait cfg rl tt clock).1, (ratelimitMsgCountWait cfg rl tt clock).2.2)

/-! ## Runs of a limiter -/

section Runs

variable (time : ℤ → ℤ → ℤ) (step : Ratelimit → ℤ → ℤ → Bool × Ratelimit)

/-- The state a run of calls `(tt, clock)` leaves a limiter in. -/
def limiterState (rl : Ratelimit) : List (ℤ × ℤ) → Ratelimit
  | [] => rl
  | (tt, clock) :: calls => limiterState (step rl tt clock).2 calls

/-- The history of a run: for each call the time it was judged at and whether it passed. -/
def limiterRun (rl : Ratelimit) : List (ℤ × ℤ) → List (ℤ × Bool)
  | [] => []
  | (tt, clock) :: calls => (time tt clock, (step rl tt clock).1) :: limiterRun (step rl tt clock).2 calls

theorem limiterState_append_singleton (rl : Ratelimit) (calls : List (ℤ × ℤ)) (tt clock : ℤ) :
    limiterState step rl (calls ++ [(tt, clock)]) = (step (limiterState step rl calls) tt clock).2 := by
  induction calls generalizing rl with
  | nil => rfl
  | cons call calls ih => exact ih _

theorem limiterRun_append_singleton (rl : Ratelimit) (calls : List (ℤ × ℤ)) (tt clock : ℤ) :
    limiterRun time step rl (calls ++ [(tt, clock)]) =
      limiterRun time step rl calls ++ [(time tt clock, (step (limiterState step rl calls) tt clock).1)] := by
  induction calls generalizing rl with
  | nil => rfl
  | cons call calls ih => simp [limiterRun, limiterState, ih]

end Runs

/-- The messages of a history let through at or after time `lo`. -/
def passedSince (h : List (ℤ × Bool)) (lo : ℤ) : ℕ :=
  h.countP fun e => e.2 && decide (lo ≤ e.1)

/-- The messages of a history let through at times from `lo` to `hi`. -/
def passedWithin (h : List (ℤ × Bool)) (lo hi : ℤ) : ℕ :=
  h.countP fun e => e.2 && decide (lo ≤ e.1 ∧ e.1 ≤ hi)

/-- The history a window stands for: an unset window counts nothing, and the messages a window
counts were let through at or after its start. -/
def WindowCounts (h : List (ℤ × Bool)) (rl : Ratelimit) : Prop :=
  (rl.begin = 0 → rl.done = 0) ∧ rl.done ≤ passedSince h rl.begin

theorem passedSince_append_singleton (h : List (ℤ × Bool)) (lo t : ℤ) (pass : Bool) :
    passedSince (h ++ [(t, pass)]) lo = passedSince h lo + if pass && decide (lo ≤ t) then 1 else 0 := by
  simp [passedSince, List.countP_append, List.countP_cons]

/-- A window that ends after `t` and started at `lo` holds only messages of the `interval` seconds
before `t`, when the history has nothing later than `t`. -/
theorem passedSince_le_passedWithin {h : List (ℤ × Bool)} {lo t : ℤ} {interval : ℕ}
    (hle : ∀ e ∈ h, e.1 ≤ t) (hend : t < lo + interval) :
    passedSince h lo ≤ passedWithin h (t - interval) t := by
  apply List.countP_mono_left
  intro e he
  have := hle e he
  simp only [Bool.and_eq_true, decide_eq_true_eq, and_imp]
  intro hpass hlo
  exact ⟨hpass, by omega, this⟩

/-- Everything `waitWindow` can do to a window whose unset state counts nothing: the call's time
lies in the window it returns, which is either new and empty or the old one. -/
theorem waitWindow_cases {interval : ℕ} {rl : Ratelimit} (tt : ℤ) (hint : 0 < interval)
    (hunset : rl.begin = 0 → rl.done = 0) :
    (waitWindow interval rl tt).begin ≤ tt ∧ tt < (waitWindow interval rl tt).begin + interval ∧
      ((waitWindow interval rl tt).begin = tt ∧ (waitWindow interval rl tt).done = 0 ∨
        (waitWindow interval rl tt) = rl ∧ rl.begin ≠ 0) := by
  unfold waitWindow tellLostCnt
  by_cases hbegin : rl.begin = 0
  · -- an unset window opens at the call and cannot have run out
    simp only [hbegin, if_true]
    rw [if_neg (by omega)]
    dsimp only
    exact ⟨Int.le_refl tt, by omega, .inl ⟨rfl, hunset hbegin⟩⟩
  · simp only [hbegin, if_false]
    split
    · dsimp only
      exact ⟨Int.le_refl tt, by omega, .inl ⟨rfl, rfl⟩⟩
    · exact ⟨by omega, by omega, .inr ⟨rfl, hbegin⟩⟩

section Wait

variable {cfg : RatelimitConfig} {h : List (ℤ × Bool)} {rl : Ratelimit} {tt clock : ℤ}

/-- A dropped call of `ratelimitMsgCountWait` follows `burst` messages of its `interval`. -/
theorem ratelimitMsgCountWait_drop_of_windowCounts (hinv : WindowCounts h rl)
    (hle : ∀ e ∈ h, e.1 ≤ ratelimitMsgCountWaitTime cfg tt clock)
    (hdrop : (ratelimitMsgCountWait cfg rl tt clock).1 = false) :
    cfg.burst ≤ passedWithin h (ratelimitMsgCountWaitTime cfg tt clock - cfg.interval)
      (ratelimitMsgCountWaitTime cfg tt clock) := by
  unfold ratelimitMsgCountWait at hdrop
  have hint : 0 < cfg.interval := by
    by_contra hzero
    simp [Nat.eq_zero_of_not_pos hzero] at hdrop
  simp only [Nat.pos_iff_ne_zero.mp hint, if_false] at hdrop
  set t := ratelimitMsgCountWaitTime cfg tt clock
  obtain ⟨-, hend, hwin⟩ := waitWindow_cases t hint hinv.1
  have hburst : cfg.burst ≤ (waitWindow cfg.interval rl t).done := by
    by_contra hlt
    simp [Nat.lt_of_not_le hlt] at hdrop
  -- the window's count is what the invariant bounds, or it is empty
  have hcount : (waitWindow cfg.interval rl t).done ≤ passedSince h (waitWindow cfg.interval rl t).begin := by
    rcases hwin with ⟨-, hzero⟩ | ⟨hsame, -⟩
    · simp [hzero]
    · rw [hsame]
      exact hinv.2
  exact hburst.trans (hcount.trans (passedSince_le_passedWithin hle hend))

/-- One call of `ratelimitMsgCountWait` at a time other than 0 keeps the window's account of the
history. -/
theorem ratelimitMsgCountWait_windowCounts (hinv : WindowCounts h rl)
    (hnz : ratelimitMsgCountWaitTime cfg tt clock ≠ 0) :
    WindowCounts (h ++ [(ratelimitMsgCountWaitTime cfg tt clock, (ratelimitMsgCountWait cfg rl tt clock).1)])
      (ratelimitMsgCountWait cfg rl tt clock).2.2 := by
  unfold ratelimitMsgCountWait
  by_cases hint : cfg.interval = 0
  · -- no limiting: the state stays, the history only grows
    simp only [hint, if_true]
    refine ⟨hinv.1, hinv.2.trans ?_⟩
    rw [passedSince_append_singleton]
    omega
  simp only [hint, if_false]
  set t := ratelimitMsgCountWaitTime cfg tt clock
  obtain ⟨hstart, -, hwin⟩ := waitWindow_cases t (Nat.pos_of_ne_zero hint) hinv.1
  set w := waitWindow cfg.interval rl t
  have hset : w.begin ≠ 0 := by
    rcases hwin with ⟨hb, -⟩ | ⟨hsame, hb⟩
    · rwa [hb]
    · rwa [hsame]
  have hcount : w.done ≤ passedSince h w.begin := by
    rcases hwin with ⟨-, hzero⟩ | ⟨hsame, -⟩
    · simp [hzero]
    · rw [hsame]
      exact hinv.2
  split
  · -- the message passes and is counted in the window it was judged in
    refine ⟨fun hb => absurd hb hset, ?_⟩
    simp only [passedSince_append_singleton, Bool.true_and, decide_eq_true hstart, if_true]
    omega
  · refine ⟨fun hb => absurd hb hset, ?_⟩
    rw [passedSince_append_singleton]
    simp only [Bool.false_and, Bool.false_eq_true, if_false]
    omega

/-- A run of `ratelimitMsgCountWait` from a fresh limiter at times other than 0 keeps the window's
account of the history. -/
theorem ratelimitMsgCountWait_run_windowCounts (calls : List (ℤ × ℤ))
    (hnz : ∀ e ∈ limiterRun (ratelimitMsgCountWaitTime cfg) (ratelimitMsgCountWaitStep cfg)
      Ratelimit.init calls, e.1 ≠ 0) :
    WindowCounts (limiterRun (ratelimitMsgCountWaitTime cfg) (ratelimitMsgCountWaitStep cfg)
      Ratelimit.init calls) (limiterState (ratelimitMsgCountWaitStep cfg) Ratelimit.init calls) := by
  induction calls using List.reverseRecOn with
  | nil => exact ⟨fun _ => rfl, Nat.zero_le _⟩
  | append_singleton calls call ih =>
    obtain ⟨tt, clock⟩ := call
    rw [limiterRun_append_singleton] at hnz ⊢
    rw [limiterState_append_singleton]
    exact ratelimitMsgCountWait_windowCounts
      (ih fun e he => hnz e (List.mem_append_left _ he))
      (hnz _ (List.mem_append_right _ (List.mem_singleton_self _)))

end Wait

/-- ratelimitMsgCountWait drops a message only after `burst` messages passed in the `interval`
seconds before it: for every run from a fresh limiter whose times do not decrease and are not 0,
a call that follows `calls` and is dropped at time `t` has `burst` messages of `calls` let through
at times from `t - interval` to `t`. -/
theorem ratelimitMsgCountWait_drop_window (cfg : RatelimitConfig) (calls : List (ℤ × ℤ))
    (tt clock : ℤ)
    (hsorted : ((limiterRun (ratelimitMsgCountWaitTime cfg) (ratelimitMsgCountWaitStep cfg)
      Ratelimit.init (calls ++ [(tt, clock)])).map Prod.fst).Pairwise (· ≤ ·))
    (hnz : ∀ e ∈ limiterRun (ratelimitMsgCountWaitTime cfg) (ratelimitMsgCountWaitStep cfg)
      Ratelimit.init (calls ++ [(tt, clock)]), e.1 ≠ 0)
    (hdrop : (ratelimitMsgCountWait cfg
      (limiterState (ratelimitMsgCountWaitStep cfg) Ratelimit.init calls) tt clock).1 = false) :
    cfg.burst ≤ passedWithin (limiterRun (ratelimitMsgCountWaitTime cfg)
      (ratelimitMsgCountWaitStep cfg) Ratelimit.init calls)
        (ratelimitMsgCountWaitTime cfg tt clock - cfg.interval) (ratelimitMsgCountWaitTime cfg tt clock) := by
  have hrun := limiterRun_append_singleton (ratelimitMsgCountWaitTime cfg)
    (ratelimitMsgCountWaitStep cfg) Ratelimit.init calls tt clock
  rw [hrun] at hsorted hnz
  rw [List.map_append, List.pairwise_append] at hsorted
  have hinv := ratelimitMsgCountWait_run_windowCounts calls
    fun e he => hnz e (List.mem_append_left _ he)
  exact ratelimitMsgCountWait_drop_of_windowCounts hinv
    (fun e he => hsorted.2.2 e.1 (List.mem_map_of_mem he) _ (by simp)) hdrop

/-- withinRatelimit restarts an expired window unset, with the restarting message counted in it:
the next call opens the window at its own time and finds one message there however long after it
comes, so with a burst of 1 it is always dropped. -/
theorem withinRatelimit_restart_counts (cfg : RatelimitConfig) (rl : Ratelimit) (t1 t2 clock1 clock2 : ℤ)
    (hcache : cfg.bNoTimeCache = false) (hint : 0 < cfg.interval) (hburst : 0 < cfg.burst)
    (hset : rl.begin ≠ 0) (hexpired : rl.begin + cfg.interval < t1) :
    (withinRatelimit cfg rl t1 clock1).1 = true ∧ (withinRatelimit cfg rl t1 clock1).2.begin = 0 ∧
      (withinRatelimit cfg rl t1 clock1).2.done = 1 ∧
      (withinRatelimit cfg (withinRatelimit cfg rl t1 clock1).2 t2 clock2).1 = decide (1 < cfg.burst) := by
  have hrestart : withinRatelimit cfg rl t1 clock1 =
      (true, { rl with begin := 0, done := 1, missed := 0 }) := by
    simp [withinRatelimit, withinRatelimitTime, tellLostCnt, hcache, hset, hexpired,
      Nat.pos_iff_ne_zero.mp hint, hburst]
  rw [hrestart]
  refine ⟨rfl, rfl, rfl, ?_⟩
  -- the unset window opens at t2, which cannot lie outside it
  have hopen : ¬t2 + (cfg.interval : ℤ) < t2 := by omega
  by_cases hmore : 1 < cfg.burst <;>
    simp [withinRatelimit, withinRatelimitTime, hcache, Nat.pos_iff_ne_zero.mp hint, hopen, hmore]

/-! ## Per-source limiting -/

/-- RATELIMIT_PERSOURCE_SHARDS: the per-source table is split into this many shards. -/
def ratelimitPersourceShards : ℕ := 32

/-- hash_from_string: the key's bytes, read as signed chars, folded by `h * 33 + c` from 1. -/
def hashFromString (key : List UInt8) : UInt32 :=
  key.foldl (fun h c => h * 33 + UInt32.ofInt c.toInt8.toInt) 1

/-- The hashtable's mixing of the hash function's value (hash in hashtable.c). -/
def hashtableHash (i : UInt32) : UInt32 :=
  let i := i + ~~~(i <<< 9)
  let i := i ^^^ ((i >>> 14) ||| (i <<< 18))
  let i := i + (i <<< 4)
  i ^^^ ((i >>> 10) ||| (i <<< 22))

/-- ratelimitPerSourceBucket: the shard of a key. -/
def ratelimitPerSourceBucket (key : List UInt8) : ℕ :=
  (hashtableHash (hashFromString key)).toNat % ratelimitPersourceShards

/-- ratelimitPerSourceShardCap: the share of the active states a shard may hold. -/
def ratelimitPerSourceShardCap (maxStates shard : ℕ) : ℕ :=
  if maxStates = 0 then 0
  else if maxStates ≤ ratelimitPersourceShards then 1
  else maxStates / ratelimitPersourceShards +
    if shard < maxStates % ratelimitPersourceShards then 1 else 0

/-- A per-source state (ratelimit_ps_entry_t): the key's window and the override the policy
gives the key. -/
structure PsEntry where
  key : List UInt8
  count : ℕ
  windowStart : ℤ
  stateActive : Bool
  hasOverride : Bool
  max : ℕ
  window : ℕ
  hasMax : Bool
  hasWindow : Bool
deriving DecidableEq, Repr

/-- The zeroed state calloc gives a new key. -/
def PsEntry.new (key : List UInt8) : PsEntry :=
  ⟨key, 0, 0, false, false, 0, 0, false, false⟩

/-- A shard of the per-source table (ratelimit_ps_bucket_t): its states, the keys of its active
states from the least to the most recently used, and its cap on active states. -/
structure PsBucket where
  ht : List PsEntry
  lru : List (List UInt8)
  activeStates : ℕ
  maxStates : ℕ
deriving DecidableEq, Repr

/-- The state of a key in a shard (hashtable_search_prehashed). -/
def PsBucket.search (b : PsBucket) (key : List UInt8) : Option PsEntry :=
  b.ht.find? (·.key == key)

/-- Writes a state back into its shard, through the entry pointer the code holds. -/
def PsBucket.put (b : PsBucket) (e : PsEntry) : PsBucket :=
  { b with ht := b.ht.map fun x => if x.key = e.key then e else x }

/-- ratelimitPerSourceCreateEntry: a new zeroed state for the key, inserted into the shard. -/
def ratelimitPerSourceCreateEntry (b : PsBucket) (key : List UInt8) : PsBucket × PsEntry :=
  ({ b with ht := b.ht ++ [PsEntry.new key] }, PsEntry.new key)

/-- ratelimitPerSourceLruRemove: takes a key out of the LRU list. -/
def ratelimitPerSourceLruRemove (b : PsBucket) (key : List UInt8) : PsBucket :=
  { b with lru := b.lru.erase key }

/-- ratelimitPerSourceLruTouch: moves a key to the most recently used end of the LRU list. -/
def ratelimitPerSourceLruTouch (b : PsBucket) (key : List UInt8) : PsBucket :=
  if b.lru.getLast? = some key then b else { b with lru := b.lru.erase key ++ [key] }

/-- ratelimitPerSourceEvictOne: deactivates the least recently used state, and drops it from the
table unless the policy overrides its key. -/
def ratelimitPerSourceEvictOne (b : PsBucket) : PsBucket :=
  match b.lru with
  | [] => b
  | evict :: _ =>
    let b := ratelimitPerSourceLruRemove b evict
    let b := { b with activeStates := b.activeStates - 1 }
    match b.search evict with
    | none => b
    | some e =>
      let b := b.put { e with stateActive := false }
      if e.hasOverride then b else { b with ht := b.ht.filter (·.key ≠ evict) }

/-- The eviction loop of ratelimitPerSourceCheck, which evicts while the shard is at its cap and
the LRU list is not empty; each round takes the head off the list, so its length bounds the
rounds. -/
def ratelimitPerSourceEvictLoop (b : PsBucket) : ℕ → PsBucket
  | 0 => b
  | n + 1 =>
    if 0 < b.maxStates ∧ b.maxStates ≤ b.activeStates ∧ b.lru ≠ [] then
      ratelimitPerSourceEvictLoop (ratelimitPerSourceEvictOne b) n
    else b

/-- The part of ratelimitPerSourceCheck under the shard's lock, with the time already read:
`false` (RS_RET_DISCARDMSG) when the key's window is full. An inactive state is activated with a
window starting at `tt`, evicting states first if the shard is at its cap. -/
def ratelimitPerSourceCheckBucket (defaultMax defaultWindow : ℕ) (b : PsBucket)
    (key : List UInt8) (tt : ℤ) : Bool × PsBucket :=
  let found := match b.search key with
    | some e => (b, e)
    | none => ratelimitPerSourceCreateEntry b key
  let b := found.1
  let entry := found.2
  let activated := if entry.stateActive then (b, entry) else
    let b := ratelimitPerSourceEvictLoop b b.lru.length
    ({ b with activeStates := b.activeStates + 1 }, { entry with stateActive := true, windowStart := tt })
  let b := ratelimitPerSourceLruTouch activated.1 key
  let entry := activated.2
  let max := if entry.hasOverride && entry.hasMax then entry.max else defaultMax
  let window := if entry.hasOverride && entry.hasWindow then entry.window else defaultWindow
  if max = 0 ∨ window = 0 then (true, b.put entry) else
  let entry := if entry.windowStart = 0 ∨ tt - entry.windowStart ≥ window ∨ tt < entry.windowStart
    then { entry with windowStart := tt, count := 0 } else entry
  if entry.count < max then (true, b.put { entry with count := entry.count + 1 })
  else (false, b.put entry)

/-- The per-source side of a shared limiter: the shards and the policy's defaults. -/
structure PsShared where
  shards : ℕ → PsBucket
  perSourceEnabled : Bool
  perSourceDefaultMax : ℕ
  perSourceDefaultWindow : ℕ

/-- Replaces one shard. -/
def PsShared.setShard (s : PsShared) (i : ℕ) (b : PsBucket) : PsShared :=
  { s with shards := fun j => if j = i then b else s.shards j }

/-- ratelimitPerSourceCheck: `false` (RS_RET_DISCARDMSG) when the key has used up its window; an
empty key and a disabled per-source policy let every message pass. -/
def ratelimitPerSourceCheck (s : PsShared) (key : List UInt8) (tt clock : ℤ) : Bool × PsShared :=
  if key = [] then (true, s) else
  let tt := if tt = 0 then clock else tt
  if !s.perSourceEnabled then (true, s) else
  let i := ratelimitPerSourceBucket key
  let r := ratelimitPerSourceCheckBucket s.perSourceDefaultMax s.perSourceDefaultWindow (s.shards i) key tt
  (r.1, s.setShard i r.2)

/-- A per-source override of the policy file. -/
structure PsOverride where
  key : List UInt8
  hasMax : Bool
  max : ℕ
  hasWindow : Bool
  window : ℕ

/-- A state carrying an override's settings. -/
def PsEntry.withOverride (e : PsEntry) (o : PsOverride) : PsEntry :=
  { e with
    hasOverride := true, hasMax := o.hasMax, max := o.max, hasWindow := o.hasWindow,
    window := o.window }

/-- The per-shard pass of ratelimitPerSourceApplyOverrides: clears every state's override, sets
those of the overridden keys of this shard, and drops the inactive states left without one. -/
def ratelimitPerSourceShardOverrides (shard : ℕ) (overrides : List PsOverride) (b : PsBucket) :
    PsBucket :=
  let ht := b.ht.map fun e =>
    { e with hasOverride := false, hasMax := false, hasWindow := false, max := 0, window := 0 }
  let ht := overrides.foldl (fun ht o =>
    if ratelimitPerSourceBucket o.key ≠ shard then ht else
    ht.map fun e => if e.key = o.key then e.withOverride o else e) ht
  { b with ht := ht.filter fun e => e.stateActive || e.hasOverride }

/-- ratelimitPerSourceApplyOverrides: every overridden key gets a state in its shard, then each
shard takes the new overrides. -/
def ratelimitPerSourceApplyOverrides (s : PsShared) (overrides : List PsOverride) : PsShared :=
  let s := overrides.foldl (fun s o =>
    let i := ratelimitPerSourceBucket o.key
    match (s.shards i).search o.key with
    | some _ => s
    | none => s.setShard i (ratelimitPerSourceCreateEntry (s.shards i) o.key).1) s
  { s with shards := fun i => ratelimitPerSourceShardOverrides i overrides (s.shards i) }

/-- A key whose override survived an eviction keeps the count it had: when that count filled its
window, the key comes back with a window restarted at the current time and already full, so its
first message after any idle time is dropped. -/
theorem ratelimitPerSourceCheckBucket_reactivated_full (defaultMax defaultWindow : ℕ) (b : PsBucket)
    (key : List UInt8) (e : PsEntry) (tt : ℤ) (hsearch : b.search key = some e)
    (hinactive : e.stateActive = false) (hoverride : e.hasOverride = true) (hmax : e.hasMax = true)
    (hwindow : e.hasWindow = true) (hmaxPos : 0 < e.max) (hwindowPos : 0 < e.window)
    (hfull : e.max ≤ e.count) (htt : tt ≠ 0) :
    (ratelimitPerSourceCheckBucket defaultMax defaultWindow b key tt).1 = false := by
  simp [ratelimitPerSourceCheckBucket, hsearch, hinactive, hoverride, hmax, hwindow,
    Nat.pos_iff_ne_zero.mp hmaxPos, Nat.pos_iff_ne_zero.mp hwindowPos, htt, Nat.not_lt.mpr hfull]

theorem ratelimit_windows_drop_after_idle :
    (let cfg : RatelimitConfig := ⟨5, 1, false⟩;
      limiterRun (withinRatelimitTime cfg) (withinRatelimit cfg) Ratelimit.init
          [(1000, 0), (1010, 0), (2000, 0)] = [(1000, true), (1010, true), (2000, false)] ∧
        passedWithin [(1000, true), (1010, true)] (2000 - 5) 2000 = 0) ∧
    (let s : PsShared := ⟨fun i => ⟨[], [], 0, ratelimitPerSourceShardCap 1 i⟩, true, 10, 60⟩;
      let s := ratelimitPerSourceApplyOverrides s [⟨asciiBytes "a", true, 1, true, 10⟩];
      let r1 := ratelimitPerSourceCheck s (asciiBytes "a") 100 0;
      let r2 := ratelimitPerSourceCheck r1.2 (asciiBytes "f") 101 0;
      let r3 := ratelimitPerSourceCheck r2.2 (asciiBytes "a") 1000 0;
      ratelimitPerSourceBucket (asciiBytes "a") = ratelimitPerSourceBucket (asciiBytes "f") ∧
        r1.1 = true ∧ r2.1 = true ∧ r3.1 = false) := by
  decide

end Rsyslog
