import Rsyslog.Common.ByteBuffer
import Rsyslog.Runtime.Basic

/-!
# The Lumberjack v2 batch of `imbeats` and its byte ledger

`lj_parser.c` collects the events of one window into a batch. Every byte the batch holds is first
reserved from the instance's ledger (`reserveInstanceBytes`), which refuses what would take the
instance past `maxInFlightBytes`, and is given back when the memory goes
(`releaseInstanceBytes`): the event array (`ensure_event_capacity`), the payload copy of each
event (`lj_append_json_event`), and the output buffer of `inflate` while a compressed frame is
unpacked, which `lj_parse_compressed_frames` gives back before it returns.

The allocator and zlib are parameters. `malloc` and `realloc` answer from a list of outcomes, one
per call, and succeed once the list is used up. `inflate` answers each call with a return code,
the input it consumed and the output it wrote, taken as zlib's interface allows: no more output
than the space offered and no more input than is left; once the answers are used up it reports an
error. Whether `inflateInit` succeeds is a parameter too. The batch's reserve and release
callbacks are the instance's, as `imbeats` installs them. A `size_t` has 64 bits, a `uInt` 32,
and an event record takes 32 bytes.
-/

namespace Rsyslog.Imbeats

open Rsyslog.Common

/-- `SIZE_MAX`. -/
def sizeMax : ℕ := 2 ^ 64 - 1

/-- `UINT_MAX`, the most a `uInt` of zlib holds. -/
def uintMax : ℕ := 2 ^ 32 - 1

/-- `sizeof(struct lj_event_s)`. -/
def ljEventSize : ℕ := 32

/-- `LJ_VERSION_V2`, `'2'`. -/
def ljVersionV2 : UInt8 := 0x32

/-- `LJ_FRAME_JSON`, `'J'`. -/
def ljFrameJson : UInt8 := 0x4a

/-! ## The instance's ledger -/

/-- The instance's count of reserved bytes, and its bound. -/
structure Ledger where
  inFlightBytes : ℕ
  maxInFlightBytes : ℕ
  deriving DecidableEq, Repr

/-- `reserveInstanceBytes`: the ledger with `amount` more bytes, or `none` for
`RS_RET_OUT_OF_MEMORY` where that would pass the bound. -/
def reserveInstanceBytes (l : Ledger) (amount : ℕ) : Option Ledger :=
  if amount = 0 then some l
  else if amount > l.maxInFlightBytes ∨ l.inFlightBytes > l.maxInFlightBytes - amount then none
  else some { l with inFlightBytes := l.inFlightBytes + amount }

/-- `releaseInstanceBytes`; the code asserts that the ledger holds the amount. -/
def releaseInstanceBytes (l : Ledger) (amount : ℕ) : Ledger :=
  if amount = 0 then l else { l with inFlightBytes := l.inFlightBytes - amount }

theorem reserveInstanceBytes_eq_some {l l' : Ledger} {amount : ℕ}
    (h : reserveInstanceBytes l amount = some l') :
    l' = { l with inFlightBytes := l.inFlightBytes + amount } ∧
      (amount ≠ 0 → l.inFlightBytes + amount ≤ l.maxInFlightBytes) := by
  unfold reserveInstanceBytes at h
  split_ifs at h with h0 h1
  · cases h
    simp [h0]
  · cases h
    exact ⟨rfl, fun _ => by omega⟩

/-- A reservation is refused exactly when it would pass the bound. -/
theorem reserveInstanceBytes_eq_none_iff {l : Ledger} {amount : ℕ} :
    reserveInstanceBytes l amount = none ↔
      amount ≠ 0 ∧ l.maxInFlightBytes < l.inFlightBytes + amount := by
  unfold reserveInstanceBytes
  split_ifs with h0 h1 <;> simp <;> omega

@[simp]
theorem maxInFlightBytes_releaseInstanceBytes (l : Ledger) (amount : ℕ) :
    (releaseInstanceBytes l amount).maxInFlightBytes = l.maxInFlightBytes := by
  unfold releaseInstanceBytes
  split_ifs <;> rfl

@[simp]
theorem inFlightBytes_releaseInstanceBytes (l : Ledger) (amount : ℕ) :
    (releaseInstanceBytes l amount).inFlightBytes = l.inFlightBytes - amount := by
  unfold releaseInstanceBytes
  split_ifs with h
  · simp [h]
  · rfl

/-! ## Events and the batch -/

/-- `struct lj_event_s`; `payload_len` is the length of the payload. -/
structure LjEvent where
  seq : UInt32
  payload : List UInt8
  payloadAllocLen : ℕ
  deriving DecidableEq, Repr

/-- `struct lj_batch_s`: the events are `events[0..count)`, and the array's reserved size is its
capacity in event records. -/
structure LjBatch where
  windowSize : ℕ
  events : List LjEvent
  totalPayloadLen : ℕ
  maxPayloadLen : ℕ
  eventsCapacity : ℕ
  eventsAllocLen : ℕ
  totalPayloadLen_eq : totalPayloadLen = (events.map fun e => e.payload.length).sum
  eventsAllocLen_eq : eventsAllocLen = eventsCapacity * ljEventSize
  deriving DecidableEq

namespace LjBatch

/-- The batch as `memset` leaves it. -/
def zero : LjBatch := ⟨0, [], 0, 0, 0, 0, rfl, rfl⟩

/-- The bytes the batch holds in the ledger: its array and the payload of each event. -/
def held (b : LjBatch) : ℕ :=
  b.eventsAllocLen + (b.events.map LjEvent.payloadAllocLen).sum

@[simp]
theorem held_zero : zero.held = 0 := rfl

/-- The batch after its array was reallocated to `newCapacity` records. -/
def withCapacity (b : LjBatch) (newCapacity : ℕ) : LjBatch :=
  { b with eventsCapacity := newCapacity, eventsAllocLen := newCapacity * ljEventSize,
           eventsAllocLen_eq := rfl }

/-- The batch with one more event at its end. -/
def push (b : LjBatch) (e : LjEvent) : LjBatch :=
  { b with events := b.events ++ [e], totalPayloadLen := b.totalPayloadLen + e.payload.length,
           totalPayloadLen_eq := by simp [b.totalPayloadLen_eq] }

@[simp] theorem events_withCapacity (b : LjBatch) (n : ℕ) : (b.withCapacity n).events = b.events :=
  rfl

@[simp] theorem windowSize_withCapacity (b : LjBatch) (n : ℕ) :
    (b.withCapacity n).windowSize = b.windowSize := rfl

@[simp] theorem maxPayloadLen_withCapacity (b : LjBatch) (n : ℕ) :
    (b.withCapacity n).maxPayloadLen = b.maxPayloadLen := rfl

@[simp] theorem totalPayloadLen_withCapacity (b : LjBatch) (n : ℕ) :
    (b.withCapacity n).totalPayloadLen = b.totalPayloadLen := rfl

@[simp] theorem eventsCapacity_withCapacity (b : LjBatch) (n : ℕ) :
    (b.withCapacity n).eventsCapacity = n := rfl

@[simp] theorem events_push (b : LjBatch) (e : LjEvent) : (b.push e).events = b.events ++ [e] :=
  rfl

@[simp] theorem windowSize_push (b : LjBatch) (e : LjEvent) :
    (b.push e).windowSize = b.windowSize := rfl

@[simp] theorem maxPayloadLen_push (b : LjBatch) (e : LjEvent) :
    (b.push e).maxPayloadLen = b.maxPayloadLen := rfl

@[simp] theorem totalPayloadLen_push (b : LjBatch) (e : LjEvent) :
    (b.push e).totalPayloadLen = b.totalPayloadLen + e.payload.length := rfl

@[simp] theorem eventsCapacity_push (b : LjBatch) (e : LjEvent) :
    (b.push e).eventsCapacity = b.eventsCapacity := rfl

theorem held_withCapacity (b : LjBatch) (n : ℕ) :
    (b.withCapacity n).held = n * ljEventSize + (b.events.map LjEvent.payloadAllocLen).sum := rfl

theorem held_push (b : LjBatch) (e : LjEvent) : (b.push e).held = b.held + e.payloadAllocLen := by
  simp [held, push, Nat.add_assoc]

end LjBatch

/-- What the parser's functions act on: the batch, the instance's ledger, and the outcomes of the
allocations still to come. -/
structure LjWorld where
  batch : LjBatch
  ledger : Ledger
  allocs : List Bool

namespace LjWorld

/-- The next `malloc` or `realloc`: whether it succeeds. -/
def nextAlloc (w : LjWorld) : Bool × LjWorld :=
  match w.allocs with
  | [] => (true, w)
  | ok :: rest => (ok, { w with allocs := rest })

/-- `reserve_resource`: `none` when the ledger refuses. -/
def reserveResource (w : LjWorld) (bytes : ℕ) : Option LjWorld :=
  if bytes = 0 then some w
  else (reserveInstanceBytes w.ledger bytes).map fun l => { w with ledger := l }

/-- `release_resource`. -/
def releaseResource (w : LjWorld) (bytes : ℕ) : LjWorld :=
  if bytes = 0 then w else { w with ledger := releaseInstanceBytes w.ledger bytes }

/-- The ledger holds `other` bytes besides the batch's, its bound is `m`, and it keeps to it. -/
def Accounts (w : LjWorld) (other m : ℕ) : Prop :=
  w.ledger.maxInFlightBytes = m ∧ w.ledger.inFlightBytes = other + w.batch.held ∧
    w.ledger.inFlightBytes ≤ m

@[simp]
theorem nextAlloc_batch (w : LjWorld) : (nextAlloc w).2.batch = w.batch := by
  unfold nextAlloc
  split <;> rfl

@[simp]
theorem nextAlloc_ledger (w : LjWorld) : (nextAlloc w).2.ledger = w.ledger := by
  unfold nextAlloc
  split <;> rfl

@[simp]
theorem releaseResource_batch (w : LjWorld) (bytes : ℕ) :
    (releaseResource w bytes).batch = w.batch := by
  unfold releaseResource
  split_ifs <;> rfl

@[simp]
theorem releaseResource_maxInFlightBytes (w : LjWorld) (bytes : ℕ) :
    (releaseResource w bytes).ledger.maxInFlightBytes = w.ledger.maxInFlightBytes := by
  unfold releaseResource
  split_ifs <;> simp

@[simp]
theorem releaseResource_inFlightBytes (w : LjWorld) (bytes : ℕ) :
    (releaseResource w bytes).ledger.inFlightBytes = w.ledger.inFlightBytes - bytes := by
  unfold releaseResource
  split_ifs with h
  · simp [h]
  · simp

theorem reserveResource_eq_some {w w' : LjWorld} {bytes : ℕ}
    (h : reserveResource w bytes = some w') :
    w'.batch = w.batch ∧ w'.allocs = w.allocs ∧
      w'.ledger.maxInFlightBytes = w.ledger.maxInFlightBytes ∧
      w'.ledger.inFlightBytes = w.ledger.inFlightBytes + bytes ∧
      (bytes ≠ 0 → w'.ledger.inFlightBytes ≤ w.ledger.maxInFlightBytes) := by
  unfold reserveResource at h
  split_ifs at h with h0
  · cases h
    simp [h0]
  · obtain ⟨l, hl, rfl⟩ := Option.map_eq_some_iff.mp h
    obtain ⟨rfl, hle⟩ := reserveInstanceBytes_eq_some hl
    exact ⟨rfl, rfl, rfl, rfl, hle⟩

/-- A granted reservation keeps the account, with the bytes counted among the others. -/
theorem Accounts.reserve {w w' : LjWorld} {other m bytes : ℕ} (hw : w.Accounts other m)
    (h : reserveResource w bytes = some w') : w'.Accounts (other + bytes) m := by
  obtain ⟨hb, -, hmax, hin, hle⟩ := reserveResource_eq_some h
  obtain ⟨hm, hheld, hbound⟩ := hw
  refine ⟨by rw [hmax, hm], by rw [hin, hb, hheld]; omega, ?_⟩
  by_cases h0 : bytes = 0
  · rw [hin, h0]
    omega
  · have := hle h0
    omega

/-- Releasing bytes counted among the others keeps the account. -/
theorem Accounts.release {w : LjWorld} {other m bytes : ℕ} (hw : w.Accounts (other + bytes) m) :
    (releaseResource w bytes).Accounts other m := by
  obtain ⟨hm, hheld, hbound⟩ := hw
  refine ⟨by simp [hm], ?_, ?_⟩ <;> simp only [releaseResource_inFlightBytes,
    releaseResource_batch] <;> omega

theorem Accounts.nextAlloc {w : LjWorld} {other m : ℕ} (hw : w.Accounts other m) :
    (nextAlloc w).2.Accounts other m := by
  obtain ⟨hm, hheld, hbound⟩ := hw
  exact ⟨by simp [hm], by simp [hheld], by simp [hbound]⟩

/-- Bytes counted among the others become the batch's. -/
theorem Accounts.setBatch {w : LjWorld} {other m k : ℕ} {b : LjBatch}
    (hw : w.Accounts (other + k) m) (hb : b.held = w.batch.held + k) :
    ({ w with batch := b } : LjWorld).Accounts other m := by
  obtain ⟨hm, hheld, hbound⟩ := hw
  exact ⟨hm, by dsimp only; omega, hbound⟩

end LjWorld

open LjWorld

/-! ## Growing the event array and appending events -/

/-- How both buffers grow when full: from `start`, then doubling, and never past `limit`. -/
def grownCapacity (start capacity limit : ℕ) : ℕ :=
  let newCapacity := if capacity = 0 then start else capacity * 2
  if newCapacity < capacity ∨ newCapacity > limit then limit else newCapacity

/-- A buffer below its limit grows, and stays within the limit. -/
theorem lt_grownCapacity {start capacity limit : ℕ} (hstart : 0 < start) (h : capacity < limit) :
    capacity < grownCapacity start capacity limit ∧ grownCapacity start capacity limit ≤ limit := by
  unfold grownCapacity
  dsimp only
  split_ifs <;> omega

/-- `ensure_event_capacity`: room for one more event, doubling the array (from 8 records, and at
most to the window size). -/
def ensureEventCapacity (w : LjWorld) : RsRetVal × LjWorld :=
  let b := w.batch
  if b.events.length < b.eventsCapacity then (.ok, w)
  else if b.events.length ≥ b.windowSize then (.invalidValue, w)
  else
    let newCapacity := grownCapacity 8 b.eventsCapacity b.windowSize
    if newCapacity > sizeMax / ljEventSize then (.outOfMemory, w)
    else
      let newAllocLen := newCapacity * ljEventSize
      -- the `size_t` difference; the capacity only grows, so it does not wrap
      let additionalLen := newAllocLen - b.eventsAllocLen
      match reserveResource w additionalLen with
      | none => (.outOfMemory, w)
      | some w =>
        let (ok, w) := nextAlloc w
        if ok then
          (.ok, { w with batch := b.withCapacity newCapacity })
        else (.outOfMemory, releaseResource w additionalLen)

theorem ensureEventCapacity_batch_events (w : LjWorld) :
    (ensureEventCapacity w).2.batch.events = w.batch.events ∧
      (ensureEventCapacity w).2.batch.windowSize = w.batch.windowSize ∧
      (ensureEventCapacity w).2.batch.maxPayloadLen = w.batch.maxPayloadLen ∧
      (ensureEventCapacity w).2.batch.totalPayloadLen = w.batch.totalPayloadLen := by
  unfold ensureEventCapacity
  dsimp only
  split_ifs
  · simp
  · simp
  · simp
  · split
    · simp
    · rename_i w₁ hres
      have hb := (reserveResource_eq_some hres).1
      split_ifs <;> simp [hb]

/-- Growing the array keeps the account: the bytes reserved for it are the batch's. -/
theorem accounts_ensureEventCapacity {w : LjWorld} {other m : ℕ} (hw : w.Accounts other m) :
    (ensureEventCapacity w).2.Accounts other m := by
  unfold ensureEventCapacity
  dsimp only
  split_ifs with hroom hfull hbig
  · exact hw
  · exact hw
  · exact hw
  · -- the array was full and below the window, so it grows
    have hgrow := (lt_grownCapacity (show 0 < 8 by decide) (lt_of_le_of_lt (not_lt.mp hroom)
      (not_le.mp hfull))).1
    split
    · exact hw
    · rename_i w₁ hres
      have hw₁ := (hw.reserve hres).nextAlloc
      have hb₁ : (nextAlloc w₁).2.batch = w.batch := by
        rw [nextAlloc_batch, (reserveResource_eq_some hres).1]
      split_ifs
      · apply hw₁.setBatch
        have := w.batch.eventsAllocLen_eq
        rw [LjBatch.held_withCapacity, hb₁, LjBatch.held]
        have : w.batch.eventsAllocLen ≤ grownCapacity 8 w.batch.eventsCapacity
            w.batch.windowSize * ljEventSize := by
          rw [this]
          exact Nat.mul_le_mul_right _ hgrow.le
        omega
      · exact hw₁.release

/-- `validate_event` for a payload of `payloadLen` bytes. -/
def validateEvent (b : LjBatch) (payloadLen : ℕ) : RsRetVal :=
  if payloadLen = 0 then .paramError
  else if b.events.length ≥ b.windowSize ∨ payloadLen > b.maxPayloadLen ∨
      b.totalPayloadLen > b.maxPayloadLen - payloadLen then .invalidValue
  else .ok


/-- `lj_append_json_event_owned`: on success the payload, reserved by the caller, belongs to
the batch; on failure it stays with the caller. -/
def ljAppendJsonEventOwned (w : LjWorld) (seq : UInt32) (payload : List UInt8)
    (payloadAllocLen : ℕ) : RsRetVal × LjWorld :=
  let r := validateEvent w.batch payload.length
  if r ≠ .ok then (r, w)
  else if payloadAllocLen < payload.length then (.paramError, w)
  else
    let (r, w) := ensureEventCapacity w
    if r ≠ .ok then (r, w)
    else (.ok, { w with batch := w.batch.push ⟨seq, payload, payloadAllocLen⟩ })

/-- `lj_append_json_event`: the payload is copied, with a NUL after it, into memory reserved for
the batch. -/
def ljAppendJsonEvent (w : LjWorld) (seq : UInt32) (payload : List UInt8) :
    RsRetVal × LjWorld :=
  let r := validateEvent w.batch payload.length
  if r ≠ .ok then (r, w)
  else if payload.length > sizeMax - 1 then (.outOfMemory, w)
  else
    let (r, w) := ensureEventCapacity w
    if r ≠ .ok then (r, w)
    else
      match reserveResource w (payload.length + 1) with
      | none => (.outOfMemory, w)
      | some w =>
        let (ok, w) := nextAlloc w
        if ok = false then (.outOfMemory, releaseResource w (payload.length + 1))
        else
          let (r, w) := ljAppendJsonEventOwned w seq payload (payload.length + 1)
          if r ≠ .ok then (r, releaseResource w (payload.length + 1)) else (r, w)

/-- The batch keeps to its window and to its bound on payload bytes. -/
def LjBatch.Fits (b : LjBatch) : Prop :=
  b.events.length ≤ b.windowSize ∧ (b.events.map fun e => e.payload.length).sum ≤ b.maxPayloadLen

/-- `b'` is `b` with one event appended for each frame, its payload copied with a NUL. -/
def LjBatch.Appended (b b' : LjBatch) (frames : List (UInt32 × List UInt8)) : Prop :=
  b'.events = b.events ++ frames.map (fun f => ⟨f.1, f.2, f.2.length + 1⟩) ∧
    b'.windowSize = b.windowSize ∧ b'.maxPayloadLen = b.maxPayloadLen

theorem LjBatch.Appended.trans {b b₁ b₂ : LjBatch} {fs₁ fs₂ : List (UInt32 × List UInt8)}
    (h₁ : b.Appended b₁ fs₁) (h₂ : b₁.Appended b₂ fs₂) : b.Appended b₂ (fs₁ ++ fs₂) := by
  obtain ⟨he₁, hw₁, hm₁⟩ := h₁
  obtain ⟨he₂, hw₂, hm₂⟩ := h₂
  exact ⟨by rw [he₂, he₁, List.map_append, List.append_assoc], hw₂.trans hw₁, hm₂.trans hm₁⟩

/-- Whether a batch fits depends only on its events and its bounds. -/
theorem LjBatch.Appended.fits_of_nil {b b' : LjBatch} (h : b.Appended b' []) (hb : b.Fits) :
    b'.Fits := by
  obtain ⟨he, hw, hm⟩ := h
  rw [List.map_nil, List.append_nil] at he
  rw [LjBatch.Fits, he, hw, hm]
  exact hb

theorem validateEvent_eq_ok {b : LjBatch} {n : ℕ} (h : validateEvent b n = .ok) :
    0 < n ∧ b.events.length < b.windowSize ∧ b.totalPayloadLen + n ≤ b.maxPayloadLen := by
  unfold validateEvent at h
  split_ifs at h with h0 h1
  omega

/-- An event the batch takes keeps it within its window and its byte bound. -/
theorem fits_push {b : LjBatch} {e : LjEvent} (h : validateEvent b e.payload.length = .ok) :
    (b.push e).Fits := by
  obtain ⟨-, hwin, hbytes⟩ := validateEvent_eq_ok h
  constructor
  · simp only [LjBatch.events_push, List.length_append, List.length_singleton,
      LjBatch.windowSize_push]
    omega
  · rw [← LjBatch.totalPayloadLen_eq, LjBatch.totalPayloadLen_push, LjBatch.maxPayloadLen_push]
    exact hbytes

/-- A taken event is the batch's last, and the caller's reservation is the batch's. -/
theorem accounts_ljAppendJsonEventOwned {w w' : LjWorld} {other m a : ℕ} {seq : UInt32}
    {payload : List UInt8} {r : RsRetVal} (hw : w.Accounts (other + a) m)
    (h : ljAppendJsonEventOwned w seq payload a = (r, w')) :
    w'.Accounts (if r = .ok then other else other + a) m := by
  unfold ljAppendJsonEventOwned at h
  dsimp only at h
  split_ifs at h with hv hlen hr <;> obtain ⟨rfl, rfl⟩ := Prod.mk.inj h
  · rwa [if_neg hv]
  · exact hw
  · rw [if_neg hr]
    exact accounts_ensureEventCapacity hw
  · rw [if_pos rfl]
    apply (accounts_ensureEventCapacity hw).setBatch
    exact LjBatch.held_push _ _

theorem ljAppendJsonEventOwned_eq_ok {w w' : LjWorld} {a : ℕ} {seq : UInt32}
    {payload : List UInt8} (h : ljAppendJsonEventOwned w seq payload a = (.ok, w')) :
    w'.batch.events = w.batch.events ++ [⟨seq, payload, a⟩] ∧
      w'.batch.windowSize = w.batch.windowSize ∧ w'.batch.maxPayloadLen = w.batch.maxPayloadLen ∧
      w'.batch.Fits := by
  unfold ljAppendJsonEventOwned at h
  dsimp only at h
  split_ifs at h with hv hlen hr <;> obtain ⟨hr', rfl⟩ := Prod.mk.inj h
  · exact absurd hr' hv
  · cases hr'
  · exact absurd hr' hr
  · obtain ⟨hev, hwin, hmax, htot⟩ := ensureEventCapacity_batch_events w
    refine ⟨by simp [hev], by simp [hwin], by simp [hmax], fits_push ?_⟩
    rw [validateEvent, hwin, hmax, htot, hev, ← validateEvent]
    exact not_not.mp hv

/-- The copy of a payload is reserved before it is made, and given back when the batch does not
take it: whatever the outcome, the account holds. -/
theorem accounts_ljAppendJsonEvent {w w' : LjWorld} {other m : ℕ} {seq : UInt32}
    {payload : List UInt8} {r : RsRetVal} (hw : w.Accounts other m)
    (h : ljAppendJsonEvent w seq payload = (r, w')) : w'.Accounts other m := by
  unfold ljAppendJsonEvent at h
  dsimp only at h
  split_ifs at h with hv hbig hr
  · obtain ⟨rfl, rfl⟩ := Prod.mk.inj h
    exact hw
  · obtain ⟨rfl, rfl⟩ := Prod.mk.inj h
    exact hw
  · obtain ⟨rfl, rfl⟩ := Prod.mk.inj h
    exact accounts_ensureEventCapacity hw
  · have hw₁ := accounts_ensureEventCapacity hw
    split at h
    · obtain ⟨rfl, rfl⟩ := Prod.mk.inj h
      exact hw₁
    · rename_i w₂ hres
      have hw₂ := (hw₁.reserve hres).nextAlloc
      generalize hp : ljAppendJsonEventOwned (nextAlloc w₂).2 seq payload (payload.length + 1) = p
        at h
      obtain ⟨r₁, w₃⟩ := p
      have hw₃ := accounts_ljAppendJsonEventOwned hw₂ hp
      dsimp only at h
      split_ifs at h with hok hr₁ <;> obtain ⟨rfl, rfl⟩ := Prod.mk.inj h
      · exact hw₂.release
      · rw [if_neg hr₁] at hw₃
        exact hw₃.release
      · rwa [if_pos (not_not.mp hr₁)] at hw₃

theorem ljAppendJsonEvent_eq_ok {w w' : LjWorld} {seq : UInt32} {payload : List UInt8}
    (h : ljAppendJsonEvent w seq payload = (.ok, w')) :
    w.batch.Appended w'.batch [(seq, payload)] ∧ w'.batch.Fits := by
  unfold ljAppendJsonEvent at h
  dsimp only at h
  split_ifs at h with hv hbig hr
  · exact absurd (Prod.mk.inj h).1 hv
  · cases (Prod.mk.inj h).1
  · exact absurd (Prod.mk.inj h).1 hr
  · obtain ⟨hev, hwin, hmax, -⟩ := ensureEventCapacity_batch_events w
    split at h
    · cases (Prod.mk.inj h).1
    · rename_i w₂ hres
      have hb₂ : (nextAlloc w₂).2.batch = (ensureEventCapacity w).2.batch := by
        rw [nextAlloc_batch, (reserveResource_eq_some hres).1]
      generalize hp : ljAppendJsonEventOwned (nextAlloc w₂).2 seq payload (payload.length + 1) = p
        at h
      obtain ⟨r₁, w₃⟩ := p
      dsimp only at h
      split_ifs at h with hok hr₁
      · cases (Prod.mk.inj h).1
      · exact absurd (Prod.mk.inj h).1 hr₁
      · obtain ⟨rfl, rfl⟩ := Prod.mk.inj h
        obtain ⟨hev₃, hwin₃, hmax₃, hfits⟩ := ljAppendJsonEventOwned_eq_ok hp
        rw [hb₂] at hev₃ hwin₃ hmax₃
        exact ⟨⟨by rw [hev₃, hev]; rfl, by rw [hwin₃, hwin], by rw [hmax₃, hmax]⟩, hfits⟩

/-- `lj_batch_alloc`: an empty batch for a window, or `RS_RET_PARAM_ERROR`. -/
def ljBatchAlloc (windowSize maxWindowSize maxPayloadLen : ℕ) : Option LjBatch :=
  if windowSize = 0 ∨ windowSize > maxWindowSize ∨ maxPayloadLen = 0 then none
  else some { LjBatch.zero with windowSize, maxPayloadLen }

/-- `lj_batch_free`: every payload, then the array, goes back to the ledger. -/
def ljBatchFree (w : LjWorld) : LjWorld :=
  let w' := w.batch.events.foldl (fun w e => releaseResource w e.payloadAllocLen) w
  { releaseResource w' w.batch.eventsAllocLen with batch := LjBatch.zero }

/-- Releasing the payload of each event gives back what the events held. -/
theorem foldl_releaseResource (evs : List LjEvent) {w : LjWorld} {rest : ℕ}
    (h : w.ledger.inFlightBytes = rest + (evs.map LjEvent.payloadAllocLen).sum) :
    let w' := evs.foldl (fun w e => releaseResource w e.payloadAllocLen) w
    w'.ledger.inFlightBytes = rest ∧
      w'.ledger.maxInFlightBytes = w.ledger.maxInFlightBytes ∧ w'.batch = w.batch := by
  induction evs generalizing w with
  | nil => simpa using h
  | cons e evs ih =>
    have h' : (releaseResource w e.payloadAllocLen).ledger.inFlightBytes =
        rest + (evs.map LjEvent.payloadAllocLen).sum := by
      rw [releaseResource_inFlightBytes, h, List.map_cons, List.sum_cons]
      omega
    obtain ⟨hin, hmax, hb⟩ := ih h'
    exact ⟨hin, hmax.trans (releaseResource_maxInFlightBytes _ _),
      hb.trans (releaseResource_batch _ _)⟩

/-- Freeing the batch gives all its bytes back. -/
theorem accounts_ljBatchFree {w : LjWorld} {other m : ℕ} (hw : w.Accounts other m) :
    (ljBatchFree w).Accounts other m ∧ (ljBatchFree w).batch = LjBatch.zero := by
  obtain ⟨hm, hheld, hbound⟩ := hw
  rw [LjBatch.held, ← Nat.add_assoc] at hheld
  obtain ⟨hin, hmax, -⟩ := foldl_releaseResource w.batch.events hheld
  refine ⟨⟨?_, ?_, ?_⟩, rfl⟩ <;>
    simp only [ljBatchFree, releaseResource_maxInFlightBytes, releaseResource_inFlightBytes,
      LjBatch.held_zero, hin, hmax, hm] <;> omega

/-! ## Frames in memory -/

/-- A JSON data frame as a peer sends it: `'2' 'J'`, the sequence number and the payload's length,
big-endian, then the payload. -/
def jsonFrame (seq : UInt32) (payload : List UInt8) : List UInt8 :=
  [ljVersionV2, ljFrameJson] ++ be32 seq ++ be32 (UInt32.ofNat payload.length) ++ payload


/-- `parse_frames_from_memory`: the JSON frames `'2' 'J' seq len payload` of an inflated buffer,
appended one by one. A frame of another type, a cut frame, or a byte left over is invalid. -/
def parseFramesFromMemory (maxFrameSize : ℕ) : List UInt8 → LjWorld → RsRetVal × LjWorld
  | [], w => (.ok, w)
  | [_], w => (.invalidValue, w)
  | ver :: type :: rest, w =>
    if ver ≠ ljVersionV2 then (.invalidValue, w)
    -- a compressed frame inside a compressed frame is refused like any other type
    else if type ≠ ljFrameJson then (.invalidValue, w)
    else if rest.length < 8 then (.invalidValue, w)
    else
      let v1 := get32 (bufferOf rest) 0
      let v2 := (get32 (bufferOf rest) 4).toNat
      let body := rest.drop 8
      if v2 = 0 ∨ v2 > maxFrameSize ∨ v2 > body.length then (.invalidValue, w)
      else
        let (r, w) := ljAppendJsonEvent w v1 (body.take v2)
        if r ≠ .ok then (r, w) else parseFramesFromMemory maxFrameSize (body.drop v2) w
termination_by buf => buf.length
decreasing_by
  simp only [List.length_drop, List.length_cons]
  omega

/-- A buffer that starts with the header of a JSON frame whose payload it holds is that frame
followed by the rest. -/
theorem eq_jsonFrame_append {rest : List UInt8} (h8 : ¬rest.length < 8)
    (hv : (get32 (bufferOf rest) 4).toNat ≤ (rest.drop 8).length) :
    ljVersionV2 :: ljFrameJson :: rest =
      jsonFrame (get32 (bufferOf rest) 0) ((rest.drop 8).take (get32 (bufferOf rest) 4).toNat) ++
        (rest.drop 8).drop (get32 (bufferOf rest) 4).toNat := by
  have h0 : be32 (get32 (bufferOf rest) 0) = rest.take 4 := by
    rw [be32_get32_bufferOf (by omega), List.drop_zero]
  have h4 : be32 (get32 (bufferOf rest) 4) = (rest.drop 4).take 4 :=
    be32_get32_bufferOf (by omega)
  have h8' : rest.drop 8 = (rest.drop 4).drop 4 := by rw [List.drop_drop]
  rw [jsonFrame, List.length_take_of_le hv, UInt32.ofNat_toNat, h0, h4]
  simp only [List.cons_append, List.nil_append, List.append_assoc, List.take_append_drop, h8']

/-- The frame parser takes a buffer it accepts for a sequence of JSON frames, each with a payload
of 1 to `maxFrameSize` bytes, and appends their events in order. -/
theorem parseFramesFromMemory_eq_ok {maxFrameSize : ℕ} {buf : List UInt8} {w w' : LjWorld}
    (h : parseFramesFromMemory maxFrameSize buf w = (.ok, w')) :
    ∃ frames : List (UInt32 × List UInt8),
      buf = (frames.map fun f => jsonFrame f.1 f.2).flatten ∧
      (∀ f ∈ frames, 0 < f.2.length ∧ f.2.length ≤ maxFrameSize) ∧
      w.batch.Appended w'.batch frames ∧ (frames ≠ [] → w'.batch.Fits) := by
  revert h
  fun_induction parseFramesFromMemory maxFrameSize buf w with
  | case1 w =>
    intro h
    cases h
    exact ⟨[], rfl, by simp, ⟨by simp, rfl, rfl⟩, fun h => absurd rfl h⟩
  | case7 => intro h; exact absurd (Prod.mk.inj h).1 ‹_›
  | case8 ver type rest w hver htype hlen v1 v2 body hv2 r w₁ happ hr ih =>
    intro h
    obtain ⟨frames, hbuf, hvalid, happ', hfits⟩ := ih h
    rw [not_not] at hr
    subst hr
    obtain ⟨happ₁, hfits₁⟩ := ljAppendJsonEvent_eq_ok happ
    simp only [not_or, not_lt] at hv2
    refine ⟨(v1, body.take v2) :: frames, ?_, ?_, happ₁.trans happ', fun _ => ?_⟩
    · rw [not_not.mp hver, not_not.mp htype, eq_jsonFrame_append hlen hv2.2.2]
      simp [hbuf, v1, v2, body]
    · simp only [List.mem_cons, forall_eq_or_imp, List.length_take_of_le hv2.2.2]
      exact ⟨⟨Nat.pos_of_ne_zero hv2.1, hv2.2.1⟩, hvalid⟩
    · rcases frames with _ | ⟨f, frames⟩
      · exact happ'.fits_of_nil hfits₁
      · exact hfits (List.cons_ne_nil _ _)
  | _ => intro h; cases (Prod.mk.inj h).1

/-- Every frame's event is reserved before the batch takes it: the frame parser keeps the
account, whether it accepts the buffer or stops at a bad frame. -/
theorem accounts_parseFramesFromMemory {maxFrameSize : ℕ} {buf : List UInt8} {w : LjWorld}
    {other m : ℕ} (hw : w.Accounts other m) :
    (parseFramesFromMemory maxFrameSize buf w).2.Accounts other m := by
  fun_induction parseFramesFromMemory maxFrameSize buf w with
  | case7 _ _ _ _ _ _ _ _ _ _ _ _ _ happ _ => exact accounts_ljAppendJsonEvent hw happ
  | case8 _ _ _ _ _ _ _ _ _ _ _ _ _ happ _ ih => exact ih (accounts_ljAppendJsonEvent hw happ)
  | _ => exact hw

/-! ## Inflating a compressed frame -/

/-- zlib's return codes, as the loop tells them apart. -/
inductive ZRet where
  /-- `Z_OK`. -/
  | ok
  /-- `Z_STREAM_END`. -/
  | streamEnd
  /-- Any other code. -/
  | error
  deriving DecidableEq, Repr

/-- One answer of `inflate`: its code, the input it consumed and the output it wrote. -/
structure InflateAnswer where
  zrc : ZRet
  consumed : ℕ
  output : List UInt8
  deriving DecidableEq, Repr

/-- The state of the inflate loop: the output so far, `out_cap`, zlib's `avail_in`, the world. -/
structure InflateState where
  out : List UInt8
  outCap : ℕ
  availIn : ℕ
  world : LjWorld

/-- How one pass of the loop's body ends. -/
inductive InflatePass where
  /-- `goto finalize_it` with this code. -/
  | stop (r : RsRetVal) (s : InflateState)
  /-- The end of the body, with the code of the last `inflate`. -/
  | next (zrc : ZRet) (s : InflateState)

/-- The call of `inflate` on the free part of the buffer, and the checks after it. -/
def inflateCall (a : InflateAnswer) (s : InflateState) : InflatePass :=
  let offered := min (s.outCap - s.out.length) uintMax
  let produced := a.output.take offered
  let consumed := min a.consumed s.availIn
  let s' := { s with out := s.out ++ produced, availIn := s.availIn - consumed }
  if a.zrc = .error then .stop .invalidValue s'
  else if a.zrc = .ok ∧ produced.length = 0 ∧ consumed = 0 then .stop .invalidValue s'
  else .next a.zrc s'

/-- The body of the loop: grow a full buffer up to the expansion limit, or at the limit give
`inflate` one byte of probe space, which it must not fill. -/
def inflatePass (limit : ℕ) (a : InflateAnswer) (s : InflateState) : InflatePass :=
  if s.out.length = s.outCap then
    if s.outCap ≥ limit then
      let consumed := min a.consumed s.availIn
      let s' := { s with availIn := s.availIn - consumed }
      if (a.output.take 1).length = 1 ∨ a.zrc = .error ∨ (a.zrc = .ok ∧ consumed = 0) then
        .stop .invalidValue s'
      else .next a.zrc s'
    else
      let newCap := grownCapacity 4096 s.outCap limit
      let additionalLen := newCap - s.outCap
      match reserveResource s.world additionalLen with
      | none => .stop .outOfMemory s
      | some w =>
        let (ok, w) := nextAlloc w
        if ok then inflateCall a { s with outCap := newCap, world := w }
        else .stop .outOfMemory { s with world := releaseResource w additionalLen }
  else inflateCall a s

/-- The `do … while (zrc != Z_STREAM_END)` loop over the answers of `inflate`; `RS_RET_OK` when it
ends at the end of the stream. -/
def inflateLoop (limit : ℕ) : List InflateAnswer → InflateState → RsRetVal × InflateState
  | [], s =>
    -- no answer left: `inflate` reports an error
    match inflatePass limit ⟨.error, 0, []⟩ s with
    | .stop r s => (r, s)
    | .next _ s => (.invalidValue, s)
  | a :: answers, s =>
    match inflatePass limit a s with
    | .stop r s => (r, s)
    | .next zrc s => if zrc = .streamEnd then (.ok, s) else inflateLoop limit answers s

/-- The state a pass ends in. -/
@[simp]
def InflatePass.state : InflatePass → InflateState
  | .stop _ s => s
  | .next _ s => s

/-- What the inflate loop keeps, for a call that started in the world `w`: the batch is
untouched, the ledger holds the output buffer on top of what it held at the start, and keeps to
its bound once a buffer was reserved; the output fits the buffer, which fits the expansion limit. -/
structure InflateState.Inv (limit : ℕ) (w : LjWorld) (s : InflateState) : Prop where
  batch_eq : s.world.batch = w.batch
  max_eq : s.world.ledger.maxInFlightBytes = w.ledger.maxInFlightBytes
  inFlight_eq : s.world.ledger.inFlightBytes = w.ledger.inFlightBytes + s.outCap
  inFlight_le : 0 < s.outCap → s.world.ledger.inFlightBytes ≤ w.ledger.maxInFlightBytes
  out_le : s.out.length ≤ s.outCap
  outCap_le : s.outCap ≤ limit

/-- The loop starts with no buffer. -/
theorem InflateState.Inv.start (limit availIn : ℕ) (w : LjWorld) :
    InflateState.Inv limit w ⟨[], 0, availIn, w⟩ :=
  ⟨rfl, rfl, rfl, fun h => absurd h (lt_irrefl 0), le_refl _, Nat.zero_le _⟩

/-- Started from an account, the loop's ledger is that account with the buffer among the other
bytes. -/
theorem InflateState.Inv.accounts {limit other m : ℕ} {w : LjWorld} {s : InflateState}
    (hs : s.Inv limit w) (hw : w.Accounts other m) : s.world.Accounts (other + s.outCap) m := by
  obtain ⟨hm, hheld, hbound⟩ := hw
  refine ⟨hs.max_eq.trans hm, by rw [hs.inFlight_eq, hheld, hs.batch_eq]; omega, ?_⟩
  rcases Nat.eq_zero_or_pos s.outCap with h0 | hpos
  · rw [hs.inFlight_eq, h0]
    omega
  · exact hm ▸ hs.inFlight_le hpos

theorem inflateCall_state (a : InflateAnswer) (s : InflateState) :
    (inflateCall a s).state = { s with
      out := s.out ++ a.output.take (min (s.outCap - s.out.length) uintMax),
      availIn := s.availIn - min a.consumed s.availIn } := by
  unfold inflateCall
  dsimp only
  split_ifs <;> rfl

/-- `inflate` writes only into the space it is offered. -/
theorem InflateState.Inv.inflateCall {limit : ℕ} {w : LjWorld} {s : InflateState}
    (hs : s.Inv limit w) (a : InflateAnswer) : (Imbeats.inflateCall a s).state.Inv limit w := by
  obtain ⟨hb, hm, hin, hle, hout, hcap⟩ := hs
  rw [inflateCall_state]
  refine ⟨hb, hm, hin, hle, ?_, hcap⟩
  simp only [List.length_append, List.length_take]
  omega

/-- One pass keeps the loop's invariant: a grown buffer is reserved before it is allocated, and
given back when the allocation fails; the probe writes nowhere. -/
theorem InflateState.Inv.inflatePass {limit : ℕ} {w : LjWorld} {s : InflateState}
    (hs : s.Inv limit w) (a : InflateAnswer) : (Imbeats.inflatePass limit a s).state.Inv limit w := by
  unfold Imbeats.inflatePass
  dsimp only
  split_ifs with hfull hlimit hprobe
  -- the probe: only the input moves
  · exact ⟨hs.batch_eq, hs.max_eq, hs.inFlight_eq, hs.inFlight_le, hs.out_le, hs.outCap_le⟩
  · exact ⟨hs.batch_eq, hs.max_eq, hs.inFlight_eq, hs.inFlight_le, hs.out_le, hs.outCap_le⟩
  · -- a full buffer below the limit grows
    have hgrow := lt_grownCapacity (show 0 < 4096 by decide) (not_le.mp hlimit)
    split
    · exact hs
    · rename_i w₁ hres
      obtain ⟨hb, -, hm, hin, hle⟩ := reserveResource_eq_some hres
      have hle := hle (by omega)
      split_ifs
      · have hin' : (nextAlloc w₁).2.ledger.inFlightBytes =
            w.ledger.inFlightBytes + grownCapacity 4096 s.outCap limit := by
          rw [nextAlloc_ledger, hin, hs.inFlight_eq]
          omega
        have hle' : (nextAlloc w₁).2.ledger.inFlightBytes ≤ w.ledger.maxInFlightBytes := by
          rw [nextAlloc_ledger, ← hs.max_eq]
          exact hle
        have hout := hs.out_le
        exact InflateState.Inv.inflateCall ⟨by rw [nextAlloc_batch, hb, hs.batch_eq],
          by rw [nextAlloc_ledger, hm, hs.max_eq], hin', fun _ => hle', by dsimp only; omega,
          hgrow.2⟩ a
      · refine ⟨?_, ?_, ?_, fun hpos => ?_, hs.out_le, hs.outCap_le⟩ <;>
          simp only [InflatePass.state, releaseResource_batch, releaseResource_maxInFlightBytes,
            releaseResource_inFlightBytes, nextAlloc_batch, nextAlloc_ledger, hb, hm, hin,
            hs.batch_eq, hs.max_eq, Nat.add_sub_cancel]
        · exact hs.inFlight_eq
        · exact hs.inFlight_le hpos
  · exact hs.inflateCall a

theorem InflateState.Inv.inflateLoop {limit : ℕ} {w : LjWorld} (answers : List InflateAnswer)
    {s : InflateState} (hs : s.Inv limit w) : (Imbeats.inflateLoop limit answers s).2.Inv limit w := by
  induction answers generalizing s with
  | nil =>
    have := hs.inflatePass ⟨.error, 0, []⟩
    unfold Imbeats.inflateLoop
    split <;> simpa [*] using this
  | cons a answers ih =>
    have := hs.inflatePass a
    unfold Imbeats.inflateLoop
    split
    · simpa [*] using this
    · rename_i zrc s' hp
      rw [hp] at this
      split_ifs
      · exact this
      · exact ih this

/-- What follows the loop: the stream must have consumed the whole payload and produced some
output, whose frames must add at least one event. -/
def ljParseInflated (maxFrameSize oldCount : ℕ) (r : RsRetVal) (s : InflateState) :
    RsRetVal × LjWorld :=
  if r ≠ .ok then (r, s.world)
  else if s.availIn ≠ 0 then (.invalidValue, s.world)
  else if s.out.length = 0 then (.invalidValue, s.world)
  else
    let (r, w) := parseFramesFromMemory maxFrameSize s.out s.world
    if r = .ok ∧ w.batch.events.length = oldCount then (.invalidValue, w) else (r, w)

/-- `min(payload_len * max_compression_ratio, max_decompressed_size)`, the product saturating at
`SIZE_MAX`. -/
def expansionLimit (payloadLen maxDecompressedSize maxCompressionRatio : ℕ) : ℕ :=
  let limit :=
    if payloadLen > sizeMax / maxCompressionRatio then sizeMax
    else payloadLen * maxCompressionRatio
  if limit > maxDecompressedSize then maxDecompressedSize else limit

/-- `lj_parse_compressed_frames`: inflate the payload into a buffer reserved as it grows, parse
the frames of the output into the batch, and give the buffer back. -/
def ljParseCompressedFrames (w : LjWorld) (payload : List UInt8)
    (maxFrameSize maxDecompressedSize maxCompressionRatio : ℕ) (inflateInitOk : Bool)
    (answers : List InflateAnswer) : RsRetVal × LjWorld :=
  if maxFrameSize = 0 ∨ maxDecompressedSize = 0 ∨ maxCompressionRatio = 0 then (.paramError, w)
  else if payload.length = 0 ∨ payload.length > maxFrameSize then (.invalidValue, w)
  else if payload.length > uintMax then (.invalidValue, w)
  else if inflateInitOk = false then (.zlibErr, w)
  else
    let limit := expansionLimit payload.length maxDecompressedSize maxCompressionRatio
    let (r, s) := inflateLoop limit answers ⟨[], 0, payload.length, w⟩
    let (r, w) := ljParseInflated maxFrameSize w.batch.events.length r s
    (r, releaseResource w s.outCap)

/-! ## The ledger and the result of a compressed frame -/

theorem accounts_ljParseInflated {other m maxFrameSize oldCount : ℕ} {r r' : RsRetVal}
    {s : InflateState} {w' : LjWorld} (hs : s.world.Accounts (other + s.outCap) m)
    (h : ljParseInflated maxFrameSize oldCount r s = (r', w')) :
    w'.Accounts (other + s.outCap) m := by
  unfold ljParseInflated at h
  dsimp only at h
  split_ifs at h <;> obtain ⟨rfl, rfl⟩ := Prod.mk.inj h
  · exact hs
  · exact hs
  · exact hs
  · exact accounts_parseFramesFromMemory hs
  · exact accounts_parseFramesFromMemory hs

theorem ljParseInflated_eq_ok {maxFrameSize oldCount : ℕ} {r : RsRetVal} {s : InflateState}
    {w' : LjWorld} (h : ljParseInflated maxFrameSize oldCount r s = (.ok, w')) :
    r = .ok ∧ s.availIn = 0 ∧ s.out ≠ [] ∧
      parseFramesFromMemory maxFrameSize s.out s.world = (.ok, w') ∧
      w'.batch.events.length ≠ oldCount := by
  unfold ljParseInflated at h
  dsimp only at h
  split_ifs at h with hr hin hout hnone
  · exact absurd (Prod.mk.inj h).1 hr
  · cases (Prod.mk.inj h).1
  · cases (Prod.mk.inj h).1
  · cases (Prod.mk.inj h).1
  · obtain ⟨hr', rfl⟩ := Prod.mk.inj h
    refine ⟨not_not.mp hr, not_not.mp hin, fun he => hout (by rw [he]; rfl), ?_, ?_⟩
    · rw [← hr']
    · exact fun hc => hnone ⟨hr', hc⟩

/-- The output buffer of `inflate` is reserved as it grows and given back before
`lj_parse_compressed_frames` returns: the call keeps the account, whatever it returns. -/
theorem accounts_ljParseCompressedFrames {w w' : LjWorld} {other m : ℕ} {payload : List UInt8}
    {maxFrameSize maxDecompressedSize maxCompressionRatio : ℕ} {inflateInitOk : Bool}
    {answers : List InflateAnswer} {r : RsRetVal} (hw : w.Accounts other m)
    (h : ljParseCompressedFrames w payload maxFrameSize maxDecompressedSize maxCompressionRatio
      inflateInitOk answers = (r, w')) : w'.Accounts other m := by
  unfold ljParseCompressedFrames at h
  dsimp only at h
  split_ifs at h
  · obtain ⟨rfl, rfl⟩ := Prod.mk.inj h
    exact hw
  · obtain ⟨rfl, rfl⟩ := Prod.mk.inj h
    exact hw
  · obtain ⟨rfl, rfl⟩ := Prod.mk.inj h
    exact hw
  · obtain ⟨rfl, rfl⟩ := Prod.mk.inj h
    exact hw
  · have hs := ((InflateState.Inv.start (expansionLimit payload.length maxDecompressedSize
      maxCompressionRatio) payload.length w).inflateLoop answers).accounts hw
    generalize hp : ljParseInflated maxFrameSize w.batch.events.length _ _ = p at h
    obtain ⟨r₁, w₁⟩ := p
    obtain ⟨rfl, rfl⟩ := Prod.mk.inj h
    exact (accounts_ljParseInflated hs hp).release

/-- A compressed frame is accepted only when `inflate` ended the stream with the whole payload
consumed, having written a non-empty output of at most the expansion limit that is a sequence of
JSON frames with payloads of 1 to `maxFrameSize` bytes; the batch then gains exactly their events,
and keeps to its window and its byte bound. -/
theorem ljParseCompressedFrames_eq_ok {w w' : LjWorld} {payload : List UInt8}
    {maxFrameSize maxDecompressedSize maxCompressionRatio : ℕ} {inflateInitOk : Bool}
    {answers : List InflateAnswer}
    (h : ljParseCompressedFrames w payload maxFrameSize maxDecompressedSize maxCompressionRatio
      inflateInitOk answers = (.ok, w')) :
    let limit := expansionLimit payload.length maxDecompressedSize maxCompressionRatio
    ∃ s, inflateLoop limit answers ⟨[], 0, payload.length, w⟩ = (.ok, s) ∧ s.availIn = 0 ∧
      s.out ≠ [] ∧ s.out.length ≤ limit ∧
      ∃ frames : List (UInt32 × List UInt8), frames ≠ [] ∧
        s.out = (frames.map fun f => jsonFrame f.1 f.2).flatten ∧
        (∀ f ∈ frames, 0 < f.2.length ∧ f.2.length ≤ maxFrameSize) ∧
        w.batch.Appended w'.batch frames ∧ w'.batch.Fits := by
  intro limit
  unfold ljParseCompressedFrames at h
  dsimp only at h
  split_ifs at h
  · cases (Prod.mk.inj h).1
  · cases (Prod.mk.inj h).1
  · cases (Prod.mk.inj h).1
  · cases (Prod.mk.inj h).1
  · have hs := (InflateState.Inv.start limit payload.length w).inflateLoop answers
    generalize hl : inflateLoop limit answers ⟨[], 0, payload.length, w⟩ = q at h
    obtain ⟨r₀, s⟩ := q
    generalize hp : ljParseInflated maxFrameSize w.batch.events.length r₀ s = p at h
    obtain ⟨r₁, w₁⟩ := p
    obtain ⟨rfl, rfl⟩ := Prod.mk.inj h
    obtain ⟨rfl, hin, hout, hparse, hcount⟩ := ljParseInflated_eq_ok hp
    rw [hl] at hs
    obtain ⟨frames, hbuf, hvalid, happ, hfits⟩ := parseFramesFromMemory_eq_ok hparse
    rw [hs.batch_eq] at happ
    -- no frame would leave the count unchanged, which the code refuses
    have hne : frames ≠ [] := by
      rintro rfl
      apply hcount
      rw [happ.1, List.map_nil, List.append_nil]
    refine ⟨s, rfl, hin, hout, hs.out_le.trans hs.outCap_le, frames, hne, hbuf, hvalid, ?_, ?_⟩
    · rwa [releaseResource_batch]
    · rw [releaseResource_batch]
      exact hfits hne

end Rsyslog.Imbeats
