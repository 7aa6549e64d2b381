import Mathlib.Algebra.BigOperators.Group.List.Basic
import Mathlib.Data.List.InsertIdx
import Rsyslog.Plugins.LjParser

/-!
# The sessions of `imbeats` and the instance's ledger

A session of `imbeats.c` reads a Lumberjack window frame by frame, validates the full window,
submits its events and acknowledges the last sequence number. Every byte it holds (the payload
buffer and the batch) is reserved from the instance's ledger, and `destroySession` gives it back
when a step fails. The instance is its live sessions and its ledger, moved by events in any order
(accept, receive, one `sessionProcess` step, close); the outcomes of the allocator, zlib,
submission and send are a step's input, and the JSON parser is a parameter. Statistics,
timeouts, starvation limits and sockets are left out: none touches the ledger or the batch.
-/

namespace Rsyslog.Imbeats

open Rsyslog.Common

/-- `LJ_FRAME_WINDOW`, `'W'`. -/
def ljFrameWindow : UInt8 := 0x57

/-- `LJ_FRAME_COMPRESSED`, `'C'`. -/
def ljFrameCompressed : UInt8 := 0x43

/-- `lj_parse_window_header`. -/
def ljParseWindowHeader (hdr0 hdr1 : UInt8) (windowSize : ℕ) : RsRetVal :=
  if hdr0 ≠ ljVersionV2 ∨ hdr1 ≠ ljFrameWindow ∨ windowSize = 0 then .invalidValue else .ok

/-- `imbeats_seq_is_expected`: the event at `batchIndex` carries the sequence number after the
last acknowledged one, counted modulo 2^32 (the 64-bit sum truncated to 32 bits). -/
def imbeatsSeqIsExpected (lastAckedSeq : UInt32) (batchIndex : ℕ) (actualSeq : UInt32) : Bool :=
  actualSeq == lastAckedSeq + UInt32.ofNat batchIndex + 1

/-- The limits of the instance that a session reads. -/
structure InstanceConf where
  maxWindowSize : ℕ
  maxFrameSize : ℕ
  maxDecompressedSize : ℕ
  maxBatchBytes : ℕ
  maxCompressionRatio : ℕ

/-- The states of a session, `IMBEATS_ST_*`. -/
inductive SessState where
  | readWindowHdr
  | readWindowSize
  | readFrameHdr
  | readJsonSeq
  | readJsonLen
  | readJsonPayload
  | readCompLen
  | readCompPayload
  | submitEvents
  | sendAck
  deriving DecidableEq, Repr

/-- The fields of `session_t` that the frame states read and write, and the bytes the peer has
sent that the session has not read yet. -/
structure Session where
  state : SessState
  batch : LjBatch
  batchActive : Bool
  submitIdx : ℕ
  pendingSeq : UInt32
  lastAckedSeq : UInt32
  payloadLen : ℕ
  payloadAllocLen : ℕ
  inbox : List UInt8

/-- A session as `spawnSession` creates it with `calloc`. -/
def Session.fresh : Session :=
  ⟨.readWindowHdr, LjBatch.zero, false, 0, 0, 0, 0, 0, []⟩

/-- The bytes a session holds in the ledger: its payload buffer and its batch. -/
def Session.held (s : Session) : ℕ :=
  s.payloadAllocLen + s.batch.held

/-- What one step of a session is given: the outcomes of the allocations it makes, in order,
of `inflateInit` and of the calls of `inflate`, of submitting an event and of sending the
acknowledgement. -/
structure StepOutcomes where
  allocs : List Bool
  inflateInitOk : Bool
  answers : List InflateAnswer
  submitRet : RsRetVal
  sendRet : RsRetVal

/-- How one step of a session ends. -/
inductive SessResult where
  /-- `RS_RET_RETRY`: the step waits for the network and nothing changed. -/
  | retry
  /-- The session moved on. -/
  | cont (s : Session) (l : Ledger)
  /-- The step failed with this code; the worker closes the session. -/
  | fail (r : RsRetVal) (s : Session) (l : Ledger)

/-! ## The session's payload buffer -/

/-- `sessionReadStep`: the `len` bytes a read waits for, once the peer has sent them; until then
`RS_RET_RETRY`. -/
def sessionReadStep (s : Session) (len : ℕ) : Option (List UInt8 × Session) :=
  if s.inbox.length < len then none
  else some (s.inbox.take len, { s with inbox := s.inbox.drop len })

/-- `sessionAllocatePayload`: a buffer for a payload and its NUL, reserved first. -/
def sessionAllocatePayload (s : Session) (l : Ledger) (allocOk : Bool) (payloadLen : ℕ) :
    RsRetVal × Session × Ledger :=
  let allocLen := payloadLen + 1
  if payloadLen = sizeMax then (.invalidValue, s, l)
  else
    match reserveInstanceBytes l allocLen with
    | none => (.outOfMemory, s, l)
    | some l =>
      if allocOk then (.ok, { s with payloadAllocLen := allocLen }, l)
      else (.outOfMemory, s, releaseInstanceBytes l allocLen)

/-- `sessionFreePayload`. -/
def sessionFreePayload (s : Session) (l : Ledger) : Session × Ledger :=
  let l := if s.payloadAllocLen ≠ 0 then releaseInstanceBytes l s.payloadAllocLen else l
  ({ s with payloadAllocLen := 0, payloadLen := 0 }, l)

/-- `destroySession`: the payload buffer, then an active batch, go back to the ledger. -/
def destroySession (s : Session) (l : Ledger) : Ledger :=
  let (s, l) := sessionFreePayload s l
  if s.batchActive then (ljBatchFree ⟨s.batch, l, []⟩).ledger else l

/-! ## Validating, submitting and acknowledging a window -/

section Steps

variable (conf : InstanceConf) (parseJsonEvent : List UInt8 → RsRetVal) (o : StepOutcomes)

/-- The loop of `sessionValidateBatch` from the event at `idx` on: each event must carry the next
sequence number and a payload that parses as a JSON object. -/
def sessionValidateBatchFrom (lastAckedSeq : UInt32) : ℕ → List LjEvent → RsRetVal
  | _, [] => .ok
  | idx, e :: es =>
    if imbeatsSeqIsExpected lastAckedSeq idx e.seq = false then .invalidValue
    else
      let r := parseJsonEvent e.payload
      if r ≠ .ok then r else sessionValidateBatchFrom lastAckedSeq (idx + 1) es

/-- `sessionValidateBatch`. -/
def sessionValidateBatch (s : Session) : RsRetVal :=
  sessionValidateBatchFrom parseJsonEvent s.lastAckedSeq 0 s.batch.events

/-- `sessionPrepareAck`: the acknowledgement names the last event of the batch. -/
def sessionPrepareAck (s : Session) : Session :=
  { s with pendingSeq := (s.batch.events.getLast?.map LjEvent.seq).getD 0, state := .sendAck }

/-- `sessionResetForNextBatch`. -/
def sessionResetForNextBatch (s : Session) (l : Ledger) : Session × Ledger :=
  let w := ljBatchFree ⟨s.batch, l, []⟩
  ({ s with batch := w.batch, batchActive := false, submitIdx := 0, pendingSeq := 0,
            payloadLen := 0, state := .readWindowHdr }, w.ledger)

/-- The end of a frame in both payload states: a full window goes to submission, once every one
of its events validated. -/
def sessionFrameComplete (s : Session) (l : Ledger) : SessResult :=
  let s := { s with state := if s.batch.events.length = s.batch.windowSize then .submitEvents
                             else .readFrameHdr }
  if s.state = .submitEvents then
    let r := sessionValidateBatch parseJsonEvent s
    if r ≠ .ok then .fail r s l else .cont s l
  else .cont s l

/-! ## The states of `sessionProcess` -/

/-- `IMBEATS_ST_READ_WINDOW_HDR`. -/
def stepReadWindowHdr (s : Session) (l : Ledger) : SessResult :=
  match sessionReadStep s 2 with
  | none => .retry
  | some (hdr, s) =>
    if hdr.getD 0 0 ≠ ljVersionV2 ∨ hdr.getD 1 0 ≠ ljFrameWindow then .fail .invalidValue s l
    else .cont { s with state := .readWindowSize } l

/-- `IMBEATS_ST_READ_WINDOW_SIZE`: the batch for the window is set up. -/
def stepReadWindowSize (s : Session) (l : Ledger) : SessResult :=
  match sessionReadStep s 4 with
  | none => .retry
  | some (buf, s) =>
    let net32 := (get32 (bufferOf buf) 0).toNat
    let r := ljParseWindowHeader ljVersionV2 ljFrameWindow net32
    if r ≠ .ok then .fail r s l
    else if net32 > conf.maxWindowSize then .fail .invalidValue s l
    else
      match ljBatchAlloc net32 conf.maxWindowSize conf.maxBatchBytes with
      | none => .fail .paramError s l
      | some b => .cont { s with batch := b, batchActive := true, state := .readFrameHdr } l

/-- `IMBEATS_ST_READ_FRAME_HDR`. -/
def stepReadFrameHdr (s : Session) (l : Ledger) : SessResult :=
  match sessionReadStep s 2 with
  | none => .retry
  | some (hdr, s) =>
    if hdr.getD 0 0 ≠ ljVersionV2 then .fail .invalidValue s l
    else if hdr.getD 1 0 = ljFrameJson then .cont { s with state := .readJsonSeq } l
    else if hdr.getD 1 0 = ljFrameCompressed then .cont { s with state := .readCompLen } l
    else .fail .invalidValue s l

/-- `IMBEATS_ST_READ_JSON_SEQ`. -/
def stepReadJsonSeq (s : Session) (l : Ledger) : SessResult :=
  match sessionReadStep s 4 with
  | none => .retry
  | some (buf, s) => .cont { s with pendingSeq := get32 (bufferOf buf) 0, state := .readJsonLen } l

/-- `IMBEATS_ST_READ_JSON_LEN` and `IMBEATS_ST_READ_COMP_LEN`, which differ only in the state
they go to: the payload's length is checked and its buffer allocated. -/
def stepReadLen (next : SessState) (s : Session) (l : Ledger) : SessResult :=
  match sessionReadStep s 4 with
  | none => .retry
  | some (buf, s) =>
    let s := { s with payloadLen := (get32 (bufferOf buf) 0).toNat }
    if s.payloadLen = 0 ∨ s.payloadLen > conf.maxFrameSize then .fail .invalidValue s l
    else
      let (r, s, l) := sessionAllocatePayload s l (o.allocs.headD true) s.payloadLen
      if r ≠ .ok then .fail r s l else .cont { s with state := next } l

/-- `IMBEATS_ST_READ_JSON_PAYLOAD`: the batch takes the payload buffer over. -/
def stepReadJsonPayload (s : Session) (l : Ledger) : SessResult :=
  match sessionReadStep s s.payloadLen with
  | none => .retry
  | some (payload, s) =>
    let (r, w) := ljAppendJsonEventOwned ⟨s.batch, l, o.allocs⟩ s.pendingSeq payload
      s.payloadAllocLen
    let s := { s with batch := w.batch }
    let s := if r = .ok then { s with payloadLen := 0, payloadAllocLen := 0 } else s
    if r ≠ .ok then .fail r s w.ledger else sessionFrameComplete parseJsonEvent s w.ledger

/-- `IMBEATS_ST_READ_COMP_PAYLOAD`: the block is inflated into the batch, then its buffer freed. -/
def stepReadCompPayload (s : Session) (l : Ledger) : SessResult :=
  match sessionReadStep s s.payloadLen with
  | none => .retry
  | some (payload, s) =>
    let (r, w) := ljParseCompressedFrames ⟨s.batch, l, o.allocs⟩ payload conf.maxFrameSize
      conf.maxDecompressedSize conf.maxCompressionRatio o.inflateInitOk o.answers
    let (s, l) := sessionFreePayload { s with batch := w.batch } w.ledger
    if r ≠ .ok then .fail r s l else sessionFrameComplete parseJsonEvent s l

/-- `IMBEATS_ST_SUBMIT_EVENTS`, one event at a time; after the last, `sessionPrepareAck`. -/
def stepSubmitEvents (s : Session) (l : Ledger) : SessResult :=
  if s.submitIdx < s.batch.events.length then
    if o.submitRet ≠ .ok then .fail o.submitRet s l
    else .cont { s with submitIdx := s.submitIdx + 1 } l
  else .cont (sessionPrepareAck s) l

/-- `IMBEATS_ST_SEND_ACK`: once the acknowledgement is sent, the batch is freed. -/
def stepSendAck (s : Session) (l : Ledger) : SessResult :=
  if o.sendRet = .retry then .retry
  else if o.sendRet ≠ .ok then .fail o.sendRet s l
  else
    let (s, l) := sessionResetForNextBatch { s with lastAckedSeq := s.pendingSeq } l
    .cont s l

/-- One pass of the `switch` of `sessionProcess`. -/
def sessionProcessStep (s : Session) (l : Ledger) : SessResult :=
  match s.state with
  | .readWindowHdr => stepReadWindowHdr s l
  | .readWindowSize => stepReadWindowSize conf s l
  | .readFrameHdr => stepReadFrameHdr s l
  | .readJsonSeq => stepReadJsonSeq s l
  | .readJsonLen => stepReadLen conf o .readJsonPayload s l
  | .readJsonPayload => stepReadJsonPayload parseJsonEvent o s l
  | .readCompLen => stepReadLen conf o .readCompPayload s l
  | .readCompPayload => stepReadCompPayload conf parseJsonEvent o s l
  | .submitEvents => stepSubmitEvents o s l
  | .sendAck => stepSendAck o s l

end Steps

/-! ## What a session keeps between steps -/

/-- The ledger holds `rest` bytes of other sessions and this session's, within its bound `m`. -/
def Session.Accounts (rest m : ℕ) (s : Session) (l : Ledger) : Prop :=
  l.maxInFlightBytes = m ∧ l.inFlightBytes = rest + s.held ∧ l.inFlightBytes ≤ m

/-- The session's account is the account of its batch's world, with the payload buffer among
the other bytes. -/
theorem Session.Accounts.world {rest m : ℕ} {s : Session} {l : Ledger} (ha : s.Accounts rest m l)
    (allocs : List Bool) :
    (⟨s.batch, l, allocs⟩ : LjWorld).Accounts (rest + s.payloadAllocLen) m := by
  obtain ⟨h1, h2, h3⟩ := ha
  exact ⟨h1, by rw [h2, Session.held, Nat.add_assoc], h3⟩

theorem Session.Accounts.of_world {rest m : ℕ} {s : Session} {w : LjWorld}
    (hw : w.Accounts (rest + s.payloadAllocLen) m) (hb : s.batch = w.batch) :
    s.Accounts rest m w.ledger := by
  obtain ⟨h1, h2, h3⟩ := hw
  exact ⟨h1, by rw [h2, Session.held, hb, Nat.add_assoc], h3⟩

/-- What a session keeps between steps, for the JSON parser's verdicts `parseJsonEvent`. -/
structure Session.Wf (parseJsonEvent : List UInt8 → RsRetVal) (s : Session) : Prop where
  /-- A batch is active from the window's size on. -/
  batchActive_iff : s.batchActive = true ↔ s.state ≠ .readWindowHdr ∧ s.state ≠ .readWindowSize
  /-- An inactive batch holds nothing. -/
  batch_zero : s.batchActive = false → s.batch = LjBatch.zero
  window_pos : s.batchActive = true → 0 < s.batch.windowSize
  /-- Only a frame whose payload is being read has a payload buffer. -/
  payload_free : s.state ≠ .readJsonPayload → s.state ≠ .readCompPayload → s.payloadAllocLen = 0
  /-- Submission starts at the window's first event. -/
  submitIdx_zero : s.state ≠ .submitEvents → s.state ≠ .sendAck → s.submitIdx = 0
  /-- A window goes to submission only full and validated. -/
  full_window : s.state = .submitEvents ∨ s.state = .sendAck →
    s.batch.events.length = s.batch.windowSize ∧ sessionValidateBatch parseJsonEvent s = .ok
  submitIdx_le : s.state = .submitEvents → s.submitIdx ≤ s.batch.events.length
  /-- The acknowledgement is prepared once every event was submitted, and names the last. -/
  acked : s.state = .sendAck → s.submitIdx = s.batch.events.length ∧
    s.pendingSeq = (s.batch.events.getLast?.map LjEvent.seq).getD 0

/-- A session in a state that reads a frame keeps `Wf` when its batch and its payload buffer
agree with that state. -/
theorem Session.Wf.reading {p : List UInt8 → RsRetVal} {s : Session}
    (hstate : s.state ≠ .submitEvents ∧ s.state ≠ .sendAck)
    (hactive : s.batchActive = true ↔ s.state ≠ .readWindowHdr ∧ s.state ≠ .readWindowSize)
    (hzero : s.batchActive = false → s.batch = LjBatch.zero)
    (hpos : s.batchActive = true → 0 < s.batch.windowSize)
    (hfree : s.state ≠ .readJsonPayload → s.state ≠ .readCompPayload → s.payloadAllocLen = 0)
    (hidx : s.submitIdx = 0) : s.Wf p :=
  ⟨hactive, hzero, hpos, hfree, fun _ _ => hidx, fun h => by rcases h with h | h <;> simp_all,
    fun h => absurd h hstate.1, fun h => absurd h hstate.2⟩

/-- A read moves only the unread bytes. -/
theorem Session.Wf.inbox {p : List UInt8 → RsRetVal} {s : Session} (hs : s.Wf p)
    (inbox : List UInt8) : ({ s with inbox } : Session).Wf p :=
  ⟨hs.batchActive_iff, hs.batch_zero, hs.window_pos, hs.payload_free, hs.submitIdx_zero,
    hs.full_window, hs.submitIdx_le, hs.acked⟩

theorem sessionReadStep_eq_some {s s' : Session} {len : ℕ} {buf : List UInt8}
    (h : sessionReadStep s len = some (buf, s')) : s' = { s with inbox := s.inbox.drop len } := by
  unfold sessionReadStep at h
  split_ifs at h
  cases h
  rfl

/-- What a step must leave: a session that goes on keeps `Wf` and the account; a failed one
keeps the account, and an inactive batch empty, which is what `destroySession` relies on. -/
def SessResult.Good (parseJsonEvent : List UInt8 → RsRetVal) (rest m : ℕ) : SessResult → Prop
  | .retry => True
  | .cont s l => s.Wf parseJsonEvent ∧ s.Accounts rest m l
  | .fail _ s l => (s.batchActive = false → s.batch = LjBatch.zero) ∧ s.Accounts rest m l

/-- The states before the window's size is read have no batch, no payload buffer and nothing
submitted. -/
theorem Session.Wf.inactive {p : List UInt8 → RsRetVal} {s : Session} (hs : s.Wf p)
    (hst : s.state = .readWindowHdr ∨ s.state = .readWindowSize) :
    s.batchActive = false ∧ s.batch = LjBatch.zero ∧ s.payloadAllocLen = 0 ∧ s.submitIdx = 0 := by
  have hne : s.state ≠ .readJsonPayload ∧ s.state ≠ .readCompPayload ∧ s.state ≠ .submitEvents ∧
      s.state ≠ .sendAck ∧ ¬(s.state ≠ .readWindowHdr ∧ s.state ≠ .readWindowSize) := by
    rcases hst with hst | hst <;> simp [hst]
  have hact : s.batchActive = false := by
    cases h : s.batchActive
    · rfl
    · exact absurd (hs.batchActive_iff.mp h) hne.2.2.2.2
  exact ⟨hact, hs.batch_zero hact, hs.payload_free hne.1 hne.2.1,
    hs.submitIdx_zero hne.2.2.1 hne.2.2.2.1⟩

/-- The states from the frame header on have an active batch for a window of at least one
event. -/
theorem Session.Wf.active {p : List UInt8 → RsRetVal} {s : Session} (hs : s.Wf p)
    (hst : s.state ≠ .readWindowHdr ∧ s.state ≠ .readWindowSize) :
    s.batchActive = true ∧ 0 < s.batch.windowSize :=
  ⟨hs.batchActive_iff.mpr hst, hs.window_pos (hs.batchActive_iff.mpr hst)⟩

theorem ljBatchAlloc_eq_some {windowSize maxWindowSize maxPayloadLen : ℕ} {b : LjBatch}
    (h : ljBatchAlloc windowSize maxWindowSize maxPayloadLen = some b) :
    b.held = 0 ∧ b.windowSize = windowSize ∧ 0 < windowSize := by
  unfold ljBatchAlloc at h
  split_ifs at h with hbad
  cases h
  exact ⟨rfl, rfl, by omega⟩

theorem sessionAllocatePayload_spec {s s' : Session} {l l' : Ledger} {allocOk : Bool}
    {n rest m : ℕ} {r : RsRetVal} (ha : s.Accounts rest m l) (h0 : s.payloadAllocLen = 0)
    (h : sessionAllocatePayload s l allocOk n = (r, s', l')) :
    s' = (if r = .ok then { s with payloadAllocLen := n + 1 } else s) ∧ s'.Accounts rest m l' := by
  obtain ⟨hm, hin, hle⟩ := ha
  unfold sessionAllocatePayload at h
  dsimp only at h
  by_cases hmax : n = sizeMax
  · rw [if_pos hmax] at h
    simp only [Prod.mk.injEq] at h
    obtain ⟨rfl, rfl, rfl⟩ := h
    exact ⟨rfl, hm, hin, hle⟩
  · rw [if_neg hmax] at h
    split at h
    · simp only [Prod.mk.injEq] at h
      obtain ⟨rfl, rfl, rfl⟩ := h
      exact ⟨rfl, hm, hin, hle⟩
    · rename_i l₁ hres
      obtain ⟨rfl, hle₁⟩ := reserveInstanceBytes_eq_some hres
      have hle₁ := hle₁ (by omega)
      cases allocOk <;> simp only [Prod.mk.injEq, Bool.false_eq_true, if_true, if_false] at h <;>
        obtain ⟨rfl, rfl, rfl⟩ := h
      · refine ⟨rfl, by simp [hm], ?_, ?_⟩ <;> simp only [inFlightBytes_releaseInstanceBytes,
          Nat.add_sub_cancel]
        · exact hin
        · exact hle
      · refine ⟨rfl, hm, ?_, by rw [← hm]; exact hle₁⟩
        simp only [Session.held, h0] at hin ⊢
        omega

theorem sessionFreePayload_accounts {s : Session} {l : Ledger} {rest m : ℕ}
    (ha : s.Accounts rest m l) :
    (sessionFreePayload s l).1 = { s with payloadAllocLen := 0, payloadLen := 0 } ∧
      (sessionFreePayload s l).1.Accounts rest m (sessionFreePayload s l).2 := by
  obtain ⟨hm, hin, hle⟩ := ha
  refine ⟨rfl, ?_⟩
  unfold sessionFreePayload Session.Accounts Session.held at *
  dsimp only at *
  by_cases h0 : s.payloadAllocLen = 0
  · rw [if_neg (not_not.mpr h0)]
    omega
  · rw [if_pos h0, maxInFlightBytes_releaseInstanceBytes, inFlightBytes_releaseInstanceBytes]
    omega

/-- `destroySession` gives back everything the session held. -/
theorem destroySession_spec {s : Session} {l : Ledger} {rest m : ℕ}
    (hz : s.batchActive = false → s.batch = LjBatch.zero) (ha : s.Accounts rest m l) :
    (destroySession s l).maxInFlightBytes = m ∧ (destroySession s l).inFlightBytes = rest := by
  obtain ⟨hs₁, ha₁⟩ := sessionFreePayload_accounts ha
  unfold destroySession
  generalize hq : sessionFreePayload s l = q at hs₁ ha₁
  obtain ⟨s₁, l₁⟩ := q
  dsimp only at hs₁ ha₁ ⊢
  subst hs₁
  split_ifs with hact
  · obtain ⟨⟨hm, hin, -⟩, hzero⟩ := accounts_ljBatchFree (ha₁.world [])
    rw [hzero] at hin
    exact ⟨hm, by simpa using hin⟩
  · obtain ⟨hm, hin, -⟩ := ha₁
    simp only [Bool.not_eq_true] at hact
    refine ⟨hm, ?_⟩
    rw [hin, Session.held, hz hact]
    rfl

/-! ## One step of a session -/

section StepLemmas

variable {conf : InstanceConf} {p : List UInt8 → RsRetVal} {o : StepOutcomes} {s : Session}
  {l : Ledger} {rest m : ℕ}

/-- A frame ends in a state that reads the next frame, or, with a full window, in submission,
which it reaches only when the window validated. -/
theorem good_sessionFrameComplete (hact : s.batchActive = true) (hpos : 0 < s.batch.windowSize)
    (hfree : s.payloadAllocLen = 0) (hidx : s.submitIdx = 0) (ha : s.Accounts rest m l) :
    (sessionFrameComplete p s l).Good p rest m := by
  unfold sessionFrameComplete
  by_cases hfull : s.batch.events.length = s.batch.windowSize
  · -- a full window: submission, once it validated
    simp only [hfull, if_true]
    split_ifs with hr
    · exact ⟨fun h => by simp [hact] at h, ha⟩
    · refine ⟨⟨by simp [hact], fun h => by simp [hact] at h, fun _ => hpos, fun _ _ => hfree,
        fun h => absurd rfl h, fun _ => ⟨hfull, not_not.mp hr⟩, fun _ => by simp [hidx],
        fun h => by simp at h⟩, ha⟩
  · simp only [hfull, if_false, reduceCtorEq]
    exact ⟨Session.Wf.reading (by simp) (by simp [hact]) (fun h => by simp [hact] at h)
      (fun _ => hpos) (fun _ _ => hfree) hidx, ha⟩

theorem good_stepReadWindowHdr (hs : s.Wf p) (ha : s.Accounts rest m l)
    (hst : s.state = .readWindowHdr) : (stepReadWindowHdr s l).Good p rest m := by
  obtain ⟨hact, hzero, hfree, hidx⟩ := hs.inactive (.inl hst)
  unfold stepReadWindowHdr
  split
  · trivial
  · rename_i hdr s₁ hread
    obtain rfl := sessionReadStep_eq_some hread
    split_ifs
    · exact ⟨fun _ => hzero, ha⟩
    · exact ⟨Session.Wf.reading (by simp) (by simp [hact]) (fun _ => hzero)
        (fun h => by simp [hact] at h) (fun _ _ => hfree) hidx, ha⟩

theorem good_stepReadWindowSize (hs : s.Wf p) (ha : s.Accounts rest m l)
    (hst : s.state = .readWindowSize) : (stepReadWindowSize conf s l).Good p rest m := by
  obtain ⟨hact, hzero, hfree, hidx⟩ := hs.inactive (.inr hst)
  unfold stepReadWindowSize
  split
  · trivial
  · rename_i buf s₁ hread
    obtain rfl := sessionReadStep_eq_some hread
    dsimp only
    split_ifs
    · exact ⟨fun _ => hzero, ha⟩
    · exact ⟨fun _ => hzero, ha⟩
    · split
      · exact ⟨fun _ => hzero, ha⟩
      · rename_i b hb
        obtain ⟨hheld, hwin, hpos⟩ := ljBatchAlloc_eq_some hb
        -- the window's empty batch replaces the session's empty one
        refine ⟨Session.Wf.reading (by simp) (by simp) (fun h => by simp at h)
          (fun _ => hwin ▸ hpos) (fun _ _ => hfree) hidx, ?_⟩
        obtain ⟨hm, hin, hle⟩ := ha
        refine ⟨hm, ?_, hle⟩
        rw [hin, Session.held, Session.held, hzero, hheld]
        rfl

theorem good_stepReadFrameHdr (hs : s.Wf p) (ha : s.Accounts rest m l)
    (hst : s.state = .readFrameHdr) : (stepReadFrameHdr s l).Good p rest m := by
  obtain ⟨hact, hpos⟩ := hs.active (by simp [hst])
  have hfree := hs.payload_free (by simp [hst]) (by simp [hst])
  have hidx := hs.submitIdx_zero (by simp [hst]) (by simp [hst])
  unfold stepReadFrameHdr
  split
  · trivial
  · rename_i hdr s₁ hread
    obtain rfl := sessionReadStep_eq_some hread
    split_ifs
    · exact ⟨fun h => by simp [hact] at h, ha⟩
    · exact ⟨Session.Wf.reading (by simp) (by simp [hact])
        (fun h => by simp [hact] at h) (fun _ => hpos) (fun _ _ => hfree) hidx, ha⟩
    · exact ⟨Session.Wf.reading (by simp) (by simp [hact])
        (fun h => by simp [hact] at h) (fun _ => hpos) (fun _ _ => hfree) hidx, ha⟩
    · exact ⟨fun h => by simp [hact] at h, ha⟩

theorem good_stepReadJsonSeq (hs : s.Wf p) (ha : s.Accounts rest m l)
    (hst : s.state = .readJsonSeq) : (stepReadJsonSeq s l).Good p rest m := by
  obtain ⟨hact, hpos⟩ := hs.active (by simp [hst])
  have hfree := hs.payload_free (by simp [hst]) (by simp [hst])
  have hidx := hs.submitIdx_zero (by simp [hst]) (by simp [hst])
  unfold stepReadJsonSeq
  split
  · trivial
  · rename_i buf s₁ hread
    obtain rfl := sessionReadStep_eq_some hread
    exact ⟨Session.Wf.reading (by simp) (by simp [hact])
      (fun h => by simp [hact] at h) (fun _ => hpos) (fun _ _ => hfree) hidx, ha⟩

/-- Both length states allocate the payload buffer, reserved, and go to a payload state. -/
theorem good_stepReadLen {next : SessState} (hs : s.Wf p) (ha : s.Accounts rest m l)
    (hst : s.state = .readJsonLen ∨ s.state = .readCompLen)
    (hnext : next = .readJsonPayload ∨ next = .readCompPayload) :
    (stepReadLen conf o next s l).Good p rest m := by
  obtain ⟨hact, hpos⟩ := hs.active (by rcases hst with h | h <;> simp [h])
  have hfree := hs.payload_free (by rcases hst with h | h <;> simp [h])
    (by rcases hst with h | h <;> simp [h])
  have hidx := hs.submitIdx_zero (by rcases hst with h | h <;> simp [h])
    (by rcases hst with h | h <;> simp [h])
  unfold stepReadLen
  split
  · trivial
  · rename_i buf s₁ hread
    obtain rfl := sessionReadStep_eq_some hread
    dsimp only
    have ha₁ : Session.Accounts rest m
        { s with inbox := s.inbox.drop 4, payloadLen := (get32 (bufferOf buf) 0).toNat } l := ha
    generalize hq : sessionAllocatePayload
      { s with inbox := s.inbox.drop 4, payloadLen := (get32 (bufferOf buf) 0).toNat } l
      (o.allocs.headD true) (get32 (bufferOf buf) 0).toNat = q
    obtain ⟨r, s₂, l₂⟩ := q
    obtain ⟨hs₂, ha₂⟩ := sessionAllocatePayload_spec ha₁ hfree hq
    dsimp only
    split_ifs with hbad hr
    · exact ⟨fun h => by simp [hact] at h, ha⟩
    · rw [if_neg hr] at hs₂
      subst hs₂
      exact ⟨fun h => by simp [hact] at h, ha₂⟩
    · rw [if_pos (not_not.mp hr)] at hs₂
      subst hs₂
      refine ⟨Session.Wf.reading (by rcases hnext with h | h <;> simp [h]) (by
        rcases hnext with h | h <;> simp [h, hact]) (fun h => by simp [hact] at h)
        (fun _ => hpos) (fun h₁ h₂ => by rcases hnext with h | h <;> simp [h] at h₁ h₂) hidx,
        ha₂⟩

theorem good_stepReadJsonPayload (hs : s.Wf p) (ha : s.Accounts rest m l)
    (hst : s.state = .readJsonPayload) : (stepReadJsonPayload p o s l).Good p rest m := by
  obtain ⟨hact, hpos⟩ := hs.active (by simp [hst])
  have hidx := hs.submitIdx_zero (by simp [hst]) (by simp [hst])
  unfold stepReadJsonPayload
  split
  · trivial
  · rename_i payload s₁ hread
    obtain rfl := sessionReadStep_eq_some hread
    dsimp only
    generalize hq : ljAppendJsonEventOwned ⟨s.batch, l, o.allocs⟩ s.pendingSeq payload
      s.payloadAllocLen = q
    obtain ⟨r, w⟩ := q
    have hw := accounts_ljAppendJsonEventOwned (ha.world o.allocs) hq
    dsimp only
    by_cases hr : r = .ok
    · -- the batch owns the payload buffer now
      subst hr
      rw [if_pos rfl] at hw
      simp only [if_true, ne_eq, not_true_eq_false, if_false]
      have hwin := (ljAppendJsonEventOwned_eq_ok hq).2.1
      exact good_sessionFrameComplete hact (by rw [hwin]; exact hpos) rfl hidx
        (Session.Accounts.of_world (by simpa using hw) rfl)
    · rw [if_neg hr] at hw
      simp only [hr, if_false, ne_eq, not_false_eq_true, if_true]
      exact ⟨fun h => by simp [hact] at h, Session.Accounts.of_world hw rfl⟩

theorem good_stepReadCompPayload (hs : s.Wf p) (ha : s.Accounts rest m l)
    (hst : s.state = .readCompPayload) : (stepReadCompPayload conf p o s l).Good p rest m := by
  obtain ⟨hact, hpos⟩ := hs.active (by simp [hst])
  have hidx := hs.submitIdx_zero (by simp [hst]) (by simp [hst])
  unfold stepReadCompPayload
  split
  · trivial
  · rename_i payload s₁ hread
    obtain rfl := sessionReadStep_eq_some hread
    dsimp only
    generalize hq : ljParseCompressedFrames ⟨s.batch, l, o.allocs⟩ payload conf.maxFrameSize
      conf.maxDecompressedSize conf.maxCompressionRatio o.inflateInitOk o.answers = q
    obtain ⟨r, w⟩ := q
    have ha' : Session.Accounts rest m { s with inbox := s.inbox.drop s.payloadLen, batch := w.batch }
        w.ledger :=
      Session.Accounts.of_world (accounts_ljParseCompressedFrames (ha.world o.allocs) hq) rfl
    -- the payload buffer goes back whatever the block held
    obtain ⟨hs₂, ha₂⟩ := sessionFreePayload_accounts ha'
    dsimp only
    rw [hs₂] at ha₂ ⊢
    split_ifs with hr
    · exact ⟨fun h => by simp [hact] at h, ha₂⟩
    · rw [not_not] at hr
      subst hr
      obtain ⟨_, -, -, -, -, _, -, -, -, happ, -⟩ := ljParseCompressedFrames_eq_ok hq
      exact good_sessionFrameComplete hact (by simp only; rw [happ.2.1]; exact hpos) rfl hidx ha₂

theorem good_stepSubmitEvents (hs : s.Wf p) (ha : s.Accounts rest m l)
    (hst : s.state = .submitEvents) : (stepSubmitEvents o s l).Good p rest m := by
  obtain ⟨hact, hpos⟩ := hs.active (by simp [hst])
  have hfree := hs.payload_free (by simp [hst]) (by simp [hst])
  obtain ⟨hfull, hvalid⟩ := hs.full_window (.inl hst)
  have hle := hs.submitIdx_le hst
  unfold stepSubmitEvents
  split_ifs with hlt hr
  · exact ⟨fun h => by simp [hact] at h, ha⟩
  · -- one more event submitted
    exact ⟨⟨by simp [hst, hact], fun h => by simp [hact] at h, fun _ => hpos, fun _ _ => hfree,
      fun h => absurd hst h, fun _ => ⟨hfull, hvalid⟩, fun _ => by dsimp only; omega,
      fun h => by simp [hst] at h⟩, ha⟩
  · -- every event submitted: the acknowledgement names the last
    exact ⟨⟨by simp [sessionPrepareAck, hact], fun h => by simp [sessionPrepareAck, hact] at h,
      fun _ => hpos, fun _ _ => hfree, fun _ h => absurd rfl h, fun _ => ⟨hfull, hvalid⟩,
      fun h => by simp [sessionPrepareAck] at h, fun _ => ⟨by dsimp only [sessionPrepareAck]; omega,
      rfl⟩⟩, ha⟩

theorem good_stepSendAck (hs : s.Wf p) (ha : s.Accounts rest m l)
    (hst : s.state = .sendAck) : (stepSendAck o s l).Good p rest m := by
  obtain ⟨hact, hpos⟩ := hs.active (by simp [hst])
  have hfree := hs.payload_free (by simp [hst]) (by simp [hst])
  unfold stepSendAck
  split_ifs with hretry hr
  · trivial
  · exact ⟨fun h => by simp [hact] at h, ha⟩
  · -- the acknowledged batch is freed for the next window
    obtain ⟨hacc, hzero⟩ := accounts_ljBatchFree (ha.world [])
    unfold sessionResetForNextBatch
    exact ⟨Session.Wf.reading (by simp) (by simp) (fun _ => hzero) (fun h => by simp at h)
      (fun _ _ => hfree) rfl, Session.Accounts.of_world hacc rfl⟩

/-- Every step of a session keeps what it must, whatever the peer sent and whatever the
allocator, zlib and the network answered. -/
theorem good_sessionProcessStep (hs : s.Wf p) (ha : s.Accounts rest m l) :
    (sessionProcessStep conf p o s l).Good p rest m := by
  unfold sessionProcessStep
  split
  next hst => exact good_stepReadWindowHdr hs ha hst
  next hst => exact good_stepReadWindowSize hs ha hst
  next hst => exact good_stepReadFrameHdr hs ha hst
  next hst => exact good_stepReadJsonSeq hs ha hst
  next hst => exact good_stepReadLen hs ha (.inl hst) (.inl rfl)
  next hst => exact good_stepReadJsonPayload hs ha hst
  next hst => exact good_stepReadLen hs ha (.inr hst) (.inr rfl)
  next hst => exact good_stepReadCompPayload hs ha hst
  next hst => exact good_stepSubmitEvents hs ha hst
  next hst => exact good_stepSendAck hs ha hst

end StepLemmas

/-! ## The instance -/

/-- The live sessions of an instance and its ledger. -/
structure Instance where
  sessions : List Session
  ledger : Ledger

/-- An instance with no session and nothing reserved. -/
def Instance.init (maxInFlightBytes : ℕ) : Instance :=
  ⟨[], ⟨0, maxInFlightBytes⟩⟩

/-- What can happen to an instance. -/
inductive InstEvent where
  /-- `spawnSession` accepts a connection. -/
  | spawnSession
  /-- The peer of a session sends bytes. -/
  | receive (i : ℕ) (bytes : List UInt8)
  /-- A worker runs one step of a session. -/
  | process (i : ℕ) (o : StepOutcomes)
  /-- `closeSession`: a read error, a timeout or a shutdown ends a session. -/
  | closeSession (i : ℕ)

/-- One event of an instance; a step that fails closes its session. -/
def instanceStep (conf : InstanceConf) (parseJsonEvent : List UInt8 → RsRetVal) (inst : Instance) :
    InstEvent → Instance
  | .spawnSession => { inst with sessions := Session.fresh :: inst.sessions }
  | .receive i bytes =>
    match inst.sessions[i]? with
    | none => inst
    | some s => { inst with sessions := inst.sessions.set i { s with inbox := s.inbox ++ bytes } }
  | .process i o =>
    match inst.sessions[i]? with
    | none => inst
    | some s =>
      match sessionProcessStep conf parseJsonEvent o s inst.ledger with
      | .retry => inst
      | .cont s l => ⟨inst.sessions.set i s, l⟩
      | .fail _ s l => ⟨inst.sessions.eraseIdx i, destroySession s l⟩
  | .closeSession i =>
    match inst.sessions[i]? with
    | none => inst
    | some s => ⟨inst.sessions.eraseIdx i, destroySession s inst.ledger⟩

/-- A run of events. -/
def instanceRun (conf : InstanceConf) (parseJsonEvent : List UInt8 → RsRetVal) (inst : Instance)
    (events : List InstEvent) : Instance :=
  events.foldl (instanceStep conf parseJsonEvent) inst

/-! ## Every run of the instance -/

/-- The instance's ledger holds exactly what its sessions hold, within its bound, and every
session keeps `Wf`. -/
structure Instance.Inv (parseJsonEvent : List UInt8 → RsRetVal) (m : ℕ) (inst : Instance) :
    Prop where
  max_eq : inst.ledger.maxInFlightBytes = m
  inFlight_eq : inst.ledger.inFlightBytes = (inst.sessions.map Session.held).sum
  inFlight_le : inst.ledger.inFlightBytes ≤ m
  wf : ∀ s ∈ inst.sessions, s.Wf parseJsonEvent

/-- A session submits only a full, validated window of at least one event, and acknowledges it
once every event was submitted, with the sequence number of the last. -/
theorem Session.Wf.ack_full_window {p : List UInt8 → RsRetVal} {s : Session} (hs : s.Wf p) :
    (s.state = .submitEvents ∨ s.state = .sendAck →
      0 < s.batch.windowSize ∧ s.batch.events.length = s.batch.windowSize ∧
        sessionValidateBatch p s = .ok) ∧
    (s.state = .sendAck → s.submitIdx = s.batch.events.length ∧
      s.pendingSeq = (s.batch.events.getLast?.map LjEvent.seq).getD 0) := by
  refine ⟨fun hst => ⟨hs.window_pos (hs.batchActive_iff.mpr ?_), hs.full_window hst⟩, hs.acked⟩
  rcases hst with h | h <;> rw [h] <;> decide

theorem Session.wf_fresh (p : List UInt8 → RsRetVal) : Session.fresh.Wf p :=
  Session.Wf.reading (by decide) (by decide) (fun _ => rfl) (fun h => by simp [Session.fresh] at h)
    (fun _ _ => rfl) rfl

theorem Instance.inv_init (p : List UInt8 → RsRetVal) (m : ℕ) : (Instance.init m).Inv p m :=
  ⟨rfl, rfl, Nat.zero_le _, by simp [Instance.init]⟩

/-- A session's bytes and those of the others make up the sum. -/
theorem sum_held_eq_add {l : List Session} {i : ℕ} {s : Session} (h : l[i]? = some s) :
    (l.map Session.held).sum = ((l.eraseIdx i).map Session.held).sum + s.held := by
  obtain ⟨hi, rfl⟩ := List.getElem?_eq_some_iff.mp h
  rw [← List.eraseIdx_map, ← List.CommMonoid.add_sum_eraseIdx (by simpa using hi),
    List.getElem_map, Nat.add_comm]

theorem sum_held_set {l : List Session} {i : ℕ} {s : Session} (h : l[i]? = some s)
    (s' : Session) :
    ((l.set i s').map Session.held).sum = ((l.eraseIdx i).map Session.held).sum + s'.held := by
  have hi : i < l.length := (List.getElem?_eq_some_iff.mp h).1
  rw [sum_held_eq_add (List.getElem?_set_self hi), List.eraseIdx_set_eq]

/-- A live session is accounted with the others' bytes as the rest. -/
theorem Instance.Inv.session {p : List UInt8 → RsRetVal} {m i : ℕ} {inst : Instance} {s : Session}
    (hinv : inst.Inv p m) (h : inst.sessions[i]? = some s) :
    s.Wf p ∧ s.Accounts ((inst.sessions.eraseIdx i).map Session.held).sum m inst.ledger :=
  ⟨hinv.wf s (List.mem_of_getElem? h), hinv.max_eq,
    by rw [hinv.inFlight_eq, sum_held_eq_add h], hinv.inFlight_le⟩

/-- Replacing a session by one that keeps `Wf` and its account keeps the invariant. -/
theorem Instance.Inv.set {p : List UInt8 → RsRetVal} {m i : ℕ} {inst : Instance} {s s' : Session}
    {l : Ledger} (hinv : inst.Inv p m) (h : inst.sessions[i]? = some s) (hs' : s'.Wf p)
    (ha' : s'.Accounts ((inst.sessions.eraseIdx i).map Session.held).sum m l) :
    (⟨inst.sessions.set i s', l⟩ : Instance).Inv p m := by
  obtain ⟨hm, hin, hle⟩ := ha'
  refine ⟨hm, by rw [hin, sum_held_set h], hle, fun x hx => ?_⟩
  rcases List.mem_or_eq_of_mem_set hx with hx | rfl
  · exact hinv.wf x hx
  · exact hs'

/-- Closing a session gives back all it held. -/
theorem Instance.Inv.erase {p : List UInt8 → RsRetVal} {m i : ℕ} {inst : Instance} {s : Session}
    {l : Ledger} (hinv : inst.Inv p m) (hz : s.batchActive = false → s.batch = LjBatch.zero)
    (ha : s.Accounts ((inst.sessions.eraseIdx i).map Session.held).sum m l) :
    (⟨inst.sessions.eraseIdx i, destroySession s l⟩ : Instance).Inv p m := by
  obtain ⟨hm, hin⟩ := destroySession_spec hz ha
  refine ⟨hm, hin, ?_, fun x hx => hinv.wf x (List.mem_of_mem_eraseIdx hx)⟩
  rw [hin, ← hm]
  have := ha.2.1 ▸ ha.2.2
  omega

/-- Every event keeps the instance's invariant. -/
theorem Instance.Inv.instanceStep {conf : InstanceConf} {p : List UInt8 → RsRetVal} {m : ℕ}
    {inst : Instance} (hinv : inst.Inv p m) (e : InstEvent) :
    (Imbeats.instanceStep conf p inst e).Inv p m := by
  cases e with
  | spawnSession =>
    dsimp only [Imbeats.instanceStep]
    refine ⟨hinv.max_eq, ?_, hinv.inFlight_le, ?_⟩
    · simp [hinv.inFlight_eq, Session.held, Session.fresh]
    · intro x hx
      rcases List.mem_cons.mp hx with rfl | hx
      · exact Session.wf_fresh p
      · exact hinv.wf x hx
  | receive i bytes =>
    dsimp only [Imbeats.instanceStep]
    split
    · exact hinv
    · rename_i s h
      obtain ⟨hs, ha⟩ := hinv.session h
      exact hinv.set h (hs.inbox _) ha
  | process i o =>
    dsimp only [Imbeats.instanceStep]
    split
    · exact hinv
    · rename_i s h
      obtain ⟨hs, ha⟩ := hinv.session h
      have hgood : (sessionProcessStep conf p o s inst.ledger).Good p _ m :=
        good_sessionProcessStep hs ha
      split
      · exact hinv
      · rename_i s' l' hstep
        rw [hstep] at hgood
        exact hinv.set h hgood.1 hgood.2
      · rename_i r s' l' hstep
        rw [hstep] at hgood
        exact hinv.erase hgood.1 hgood.2
  | closeSession i =>
    dsimp only [Imbeats.instanceStep]
    split
    · exact hinv
    · rename_i s h
      obtain ⟨hs, ha⟩ := hinv.session h
      exact hinv.erase hs.batch_zero ha

/-- The run lemma: every run keeps the invariant. -/
theorem Instance.Inv.instanceRun {conf : InstanceConf} {p : List UInt8 → RsRetVal} {m : ℕ}
    {inst : Instance} (hinv : inst.Inv p m) (events : List InstEvent) :
    (Imbeats.instanceRun conf p inst events).Inv p m := by
  induction events generalizing inst with
  | nil => exact hinv
  | cons e events ih => exact ih (hinv.instanceStep e)

/-- The bytes a session holds, as the ledger counts them: its payload buffer, its batch's array
and the payload of every event of the batch. -/
theorem held_eq_fields :
    (fun s : Session => s.payloadAllocLen + s.batch.eventsAllocLen +
      (s.batch.events.map LjEvent.payloadAllocLen).sum) = Session.held :=
  funext fun _ => Nat.add_assoc _ _ _

/-- From an instance with no session, over any run, the ledger holds exactly the bytes of the
live sessions and keeps to its bound, so it is empty when no session is left, and every live
session submits only a full validated window and acknowledges it, with its last sequence number,
only once every event was submitted; and a compressed
frame is accepted only when `inflate` ended its stream with the whole payload consumed, having
written a non-empty output within the expansion limit that is a sequence of JSON frames of 1 to
`maxFrameSize` bytes each, whose events the batch then gained, keeping to its window and its
byte bound. -/
theorem imbeats_inFlightBytes_balanced (conf : InstanceConf)
    (parseJsonEvent : List UInt8 → RsRetVal) (m : ℕ) :
    (∀ events : List InstEvent,
      let inst := instanceRun conf parseJsonEvent (Instance.init m) events
      inst.ledger.inFlightBytes = (inst.sessions.map fun s => s.payloadAllocLen +
          s.batch.eventsAllocLen + (s.batch.events.map LjEvent.payloadAllocLen).sum).sum ∧
        inst.ledger.inFlightBytes ≤ m ∧ (inst.sessions = [] → inst.ledger.inFlightBytes = 0) ∧
        ∀ s ∈ inst.sessions,
          (s.state = .submitEvents ∨ s.state = .sendAck →
            0 < s.batch.windowSize ∧ s.batch.events.length = s.batch.windowSize ∧
              sessionValidateBatch parseJsonEvent s = .ok) ∧
          (s.state = .sendAck → s.submitIdx = s.batch.events.length ∧
            s.pendingSeq = (s.batch.events.getLast?.map LjEvent.seq).getD 0)) ∧
    ∀ (w w' : LjWorld) (payload : List UInt8)
      (maxFrameSize maxDecompressedSize maxCompressionRatio : ℕ) (inflateInitOk : Bool)
      (answers : List InflateAnswer),
      ljParseCompressedFrames w payload maxFrameSize maxDecompressedSize maxCompressionRatio
        inflateInitOk answers = (.ok, w') →
      let limit := expansionLimit payload.length maxDecompressedSize maxCompressionRatio
      ∃ s, inflateLoop limit answers ⟨[], 0, payload.length, w⟩ = (.ok, s) ∧ s.availIn = 0 ∧
        s.out ≠ [] ∧ s.out.length ≤ limit ∧
        ∃ frames : List (UInt32 × List UInt8), frames ≠ [] ∧
          s.out = (frames.map fun f => jsonFrame f.1 f.2).flatten ∧
          (∀ f ∈ frames, 0 < f.2.length ∧ f.2.length ≤ maxFrameSize) ∧
          w.batch.Appended w'.batch frames ∧ w'.batch.Fits := by
  refine ⟨fun events => ?_, fun w w' payload _ _ _ _ _ h => ljParseCompressedFrames_eq_ok h⟩
  have hinv : (instanceRun conf parseJsonEvent (Instance.init m) events).Inv parseJsonEvent m :=
    (Instance.inv_init parseJsonEvent m).instanceRun events
  refine ⟨by rw [held_eq_fields]; exact hinv.inFlight_eq, hinv.inFlight_le, fun hnil => ?_,
    fun s hs => (hinv.wf s hs).ack_full_window⟩
  rw [hinv.inFlight_eq, hnil]
  rfl

/-- A ten-byte block that `inflate` ends in one call, writing the single frame `'2' 'J' 1 2 "{}"`,
is taken into a batch for a window of one event when the instance may hold 1000 bytes. -/
theorem imbeats_inFlightBytes_balanced_oneFrame :
    (ljParseCompressedFrames ⟨{ LjBatch.zero with windowSize := 1, maxPayloadLen := 100 },
        ⟨0, 1000⟩, []⟩ (List.replicate 10 0x78) 100 1000 10 true
        [⟨.streamEnd, 10, jsonFrame 1 [0x7b, 0x7d]⟩]).1 = .ok ∧
      ∃ s, inflateLoop (expansionLimit 10 1000 10) [⟨.streamEnd, 10, jsonFrame 1 [0x7b, 0x7d]⟩]
          ⟨[], 0, 10, ⟨{ LjBatch.zero with windowSize := 1, maxPayloadLen := 100 }, ⟨0, 1000⟩, []⟩⟩ =
            (.ok, s) ∧ s.availIn = 0 ∧ s.out ≠ [] ∧ s.out.length ≤ expansionLimit 10 1000 10 ∧
        ∃ frames : List (UInt32 × List UInt8), frames ≠ [] ∧
          s.out = (frames.map fun f => jsonFrame f.1 f.2).flatten ∧
          (∀ f ∈ frames, 0 < f.2.length ∧ f.2.length ≤ 100) ∧
          LjBatch.Appended { LjBatch.zero with windowSize := 1, maxPayloadLen := 100 }
            (ljParseCompressedFrames ⟨{ LjBatch.zero with windowSize := 1, maxPayloadLen := 100 },
              ⟨0, 1000⟩, []⟩ (List.replicate 10 0x78) 100 1000 10 true
              [⟨.streamEnd, 10, jsonFrame 1 [0x7b, 0x7d]⟩]).2.batch frames ∧
          (ljParseCompressedFrames ⟨{ LjBatch.zero with windowSize := 1, maxPayloadLen := 100 },
              ⟨0, 1000⟩, []⟩ (List.replicate 10 0x78) 100 1000 10 true
              [⟨.streamEnd, 10, jsonFrame 1 [0x7b, 0x7d]⟩]).2.batch.Fits := by
  have hok : (ljParseCompressedFrames ⟨{ LjBatch.zero with windowSize := 1, maxPayloadLen := 100 },
      ⟨0, 1000⟩, []⟩ (List.replicate 10 0x78) 100 1000 10 true
      [⟨.streamEnd, 10, jsonFrame 1 [0x7b, 0x7d]⟩]).1 = .ok := by decide +kernel
  exact ⟨hok, (imbeats_inFlightBytes_balanced ⟨1, 100, 1000, 100, 10⟩ (fun _ => .ok) 1000).2 _ _ _
    _ _ _ _ _ (Prod.ext hok rfl)⟩

/-- The same block is refused with `RS_RET_OUT_OF_MEMORY` when the instance may hold only ten
bytes: the first reservation of the output buffer, of the expansion limit's 100 bytes, fails. -/
theorem ljParseCompressedFrames_refusedReservation :
    (ljParseCompressedFrames ⟨{ LjBatch.zero with windowSize := 1, maxPayloadLen := 100 },
        ⟨0, 10⟩, []⟩ (List.replicate 10 0x78) 100 1000 10 true
        [⟨.streamEnd, 10, jsonFrame 1 [0x7b, 0x7d]⟩]).1 = .outOfMemory ∧
      (ljParseCompressedFrames ⟨{ LjBatch.zero with windowSize := 1, maxPayloadLen := 100 },
        ⟨0, 1000⟩, []⟩ (List.replicate 10 0x78) 100 1000 10 true
        [⟨.streamEnd, 10, jsonFrame 1 [0x7b, 0x7d]⟩]).1 = .ok :=
  ⟨by decide, by decide +kernel⟩

end Rsyslog.Imbeats
