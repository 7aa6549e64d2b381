import Rsyslog.Segdisk.Commit

/-!
# Dequeueing and completing batches of the segmentedDisk store

`segdiskStoreDequeueBatch` (`runtime/segdisk_store.c`) reads up to `max` messages from the
read cursor, loading segments lazily with `load_segment` and reading records with
`record_at`, and appends a context for the batch to the pending list; a batch that consumed
only damaged records completes at once. `segdiskStoreCompleteBatch` first appends again the
messages the queue did not process, then marks the batch complete and lets
`advance_completed` commit what can be committed. A context leaves the pending list only
through `advance_completed`, from the head.
-/

namespace Rsyslog.Segdisk

open Rsyslog.Common

/-- `RECOVERY_SCAN_BUDGET`: damaged bytes one dequeue call may step over. -/
def recoveryScanBudget : ℕ := 1024 * 1024

/-- `validate_segment_header`: the first sequence number of a segment header that matches the
store's UUID and the segment's id, or `RS_RET_INVALID_VALUE`. -/
def validateSegmentHeader (uuid : Vector UInt8 16) (id : ℕ) (file : List UInt8) :
    Except RsRetVal ℕ :=
  match readFullAt file segHdrLen 0 with
  | .error _ => .error .invalidValue
  | .ok h =>
    let b := fileBuf h
    if getBytes b 0 8 != segMagic || get16 b 8 != storeVersion ||
        get16 b 10 != segdiskCodecVersion || getBytes b 12 16 != uuid.toList ||
        get64 b 28 != id.toUInt64 || get32 b 44 != segHdrLen.toUInt32 ||
        get32 b 48 != segdiskCrc32c (getBytes b 0 48) then .error .invalidValue
    else .ok (get64 b 36).toNat

/-- The footer check of `load_segment` for a sealed segment: the first and last sequence
numbers, the record count and the rolling CRC of a footer that names the segment and
matches its CRC. -/
def sealedFooter (id : ℕ) (file : List UInt8) : Except RsRetVal (ℕ × ℕ × ℕ × UInt32) :=
  if file.length < segHdrLen + footLen then .error .invalidValue
  else
    match readFullAt file footLen (file.length - footLen) with
    | .error _ => .error .invalidValue
    | .ok f =>
      let b := fileBuf f
      if getBytes b 0 8 != footMagic || get64 b 8 != id.toUInt64 ||
          get32 b 44 != segdiskCrc32c (getBytes b 0 44) then .error .invalidValue
      else .ok ((get64 b 16).toNat, (get64 b 24).toNat, (get64 b 32).toNat, get32 b 40)

/-- The file of a segment id that `load_segment` opens: the sealed one, else the one being
recovered, else the open one. -/
def findSegmentFile (files : SegmentFiles) (id : ℕ) : Option (SegmentSuffix × List UInt8) :=
  match files id .seg with
  | some file => some (.seg, file)
  | none =>
    match files id .recover with
    | some file => some (.recover, file)
    | none => (files id .open).map fun file => (.open, file)

/-- `load_segment`: the description of a segment read from its file: the header's first
sequence number, and for a sealed segment the footer's counts with the data ending before
the footer; `RS_RET_FILE_NOT_FOUND` when no file exists. -/
def loadSegment (s : SegdiskStore) (files : SegmentFiles) (id : ℕ) :
    Except RsRetVal SegdiskSegment :=
  match findSegmentFile files id with
  | none => .error .fileNotFound
  | some (suffix, file) =>
    match validateSegmentHeader s.publisher.uuid id file with
    | .error r => .error r
    | .ok first =>
      let seg : SegdiskSegment :=
        { id, firstSequence := first, lastSequence := 0, recordCount := 0,
          dataEnd := file.length, fileSize := file.length, rollingCrc := 0,
          sealed := suffix == .seg, recovery := suffix == .recover, path := suffix }
      if suffix = .seg then
        match sealedFooter id file with
        | .error r => .error r
        | .ok (first, last, count, crc) =>
          .ok { seg with
            firstSequence := first
            lastSequence := last
            recordCount := count
            rollingCrc := crc
            dataEnd := file.length - footLen }
      else .ok seg

/-- The loop of `segdiskStoreDequeueBatch` that loads the segment at the read cursor, skipping
ids whose file is missing; each iteration moves to the next id, so the fuel is the last data
segment plus one. -/
def loadReadSegment : ℕ → SegdiskWorld → Except RsRetVal Unit × SegdiskWorld
  | 0, w => (.ok (), w)
  | fuel + 1, w =>
    let s := w.store
    if s.readSegmentId ≠ 0 && s.readSegmentId ≤ s.lastDataSegment then
      match loadSegment s w.files s.readSegmentId with
      | .error .fileNotFound =>
        loadReadSegment fuel
          (w.setStore { s with readSegmentId := s.readSegmentId + 1, readOffset := segHdrLen })
      | .error r => (.error r, w)
      | .ok seg =>
        (.ok (), w.setStore { s with
          readSegment := some seg
          readOffset :=
            if s.committedSegment = s.readSegmentId && segHdrLen ≤ s.committedOffset &&
                s.committedOffset ≤ seg.dataEnd then s.committedOffset
            else if s.readOffset < segHdrLen then segHdrLen
            else s.readOffset })
    else (.ok (), w)

/-- Load a read segment when there is none, starting from the first live segment when the
cursor is unset. -/
def openReadSegment (w : SegdiskWorld) : Except RsRetVal Unit × SegdiskWorld :=
  let w :=
    if w.store.readSegmentId = 0 then
      w.setStore { w.store with readSegmentId := w.store.firstLiveSegment }
    else w
  loadReadSegment (w.store.lastDataSegment + 1) w

/-- `segment_is_undiscovered`: records of this segment are counted as they are read. -/
def segmentIsUndiscovered (s : SegdiskStore) (id : ℕ) : Bool :=
  id ≠ 0 && id ≤ s.discoveryThroughSegment

/-- `record_at` on the read segment: the active segment is read up to the writer's data end,
and records of an undiscovered segment are counted into `known_queue_size`. -/
def storeRecordAt {α : Type} (decode : List UInt8 → Except RsRetVal α) (seg : SegdiskSegment)
    (c : RecordCursor) (w : SegdiskWorld) :
    Except RsRetVal (α × UInt64) × RecordCursor × SegdiskWorld :=
  let s := w.store
  let seg :=
    match s.active with
    | some a => if seg.id = s.activeSegment then { seg with dataEnd := a.dataEnd } else seg
    | none => seg
  let s := { s with readSegment := some seg }
  match w.files seg.id seg.path with
  | none => (.error .ioError, c, w.setStore s)
  | some file =>
    let (r, c') :=
      recordAt decode file seg.dataEnd (seg.id = s.activeSegment) (segmentIsUndiscovered s seg.id) c
    (r, c', w.setStore { s with knownQueueSize := s.knownQueueSize + (c'.discovered - c.discovered) })

/-- What the read loop of `segdiskStoreDequeueBatch` has gathered: the messages, the records
consumed including damaged ones, the end position of the last message, the skipped and
discovered counts, the remaining scan budget and whether recovery ran out of budget. -/
structure DequeueProgress (α : Type) where
  msgs : List α
  consumed : ℕ
  endSegment : ℕ
  endOffset : ℕ
  endRecordSequence : ℕ
  skipped : ℕ
  discovered : ℕ
  scanBudget : ℕ
  recoveryPending : Bool

/-- The read loop of `segdiskStoreDequeueBatch`: what it gathered, with the error that ended it
early, if any. Every iteration reads a message, moves to the next segment or stops, so `max`
plus the last data segment plus one iterations suffice. -/
def dequeueLoop {α : Type} (decode : List UInt8 → Except RsRetVal α) (max : ℕ) :
    ℕ → DequeueProgress α → SegdiskWorld → Option RsRetVal × DequeueProgress α × SegdiskWorld
  | 0, p, w => (none, p, w)
  | fuel + 1, p, w =>
    if max ≤ p.msgs.length then (none, p, w)
    else
      let (loaded, w) := if w.store.readSegment.isNone then openReadSegment w else (.ok (), w)
      match loaded, w.store.readSegment with
      | .error r, _ => (some r, p, w)
      | .ok (), none => (none, p, w)
      | .ok (), some seg =>
        let (r, c, w) := storeRecordAt decode seg
          ⟨w.store.readOffset, p.skipped, p.discovered, p.scanBudget⟩ w
        let w := w.setStore { w.store with readOffset := c.off }
        let p := { p with
          consumed := p.consumed + (c.skipped - p.skipped)
          skipped := c.skipped
          discovered := c.discovered
          scanBudget := c.scanBudget }
        match r with
        | .error .retry => (none, { p with recoveryPending := true }, w)
        | .error .noData =>
          if seg.id = w.store.activeSegment then (none, p, w)
          else
            dequeueLoop decode max fuel p (w.setStore { w.store with
              readSegmentId := w.store.readSegmentId + 1
              readOffset := segHdrLen
              readSegment := none })
        | .error r => (some r, p, w)
        | .ok (msg, sequence) =>
          dequeueLoop decode max fuel { p with
            msgs := p.msgs ++ [msg]
            consumed := p.consumed + 1
            endSegment := seg.id
            endOffset := c.off
            endRecordSequence := sequence.toNat } w

/-- `batch_state_t`: what the queue did with one message of a batch. -/
inductive BatchState where
  | rdy
  | bad
  | sub
  | comm
  | disc
  deriving DecidableEq, Repr

/-- A batch as the store sees it: its messages with their states, and the store's context
(`storeData`) until the batch is completed. -/
structure SegdiskBatch (α : Type) where
  msgs : List α
  states : List BatchState
  storeData : Option SegdiskBatchCtx

/-- The results of `segdiskStoreDequeueBatch`: the return code, the batch, and the skipped and
discovered counts it reports. -/
structure DequeueOutcome (α : Type) where
  ret : RsRetVal
  batch : SegdiskBatch α
  skipped : ℕ
  discovered : ℕ

/-- `segdiskStoreDequeueBatch` on a store whose directory is open. -/
def segdiskStoreDequeueBatch {α : Type} (decode : List UInt8 → Except RsRetVal α)
    (batch : SegdiskBatch α) (max : ℕ) (w : SegdiskWorld) : DequeueOutcome α × SegdiskWorld :=
  if batch.storeData.isSome then (⟨.internalError, batch, 0, 0⟩, w)
  else
    let w := if w.store.deleteFirst ≠ 0 then (cleanupOnePendingDelete w).2 else w
    if w.store.deleteFirst ≠ 0 then (⟨.retry, batch, 0, 0⟩, w)
    else
      let sequence := w.store.nextBatchSequence
      let w := w.setStore { w.store with nextBatchSequence := sequence + 1 }
      let start : DequeueProgress α := ⟨[], 0, 0, 0, 0, 0, 0, recoveryScanBudget, false⟩
      match dequeueLoop decode max (max + w.store.lastDataSegment + 2) start w with
      | (some r, p, w) => (⟨r, batch, p.skipped, p.discovered⟩, w)
      | (none, p, w) =>
        if p.consumed = 0 then
          (⟨if p.recoveryPending then .retry else .noData, batch, p.skipped, p.discovered⟩, w)
        else
          let ctx : SegdiskBatchCtx :=
            { sequence, endSegment := p.endSegment, endRecordSequence := p.endRecordSequence,
              endOffset := p.endOffset, records := p.consumed, retryIndex := 0, retryCount := 0,
              complete := p.msgs.isEmpty }
          let w := w.setStore { w.store with pending := w.store.pending ++ [ctx] }
          if p.msgs.isEmpty then
            let (r, w) := advanceCompleted w
            (⟨if r = .ok then .noData else r, batch, p.skipped, p.discovered⟩, w)
          else
            (⟨.ok, ⟨p.msgs, p.msgs.map fun _ => .rdy, some ctx⟩, p.skipped, p.discovered⟩, w)

/-- The retry loop of `segdiskStoreCompleteBatch`: append again, from the context's retry
index on, every message the queue left ready or submitted; an append that fails stops the
loop with the index at that message. -/
def retryAppends {α : Type} (encode : α → Except RsRetVal (List UInt8)) :
    List (α × BatchState) → SegdiskBatchCtx → SegdiskWorld →
      RsRetVal × SegdiskBatchCtx × SegdiskWorld
  | [], ctx, w => (.ok, ctx, w)
  | (msg, state) :: rest, ctx, w =>
    if state = .rdy || state = .sub then
      let (r, w) := appendRecord encode msg true w
      if r ≠ .ok then (r, ctx, w)
      else
        retryAppends encode rest
          { ctx with retryCount := ctx.retryCount + 1, retryIndex := ctx.retryIndex + 1 } w
    else retryAppends encode rest { ctx with retryIndex := ctx.retryIndex + 1 } w

/-- Mark the pending context with this sequence number complete. -/
def markComplete (sequence : ℕ) (pending : List SegdiskBatchCtx) : List SegdiskBatchCtx :=
  pending.map fun ctx => if ctx.sequence = sequence then { ctx with complete := true } else ctx

/-- The results of `segdiskStoreCompleteBatch`: the return code, the batch, and the committed
and retried counts it reports. -/
structure CompleteOutcome (α : Type) where
  ret : RsRetVal
  batch : SegdiskBatch α
  committed : ℕ
  retried : ℕ

/-- `segdiskStoreCompleteBatch`: a batch whose context already left the pending list is
released at once; otherwise the unprocessed messages are appended again, the context is
marked complete and `advance_completed` runs, and the batch is released when it succeeds. -/
def segdiskStoreCompleteBatch {α : Type} (encode : α → Except RsRetVal (List UInt8))
    (batch : SegdiskBatch α) (w : SegdiskWorld) : CompleteOutcome α × SegdiskWorld :=
  match batch.storeData with
  | none => (⟨.internalError, batch, 0, 0⟩, w)
  | some ctx =>
    if !w.store.pending.any (·.sequence == ctx.sequence) then
      (⟨.ok, { batch with storeData := none }, ctx.records, ctx.retryCount⟩, w)
    else
      let todo := (batch.msgs.zip batch.states).drop ctx.retryIndex
      let (r, ctx, w) := retryAppends encode todo ctx w
      let batch := { batch with storeData := some ctx }
      if r ≠ .ok then (⟨r, batch, ctx.records, ctx.retryCount⟩, w)
      else
        let w := w.setStore { w.store with pending := markComplete ctx.sequence w.store.pending }
        let (r, w) := advanceCompleted w
        if r = .ok then (⟨r, { batch with storeData := none }, ctx.records, ctx.retryCount⟩, w)
        else (⟨r, batch, ctx.records, ctx.retryCount⟩, w)

end Rsyslog.Segdisk
