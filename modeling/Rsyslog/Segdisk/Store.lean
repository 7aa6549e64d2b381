import Rsyslog.Segdisk.Record
import Rsyslog.Segdisk.StatePublish

/-!
# The segmentedDisk store and its spool directory

`segdisk_store_t` (`runtime/segdisk_store.c`) keeps the store's cursors and counters in
memory and its data in the spool directory: the state file, published by `write_state`, and
one file per segment, named by the segment id and a suffix. The model keeps the fields that
the modelled operations read or write, the segment files by id and suffix, and the state
file inside the `StatePublisher` of the publication model.

Every system call that can fail takes its outcome from a fault schedule, one entry per call
in program order; a call that the directory decides (a closed descriptor, a missing source or
an existing target) fails without consuming one. A run of the store over every schedule is a
run under every pattern of failed writes, syncs, renames and state publications. A failed
`write` may have stored a prefix of its bytes.
-/

namespace Rsyslog.Segdisk

open Rsyslog.Common

/-- The suffix of a segment file's name: `seg` once sealed, `recover` for a segment found open
after a restart, `open` while it is written. -/
inductive SegmentSuffix where
  | seg
  | recover
  | «open»
  deriving DecidableEq, Repr

/-- `segdisk_segment_t`: what the store knows of one segment. -/
structure SegdiskSegment where
  id : ℕ
  firstSequence : ℕ
  lastSequence : ℕ
  recordCount : ℕ
  dataEnd : ℕ
  fileSize : ℕ
  rollingCrc : UInt32
  sealed : Bool
  recovery : Bool
  path : SegmentSuffix
  deriving DecidableEq, Repr

/-- `segdisk_store_config_t`: the settings the modelled operations read. -/
structure SegdiskStoreConfig where
  maxFileSize : ℤ
  maxDiskSpace : ℤ
  checkpointInterval : ℕ
  syncFiles : Bool
  deriving DecidableEq, Repr

/-- `segdisk_batch_ctx_t`: the store's record of one dequeued batch. The pending list and the
batch share one context in the source; the model gives each its own copy, since the pending
list only reads the position, the record count and the completion flag, and the batch only
updates the retry index and count. Membership in the pending list is the `pending` flag. -/
structure SegdiskBatchCtx where
  sequence : ℕ
  endSegment : ℕ
  endRecordSequence : ℕ
  endOffset : ℕ
  records : ℕ
  retryIndex : ℕ
  retryCount : ℕ
  complete : Bool
  deriving DecidableEq, Repr

/-- `segdisk_store_t` for a store whose directory is open: the fields the modelled operations
read or write. `stats.bytes` and `stats.segments` are kept because the state image records
them; the other statistics counters are not. -/
structure SegdiskStore where
  cfg : SegdiskStoreConfig
  activeFd : Bool
  publisher : StatePublisher
  committedSegment : ℕ
  committedRecordSequence : ℕ
  committedOffset : ℕ
  firstLiveSegment : ℕ
  lastDataSegment : ℕ
  activeSegment : ℕ
  recoveryFirst : ℕ
  recoveryLast : ℕ
  nextSegment : ℕ
  persistedWriterSegment : ℕ
  persistedWriterEnd : ℕ
  persistedWriterSequence : ℕ
  persistedWriterCount : ℕ
  deleteFirst : ℕ
  deleteLast : ℕ
  deleteBytes : ℕ
  deleteSegments : ℕ
  discoveryThroughSegment : ℕ
  readSegmentId : ℕ
  readOffset : ℕ
  readSegment : Option SegdiskSegment
  active : Option SegdiskSegment
  pending : List SegdiskBatchCtx
  nextBatchSequence : ℕ
  knownQueueSize : ℕ
  updatesSinceCheckpoint : ℕ
  dematerializing : Bool
  bytes : ℤ
  segments : ℤ
  retryOverageBytes : ℤ
  retryOverageMaxBytes : ℤ

/-- The outcome of one system call that can fail. A failed `write` stored the first
`written` bytes it was given; other calls ignore the count. -/
inductive IoOutcome where
  | ok
  | fail (written : ℕ)
  deriving DecidableEq, Repr

/-- The segment files of the spool directory, by segment id and suffix. -/
abbrev SegmentFiles := ℕ → SegmentSuffix → Option (List UInt8)

/-- A store, its segment files and the outcomes of the system calls still to come. -/
structure SegdiskWorld where
  store : SegdiskStore
  files : SegmentFiles
  io : List IoOutcome

namespace SegdiskWorld

/-- The outcome of the next system call; every call succeeds once the schedule is used up. -/
def nextOutcome (w : SegdiskWorld) : IoOutcome × SegdiskWorld :=
  match w.io with
  | [] => (.ok, w)
  | o :: rest => (o, { w with io := rest })

/-- Whether the next system call succeeds, consuming its outcome. -/
def nextSucceeds (w : SegdiskWorld) : Bool × SegdiskWorld :=
  (w.nextOutcome.1 == .ok, w.nextOutcome.2)

/-- Replace one segment file. -/
def setFile (w : SegdiskWorld) (id : ℕ) (suffix : SegmentSuffix) (file : Option (List UInt8)) :
    SegdiskWorld :=
  { w with files := Function.update w.files id (Function.update (w.files id) suffix file) }

/-- Replace the store. -/
def setStore (w : SegdiskWorld) (s : SegdiskStore) : SegdiskWorld :=
  { w with store := s }

theorem nextOutcome_of_io_cons {w : SegdiskWorld} {o : IoOutcome} {rest : List IoOutcome}
    (h : w.io = o :: rest) : w.nextOutcome = (o, { w with io := rest }) := by
  simp [nextOutcome, h]

@[simp] theorem nextOutcome_store (w : SegdiskWorld) : w.nextOutcome.2.store = w.store := by
  unfold nextOutcome
  split <;> rfl

@[simp] theorem nextOutcome_files (w : SegdiskWorld) : w.nextOutcome.2.files = w.files := by
  unfold nextOutcome
  split <;> rfl

@[simp] theorem nextSucceeds_store (w : SegdiskWorld) : w.nextSucceeds.2.store = w.store := by
  simp [nextSucceeds]

@[simp] theorem nextSucceeds_files (w : SegdiskWorld) : w.nextSucceeds.2.files = w.files := by
  simp [nextSucceeds]

@[simp] theorem setFile_store (w : SegdiskWorld) (id : ℕ) (suffix : SegmentSuffix)
    (file : Option (List UInt8)) : (w.setFile id suffix file).store = w.store := rfl

@[simp] theorem setFile_io (w : SegdiskWorld) (id : ℕ) (suffix : SegmentSuffix)
    (file : Option (List UInt8)) : (w.setFile id suffix file).io = w.io := rfl

@[simp] theorem setFile_files_self (w : SegdiskWorld) (id : ℕ) (suffix : SegmentSuffix)
    (file : Option (List UInt8)) : (w.setFile id suffix file).files id suffix = file := by
  simp [setFile]

@[simp] theorem setStore_store (w : SegdiskWorld) (s : SegdiskStore) :
    (w.setStore s).store = s := rfl

@[simp] theorem setStore_files (w : SegdiskWorld) (s : SegdiskStore) :
    (w.setStore s).files = w.files := rfl

@[simp] theorem setStore_io (w : SegdiskWorld) (s : SegdiskStore) : (w.setStore s).io = w.io := rfl

end SegdiskWorld

/-! ## System calls on segment files -/

/-- `write_full` on an open descriptor of a segment file opened with `O_APPEND`: the bytes go
to the end of the file. A failed write may have stored a prefix of them. -/
def writeFile (id : ℕ) (suffix : SegmentSuffix) (bytes : List UInt8) (w : SegdiskWorld) :
    RsRetVal × SegdiskWorld :=
  let (o, w) := w.nextOutcome
  let file := (w.files id suffix).getD []
  match o with
  | .ok => (.ok, w.setFile id suffix (some (file ++ bytes)))
  | .fail written =>
    if written < bytes.length then
      (.ioError, w.setFile id suffix (some (file ++ bytes.take written)))
    else (.ok, w.setFile id suffix (some (file ++ bytes)))

/-- `write_full` on the active segment's descriptor; a closed descriptor fails at once. -/
def writeActive (a : SegdiskSegment) (bytes : List UInt8) (w : SegdiskWorld) :
    RsRetVal × SegdiskWorld :=
  if !w.store.activeFd then (.ioError, w) else writeFile a.id a.path bytes w

/-- `sync_file_data` on the active segment's descriptor. -/
def syncActive (w : SegdiskWorld) : Bool × SegdiskWorld :=
  if !w.store.activeFd then (false, w) else w.nextSucceeds

/-- The step after a write to the active segment:
`if (r == RS_RET_OK && s->cfg.sync_files && sync_file_data(s->active_fd) != 0)
r = RS_RET_IO_ERROR`. -/
def syncActiveAfter (r : RsRetVal) (w : SegdiskWorld) : RsRetVal × SegdiskWorld :=
  if r = .ok && w.store.cfg.syncFiles then
    let (synced, w) := syncActive w
    (if synced then .ok else .ioError, w)
  else (r, w)

/-- `ftruncate` to a length: the file is cut, or extended with zero bytes. -/
def truncateFile (file : List UInt8) (len : ℕ) : List UInt8 :=
  file.take len ++ List.replicate (len - file.length) 0

/-- `rename` of a segment file to another suffix; a missing source fails at once. -/
def renameSegment (id : ℕ) (source target : SegmentSuffix) (w : SegdiskWorld) :
    Bool × SegdiskWorld :=
  match w.files id source with
  | none => (false, w)
  | some file =>
    let (renamed, w) := w.nextSucceeds
    if renamed then (true, (w.setFile id source none).setFile id target (some file))
    else (false, w)

/-- `close` on the active segment's descriptor; the descriptor is released either way. -/
def closeActive (w : SegdiskWorld) : Bool × SegdiskWorld :=
  let (ok, w') := if !w.store.activeFd then (false, w) else w.nextSucceeds
  (ok, w'.setStore { w'.store with activeFd := false })

/-- `sync_dir`. -/
def syncDir (w : SegdiskWorld) : RsRetVal × SegdiskWorld :=
  let (ok, w) := w.nextSucceeds
  (if ok then .ok else .ioError, w)

/-- A write on an open descriptor whose outcome is success appends all of its bytes. -/
theorem writeActive_of_ok {a : SegdiskSegment} {bytes : List UInt8} {w : SegdiskWorld}
    {file : List UInt8} {rest : List IoOutcome} (hfd : w.store.activeFd = true)
    (hio : w.io = .ok :: rest) (hfile : w.files a.id a.path = some file) :
    writeActive a bytes w =
      (.ok, ({ w with io := rest } : SegdiskWorld).setFile a.id a.path (some (file ++ bytes))) := by
  simp [writeActive, writeFile, hfd, SegdiskWorld.nextOutcome_of_io_cons hio, hfile]

/-- A write that fails after storing `k` of its bytes appends those and reports an error. -/
theorem writeActive_of_fail {a : SegdiskSegment} {bytes : List UInt8} {w : SegdiskWorld}
    {file : List UInt8} {k : ℕ} {rest : List IoOutcome} (hfd : w.store.activeFd = true)
    (hio : w.io = .fail k :: rest) (hfile : w.files a.id a.path = some file)
    (hk : k < bytes.length) :
    writeActive a bytes w =
      (.ioError, ({ w with io := rest } : SegdiskWorld).setFile a.id a.path
        (some (file ++ bytes.take k))) := by
  simp [writeActive, writeFile, hfd, SegdiskWorld.nextOutcome_of_io_cons hio, hfile, hk]

/-- No sync follows a failed write. -/
theorem syncActiveAfter_of_ne_ok {r : RsRetVal} (hr : r ≠ .ok) (w : SegdiskWorld) :
    syncActiveAfter r w = (r, w) := by
  simp [syncActiveAfter, hr]

/-- No sync is made when `sync_files` is off. -/
theorem syncActiveAfter_of_syncFiles_false (r : RsRetVal) {w : SegdiskWorld}
    (h : w.store.cfg.syncFiles = false) : syncActiveAfter r w = (r, w) := by
  simp [syncActiveAfter, h]

/-- A sync after a successful write reports the sync's outcome. -/
theorem syncActiveAfter_of_sync {w : SegdiskWorld} {o : IoOutcome} {rest : List IoOutcome}
    (hfd : w.store.activeFd = true) (hsync : w.store.cfg.syncFiles = true) (hio : w.io = o :: rest) :
    syncActiveAfter .ok w = (if o = .ok then .ok else .ioError, { w with io := rest }) := by
  simp [syncActiveAfter, syncActive, hsync, hfd, SegdiskWorld.nextSucceeds,
    SegdiskWorld.nextOutcome_of_io_cons hio]

@[simp] theorem closeActive_store (w : SegdiskWorld) :
    (closeActive w).2.store = { w.store with activeFd := false } := by
  unfold closeActive
  cases w.store.activeFd <;> simp

@[simp] theorem closeActive_files (w : SegdiskWorld) : (closeActive w).2.files = w.files := by
  unfold closeActive
  cases w.store.activeFd <;> simp

/-! ## State publication -/

/-- `capture_state_image`, without the UUID and generation that the publisher supplies. -/
def captureImage (s : SegdiskStore) : SegdiskStateImage where
  uuid := s.publisher.uuid
  generation := s.publisher.generation
  flags := (if s.recoveryFirst ≠ 0 then 1 else 0) ||| (if s.dematerializing then 2 else 0)
  committedSegment := s.committedSegment.toUInt64
  committedOffset := Int64.ofNat s.committedOffset
  committedRecordSequence := s.committedRecordSequence.toUInt64
  firstLiveSegment := s.firstLiveSegment.toUInt64
  lastDataSegment := s.lastDataSegment.toUInt64
  activeSegment := s.activeSegment.toUInt64
  recoveryFirst := s.recoveryFirst.toUInt64
  recoveryLast := s.recoveryLast.toUInt64
  nextSegment := s.nextSegment.toUInt64
  knownQueueSize := s.knownQueueSize.toUInt64
  bytes := Int64.ofInt s.bytes
  segments := UInt64.ofInt s.segments
  writerSegment := s.persistedWriterSegment.toUInt64
  writerEnd := Int64.ofNat s.persistedWriterEnd
  writerSequence := s.persistedWriterSequence.toUInt64
  writerCount := s.persistedWriterCount.toUInt64
  deleteFirst := s.deleteFirst.toUInt64
  deleteLast := s.deleteLast.toUInt64
  deleteBytes := Int64.ofNat s.deleteBytes
  deleteSegments := s.deleteSegments.toUInt64

/-- What a `pwrite_full` of a slot image with this outcome leaves in the slot: all of it, or
nothing, or its first bytes over the old ones. -/
def pwriteOutcome (o : IoOutcome) (old new : ℕ → UInt8) : PwriteOutcome :=
  match o with
  | .ok => .complete
  | .fail 0 => .failedUntouched
  | .fail written => .failedPartial fun j => if j < written then new j else old j

/-- `write_state` of the store: the publication model's `writeState` on the captured image,
with the outcomes of its `pwrite` and, when one is made, its sync taken from the schedule.
Success resets `updates_since_checkpoint`. -/
def storeWriteState (forceSync : Bool) (w : SegdiskWorld) : RsRetVal × SegdiskWorld :=
  let s := w.store
  let p := s.publisher
  let image := captureImage s
  let slot := slotIndex (p.generation + 1)
  let newSlot := segdiskStateEncode (captureStateImage p image) (p.generation + 1)
  let (o, w) := w.nextOutcome
  let (syncOk, w) :=
    if o == .ok && (forceSync || s.cfg.syncFiles) then w.nextSucceeds else (true, w)
  let call : StateWriteCall :=
    ⟨image, forceSync, ⟨pwriteOutcome o (p.stateFile.slot slot) newSlot, !syncOk⟩⟩
  let (r, p') := writeState s.cfg.syncFiles p call
  (r, w.setStore { s with
    publisher := p'
    updatesSinceCheckpoint := if r = .ok then 0 else s.updatesSinceCheckpoint })

/-- `capture_writer`: record the active segment's end as the writer position to persist. -/
def captureWriter (s : SegdiskStore) : SegdiskStore :=
  match s.active with
  | none => s
  | some a =>
    { s with
      persistedWriterSegment := a.id
      persistedWriterEnd := a.dataEnd
      persistedWriterSequence := a.lastSequence
      persistedWriterCount := a.recordCount }

end Rsyslog.Segdisk
