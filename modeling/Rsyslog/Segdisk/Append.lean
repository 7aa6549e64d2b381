import Rsyslog.Segdisk.Store

/-!
# Appending a record to the segmentedDisk store

`append_record` (`runtime/segdisk_store.c`) frames the message with `make_record`, rotates to a
fresh segment when the record would overflow `max_file_size`, writes the record to the
active segment, counts it, and seals a segment whose first record alone overflows the limit.
`create_active` reserves a segment id by publishing the state before it creates the file, and
`seal_active` writes the footer, renames the file to its sealed name and retires it; both
restore what they changed when a step fails.

The model covers a store whose directory is open; lazy creation of the directory by
`materialize_empty` is not modelled.
-/

namespace Rsyslog.Segdisk

open Rsyslog.Common

/-- The fields `segdiskStoreOpen` sets on a new spool directory before it creates the first
segment: a zero-filled state file at generation 0, no segments, and the writer and commit
positions just after a segment header. -/
def freshStore (cfg : SegdiskStoreConfig) (uuid : Vector UInt8 16) : SegdiskStore where
  cfg := cfg
  activeFd := false
  publisher := ⟨uuid, 0, .zeroed⟩
  committedSegment := 0
  committedRecordSequence := 0
  committedOffset := segHdrLen
  firstLiveSegment := 0
  lastDataSegment := 0
  activeSegment := 0
  recoveryFirst := 0
  recoveryLast := 0
  nextSegment := 1
  persistedWriterSegment := 0
  persistedWriterEnd := segHdrLen
  persistedWriterSequence := 0
  persistedWriterCount := 0
  deleteFirst := 0
  deleteLast := 0
  deleteBytes := 0
  deleteSegments := 0
  discoveryThroughSegment := 0
  readSegmentId := 0
  readOffset := segHdrLen
  readSegment := none
  active := none
  pending := []
  nextBatchSequence := 0
  knownQueueSize := 0
  updatesSinceCheckpoint := 0
  dematerializing := false
  bytes := 0
  segments := 0
  retryOverageBytes := 0
  retryOverageMaxBytes := 0

/-- The fields `create_active` restores when it fails after reserving a segment: no active
segment, the old first live segment, one segment and one header fewer, and the given next
segment id. -/
def unreserveSegment (s : SegdiskStore) (firstLiveSegment nextSegment : ℕ) : SegdiskStore :=
  { s with
    activeSegment := 0
    firstLiveSegment := firstLiveSegment
    nextSegment := nextSegment
    segments := s.segments - 1
    bytes := s.bytes - segHdrLen }

/-- A fresh open segment with only its header. -/
def freshSegment (id : ℕ) : SegdiskSegment where
  id := id
  firstSequence := 1
  lastSequence := 0
  recordCount := 0
  dataEnd := segHdrLen
  fileSize := segHdrLen
  rollingCrc := 0
  sealed := false
  recovery := false
  path := .open

/-- `create_active`: reserve the next segment id and publish the reservation, then create the
segment file exclusively and write its header. A failure restores the fields it changed,
except that a published reservation keeps `next_segment` advanced. -/
def createActive (w : SegdiskWorld) : RsRetVal × SegdiskWorld :=
  let s := w.store
  let seg := freshSegment s.nextSegment
  let reserved := { s with
    nextSegment := s.nextSegment + 1
    activeSegment := seg.id
    firstLiveSegment := if s.firstLiveSegment = 0 then seg.id else s.firstLiveSegment
    segments := s.segments + 1
    bytes := s.bytes + segHdrLen }
  let (r, w) := storeWriteState true (w.setStore reserved)
  if r ≠ .ok then (r, w.setStore (unreserveSegment w.store s.firstLiveSegment s.nextSegment))
  else
    -- the reservation is durable from here on
    let (opened, w) :=
      if (w.files seg.id .open).isSome then (false, w) else w.nextSucceeds
    if !opened then
      (.ioError, w.setStore (unreserveSegment w.store s.firstLiveSegment w.store.nextSegment))
    else
      let w := w.setFile seg.id .open (some [])
      let (r, w) := writeFile seg.id .open (segmentHeader s.publisher.uuid seg.id) w
      let (r, w) :=
        if r = .ok && s.cfg.syncFiles then
          let (synced, w) := w.nextSucceeds
          (if synced then .ok else .ioError, w)
        else (r, w)
      if r ≠ .ok then
        let (unlinked, w) := w.nextSucceeds
        let w := if unlinked then w.setFile seg.id .open none else w
        (r, w.setStore (unreserveSegment w.store s.firstLiveSegment w.store.nextSegment))
      else (.ok, w.setStore { w.store with active := some seg, activeFd := true })

/-- The spool directory `segdiskStoreOpen` leaves behind on a new directory when every system
call succeeds: the fresh store after `create_active`. -/
def openedWorld (cfg : SegdiskStoreConfig) (uuid : Vector UInt8 16) : SegdiskWorld :=
  (createActive ⟨freshStore cfg uuid, fun _ _ => none, []⟩).2

/-- `restore_active_after_seal_failure`: reopen the active segment and cut it back to its data
end, so that a partly written footer goes; when either step fails the descriptor stays
closed. -/
def restoreActiveAfterSealFailure (a : SegdiskSegment) (w : SegdiskWorld) : SegdiskWorld :=
  match w.files a.id a.path with
  | none => w
  | some file =>
    let (opened, w) := w.nextSucceeds
    if !opened then w
    else
      let (truncated, w) := w.nextSucceeds
      if !truncated then w
      else
        let w := w.setFile a.id a.path (some (truncateFile file a.dataEnd))
        w.setStore { w.store with activeFd := true }

/-- The store after `seal_active` renamed the active segment: the segment is sealed with its
footer counted, the reader's copy of it follows, the writer position is captured, and there
is no active segment any more. -/
def retireSealed (a : SegdiskSegment) (s : SegdiskStore) : SegdiskStore :=
  let sealed := { a with
    path := .seg
    sealed := true
    fileSize := a.fileSize + footLen
    dataEnd := a.fileSize }
  let readSegment := s.readSegment.map fun rs =>
    if rs.id = a.id then
      { rs with path := .seg, sealed := true, dataEnd := sealed.dataEnd, fileSize := sealed.fileSize }
    else rs
  let s := captureWriter { s with
    bytes := s.bytes + footLen
    lastDataSegment := a.id
    readSegment := readSegment
    active := some sealed }
  { s with activeSegment := 0, active := none }

/-- `seal_active`: write the footer of an active segment that holds records, sync and close it,
and rename it to its sealed name. A failed write, sync, close or rename restores the active
segment's file and descriptor. -/
def sealActive (w : SegdiskWorld) : RsRetVal × SegdiskWorld :=
  match w.store.active with
  | none => (.ok, w)
  | some a =>
    if a.sealed || a.recordCount = 0 then (.ok, w)
    else
      let footer := sealFooter a.id a.firstSequence a.lastSequence a.recordCount a.rollingCrc
      let (r, w) := writeActive a footer w
      let (r, w) := syncActiveAfter r w
      let (closed, w) := closeActive w
      let r := if !closed && r = .ok then .ioError else r
      if r ≠ .ok then (r, restoreActiveAfterSealFailure a w)
      else
        let (renamed, w) := renameSegment a.id a.path .seg w
        if !renamed then (.ioError, restoreActiveAfterSealFailure a w)
        else
          let w := w.setStore (retireSealed a w.store)
          if w.store.cfg.syncFiles then syncDir w else (.ok, w)

/-- `update_retry_overage`: how far the store's bytes exceed `max_disk_space`, and the largest
such excess seen. -/
def updateRetryOverage (s : SegdiskStore) : SegdiskStore :=
  let overage :=
    if 0 < s.cfg.maxDiskSpace ∧ s.cfg.maxDiskSpace < s.bytes then s.bytes - s.cfg.maxDiskSpace
    else 0
  { s with retryOverageBytes := overage, retryOverageMaxBytes := max s.retryOverageMaxBytes overage }

/-- The store after a record of `len` bytes with rolling CRC `rollingCrc` was written to the
active segment `a`: the segment grows by the record and counts it, and so does the store. -/
def recordAppended (a : SegdiskSegment) (len : ℕ) (rollingCrc : UInt32) (s : SegdiskStore) :
    SegdiskStore :=
  { s with
    active := some { a with
      dataEnd := a.dataEnd + len
      fileSize := a.fileSize + len
      recordCount := a.recordCount + 1
      lastSequence := a.recordCount + 1
      rollingCrc := a.rollingCrc ^^^ rollingCrc }
    lastDataSegment := a.id
    knownQueueSize := s.knownQueueSize + 1
    bytes := s.bytes + len }

/-- Whether a segment whose size is `fileSize` would overflow `max_file_size` once `extra` more
bytes and a footer are added. -/
def overflows (cfg : SegdiskStoreConfig) (fileSize extra : ℕ) : Bool :=
  0 < cfg.maxFileSize && cfg.maxFileSize < fileSize + extra + footLen

/-- The write of a framed record to the active segment and everything after it in
`append_record`: sync, count the record, seal a segment whose first record alone overflows
the size limit, and update the retry overage for an internal retry. -/
def writeRecord (record : List UInt8) (rollingCrc : UInt32) (internal : Bool)
    (w : SegdiskWorld) : RsRetVal × SegdiskWorld :=
  match w.store.active with
  -- unreachable: `append_record` writes only after an active segment exists
  | none => (.internalError, w)
  | some a =>
    let (r, w) := writeActive a record w
    let (r, w) := syncActiveAfter r w
    let w := if r = .ok then w.setStore (recordAppended a record.length rollingCrc w.store) else w
    let (r, w) :=
      if r = .ok && a.recordCount + 1 = 1 && overflows w.store.cfg (a.fileSize + record.length) 0
      then sealActive w
      else (r, w)
    (r, if r = .ok && internal then w.setStore (updateRetryOverage w.store) else w)

/-- `append_record` on a store whose directory is open: create an active segment if there is
none, frame the message, rotate to a fresh segment when the record would overflow the active
one, and write the record. -/
def appendRecord {α : Type} (encode : α → Except RsRetVal (List UInt8)) (msg : α)
    (internal : Bool) (w : SegdiskWorld) : RsRetVal × SegdiskWorld :=
  let (r, w) := if w.store.active.isNone then createActive w else (.ok, w)
  if r ≠ .ok then (r, w)
  else
    match w.store.active with
    -- unreachable: a successful `create_active` leaves an active segment
    | none => (.internalError, w)
    | some a =>
      match makeRecord encode msg (a.recordCount + 1).toUInt64 with
      | .error r => (r, w)
      | .ok (record, rollingCrc) =>
        if a.recordCount ≠ 0 && overflows w.store.cfg a.fileSize record.length then
          let (r, w) := sealActive w
          let (r, w) := if r = .ok then createActive w else (r, w)
          if r ≠ .ok then (r, w)
          else
            match makeRecord encode msg 1 with
            | .error r => (r, w)
            | .ok (record, rollingCrc) => writeRecord record rollingCrc internal w
        else writeRecord record rollingCrc internal w

/-! ## Failure paths -/

/-- A failed restore keeps the store; a successful one reopens the descriptor. -/
theorem restoreActiveAfterSealFailure_store (a : SegdiskSegment) (w : SegdiskWorld) :
    (restoreActiveAfterSealFailure a w).store = w.store ∨
      (restoreActiveAfterSealFailure a w).store = { w.store with activeFd := true } := by
  unfold restoreActiveAfterSealFailure
  cases hf : w.files a.id a.path with
  | none => exact Or.inl rfl
  | some file =>
    rcases h1 : w.nextSucceeds with ⟨opened, w₁⟩
    have hs1 : w₁.store = w.store := by rw [← w.nextSucceeds_store, h1]
    rcases h2 : w₁.nextSucceeds with ⟨truncated, w₂⟩
    have hs2 : w₂.store = w.store := by rw [← hs1, ← w₁.nextSucceeds_store, h2]
    cases opened <;> cases truncated <;> simp [h2, hs1, hs2]

/-- The restore keeps the bytes below the segment's data end, whatever follows them. -/
theorem restoreActiveAfterSealFailure_file {a : SegdiskSegment} {w : SegdiskWorld}
    {pre junk : List UInt8} (hfile : w.files a.id a.path = some (pre ++ junk))
    (hpre : pre.length = a.dataEnd) :
    ∃ junk', (restoreActiveAfterSealFailure a w).files a.id a.path = some (pre ++ junk') := by
  unfold restoreActiveAfterSealFailure
  rw [hfile]
  rcases h1 : w.nextSucceeds with ⟨opened, w₁⟩
  have hf1 : w₁.files = w.files := by rw [← w.nextSucceeds_files, h1]
  rcases h2 : w₁.nextSucceeds with ⟨truncated, w₂⟩
  have hf2 : w₂.files = w.files := by rw [← hf1, ← w₁.nextSucceeds_files, h2]
  cases opened
  · exact ⟨junk, by simp [hf1, hfile]⟩
  · cases truncated
    · exact ⟨junk, by simp [h2, hf2, hfile]⟩
    · exact ⟨[], by simp [h2, truncateFile, ← hpre]⟩

/-- A seal whose footer write fails, with or without a partial footer, reports an error and
leaves the store as it was apart from the active descriptor, and the active segment's bytes
below its data end in place. -/
theorem sealActive_of_footer_fails {w : SegdiskWorld} {a : SegdiskSegment} {k : ℕ}
    {rest : List IoOutcome} {pre junk : List UInt8} (hactive : w.store.active = some a)
    (hsealed : a.sealed = false) (hcount : a.recordCount ≠ 0) (hfd : w.store.activeFd = true)
    (hfile : w.files a.id a.path = some (pre ++ junk)) (hpre : pre.length = a.dataEnd)
    (hio : w.io = .fail k :: rest) (hk : k < footLen) :
    (sealActive w).1 = .ioError ∧
      (∃ fd, (sealActive w).2.store = { w.store with activeFd := fd }) ∧
      ∃ junk', (sealActive w).2.files a.id a.path = some (pre ++ junk') := by
  let w₁ := ({ w with io := rest } : SegdiskWorld).setFile a.id a.path
    (some (pre ++ junk ++
      (sealFooter a.id a.firstSequence a.lastSequence a.recordCount a.rollingCrc).take k))
  have hw : writeActive a (sealFooter a.id a.firstSequence a.lastSequence a.recordCount
      a.rollingCrc) w = (.ioError, w₁) :=
    writeActive_of_fail hfd hio hfile (by simpa [sealFooter, footLen] using hk)
  rcases hc : closeActive w₁ with ⟨closed, w₂⟩
  have hs₂ : w₂.store = { w.store with activeFd := false } := by
    rw [show w₂ = (closeActive w₁).2 by rw [hc], closeActive_store]
    rfl
  have hf₂ : w₂.files a.id a.path = some (pre ++ (junk ++
      (sealFooter a.id a.firstSequence a.lastSequence a.recordCount a.rollingCrc).take k)) := by
    rw [show w₂ = (closeActive w₁).2 by rw [hc], closeActive_files]
    simp [w₁]
  have hsync : syncActiveAfter .ioError w₁ = (.ioError, w₁) := syncActiveAfter_of_ne_ok (by decide) w₁
  have hseal : sealActive w = (.ioError, restoreActiveAfterSealFailure a w₂) := by
    simp [sealActive, hactive, hsealed, hcount, hw, hsync, hc]
  rw [hseal]
  refine ⟨rfl, ?_, restoreActiveAfterSealFailure_file hf₂ hpre⟩
  rcases restoreActiveAfterSealFailure_store a w₂ with h | h
  · exact ⟨false, by rw [h, hs₂]⟩
  · exact ⟨true, by rw [h, hs₂]⟩

/-- A record whose sync fails is left in the file, uncounted. -/
theorem writeRecord_of_syncFails {record : List UInt8} {crc : UInt32} {internal : Bool}
    {w : SegdiskWorld} {a : SegdiskSegment} {file : List UInt8} {k : ℕ} {rest : List IoOutcome}
    (hactive : w.store.active = some a) (hfd : w.store.activeFd = true)
    (hsync : w.store.cfg.syncFiles = true) (hfile : w.files a.id a.path = some file)
    (hio : w.io = .ok :: .fail k :: rest) :
    writeRecord record crc internal w =
      (.ioError, ({ w with io := rest } : SegdiskWorld).setFile a.id a.path (some (file ++ record))) := by
  have hwrite := @writeActive_of_ok a record w file (.fail k :: rest) hfd hio hfile
  have hsync₁ := @syncActiveAfter_of_sync (({ w with io := .fail k :: rest } : SegdiskWorld).setFile a.id a.path (some (file ++ record))) (.fail k) rest hfd hsync rfl
  simp [writeRecord, hactive, hwrite, hsync₁]
  rfl

/-- A record whose write and sync succeed and that needs no seal is counted. -/
theorem writeRecord_of_ok {record : List UInt8} {crc : UInt32}
    {w : SegdiskWorld} {a : SegdiskSegment} {file : List UInt8} {rest : List IoOutcome}
    (hactive : w.store.active = some a) (hfd : w.store.activeFd = true)
    (hsync : w.store.cfg.syncFiles = true) (hfile : w.files a.id a.path = some file)
    (hio : w.io = .ok :: .ok :: rest)
    (hfits : overflows w.store.cfg (a.fileSize + record.length) 0 = false) :
    writeRecord record crc false w =
      (.ok, (({ w with io := rest } : SegdiskWorld).setFile a.id a.path
        (some (file ++ record))).setStore (recordAppended a record.length crc w.store)) := by
  have hwrite := @writeActive_of_ok a record w file (.ok :: rest) hfd hio hfile
  have hsync₁ := @syncActiveAfter_of_sync (({ w with io := .ok :: rest } : SegdiskWorld).setFile
    a.id a.path (some (file ++ record))) .ok rest hfd hsync rfl
  have hcfg : (recordAppended a record.length crc w.store).cfg = w.store.cfg := rfl
  simp [writeRecord, hactive, hwrite, hsync₁, hcfg, hfits]
  rfl

/-- With an active segment and no rotation, `append_record` frames the message with the next
sequence number of the segment and writes it. -/
theorem appendRecord_of_active {α : Type} {encode : α → Except RsRetVal (List UInt8)} {msg : α}
    {internal : Bool} {w : SegdiskWorld} {a : SegdiskSegment} {record : List UInt8} {crc : UInt32}
    (hactive : w.store.active = some a)
    (hrec : makeRecord encode msg (a.recordCount + 1).toUInt64 = .ok (record, crc))
    (hrotate : (a.recordCount ≠ 0 && overflows w.store.cfg a.fileSize record.length) = false) :
    appendRecord encode msg internal w = writeRecord record crc internal w := by
  simp only [appendRecord, hactive, Option.isNone_some, Bool.false_eq_true, if_false, ne_eq,
    not_true_eq_false, hrec, hrotate]

/-- The size check after a write is the rotation check before it, with the record moved into
the segment's size. -/
theorem overflows_add_zero (cfg : SegdiskStoreConfig) (fileSize extra : ℕ) :
    overflows cfg (fileSize + extra) 0 = overflows cfg fileSize extra := by
  simp [overflows]

/-- `append_record` can fail and still append: when the active segment holds no record yet and
the first record with a footer would exceed `max_file_size`, the record is written and
counted, and the seal that follows fails when its footer write fails. The call returns
`RS_RET_IO_ERROR`, yet `known_queue_size` has grown by one and `record_at` reads the message
back from the active segment, whatever the later system calls of the seal do. -/
theorem appendRecord_sealFailure_keepsRecord {α : Type} {encode : α → Except RsRetVal (List UInt8)}
    {decode : List UInt8 → Except RsRetVal α} {msg : α} {payload : List UInt8}
    {w : SegdiskWorld} {a : SegdiskSegment} {file : List UInt8} {k : ℕ} {rest : List IoOutcome}
    (internal : Bool) (c : RecordCursor)
    (henc : encode msg = .ok payload) (hlen : payload.length ≤ maxRecordSize)
    (hdec : decode payload = .ok msg)
    (hactive : w.store.active = some a) (hcount : a.recordCount = 0) (hsealed : a.sealed = false)
    (hfd : w.store.activeFd = true) (hsync : w.store.cfg.syncFiles = false)
    (hfile : w.files a.id a.path = some file) (hend : file.length = a.dataEnd)
    (hoff : c.off = a.dataEnd)
    (hmax : overflows w.store.cfg a.fileSize (recHdrLen + payload.length) = true)
    (hio : w.io = .ok :: .fail k :: rest) (hk : k < footLen) :
    (appendRecord encode msg internal w).1 = .ioError ∧
      (appendRecord encode msg internal w).2.store.knownQueueSize = w.store.knownQueueSize + 1 ∧
      ∃ a' file', (appendRecord encode msg internal w).2.store.active = some a' ∧
        (appendRecord encode msg internal w).2.files a.id a.path = some file' ∧
        (recordAt decode file' a'.dataEnd true false c).1 = .ok (msg, 1) := by
  set record := getBytes (recordHeader payload 1) 0 recHdrLen ++ payload with hrecord
  set crc := segdiskCrc32c (getBytes (recordHeader payload 1) 0 recHdrLen) ^^^ segdiskCrc32c payload
  have hrec : makeRecord encode msg 1 = .ok (record, crc) := by
    simp [makeRecord, henc, Nat.not_lt.mpr hlen, record, crc]
  have hreclen : record.length = recHdrLen + payload.length := by simp [record]
  set w₁ := ({ w with io := .fail k :: rest } : SegdiskWorld).setFile a.id a.path (some (file ++ record))
  have hwrite : writeActive a record w = (.ok, w₁) := writeActive_of_ok hfd hio hfile
  have hsync₁ : syncActiveAfter .ok w₁ = (.ok, w₁) :=
    syncActiveAfter_of_syncFiles_false _ (by simpa [w₁] using hsync)
  set a₂ : SegdiskSegment := { a with
    dataEnd := a.dataEnd + record.length
    fileSize := a.fileSize + record.length
    recordCount := a.recordCount + 1
    lastSequence := a.recordCount + 1
    rollingCrc := a.rollingCrc ^^^ crc }
  set w₂ := w₁.setStore (recordAppended a record.length crc w₁.store)
  have hseal := @sealActive_of_footer_fails w₂ a₂ k rest (file ++ record) [] (by simp [w₂, recordAppended, a₂])
    (by simp [a₂, hsealed]) (by simp [a₂]) (by simp [w₂, w₁, recordAppended, hfd])
    (by simp [w₂, w₁, a₂]) (by simp [a₂, hend]) (by simp [w₂, w₁]) hk
  obtain ⟨hr, ⟨fd, hs⟩, junk', hf⟩ := hseal
  have hover : overflows w.store.cfg (a.fileSize + record.length) 0 = true := by
    rw [overflows_add_zero, hreclen, hmax]
  have hcfg : w₂.store.cfg = w.store.cfg := rfl
  have hwr : writeRecord record crc internal w = sealActive w₂ := by
    have hw₂ : w₁.setStore (recordAppended a record.length crc w₁.store) = w₂ := rfl
    simp only [writeRecord, hactive, hwrite, hsync₁, if_pos, hw₂]
    simp [hcfg, hcount, hover, hr]
    rw [← hr]
  have happ : appendRecord encode msg internal w = sealActive w₂ := by
    rw [appendRecord_of_active hactive (by rw [hcount]; exact hrec) (by simp [hcount]), hwr]
  rw [happ, hs]
  refine ⟨hr, by simp [w₂, w₁, recordAppended], a₂, _, by simp [w₂, recordAppended, a₂], hf, ?_⟩
  rw [List.append_assoc, recordAt_makeRecord c hrec
    (fun p hp => by rw [henc] at hp; cases hp; exact hdec) (by rw [hoff, hend])
    (by simp [a₂, hend])]
/-- A store opened on a new spool directory with `max_file_size` 100 and `sync_files` off
appends a one-byte message while the footer write of the seal fails: the error is
returned, the record is counted and it is read back. -/
theorem appendRecord_sealFailure_keepsRecord_opened :
    let w : SegdiskWorld := { openedWorld ⟨100, 0, 0, false⟩ default with io := [.ok, .fail 0] }
    (appendRecord Except.ok [(0x41 : UInt8)] false w).1 = .ioError ∧
      (appendRecord Except.ok [(0x41 : UInt8)] false w).2.store.knownQueueSize = 1 ∧
      ∃ a' file', (appendRecord Except.ok [(0x41 : UInt8)] false w).2.store.active = some a' ∧
        (appendRecord Except.ok [(0x41 : UInt8)] false w).2.files 1 .open = some file' ∧
        (recordAt Except.ok file' a'.dataEnd true false ⟨segHdrLen, 0, 0, 0⟩).1 =
          .ok ([(0x41 : UInt8)], 1) :=
  appendRecord_sealFailure_keepsRecord (a := freshSegment 1) false ⟨segHdrLen, 0, 0, 0⟩ rfl
    (by decide) rfl rfl rfl rfl rfl rfl rfl (by decide) rfl (by decide) rfl (by decide)

/-- `append_record` can fail and still leave its record where the next append's record
belongs: with `sync_files` on, a record whose write succeeds and whose sync fails stays in
the file, uncounted, and the store is unchanged. The next append of a message of the same
size succeeds, is counted, and grows the data end by one record, but its bytes land after the
unsynced record, so `record_at` at the old data end returns the message of the failed call,
with the sequence number the successful call was given. -/
theorem appendRecord_syncFailure_exposesRecord {α : Type}
    {encode : α → Except RsRetVal (List UInt8)} {decode : List UInt8 → Except RsRetVal α}
    {m₁ m₂ : α} {p₁ p₂ : List UInt8} {w : SegdiskWorld} {a : SegdiskSegment} {file : List UInt8}
    {k : ℕ} {rest : List IoOutcome} (c : RecordCursor)
    (he₁ : encode m₁ = .ok p₁) (he₂ : encode m₂ = .ok p₂) (hsame : p₁.length = p₂.length)
    (hlen : p₂.length ≤ maxRecordSize) (hdec : decode p₁ = .ok m₁)
    (hactive : w.store.active = some a) (hfd : w.store.activeFd = true)
    (hsync : w.store.cfg.syncFiles = true) (hfile : w.files a.id a.path = some file)
    (hend : file.length = a.dataEnd) (hoff : c.off = a.dataEnd)
    (hfits : overflows w.store.cfg a.fileSize (recHdrLen + p₂.length) = false)
    (hio : w.io = .ok :: .fail k :: .ok :: .ok :: rest) :
    (appendRecord encode m₁ false w).1 = .ioError ∧
      (appendRecord encode m₁ false w).2.store = w.store ∧
      (appendRecord encode m₂ false (appendRecord encode m₁ false w).2).1 = .ok ∧
      ∃ a' file',
        (appendRecord encode m₂ false (appendRecord encode m₁ false w).2).2.store.active = some a' ∧
        (appendRecord encode m₂ false (appendRecord encode m₁ false w).2).2.files a.id a.path =
          some file' ∧
        (recordAt decode file' a'.dataEnd true false c).1 = .ok (m₁, (a.recordCount + 1).toUInt64) := by
  set sequence := (a.recordCount + 1).toUInt64
  set r₁ := getBytes (recordHeader p₁ sequence) 0 recHdrLen ++ p₁
  set r₂ := getBytes (recordHeader p₂ sequence) 0 recHdrLen ++ p₂
  set crc₁ := segdiskCrc32c (getBytes (recordHeader p₁ sequence) 0 recHdrLen) ^^^ segdiskCrc32c p₁
  set crc₂ := segdiskCrc32c (getBytes (recordHeader p₂ sequence) 0 recHdrLen) ^^^ segdiskCrc32c p₂
  have hrec₁ : makeRecord encode m₁ sequence = .ok (r₁, crc₁) := by
    simp [makeRecord, he₁, Nat.not_lt.mpr (hsame ▸ hlen), r₁, crc₁]
  have hrec₂ : makeRecord encode m₂ sequence = .ok (r₂, crc₂) := by
    simp [makeRecord, he₂, Nat.not_lt.mpr hlen, r₂, crc₂]
  have hlen₁ : r₁.length = recHdrLen + p₂.length := by simp [r₁, hsame]
  have hlen₂ : r₂.length = recHdrLen + p₂.length := by simp [r₂]
  -- the first append leaves its record behind the data end, uncounted
  set w₁ := ({ w with io := .ok :: .ok :: rest } : SegdiskWorld).setFile a.id a.path
    (some (file ++ r₁))
  have hfirst : appendRecord encode m₁ false w = (.ioError, w₁) := by
    rw [appendRecord_of_active hactive hrec₁ (by simp [hlen₁, hfits])]
    exact writeRecord_of_syncFails hactive hfd hsync hfile hio
  -- the second append writes its record after it and counts it at the old data end
  have hsecond : appendRecord encode m₂ false w₁ =
      (.ok, (({ w₁ with io := rest } : SegdiskWorld).setFile a.id a.path
        (some (file ++ r₁ ++ r₂))).setStore (recordAppended a r₂.length crc₂ w.store)) := by
    rw [appendRecord_of_active (by simpa [w₁] using hactive) hrec₂ (by simp [w₁, hlen₂, hfits])]
    exact writeRecord_of_ok (by simpa [w₁] using hactive) (by simpa [w₁] using hfd)
      (by simpa [w₁] using hsync) (by simp [w₁]) (by simp [w₁])
      (by simp [w₁, overflows_add_zero, hlen₂, hfits])
  rw [hfirst, hsecond]
  refine ⟨rfl, rfl, rfl, _, file ++ r₁ ++ r₂, rfl, by simp, ?_⟩
  rw [List.append_assoc, recordAt_makeRecord c hrec₁
    (fun p hp => by rw [he₁] at hp; cases hp; exact hdec) (by rw [hoff, hend])
    (by simp [hend, hlen₁, hlen₂])]

/-- With `sync_files` on and no size limit, a failed sync of `A` followed by a successful
append of `B` on a newly opened store makes `record_at` return `A` where `B` was counted. -/
theorem appendRecord_syncFailure_exposesRecord_opened :
    let w : SegdiskWorld :=
      { openedWorld ⟨0, 0, 0, true⟩ default with io := [.ok, .fail 0, .ok, .ok] }
    let first := appendRecord Except.ok [(0x41 : UInt8)] false w
    (appendRecord Except.ok [(0x41 : UInt8)] false w).1 = .ioError ∧
      (appendRecord Except.ok [(0x41 : UInt8)] false w).2.store = w.store ∧
      (appendRecord Except.ok [(0x42 : UInt8)] false first.2).1 = .ok ∧
      ∃ a' file',
        (appendRecord Except.ok [(0x42 : UInt8)] false first.2).2.store.active = some a' ∧
        (appendRecord Except.ok [(0x42 : UInt8)] false first.2).2.files 1 .open = some file' ∧
        (recordAt Except.ok file' a'.dataEnd true false ⟨segHdrLen, 0, 0, 0⟩).1 =
          .ok ([(0x41 : UInt8)], 1) :=
  appendRecord_syncFailure_exposesRecord (a := freshSegment 1) ⟨segHdrLen, 0, 0, 0⟩ rfl rfl rfl
    (by decide) rfl rfl rfl rfl rfl (by decide) rfl (by decide) rfl

end Rsyslog.Segdisk
