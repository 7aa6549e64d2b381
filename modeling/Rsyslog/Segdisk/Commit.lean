import Rsyslog.Segdisk.Append

/-!
# The commit frontier of the segmentedDisk store

Dequeued batches wait in the store's pending list, in dequeue order, until they complete.
`advance_completed` (`runtime/segdisk_store.c`) takes the longest prefix of complete batches,
moves the committed position to the end of its last batch, uncounts its records, publishes
a checkpoint when enough records were committed since the last one, and deletes the segments
below the new committed segment; if publication or deletion fails, it restores the committed
position, the record count and the update counter, and keeps the batches. Deletion first
publishes the range of segments to delete, then unlinks them one segment at a time, each
followed by a state publication.
-/

namespace Rsyslog.Segdisk

/-- `INT64_MAX`. -/
def int64Max : ℕ := 2 ^ 63 - 1

/-- The suffixes probed for a segment id, in the order the deletion code tries them. -/
def segmentSuffixes : List SegmentSuffix :=
  [.seg, .recover, .open]

/-- `unlink_segment_id`: unlink every file of a segment id; with `account`, take their sizes
off the store's byte and segment counts. Stops at the first failed `unlink`. -/
def unlinkSegmentId (id : ℕ) (account : Bool) : List SegmentSuffix → SegdiskWorld →
    RsRetVal × SegdiskWorld
  | [], w => (.ok, w)
  | suffix :: rest, w =>
    match w.files id suffix with
    | none => unlinkSegmentId id account rest w
    | some file =>
      let (unlinked, w) := w.nextSucceeds
      if !unlinked then (.ioError, w)
      else
        let w := w.setFile id suffix none
        let w :=
          if account then
            w.setStore { w.store with
              bytes := w.store.bytes - file.length
              segments := if 0 < w.store.segments then w.store.segments - 1 else w.store.segments }
          else w
        unlinkSegmentId id account rest w

/-- `cleanup_one_pending_delete`: unlink the first segment of the pending-delete range, sync the
directory, shrink the range, and publish it; a failed publication restores the range and the
store's byte and segment counts. -/
def cleanupOnePendingDelete (w : SegdiskWorld) : RsRetVal × SegdiskWorld :=
  let s := w.store
  if s.deleteFirst = 0 then (.ok, w)
  else
    let (r, w) := unlinkSegmentId s.deleteFirst false segmentSuffixes w
    let (r, w) := if r = .ok then syncDir w else (r, w)
    if r ≠ .ok then (.ioError, w)
    else
      let old := w.store
      let shrunk :=
        if old.deleteFirst = old.deleteLast then
          { old with
            deleteFirst := 0
            deleteLast := 0
            deleteBytes := 0
            deleteSegments := 0
            bytes := if (old.deleteBytes : ℤ) > old.bytes then 0 else old.bytes - old.deleteBytes
            segments :=
              if (old.deleteSegments : ℤ) > old.segments then 0
              else old.segments - old.deleteSegments }
        else { old with deleteFirst := old.deleteFirst + 1 }
      let (r, w) := storeWriteState true (w.setStore shrunk)
      if r ≠ .ok then
        (r, w.setStore { w.store with
          deleteFirst := old.deleteFirst
          deleteLast := old.deleteLast
          deleteBytes := old.deleteBytes
          deleteSegments := old.deleteSegments
          bytes := old.bytes
          segments := old.segments })
      else (r, w)

/-- The loop `while (s->delete_first != 0 && cleanup_one_pending_delete(s) == RS_RET_OK)`; each
success shrinks the range by one segment, so the fuel is the range's last id plus one. -/
def cleanupPendingDeletes : ℕ → SegdiskWorld → SegdiskWorld
  | 0, w => w
  | fuel + 1, w =>
    if w.store.deleteFirst = 0 then w
    else
      let (r, w) := cleanupOnePendingDelete w
      if r = .ok then cleanupPendingDeletes fuel w else w

/-- The inner loop of the size count of `delete_committed` over the files of one segment id:
their sizes and number added to the accumulators, checked against the limits of the signed
and unsigned 64-bit accumulators. -/
def addSegmentFileSizes (files : SegmentFiles) (id : ℕ) :
    List SegmentSuffix → ℕ × ℕ → Except RsRetVal (ℕ × ℕ)
  | [], acc => .ok acc
  | suffix :: rest, (bytes, segments) =>
    match files id suffix with
    | none => addSegmentFileSizes files id rest (bytes, segments)
    | some file =>
      if int64Max - bytes < file.length || segments = uint64Max.toNat then .error .fileTooLarge
      else addSegmentFileSizes files id rest (bytes + file.length, segments + 1)

/-- The size count of `delete_committed` over the segments `first, …, first + count - 1`. -/
def pendingDeleteSize (files : SegmentFiles) (first : ℕ) : ℕ → Except RsRetVal (ℕ × ℕ)
  | 0 => .ok (0, 0)
  | count + 1 =>
    match pendingDeleteSize files first count with
    | .error r => .error r
    | .ok acc => addSegmentFileSizes files (first + count) segmentSuffixes acc

/-- The range a deletion publishes before it unlinks anything: every segment below `target`
joins the pending-delete range, the first live segment becomes `target`, and a recovery
range that `target` passes is cut or cleared. -/
def reserveDelete (s : SegdiskStore) (target bytes segments : ℕ) : SegdiskStore :=
  { s with
    deleteFirst := if s.deleteFirst = 0 then s.firstLiveSegment else s.deleteFirst
    deleteLast := target - 1
    deleteBytes := s.deleteBytes + bytes
    deleteSegments := s.deleteSegments + segments
    firstLiveSegment := target
    recoveryFirst :=
      if s.recoveryFirst ≠ 0 && target > s.recoveryFirst then
        if target > s.recoveryLast then 0 else target
      else s.recoveryFirst
    recoveryLast :=
      if s.recoveryFirst ≠ 0 && target > s.recoveryFirst && target > s.recoveryLast then 0
      else s.recoveryLast }

/-- The end of `delete_committed`: unlink the published range one segment at a time until a
step fails, and update the retry overage. -/
def finishDelete (w : SegdiskWorld) : RsRetVal × SegdiskWorld :=
  let w := cleanupPendingDeletes (w.store.deleteLast + 1) w
  (.ok, w.setStore (updateRetryOverage w.store))

/-- `delete_committed`: publish the segments below the committed segment as a pending-delete
range, then unlink the range one segment at a time. Only the size check and the range's
publication can fail the call; a failed publication restores the range. -/
def deleteCommitted (w : SegdiskWorld) : RsRetVal × SegdiskWorld :=
  let s := w.store
  let target := s.committedSegment
  if target ≠ 0 && s.firstLiveSegment < target then
    match pendingDeleteSize w.files s.firstLiveSegment (target - s.firstLiveSegment) with
    | .error r => (r, w)
    | .ok (bytes, segments) =>
      if int64Max - s.deleteBytes < bytes || uint64Max.toNat - s.deleteSegments < segments then
        (.fileTooLarge, w)
      else
        let (r, w) := storeWriteState true (w.setStore (reserveDelete s target bytes segments))
        if r ≠ .ok then
          (r, w.setStore { w.store with
            firstLiveSegment := s.firstLiveSegment
            recoveryFirst := s.recoveryFirst
            recoveryLast := s.recoveryLast
            deleteFirst := s.deleteFirst
            deleteLast := s.deleteLast
            deleteBytes := s.deleteBytes
            deleteSegments := s.deleteSegments })
        else finishDelete w
  else finishDelete w

/-- `advance_completed`: commit the longest prefix of complete batches of the pending list.
On success the committed position is the end of the prefix's last batch, its records are
uncounted (down to zero at most), and the prefix leaves the list; when the checkpoint or the
deletion fails, the committed position, the record count and the update counter are put back
and the list is kept. -/
def advanceCompleted (w : SegdiskWorld) : RsRetVal × SegdiskWorld :=
  let s := w.store
  let done := s.pending.takeWhile (·.complete)
  match done.getLast? with
  | none => (.ok, w)
  | some last =>
    let advanced := (done.map (·.records)).sum
    let committed := { s with
      committedSegment := last.endSegment
      committedOffset := last.endOffset
      committedRecordSequence := last.endRecordSequence
      knownQueueSize := s.knownQueueSize - advanced
      updatesSinceCheckpoint := s.updatesSinceCheckpoint + advanced }
    let (r, w) :=
      if s.cfg.checkpointInterval ≠ 0 &&
          s.cfg.checkpointInterval ≤ committed.updatesSinceCheckpoint then
        storeWriteState false (w.setStore (captureWriter committed))
      else (.ok, w.setStore committed)
    let (r, w) := if r = .ok then deleteCommitted w else (r, w)
    if r ≠ .ok then
      (r, w.setStore { w.store with
        committedSegment := s.committedSegment
        committedOffset := s.committedOffset
        committedRecordSequence := s.committedRecordSequence
        knownQueueSize := s.knownQueueSize
        updatesSinceCheckpoint := s.updatesSinceCheckpoint })
    else (.ok, w.setStore { w.store with pending := w.store.pending.drop done.length })

end Rsyslog.Segdisk
