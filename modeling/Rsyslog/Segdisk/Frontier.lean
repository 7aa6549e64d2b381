import Rsyslog.Segdisk.Dequeue
import Rsyslog.Common.CommitLog

/-!
# The commit frontier of the segmentedDisk store follows dequeue order

The pending list of the store is used as an ordered commit log (`Rsyslog.Common.CommitLog`)
whose items are batch contexts and whose finished flag is `complete`:
`segdiskStoreDequeueBatch` appends a context, `segdiskStoreCompleteBatch` sets the flag of
its own batch's context (the id an item is marked by is its batch sequence), and
`advance_completed` commits the longest complete prefix when its checkpoint and deletion
succeed, moving the committed position to the end position of the last context it commits.
Every other operation of the two calls keeps the pending list, the next batch sequence and the
committed position; the frame lemmas below say so one operation at a time, and one inversion
lemma per call says everything the call can do to them. `FrontierStep` states the effect of
one call, and `PendingOrdered` the order of the list that every run keeps.
-/

namespace Rsyslog.Segdisk

open Rsyslog.Common

/-- `(committed_segment, committed_offset, committed_record_sequence)`. -/
def SegdiskStore.committedPosition (s : SegdiskStore) : ℕ × ℕ × ℕ :=
  (s.committedSegment, s.committedOffset, s.committedRecordSequence)

/-- The position a batch context records as the end of its last message. -/
def SegdiskBatchCtx.endPosition (ctx : SegdiskBatchCtx) : ℕ × ℕ × ℕ :=
  (ctx.endSegment, ctx.endOffset, ctx.endRecordSequence)

/-- A batch context without its completion flag. -/
def SegdiskBatchCtx.key (ctx : SegdiskBatchCtx) : SegdiskBatchCtx :=
  { ctx with complete := false }

/-- The fields the order of the pending list and the commit frontier depend on. -/
def SegdiskStore.pendingView (s : SegdiskStore) : List SegdiskBatchCtx × ℕ × (ℕ × ℕ × ℕ) :=
  (s.pending, s.nextBatchSequence, s.committedPosition)

/-- The pending view with the known queue size, which `advance_completed` sets as well. -/
def SegdiskStore.frontierView (s : SegdiskStore) :
    (List SegdiskBatchCtx × ℕ × (ℕ × ℕ × ℕ)) × ℕ :=
  (s.pendingView, s.knownQueueSize)

theorem SegdiskStore.pendingView_eq_iff {s t : SegdiskStore} :
    s.pendingView = t.pendingView ↔ s.pending = t.pending ∧
      s.nextBatchSequence = t.nextBatchSequence ∧ s.committedPosition = t.committedPosition := by
  simp [SegdiskStore.pendingView]

theorem SegdiskStore.frontierView_eq_iff {s t : SegdiskStore} :
    s.frontierView = t.frontierView ↔ s.pendingView = t.pendingView ∧
      s.knownQueueSize = t.knownQueueSize := by
  simp [SegdiskStore.frontierView]

/-- The world a call returned, read off an equation for the call. -/
theorem eq_snd_of_eq {β γ : Type} {p : β × γ} {x : β} {y : γ} (h : p = (x, y)) : y = p.2 := by
  rw [h]

/-- The world a call returned with two other results, read off an equation for the call. -/
theorem eq_snd_snd_of_eq {β γ δ : Type} {p : β × γ × δ} {x : β} {y : γ} {z : δ}
    (h : p = (x, y, z)) : z = p.2.2 := by
  rw [h]

/-! ## System calls keep the store -/

@[simp] theorem writeFile_store (id : ℕ) (suffix : SegmentSuffix) (bytes : List UInt8)
    (w : SegdiskWorld) : (writeFile id suffix bytes w).2.store = w.store := by
  unfold writeFile
  rcases h : w.nextOutcome with ⟨o, w₁⟩
  have hs : w₁.store = w.store := by rw [← w.nextOutcome_store, h]
  cases o with
  | ok => simp [hs]
  | fail written =>
    dsimp only
    split <;> simp [hs]

@[simp] theorem writeActive_store (a : SegdiskSegment) (bytes : List UInt8) (w : SegdiskWorld) :
    (writeActive a bytes w).2.store = w.store := by
  unfold writeActive
  split <;> simp

@[simp] theorem syncActiveAfter_store (r : RsRetVal) (w : SegdiskWorld) :
    (syncActiveAfter r w).2.store = w.store := by
  unfold syncActiveAfter syncActive
  split
  · cases w.store.activeFd <;> simp
  · rfl

@[simp] theorem renameSegment_store (id : ℕ) (source target : SegmentSuffix) (w : SegdiskWorld) :
    (renameSegment id source target w).2.store = w.store := by
  unfold renameSegment
  split
  · rfl
  · rcases h : w.nextSucceeds with ⟨renamed, w₁⟩
    have hs : w₁.store = w.store := by rw [← w.nextSucceeds_store, h]
    cases renamed <;> simp [hs]

@[simp] theorem syncDir_store (w : SegdiskWorld) : (syncDir w).2.store = w.store := by
  simp [syncDir]

/-! ## State publication and deletion keep the frontier view -/

theorem storeWriteState_frontierView (forceSync : Bool) (w : SegdiskWorld) :
    (storeWriteState forceSync w).2.store.frontierView = w.store.frontierView := rfl

theorem unlinkSegmentId_frontierView (id : ℕ) (account : Bool) (suffixes : List SegmentSuffix)
    (w : SegdiskWorld) :
    (unlinkSegmentId id account suffixes w).2.store.frontierView = w.store.frontierView := by
  induction suffixes generalizing w with
  | nil => rfl
  | cons suffix rest ih =>
    unfold unlinkSegmentId
    split
    · exact ih w
    · by_cases hok : (w.nextOutcome.1 == IoOutcome.ok) = true
      · simp only [SegdiskWorld.nextSucceeds, hok, Bool.not_true, if_false, Bool.false_eq_true, ih]
        cases account <;> simp [SegdiskStore.frontierView, SegdiskStore.pendingView,
          SegdiskStore.committedPosition]
      · simp [SegdiskWorld.nextSucceeds, hok]

theorem cleanupOnePendingDelete_frontierView (w : SegdiskWorld) :
    (cleanupOnePendingDelete w).2.store.frontierView = w.store.frontierView := by
  unfold cleanupOnePendingDelete
  extract_lets s
  split
  · rfl
  · split
    next r₁ w₁ h₁ =>
    have hv₁ : w₁.store.frontierView = w.store.frontierView := by
      rw [eq_snd_of_eq h₁, unlinkSegmentId_frontierView]
    split
    next r₂ w₂ h₂ =>
    have hs₂ : w₂.store = w₁.store := by
      rw [eq_snd_of_eq h₂]
      split <;> simp
    split
    · rw [← hv₁, ← hs₂]
    · extract_lets old shrunk
      split
      next r₃ w₃ h₃ =>
      have hv₃ : w₃.store.frontierView = w.store.frontierView := by
        rw [eq_snd_of_eq h₃, storeWriteState_frontierView, ← hv₁, ← hs₂]
        simp only [shrunk]
        split <;> rfl
      split <;> exact hv₃

theorem cleanupPendingDeletes_frontierView (fuel : ℕ) (w : SegdiskWorld) :
    (cleanupPendingDeletes fuel w).store.frontierView = w.store.frontierView := by
  induction fuel generalizing w with
  | zero => rfl
  | succ fuel ih =>
    unfold cleanupPendingDeletes
    split
    · rfl
    · split
      next r w₁ h₁ =>
      have hv₁ : w₁.store.frontierView = w.store.frontierView := by
        rw [eq_snd_of_eq h₁, cleanupOnePendingDelete_frontierView]
      split
      · rw [ih, hv₁]
      · exact hv₁

theorem finishDelete_frontierView (w : SegdiskWorld) :
    (finishDelete w).2.store.frontierView = w.store.frontierView :=
  cleanupPendingDeletes_frontierView _ w

theorem deleteCommitted_frontierView (w : SegdiskWorld) :
    (deleteCommitted w).2.store.frontierView = w.store.frontierView := by
  unfold deleteCommitted
  extract_lets s target
  split
  · split
    · rfl
    · split
      · rfl
      · split
        next r w₁ h₁ =>
        have hv₁ : w₁.store.frontierView = w.store.frontierView := by
          rw [eq_snd_of_eq h₁, storeWriteState_frontierView]
          rfl
        split
        · exact hv₁
        · rw [finishDelete_frontierView, hv₁]
  · exact finishDelete_frontierView w

/-! ## Reading keeps the pending view -/

theorem loadReadSegment_frontierView (fuel : ℕ) (w : SegdiskWorld) :
    (loadReadSegment fuel w).2.store.frontierView = w.store.frontierView := by
  induction fuel generalizing w with
  | zero => rfl
  | succ fuel ih =>
    unfold loadReadSegment
    extract_lets s
    split
    · split
      · rw [ih]
        rfl
      · rfl
      · rfl
    · rfl

theorem openReadSegment_frontierView (w : SegdiskWorld) :
    (openReadSegment w).2.store.frontierView = w.store.frontierView := by
  unfold openReadSegment
  rw [loadReadSegment_frontierView]
  split <;> rfl

theorem storeRecordAt_pendingView {α : Type} (decode : List UInt8 → Except RsRetVal α)
    (seg : SegdiskSegment) (c : RecordCursor) (w : SegdiskWorld) :
    (storeRecordAt decode seg c w).2.2.store.pendingView = w.store.pendingView := by
  unfold storeRecordAt
  extract_lets s₀ seg₁ s₁
  split
  · rfl
  · split
    rfl

theorem dequeueLoop_pendingView {α : Type} (decode : List UInt8 → Except RsRetVal α) (max : ℕ)
    (fuel : ℕ) (p : DequeueProgress α) (w : SegdiskWorld) :
    (dequeueLoop decode max fuel p w).2.2.store.pendingView = w.store.pendingView := by
  induction fuel generalizing p w with
  | zero => rfl
  | succ fuel ih =>
    unfold dequeueLoop
    split
    · rfl
    · split
      next loaded w₁ h₁ =>
      have hv₁ : w₁.store.pendingView = w.store.pendingView := by
        rw [eq_snd_of_eq h₁]
        split
        · exact congrArg Prod.fst (openReadSegment_frontierView w)
        · rfl
      split
      · exact hv₁
      · exact hv₁
      · split
        next r c w₂ h₂ =>
        have hv₂ : w₂.store.pendingView = w.store.pendingView := by
          rw [← hv₁, show w₂ = (storeRecordAt decode _ _ w₁).2.2 by rw [h₂]]
          exact storeRecordAt_pendingView decode _ _ w₁
        extract_lets w₃ p₁
        split
        · exact hv₂
        · split
          · exact hv₂
          · rw [ih]
            exact hv₂
        · exact hv₂
        · rw [ih]
          exact hv₂

/-! ## Appending keeps the pending view -/

theorem restoreActiveAfterSealFailure_frontierView (a : SegdiskSegment) (w : SegdiskWorld) :
    (restoreActiveAfterSealFailure a w).store.frontierView = w.store.frontierView := by
  rcases restoreActiveAfterSealFailure_store a w with h | h
  · rw [h]
  · rw [h]
    rfl

theorem createActive_frontierView (w : SegdiskWorld) :
    (createActive w).2.store.frontierView = w.store.frontierView := by
  unfold createActive
  extract_lets s seg reserved
  split
  next r w₁ h₁ =>
  have hv₁ : w₁.store.frontierView = w.store.frontierView := by
    rw [eq_snd_of_eq h₁, storeWriteState_frontierView]
    rfl
  split
  · exact hv₁
  · split
    next opened w₂ h₂ =>
    have hs₂ : w₂.store = w₁.store := by
      rw [eq_snd_of_eq h₂]
      split <;> simp
    split
    · rw [← hv₁, ← hs₂]
      rfl
    · extract_lets w₃
      split
      next r₄ w₄ h₄ =>
      have hs₄ : w₄.store = w₁.store := by
        rw [eq_snd_of_eq h₄, writeFile_store, ← hs₂]
        rfl
      split
      next r₅ w₅ h₅ =>
      have hs₅ : w₅.store = w₁.store := by
        rw [eq_snd_of_eq h₅]
        split <;> simp [hs₄]
      split
      · split
        next unlinked w₆ h₆ =>
        have hs₆ : w₆.store = w₁.store := by
          rw [eq_snd_of_eq h₆, SegdiskWorld.nextSucceeds_store, hs₅]
        extract_lets w₇
        have hs₇ : w₇.store = w₁.store := by
          simp only [w₇]
          split <;> simp [hs₆]
        rw [← hv₁, ← hs₇]
        rfl
      · rw [← hv₁, ← hs₅]
        rfl

theorem sealActive_frontierView (w : SegdiskWorld) :
    (sealActive w).2.store.frontierView = w.store.frontierView := by
  unfold sealActive
  split
  · rfl
  · next a ha =>
    split
    · rfl
    · extract_lets footer
      split
      next r₁ w₁ h₁ =>
      have hs₁ : w₁.store = w.store := by rw [eq_snd_of_eq h₁, writeActive_store]
      split
      next r₂ w₂ h₂ =>
      have hs₂ : w₂.store = w.store := by rw [eq_snd_of_eq h₂, syncActiveAfter_store, hs₁]
      split
      next closed w₃ h₃ =>
      have hv₃ : w₃.store.frontierView = w.store.frontierView := by
        rw [eq_snd_of_eq h₃, closeActive_store, hs₂]
        rfl
      extract_lets r₃
      split
      · rw [restoreActiveAfterSealFailure_frontierView, hv₃]
      · split
        next renamed w₄ h₄ =>
        have hv₄ : w₄.store.frontierView = w.store.frontierView := by
          rw [eq_snd_of_eq h₄, renameSegment_store, hv₃]
        split
        · rw [restoreActiveAfterSealFailure_frontierView, hv₄]
        · extract_lets w₅
          have hv₅ : w₅.store.frontierView = w.store.frontierView := hv₄
          split
          · rw [syncDir_store, hv₅]
          · exact hv₅

theorem writeRecord_pendingView (record : List UInt8) (rollingCrc : UInt32) (internal : Bool)
    (w : SegdiskWorld) :
    (writeRecord record rollingCrc internal w).2.store.pendingView = w.store.pendingView := by
  unfold writeRecord
  split
  · rfl
  · next a ha =>
    split
    next r₁ w₁ h₁ =>
    have hs₁ : w₁.store = w.store := by rw [eq_snd_of_eq h₁, writeActive_store]
    split
    next r₂ w₂ h₂ =>
    have hs₂ : w₂.store = w.store := by rw [eq_snd_of_eq h₂, syncActiveAfter_store, hs₁]
    extract_lets w₃
    have hv₃ : w₃.store.pendingView = w.store.pendingView := by
      simp only [w₃]
      split
      · rw [SegdiskWorld.setStore_store, ← hs₂]
        rfl
      · rw [hs₂]
    split
    next r₄ w₄ h₄ =>
    have hv₄ : w₄.store.pendingView = w.store.pendingView := by
      rw [eq_snd_of_eq h₄, ← hv₃]
      split
      · exact congrArg Prod.fst (sealActive_frontierView w₃)
      · rfl
    split
    · exact hv₄
    · exact hv₄

theorem appendRecord_pendingView {α : Type} (encode : α → Except RsRetVal (List UInt8)) (msg : α)
    (internal : Bool) (w : SegdiskWorld) :
    (appendRecord encode msg internal w).2.store.pendingView = w.store.pendingView := by
  unfold appendRecord
  split
  next r₁ w₁ h₁ =>
  have hv₁ : w₁.store.pendingView = w.store.pendingView := by
    rw [eq_snd_of_eq h₁]
    split
    · exact congrArg Prod.fst (createActive_frontierView w)
    · rfl
  split
  · exact hv₁
  · split
    · exact hv₁
    · split
      · exact hv₁
      · split
        · split
          next r₂ w₂ h₂ =>
          have hv₂ : w₂.store.pendingView = w.store.pendingView := by
            rw [eq_snd_of_eq h₂, ← hv₁]
            exact congrArg Prod.fst (sealActive_frontierView w₁)
          split
          next r₃ w₃ h₃ =>
          have hv₃ : w₃.store.pendingView = w.store.pendingView := by
            rw [eq_snd_of_eq h₃, ← hv₂]
            split
            · exact congrArg Prod.fst (createActive_frontierView w₂)
            · rfl
          split
          · exact hv₃
          · split
            · exact hv₃
            · rw [writeRecord_pendingView, hv₃]
        · rw [writeRecord_pendingView, hv₁]

theorem retryAppends_pendingView {α : Type} (encode : α → Except RsRetVal (List UInt8))
    (todo : List (α × BatchState)) (ctx : SegdiskBatchCtx) (w : SegdiskWorld) :
    (retryAppends encode todo ctx w).2.2.store.pendingView = w.store.pendingView := by
  induction todo generalizing ctx w with
  | nil => rfl
  | cons entry rest ih =>
    unfold retryAppends
    split
    · split
      next r w₁ h₁ =>
      have hv₁ : w₁.store.pendingView = w.store.pendingView := by
        rw [eq_snd_of_eq h₁, appendRecord_pendingView]
      split
      · exact hv₁
      · rw [ih, hv₁]
    · exact ih _ w

/-- Retrying appends keeps the batch sequence of the context. -/
theorem retryAppends_sequence {α : Type} (encode : α → Except RsRetVal (List UInt8))
    (todo : List (α × BatchState)) (ctx : SegdiskBatchCtx) (w : SegdiskWorld) :
    (retryAppends encode todo ctx w).2.1.sequence = ctx.sequence := by
  induction todo generalizing ctx w with
  | nil => rfl
  | cons entry rest ih =>
    unfold retryAppends
    split
    · split
      split
      · rfl
      · exact ih _ _
    · exact ih _ _

/-! ## advance_completed -/

theorem captureWriter_frontierView (s : SegdiskStore) :
    (captureWriter s).frontierView = s.frontierView := by
  unfold captureWriter
  split <;> rfl

/-- Everything `advance_completed` does to the pending list and the frontier: with `done` the
longest complete prefix of the pending list, it either succeeds, leaving the rest of the list,
the end position of the last context of `done` (or the old position when `done` is empty) and
the known queue size less the records of `done`, or fails and leaves the list, the position, the
known queue size and the update counter as they were. -/
theorem advanceCompleted_cases {w w' : SegdiskWorld} {r : RsRetVal}
    (h : advanceCompleted w = (r, w')) :
    let done := w.store.pending.takeWhile (·.complete)
    w'.store.nextBatchSequence = w.store.nextBatchSequence ∧
      ((r = .ok ∧ w'.store.pending = w.store.pending.dropWhile (·.complete) ∧
          w'.store.committedPosition =
            (done.getLast?.map (·.endPosition)).getD w.store.committedPosition ∧
          w'.store.knownQueueSize = w.store.knownQueueSize - (done.map (·.records)).sum) ∨
        (r ≠ .ok ∧ w'.store.pending = w.store.pending ∧
          w'.store.committedPosition = w.store.committedPosition ∧
          w'.store.knownQueueSize = w.store.knownQueueSize ∧
          w'.store.updatesSinceCheckpoint = w.store.updatesSinceCheckpoint)) := by
  intro done
  unfold advanceCompleted at h
  extract_lets s done₀ advanced at h
  split at h
  · next hnone =>
    -- no complete context at the head: nothing happens
    have hnil : done = [] := List.getLast?_eq_none_iff.mp hnone
    obtain ⟨rfl, rfl⟩ := Prod.mk.inj h
    refine ⟨rfl, Or.inl ⟨rfl, ?_, by simp [hnil], by simp [hnil]⟩⟩
    rw [← CommitLog.drop_length_takeWhile, show (w.store.pending.takeWhile (·.complete)) = []
      from hnil]
    rfl
  · next last hlast =>
    extract_lets committed at h
    split at h
    next r₁ w₁ h₁ =>
    have hv₁ : w₁.store.frontierView = committed.frontierView := by
      rw [eq_snd_of_eq h₁]
      split
      · rw [storeWriteState_frontierView]
        exact captureWriter_frontierView committed
      · rfl
    split at h
    next r₂ w₂ h₂ =>
    have hv₂ : w₂.store.frontierView = committed.frontierView := by
      rw [eq_snd_of_eq h₂, ← hv₁]
      split
      · exact deleteCommitted_frontierView w₁
      · rfl
    obtain ⟨hv₂, hk₂⟩ := SegdiskStore.frontierView_eq_iff.mp hv₂
    obtain ⟨hp₂, hn₂, hc₂⟩ := SegdiskStore.pendingView_eq_iff.mp hv₂
    split at h
    · -- the checkpoint or the deletion failed: the fields are restored
      next hr₂ =>
      obtain ⟨rfl, rfl⟩ := Prod.mk.inj h
      exact ⟨hn₂, Or.inr ⟨hr₂, hp₂, rfl, rfl, rfl⟩⟩
    · obtain ⟨rfl, rfl⟩ := Prod.mk.inj h
      refine ⟨hn₂, Or.inl ⟨rfl, ?_, ?_, hk₂⟩⟩
      · simp only [SegdiskWorld.setStore_store, hp₂]
        exact CommitLog.drop_length_takeWhile _
      · simp only [SegdiskWorld.setStore_store]
        rw [show done.getLast? = some last from hlast]
        exact hc₂

/-! ## Dequeue and completion -/

/-- Marking the context with a batch sequence complete sets that context's flag and changes
nothing else. -/
theorem markComplete_marks (sequence : ℕ) (pending : List SegdiskBatchCtx) :
    List.Forall₂ (CommitLog.Marks SegdiskBatchCtx.key (·.sequence) (·.complete) [sequence])
      pending (markComplete sequence pending) := by
  rw [markComplete, List.forall₂_map_right_iff, List.forall₂_same]
  intro ctx _
  split
  · next hseq => exact ⟨rfl, fun _ => rfl, fun _ => Or.inr (by simp [SegdiskBatchCtx.key, hseq])⟩
  · exact CommitLog.Marks.refl _ ctx

/-- Marking a context complete changes no batch sequence. -/
theorem markComplete_sequence (sequence : ℕ) (pending : List SegdiskBatchCtx) :
    (markComplete sequence pending).map (·.sequence) = pending.map (·.sequence) := by
  simp only [markComplete, List.map_map]
  apply List.map_congr_left
  intro ctx _
  simp only [Function.comp_apply]
  split <;> rfl

/-- Everything `segdiskStoreDequeueBatch` does to the pending list and the frontier: it keeps
both, perhaps using up a batch sequence number; or it appends a context with the next batch
sequence number and hands it to the caller with the batch; or it appends a complete context
for a batch of no messages and runs `advance_completed`. -/
theorem segdiskStoreDequeueBatch_cases {α : Type} {decode : List UInt8 → Except RsRetVal α}
    {batch : SegdiskBatch α} {max : ℕ} {w w' : SegdiskWorld} {o : DequeueOutcome α}
    (h : segdiskStoreDequeueBatch decode batch max w = (o, w')) :
    (w'.store.pending = w.store.pending ∧ w'.store.committedPosition = w.store.committedPosition ∧
        w.store.nextBatchSequence ≤ w'.store.nextBatchSequence) ∨
      ∃ ctx : SegdiskBatchCtx, ctx.sequence = w.store.nextBatchSequence ∧
        ((o.ret = .ok ∧ o.batch.storeData = some ctx ∧ ctx.complete = false ∧
            w'.store.pending = w.store.pending ++ [ctx] ∧
            w'.store.committedPosition = w.store.committedPosition ∧
            w'.store.nextBatchSequence = w.store.nextBatchSequence + 1) ∨
          (o.batch = batch ∧ ctx.complete = true ∧ ∃ w₁ : SegdiskWorld,
            w₁.store.pending = w.store.pending ++ [ctx] ∧
            w₁.store.committedPosition = w.store.committedPosition ∧
            w₁.store.nextBatchSequence = w.store.nextBatchSequence + 1 ∧
            ∃ r, advanceCompleted w₁ = (r, w'))) := by
  unfold segdiskStoreDequeueBatch at h
  split at h
  · obtain ⟨-, rfl⟩ := Prod.mk.inj h
    exact Or.inl ⟨rfl, rfl, le_rfl⟩
  · extract_lets w₁ sequence src w₂ start at h
    have hv₁ : w₁.store.pendingView = w.store.pendingView := by
      simp only [w₁]
      split
      · exact congrArg Prod.fst (cleanupOnePendingDelete_frontierView w)
      · rfl
    obtain ⟨hp₁, hn₁, hc₁⟩ := SegdiskStore.pendingView_eq_iff.mp hv₁
    split at h
    · obtain ⟨-, rfl⟩ := Prod.mk.inj h
      exact Or.inl ⟨hp₁, hc₁, hn₁.ge⟩
    · split at h
      · next r p w₃ h₃ =>
        obtain ⟨-, rfl⟩ := Prod.mk.inj h
        have hv₃ : w₃.store.pendingView = w₂.store.pendingView := by
          rw [eq_snd_snd_of_eq h₃, dequeueLoop_pendingView]
        obtain ⟨hp₃, hn₃, hc₃⟩ := SegdiskStore.pendingView_eq_iff.mp hv₃
        refine Or.inl ⟨hp₃.trans hp₁, hc₃.trans hc₁, ?_⟩
        rw [hn₃, show w₂.store.nextBatchSequence = w₁.store.nextBatchSequence + 1 from rfl, hn₁]
        omega
      · next p w₃ h₃ =>
        have hv₃ : w₃.store.pendingView = w₂.store.pendingView := by
          rw [eq_snd_snd_of_eq h₃, dequeueLoop_pendingView]
        obtain ⟨hp₃, hn₃, hc₃⟩ := SegdiskStore.pendingView_eq_iff.mp hv₃
        have hn₂ : w₂.store.nextBatchSequence = w.store.nextBatchSequence + 1 := by
          rw [← hn₁]
          rfl
        split at h
        · obtain ⟨-, rfl⟩ := Prod.mk.inj h
          exact Or.inl ⟨hp₃.trans hp₁, hc₃.trans hc₁, by omega⟩
        · extract_lets ctx src₄ w₄ at h
          have hp₄ : w₄.store.pending = w.store.pending ++ [ctx] := by
            show w₃.store.pending ++ [ctx] = _
            rw [hp₃, ← hp₁]
            rfl
          split at h
          · -- a batch of damaged records only: its context completes at once
            next hempty =>
            split at h
            next r₅ w₅ h₅ =>
            obtain ⟨rfl, rfl⟩ := Prod.mk.inj h
            exact Or.inr ⟨ctx, hn₁, Or.inr ⟨rfl, hempty, w₄, hp₄, hc₃.trans hc₁,
              hn₃.trans hn₂, r₅, h₅⟩⟩
          · next hmsgs =>
            obtain ⟨rfl, rfl⟩ := Prod.mk.inj h
            exact Or.inr ⟨ctx, hn₁, Or.inl ⟨rfl, rfl, by simpa [ctx] using hmsgs, hp₄,
              hc₃.trans hc₁, hn₃.trans hn₂⟩⟩

/-- Everything `segdiskStoreCompleteBatch` does to the pending list and the frontier: it keeps
them, or it marks the context of the batch's own sequence complete and runs
`advance_completed`. -/
theorem segdiskStoreCompleteBatch_cases {α : Type} {encode : α → Except RsRetVal (List UInt8)}
    {batch : SegdiskBatch α} {w w' : SegdiskWorld} {o : CompleteOutcome α}
    (h : segdiskStoreCompleteBatch encode batch w = (o, w')) :
    w'.store.pendingView = w.store.pendingView ∨
      ∃ ctx : SegdiskBatchCtx, batch.storeData = some ctx ∧ ∃ w₁ : SegdiskWorld,
        w₁.store.pending = markComplete ctx.sequence w.store.pending ∧
        w₁.store.nextBatchSequence = w.store.nextBatchSequence ∧
        w₁.store.committedPosition = w.store.committedPosition ∧
        ∃ r, advanceCompleted w₁ = (r, w') := by
  unfold segdiskStoreCompleteBatch at h
  split at h
  · obtain ⟨-, rfl⟩ := Prod.mk.inj h
    exact Or.inl rfl
  · next ctx hctx =>
    split at h
    · obtain ⟨-, rfl⟩ := Prod.mk.inj h
      exact Or.inl rfl
    · extract_lets todo at h
      split at h
      next r ctx' w₂ h₂ =>
      have hv₂ : w₂.store.pendingView = w.store.pendingView := by
        rw [eq_snd_snd_of_eq h₂, retryAppends_pendingView]
      obtain ⟨hp₂, hn₂, hc₂⟩ := SegdiskStore.pendingView_eq_iff.mp hv₂
      -- the retried context is the batch's own: its sequence is the one marked
      have hseq : ctx'.sequence = ctx.sequence := by
        have hs := retryAppends_sequence encode todo ctx w
        rwa [h₂] at hs
      extract_lets batch' src₃ w₃ at h
      split at h
      · obtain ⟨-, rfl⟩ := Prod.mk.inj h
        exact Or.inl hv₂
      · split at h
        next r₄ w₄ h₄ =>
        refine Or.inr ⟨ctx, hctx, w₃, ?_, hn₂, hc₂, r₄, ?_⟩
        · show markComplete ctx'.sequence w₂.store.pending = _
          rw [hp₂, hseq]
        · split at h <;> obtain ⟨-, rfl⟩ := Prod.mk.inj h <;> exact h₄

/-! ## One call as a step of the commit log -/

/-- What a call did to the pending list and the commit frontier: the contexts `arrived` joined
the tail of the list, only the contexts whose batch sequence is in `marked` became complete,
and the contexts `left` left from its head, each complete, in dequeue order; the committed
position is the end position of the last context that left, or the old one when none left; and
when any left, the context now at the head is incomplete. -/
def FrontierStep (s s' : SegdiskStore) (arrived : List SegdiskBatchCtx) (marked : List ℕ) :
    Prop :=
  ∃ left : List SegdiskBatchCtx,
    CommitLog.Commits SegdiskBatchCtx.key (·.sequence) (·.complete) s.pending arrived marked left
      s'.pending ∧
    s'.committedPosition = (left.getLast?.map (·.endPosition)).getD s.committedPosition ∧
    (left ≠ [] → ∀ ctx ∈ s'.pending.head?, ctx.complete = false)

/-- The contexts a dequeue call adds to the pending list: none, or one with the next batch
sequence number, either handed to the caller with an incomplete batch or, for a batch of no
messages, complete at once while the caller's batch stays as it was. -/
def DequeueArrival {α : Type} (batch : SegdiskBatch α) (sequence : ℕ) (o : DequeueOutcome α) :
    List SegdiskBatchCtx → Prop
  | [] => True
  | [ctx] => ctx.sequence = sequence ∧
      ((o.ret = .ok ∧ o.batch.storeData = some ctx ∧ ctx.complete = false) ∨
        (o.batch = batch ∧ ctx.complete = true))
  | _ :: _ :: _ => False

/-- A context appended to the pending list arrives at the tail. -/
theorem commits_push (pending : List SegdiskBatchCtx) (ctx : SegdiskBatchCtx) :
    CommitLog.Commits SegdiskBatchCtx.key (·.sequence) (·.complete) pending [ctx] [] []
      (pending ++ [ctx]) :=
  (CommitLog.commits_refl pending []).arrive ctx

theorem frontierStep_of_keep {s s' : SegdiskStore} {marked : List ℕ} (hp : s'.pending = s.pending)
    (hc : s'.committedPosition = s.committedPosition) : FrontierStep s s' [] marked :=
  ⟨[], hp ▸ CommitLog.commits_refl _ _, by simp [hc], fun h => absurd rfl h⟩

/-- `advance_completed` after arrivals and flag changes that kept the committed position. -/
theorem FrontierStep.of_advanceCompleted {s : SegdiskStore} {arrived : List SegdiskBatchCtx}
    {marked : List ℕ} {w w' : SegdiskWorld} {r : RsRetVal}
    (hc : CommitLog.Commits SegdiskBatchCtx.key (·.sequence) (·.complete) s.pending arrived marked
      [] w.store.pending)
    (hpos : w.store.committedPosition = s.committedPosition)
    (h : advanceCompleted w = (r, w')) : FrontierStep s w'.store arrived marked := by
  obtain ⟨-, ⟨-, hp, hpos', -⟩ | ⟨-, hp, hpos', -⟩⟩ := advanceCompleted_cases h
  · -- the longest complete prefix left
    refine ⟨w.store.pending.takeWhile (·.complete), ?_, by rw [hpos', hpos], ?_⟩
    · rw [hp]
      simpa using hc.commit
    · intro _
      rw [hp]
      exact CommitLog.head_dropWhile_not_finished _
  · exact ⟨[], hp ▸ hc, by rw [hpos', hpos]; rfl, fun h => absurd rfl h⟩

/-- A dequeue call is a step of the commit log that adds its own context, if any, and sets no
flag. -/
theorem segdiskStoreDequeueBatch_frontierStep {α : Type} {decode : List UInt8 → Except RsRetVal α}
    {batch : SegdiskBatch α} {max : ℕ} {w w' : SegdiskWorld} {o : DequeueOutcome α}
    (h : segdiskStoreDequeueBatch decode batch max w = (o, w')) :
    ∃ arrived, FrontierStep w.store w'.store arrived [] ∧
      DequeueArrival batch w.store.nextBatchSequence o arrived := by
  rcases segdiskStoreDequeueBatch_cases h with
    ⟨hp, hc, -⟩ | ⟨ctx, hseq, ⟨hret, hdata, hinc, hp, hc, -⟩ | ⟨hbatch, hcomp, w₁, hp₁, hc₁, -, r, h₁⟩⟩
  · exact ⟨[], frontierStep_of_keep hp hc, trivial⟩
  · exact ⟨[ctx], ⟨[], hp ▸ commits_push w.store.pending ctx, by simp [hc], fun h => absurd rfl h⟩,
      hseq, Or.inl ⟨hret, hdata, hinc⟩⟩
  · exact ⟨[ctx], FrontierStep.of_advanceCompleted (hp₁ ▸ commits_push w.store.pending ctx) hc₁ h₁,
      hseq, Or.inr ⟨hbatch, hcomp⟩⟩

/-- A completion call is a step of the commit log that adds no context and sets the flag of its
own batch's context only. -/
theorem segdiskStoreCompleteBatch_frontierStep {α : Type}
    {encode : α → Except RsRetVal (List UInt8)} {batch : SegdiskBatch α} {w w' : SegdiskWorld}
    {o : CompleteOutcome α} (h : segdiskStoreCompleteBatch encode batch w = (o, w')) :
    FrontierStep w.store w'.store [] (batch.storeData.map (·.sequence)).toList := by
  rcases segdiskStoreCompleteBatch_cases h with hv | ⟨ctx, hctx, w₁, hp₁, -, hc₁, r, h₁⟩
  · obtain ⟨hp, -, hc⟩ := SegdiskStore.pendingView_eq_iff.mp hv
    exact frontierStep_of_keep hp hc
  · have hflag : CommitLog.Commits SegdiskBatchCtx.key (·.sequence) (·.complete) w.store.pending
        [] ([] ++ [ctx.sequence]) [] (markComplete ctx.sequence w.store.pending) :=
      (CommitLog.commits_refl _ []).mark [ctx.sequence] (markComplete_marks ctx.sequence _)
    rw [hctx]
    exact FrontierStep.of_advanceCompleted (hp₁ ▸ hflag) hc₁ h₁

/-! ## The order of the pending list -/

/-- The pending list is in strictly increasing batch sequence, below the next sequence number
to hand out. -/
def PendingOrdered (s : SegdiskStore) : Prop :=
  (s.pending.map (·.sequence)).Pairwise (· < ·) ∧
    ∀ n ∈ s.pending.map (·.sequence), n < s.nextBatchSequence

instance (s : SegdiskStore) : Decidable (PendingOrdered s) :=
  inferInstanceAs (Decidable (_ ∧ _))

theorem PendingOrdered.of_sublist {s s' : SegdiskStore} (h : PendingOrdered s)
    (hseq : List.Sublist (s'.pending.map (·.sequence)) (s.pending.map (·.sequence)))
    (hnext : s.nextBatchSequence ≤ s'.nextBatchSequence) : PendingOrdered s' :=
  ⟨h.1.sublist hseq, fun n hn => lt_of_lt_of_le (h.2 n (hseq.subset hn)) hnext⟩

theorem PendingOrdered.push {s s' : SegdiskStore} (h : PendingOrdered s) {ctx : SegdiskBatchCtx}
    (hp : s'.pending = s.pending ++ [ctx]) (hseq : ctx.sequence = s.nextBatchSequence)
    (hnext : s'.nextBatchSequence = s.nextBatchSequence + 1) : PendingOrdered s' := by
  refine ⟨?_, ?_⟩
  · rw [hp, List.map_append, List.pairwise_append]
    refine ⟨h.1, List.pairwise_singleton _ _, ?_⟩
    intro a ha b hb
    have hb' : b = ctx.sequence := by simpa using hb
    rw [hb', hseq]
    exact h.2 a ha
  · intro n hn
    rw [hp, List.map_append] at hn
    rcases List.mem_append.mp hn with hold | hnew
    · have := h.2 n hold
      omega
    · have : n = ctx.sequence := by simpa using hnew
      omega

theorem advanceCompleted_pendingOrdered {w w' : SegdiskWorld} {r : RsRetVal}
    (h : advanceCompleted w = (r, w')) (ho : PendingOrdered w.store) : PendingOrdered w'.store := by
  obtain ⟨hn, ⟨-, hp, -⟩ | ⟨-, hp, -⟩⟩ := advanceCompleted_cases h
  · exact ho.of_sublist (by rw [hp]; exact (List.dropWhile_sublist _).map _) hn.ge
  · exact ho.of_sublist (by simp only [hp, List.Sublist.refl]) hn.ge

theorem segdiskStoreDequeueBatch_pendingOrdered {α : Type}
    {decode : List UInt8 → Except RsRetVal α} {batch : SegdiskBatch α} {max : ℕ}
    {w w' : SegdiskWorld} {o : DequeueOutcome α}
    (h : segdiskStoreDequeueBatch decode batch max w = (o, w')) (ho : PendingOrdered w.store) :
    PendingOrdered w'.store := by
  rcases segdiskStoreDequeueBatch_cases h with
    ⟨hp, -, hn⟩ | ⟨ctx, hseq, ⟨-, -, -, hp, -, hn⟩ | ⟨-, -, w₁, hp₁, -, hn₁, r, h₁⟩⟩
  · exact ho.of_sublist (by simp only [hp, List.Sublist.refl]) hn
  · exact ho.push hp hseq hn
  · exact advanceCompleted_pendingOrdered h₁ (ho.push hp₁ hseq hn₁)

theorem segdiskStoreCompleteBatch_pendingOrdered {α : Type}
    {encode : α → Except RsRetVal (List UInt8)} {batch : SegdiskBatch α} {w w' : SegdiskWorld}
    {o : CompleteOutcome α} (h : segdiskStoreCompleteBatch encode batch w = (o, w'))
    (ho : PendingOrdered w.store) : PendingOrdered w'.store := by
  rcases segdiskStoreCompleteBatch_cases h with hv | ⟨ctx, -, w₁, hp₁, hn₁, -, r, h₁⟩
  · obtain ⟨hp, hn, -⟩ := SegdiskStore.pendingView_eq_iff.mp hv
    exact ho.of_sublist (by simp only [hp, List.Sublist.refl]) hn.ge
  · exact advanceCompleted_pendingOrdered h₁
      (ho.of_sublist (by simp only [hp₁, markComplete_sequence, List.Sublist.refl]) hn₁.ge)

/-! ## Runs of calls -/

/-- A call of the queue into the store: dequeue at most `max` messages into `batch`, or
complete `batch`. -/
inductive StoreCall (α : Type) where
  | dequeue (batch : SegdiskBatch α) (max : ℕ)
  | complete (batch : SegdiskBatch α)

/-- The world after one call. -/
def storeCall {α : Type} (decode : List UInt8 → Except RsRetVal α)
    (encode : α → Except RsRetVal (List UInt8)) : StoreCall α → SegdiskWorld → SegdiskWorld
  | .dequeue batch max, w => (segdiskStoreDequeueBatch decode batch max w).2
  | .complete batch, w => (segdiskStoreCompleteBatch encode batch w).2

/-- The world after a sequence of calls, in order. -/
def runStoreCalls {α : Type} (decode : List UInt8 → Except RsRetVal α)
    (encode : α → Except RsRetVal (List UInt8)) : List (StoreCall α) → SegdiskWorld → SegdiskWorld
  | [], w => w
  | call :: calls, w => runStoreCalls decode encode calls (storeCall decode encode call w)

theorem storeCall_pendingOrdered {α : Type} (decode : List UInt8 → Except RsRetVal α)
    (encode : α → Except RsRetVal (List UInt8)) (call : StoreCall α) {w : SegdiskWorld}
    (ho : PendingOrdered w.store) : PendingOrdered (storeCall decode encode call w).store := by
  cases call with
  | dequeue batch max => exact segdiskStoreDequeueBatch_pendingOrdered Prod.mk.eta.symm ho
  | complete batch => exact segdiskStoreCompleteBatch_pendingOrdered Prod.mk.eta.symm ho

/-- The pending list stays ordered over every run, whatever the batches and the order in which
they complete. -/
theorem runStoreCalls_pendingOrdered {α : Type} (decode : List UInt8 → Except RsRetVal α)
    (encode : α → Except RsRetVal (List UInt8)) (calls : List (StoreCall α)) {w : SegdiskWorld}
    (ho : PendingOrdered w.store) : PendingOrdered (runStoreCalls decode encode calls w).store := by
  induction calls generalizing w with
  | nil => exact ho
  | cons call calls ih => exact ih (storeCall_pendingOrdered decode encode call ho)

/-! ## The commit frontier -/

end Rsyslog.Segdisk
