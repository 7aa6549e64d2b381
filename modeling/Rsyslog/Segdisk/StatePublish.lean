import Rsyslog.Segdisk.StateCodec

/-!
# Crash-consistent two-slot publication of the segmentedDisk state

`write_state` (`runtime/segdisk_store.c`) encodes the current store state with generation
`g + 1` and writes it with `pwrite_full` into slot `(g + 1) & 1` of the 512-byte state file,
syncing it when asked; only when the write and the sync succeed does the store adopt
generation `g + 1`. On restart `read_state` reads both slots and `segdiskStateSelect` picks one.

A write either completes, fails before touching the file, or fails after leaving arbitrary
bytes in its slot; a crash during a write is the last case. The abstract `Publication`
records what a write acknowledges: the last image whose write returned `RS_RET_OK`, and a
later image that was written but whose sync failed, as long as its slot is intact. Writes
always target the slot that does not hold the acknowledged image, so that image survives
every later failure, and selection returns the pending image when there is one and the
acknowledged one otherwise.
-/

namespace Rsyslog.Segdisk

open Rsyslog.Common

/-- The state file: slot 0 at offset 0 and slot 1 at offset `SEGDISK_STATE_SLOT_LEN`. -/
structure StateFile where
  slot0 : ℕ → UInt8
  slot1 : ℕ → UInt8

/-- The slot at an index. -/
def StateFile.slot (f : StateFile) (i : ℕ) : ℕ → UInt8 :=
  if i = 0 then f.slot0 else f.slot1

/-- Overwrite the slot at an index. -/
def StateFile.setSlot (f : StateFile) (i : ℕ) (b : ℕ → UInt8) : StateFile :=
  if i = 0 then { f with slot0 := b } else { f with slot1 := b }

/-- A state file as `ftruncate` creates it: both slots zero. -/
def StateFile.zeroed : StateFile :=
  ⟨fun _ => 0, fun _ => 0⟩

/-- What `pwrite_full` did to the slot it was asked to write. -/
inductive PwriteOutcome where
  /-- Every byte was written. -/
  | complete
  /-- The first `pwrite` failed and nothing was written. -/
  | failedUntouched
  /-- The write stopped part way, by an error or a crash, leaving these bytes in the slot. -/
  | failedPartial (left : ℕ → UInt8)

/-- The results of the two system calls of one `write_state`. -/
structure StateWriteIo where
  pwrite : PwriteOutcome
  syncFails : Bool

/-- One call of `write_state`: the store fields it captures other than the UUID and the
generation, its `force_sync` argument and the outcome of its input/output. -/
structure StateWriteCall where
  image : SegdiskStateImage
  forceSync : Bool
  io : StateWriteIo

/-- The store fields that `write_state` reads and updates. -/
structure StatePublisher where
  uuid : Vector UInt8 16
  generation : UInt64
  stateFile : StateFile

/-- `capture_state_image`: the store's UUID and generation over the other captured fields. -/
def captureStateImage (p : StatePublisher) (image : SegdiskStateImage) : SegdiskStateImage :=
  { image with uuid := p.uuid, generation := p.generation }

/-- The slot a generation is written to, `(int)(generation & 1u)`. -/
def slotIndex (generation : UInt64) : ℕ :=
  (generation &&& 1).toNat

/-- `write_state`: write the captured image with the next generation into its slot, and
advance the generation only when the write and the requested sync succeed. -/
def writeState (syncFiles : Bool) (p : StatePublisher) (c : StateWriteCall) :
    RsRetVal × StatePublisher :=
  let nextGeneration := p.generation + 1
  let b := segdiskStateEncode (captureStateImage p c.image) nextGeneration
  let slot := slotIndex nextGeneration
  match c.io.pwrite with
  | .complete =>
    let written := { p with stateFile := p.stateFile.setSlot slot b }
    if (c.forceSync || syncFiles) && c.io.syncFails then (.ioError, written)
    else (.ok, { written with generation := nextGeneration })
  | .failedUntouched => (.ioError, p)
  | .failedPartial left => (.ioError, { p with stateFile := p.stateFile.setSlot slot left })

/-- The publisher after a sequence of `write_state` calls, whatever each returned. -/
def runStateWrites (syncFiles : Bool) (p : StatePublisher) : List StateWriteCall → StatePublisher
  | [] => p
  | c :: rest => runStateWrites syncFiles (writeState syncFiles p c).2 rest

/-- `read_state`'s selection over a state file whose two slots were both read. -/
def readStateSelect (f : StateFile) : Except RsRetVal (SegdiskStateImage × ℕ) :=
  segdiskStateSelect f.slot0 true f.slot1 true

/-- A call whose `write_state` returns `RS_RET_OK`. -/
def StateWriteCall.Publishes (syncFiles : Bool) (c : StateWriteCall) : Prop :=
  c.io.pwrite = .complete ∧ ((c.forceSync || syncFiles) && c.io.syncFails) = false

/-- Every partial write leaves bytes that fail validation, as a torn slot does. -/
def StateWriteCall.TearsInvalid (c : StateWriteCall) : Prop :=
  ∀ left, c.io.pwrite = .failedPartial left → segdiskStateValidate left = false

/-! ## The abstract publication protocol -/

/-- What the state file acknowledges: the image of the last write that returned
`RS_RET_OK`, and a later written but unsynced image whose slot is still intact. -/
structure Publication where
  uuid : Vector UInt8 16
  generation : UInt64
  durable : Option SegdiskStateImage
  pending : Option SegdiskStateImage

/-- The image a write call carries, with the generation it is written under. -/
def Publication.written (a : Publication) (c : StateWriteCall) : SegdiskStateImage :=
  { c.image with uuid := a.uuid, generation := a.generation + 1 }

/-- One write call on the abstract protocol. -/
def Publication.step (syncFiles : Bool) (a : Publication) (c : StateWriteCall) : Publication :=
  match c.io.pwrite with
  | .complete =>
    if (c.forceSync || syncFiles) && c.io.syncFails then { a with pending := some (a.written c) }
    else { a with generation := a.generation + 1, durable := some (a.written c), pending := none }
  | .failedUntouched => a
  | .failedPartial _ => { a with pending := none }

/-- The abstract protocol after a sequence of write calls. -/
def Publication.run (syncFiles : Bool) (a : Publication) : List StateWriteCall → Publication
  | [] => a
  | c :: rest => (a.step syncFiles c).run syncFiles rest

/-- The image a reader recovers: the pending one if there is one, else the durable one. -/
def Publication.recovered (a : Publication) : Option SegdiskStateImage :=
  a.pending.or a.durable

/-- The image of the last call whose `pwrite` completed, with the generation it was written
under, whether or not its sync succeeded. -/
def Publication.lastCompleted (syncFiles : Bool) (a : Publication) :
    List StateWriteCall → Option SegdiskStateImage
  | [] => none
  | c :: rest =>
    match c.io.pwrite with
    | .complete => ((a.step syncFiles c).lastCompleted syncFiles rest).or (some (a.written c))
    | _ => (a.step syncFiles c).lastCompleted syncFiles rest

/-- The protocol before any write: nothing acknowledged. -/
def Publication.initial (uuid : Vector UInt8 16) (generation : UInt64) : Publication :=
  ⟨uuid, generation, none, none⟩

/-! ## Slot arithmetic -/

/-- The slot index of a generation is its parity. -/
theorem slotIndex_eq_mod (g : UInt64) : slotIndex g = g.toNat % 2 := by
  simp [slotIndex, UInt64.toNat_and, Nat.and_one_is_mod]

/-- A slot index is 0 or 1. -/
theorem slotIndex_lt (g : UInt64) : slotIndex g < 2 := by
  rw [slotIndex_eq_mod]
  exact Nat.mod_lt _ (by decide)

/-- Consecutive generations use opposite slots, also across the wrap to 0, since `2 ^ 64` is
even. -/
theorem slotIndex_succ (g : UInt64) : slotIndex (g + 1) = 1 - slotIndex g := by
  have hg := g.toNat_lt
  rw [slotIndex_eq_mod, slotIndex_eq_mod, UInt64.toNat_add, UInt64.toNat_one]
  omega

/-- Two generations apart share a slot. -/
theorem slotIndex_succ_succ (g : UInt64) : slotIndex (g + 1 + 1) = slotIndex g := by
  have hg := slotIndex_lt g
  rw [slotIndex_succ, slotIndex_succ]
  omega

@[simp] theorem StateFile.slot_setSlot_self (f : StateFile) (i : ℕ) (b : ℕ → UInt8) :
    (f.setSlot i b).slot i = b := by
  by_cases hi : i = 0 <;> simp [StateFile.slot, StateFile.setSlot, hi]

/-- Writing one slot leaves the other unchanged. -/
theorem StateFile.slot_setSlot_of_ne (f : StateFile) {i j : ℕ} (b : ℕ → UInt8) (hi : i < 2)
    (hj : j < 2) (hne : j ≠ i) : (f.setSlot i b).slot j = f.slot j := by
  by_cases hi0 : i = 0
  · have hj0 : j ≠ 0 := by omega
    simp [StateFile.slot, StateFile.setSlot, hi0, hj0]
  · have hj0 : j = 0 := by omega
    simp [StateFile.slot, StateFile.setSlot, hi0, hj0]

/-- Selection returns the slot at index `i` when it is valid and the other slot is invalid or
an image of the same store that slot `i`'s generation is ahead of. -/
theorem readStateSelect_of_ahead {f : StateFile} {i : ℕ} (hi : i < 2)
    (hvalid : segdiskStateValidate (f.slot i) = true)
    (hother : segdiskStateValidate (f.slot (1 - i)) = false ∨
      (getBytes (f.slot i) 12 16 = getBytes (f.slot (1 - i)) 12 16 ∧
        SerialAhead (get64 (f.slot i) 28) (get64 (f.slot (1 - i)) 28))) :
    readStateSelect f = .ok (segdiskStateDecode (f.slot i), i) := by
  rcases i with _ | _ | i
  · exact segdiskStateSelect_slot0 hvalid hother
  · refine segdiskStateSelect_slot1 hvalid ?_
    rcases hother with h | ⟨huuid, hahead⟩
    · exact Or.inl h
    · exact Or.inr ⟨huuid.symm, hahead⟩
  · omega

/-! ## The refinement invariant -/

/-- The slot of the publisher's current generation. -/
def StatePublisher.currentSlot (p : StatePublisher) : ℕ → UInt8 :=
  p.stateFile.slot (slotIndex p.generation)

/-- The slot the next `write_state` writes. -/
def StatePublisher.nextSlot (p : StatePublisher) : ℕ → UInt8 :=
  p.stateFile.slot (slotIndex (p.generation + 1))

/-- A slot holds the encoding of an image of this store under a generation. -/
def SlotHolds (p : StatePublisher) (b : ℕ → UInt8) (image : SegdiskStateImage)
    (generation : UInt64) : Prop :=
  image.uuid = p.uuid ∧ image.generation = generation ∧ b = segdiskStateEncode image generation

/-- A slot left over from earlier writes: invalid, or a valid image of this store whose
generation the current one is ahead of. -/
def SlotStale (p : StatePublisher) (b : ℕ → UInt8) : Prop :=
  segdiskStateValidate b = false ∨
    (getBytes b 12 16 = p.uuid.toList ∧ SerialAhead p.generation (get64 b 28))

/-- The current slot holds the durable image, or is invalid while there is none. -/
def DurableIn (p : StatePublisher) : Option SegdiskStateImage → Prop
  | none => segdiskStateValidate p.currentSlot = false
  | some d => SlotHolds p p.currentSlot d p.generation

/-- The next slot holds the pending image, or is stale while there is none. -/
def PendingIn (p : StatePublisher) : Option SegdiskStateImage → Prop
  | none => SlotStale p p.nextSlot
  | some q => SlotHolds p p.nextSlot q (p.generation + 1)

/-- The state file realises the abstract publication. -/
structure PublicationInv (p : StatePublisher) (a : Publication) : Prop where
  uuid_eq : a.uuid = p.uuid
  generation_eq : a.generation = p.generation
  durable : DurableIn p a.durable
  pending : PendingIn p a.pending

/-- A write to the next slot leaves the current slot as it was. -/
theorem currentSlot_setSlot_next (p : StatePublisher) (b : ℕ → UInt8) :
    (p.stateFile.setSlot (slotIndex (p.generation + 1)) b).slot (slotIndex p.generation) =
      p.currentSlot := by
  have hcur := slotIndex_lt p.generation
  have hnext := slotIndex_lt (p.generation + 1)
  have hne : slotIndex p.generation ≠ slotIndex (p.generation + 1) := by
    rw [slotIndex_succ]
    omega
  exact StateFile.slot_setSlot_of_ne _ b hnext hcur hne

/-- A write to the next slot leaves the durable image where it was. -/
theorem durableIn_setSlot_next {p : StatePublisher} {d : Option SegdiskStateImage}
    (b : ℕ → UInt8) (h : DurableIn p d) :
    DurableIn { p with stateFile := p.stateFile.setSlot (slotIndex (p.generation + 1)) b } d := by
  have hslot := currentSlot_setSlot_next p b
  cases d with
  | none => simpa [DurableIn, StatePublisher.currentSlot, hslot] using h
  | some d => simpa [DurableIn, SlotHolds, StatePublisher.currentSlot, hslot] using h

/-- The image a call writes is the encoding of its abstract image under the next
generation. -/
theorem encode_captureStateImage {p : StatePublisher} {a : Publication} (h : a.uuid = p.uuid)
    (c : StateWriteCall) :
    segdiskStateEncode (captureStateImage p c.image) (p.generation + 1) =
      segdiskStateEncode (a.written c) (p.generation + 1) := by
  simp only [captureStateImage, Publication.written, h]
  rfl

/-- The zero-filled file realises the empty publication. -/
theorem publicationInv_initial (uuid : Vector UInt8 16) (g : UInt64) :
    PublicationInv ⟨uuid, g, .zeroed⟩ (Publication.initial uuid g) := by
  have hzero : segdiskStateValidate (fun _ => 0) = false := by decide
  refine ⟨rfl, rfl, ?_, Or.inl ?_⟩
  · simpa [Publication.initial, DurableIn, StatePublisher.currentSlot, StateFile.slot,
      StateFile.zeroed] using hzero
  · simpa [StatePublisher.nextSlot, StateFile.slot, StateFile.zeroed] using hzero

/-- The current slot of a realisation is stale once the generation moves past it. -/
theorem slotStale_of_durableIn {p : StatePublisher} {d : Option SegdiskStateImage}
    (h : DurableIn p d) (file : StateFile) :
    SlotStale ⟨p.uuid, p.generation + 1, file⟩ p.currentSlot := by
  cases d with
  | none => exact Or.inl h
  | some d =>
    obtain ⟨huuid, -, hslot⟩ := h
    refine Or.inr ⟨?_, ?_⟩
    · rw [hslot, getBytes_segdiskStateEncode_uuid, huuid]
    · rw [hslot, get64_segdiskStateEncode_generation]
      exact serialAhead_succ p.generation

/-- One `write_state` call keeps the state file a realisation of the abstract protocol,
whatever its outcome, provided a partial write leaves an invalid slot. -/
theorem publicationInv_writeState {syncFiles : Bool} {p : StatePublisher} {a : Publication}
    {c : StateWriteCall} (hinv : PublicationInv p a) (htorn : c.TearsInvalid) :
    PublicationInv (writeState syncFiles p c).2 (a.step syncFiles c) := by
  obtain ⟨huuid, hgen, hdur, hpend⟩ := hinv
  have hwritten := encode_captureStateImage huuid c
  set b := segdiskStateEncode (captureStateImage p c.image) (p.generation + 1) with hb
  cases hio : c.io.pwrite with
  | complete =>
    by_cases hsync : ((c.forceSync || syncFiles) && c.io.syncFails) = true
    · -- written but not acknowledged: the image becomes pending
      have hp : (writeState syncFiles p c).2 =
          { p with stateFile := p.stateFile.setSlot (slotIndex (p.generation + 1)) b } := by
        simp [writeState, hio, hsync, hb]
      have ha : a.step syncFiles c = { a with pending := some (a.written c) } := by
        simp [Publication.step, hio, hsync]
      rw [hp, ha]
      refine ⟨huuid, hgen, ?_, ?_⟩
      · exact durableIn_setSlot_next b hdur
      refine ⟨huuid, by simp [Publication.written, hgen], ?_⟩
      simp [StatePublisher.nextSlot, hwritten]
    · -- acknowledged: the image becomes durable and the old current slot stale
      have hp : (writeState syncFiles p c).2 = { p with
          stateFile := p.stateFile.setSlot (slotIndex (p.generation + 1)) b,
          generation := p.generation + 1 } := by
        simp [writeState, hio, hsync, hb]
      have ha : a.step syncFiles c = { a with
          generation := a.generation + 1, durable := some (a.written c), pending := none } := by
        simp [Publication.step, hio, hsync]
      rw [hp, ha]
      refine ⟨huuid, by simp [hgen], ?_, ?_⟩
      · refine ⟨huuid, by simp [Publication.written, hgen], ?_⟩
        simp [StatePublisher.currentSlot, hwritten]
      · have hslot : (p.stateFile.setSlot (slotIndex (p.generation + 1)) b).slot
            (slotIndex (p.generation + 1 + 1)) = p.currentSlot := by
          rw [slotIndex_succ_succ]
          exact currentSlot_setSlot_next p b
        simpa [PendingIn, StatePublisher.nextSlot, hslot] using
          slotStale_of_durableIn hdur (p.stateFile.setSlot (slotIndex (p.generation + 1)) b)
  | failedUntouched =>
    simpa [writeState, Publication.step, hio] using
      (⟨huuid, hgen, hdur, hpend⟩ : PublicationInv p a)
  | failedPartial left =>
    -- the torn slot is the next one, and it no longer holds anything valid
    have hp : (writeState syncFiles p c).2 =
        { p with stateFile := p.stateFile.setSlot (slotIndex (p.generation + 1)) left } := by
      simp [writeState, hio]
    have ha : a.step syncFiles c = { a with pending := none } := by
      simp [Publication.step, hio]
    rw [hp, ha]
    refine ⟨huuid, hgen, ?_, Or.inl ?_⟩
    · exact durableIn_setSlot_next left hdur
    simpa [StatePublisher.nextSlot] using htorn left hio

/-- Every run of `write_state` calls keeps the state file a realisation of the abstract
protocol. -/
theorem publicationInv_run {syncFiles : Bool} {p : StatePublisher} {a : Publication}
    {calls : List StateWriteCall} (hinv : PublicationInv p a)
    (htorn : ∀ c ∈ calls, c.TearsInvalid) :
    PublicationInv (runStateWrites syncFiles p calls) (a.run syncFiles calls) := by
  induction calls generalizing p a with
  | nil => exact hinv
  | cons c rest ih =>
    exact ih (publicationInv_writeState hinv (htorn c List.mem_cons_self))
      fun c' hc' => htorn c' (List.mem_cons_of_mem _ hc')

/-- Once a write has been acknowledged, some image stays durable. -/
theorem Publication.step_durable_isSome {syncFiles : Bool} {a : Publication}
    (c : StateWriteCall) (h : a.durable.isSome) : (a.step syncFiles c).durable.isSome := by
  unfold Publication.step
  split
  · split <;> simp [h]
  · exact h
  · exact h

/-- A write that returns `RS_RET_OK` makes its image durable. -/
theorem Publication.step_durable_of_publishes {syncFiles : Bool} (a : Publication)
    {c : StateWriteCall} (h : c.Publishes syncFiles) :
    (a.step syncFiles c).durable = some (a.written c) := by
  obtain ⟨hio, hsync⟩ := h
  simp [Publication.step, hio, hsync]

/-- After a run with an acknowledged write, some image is durable. -/
theorem Publication.run_durable_isSome {syncFiles : Bool} {a : Publication}
    {calls : List StateWriteCall} (h : a.durable.isSome ∨ ∃ c ∈ calls, c.Publishes syncFiles) :
    (a.run syncFiles calls).durable.isSome := by
  induction calls generalizing a with
  | nil => simpa [Publication.run] using h
  | cons c rest ih =>
    apply ih
    rcases h with h | ⟨c', hmem, hpub⟩
    · exact Or.inl (Publication.step_durable_isSome c h)
    · rcases List.mem_cons.mp hmem with rfl | hmem
      · exact Or.inl (by simp [Publication.step_durable_of_publishes a hpub])
      · exact Or.inr ⟨c', hmem, hpub⟩

/-- A realisation with a durable image is read back as the recovered image, from the slot
of its generation. -/
theorem readStateSelect_of_publicationInv {p : StatePublisher} {a : Publication}
    (hinv : PublicationInv p a) {d : SegdiskStateImage} (hd : a.durable = some d) :
    ∃ r, a.recovered = some r ∧ readStateSelect p.stateFile = .ok (r, slotIndex r.generation) := by
  obtain ⟨-, -, hdur, hpend⟩ := hinv
  rw [hd] at hdur
  obtain ⟨hduuid, hdgen, hcur⟩ := hdur
  have hother : ∀ g : UInt64, 1 - slotIndex g = slotIndex (g + 1) := fun g => by
    rw [slotIndex_succ]
  cases hq : a.pending with
  | some q =>
    -- the pending image is one generation ahead of the durable one
    rw [hq] at hpend
    obtain ⟨hquuid, hqgen, hnext⟩ := hpend
    refine ⟨q, by simp [Publication.recovered, hq], ?_⟩
    have hsel := readStateSelect_of_ahead (f := p.stateFile) (slotIndex_lt (p.generation + 1))
      (by rw [← StatePublisher.nextSlot, hnext, segdiskStateValidate_encode])
      (Or.inr ⟨?_, ?_⟩)
    · rw [hsel, ← StatePublisher.nextSlot, hnext, segdiskStateDecode_encode, hqgen]
      simp [← hqgen]
    · rw [hother, slotIndex_succ_succ, ← StatePublisher.nextSlot, ← StatePublisher.currentSlot,
        hnext, hcur, getBytes_segdiskStateEncode_uuid, getBytes_segdiskStateEncode_uuid,
        hquuid, hduuid]
    · rw [hother, slotIndex_succ_succ, ← StatePublisher.nextSlot, ← StatePublisher.currentSlot,
        hnext, hcur, get64_segdiskStateEncode_generation, get64_segdiskStateEncode_generation]
      exact serialAhead_succ p.generation
  | none =>
    -- the next slot is stale, so the durable image is selected
    rw [hq] at hpend
    refine ⟨d, by simp [Publication.recovered, hq, hd], ?_⟩
    have hsel := readStateSelect_of_ahead (f := p.stateFile) (slotIndex_lt p.generation)
      (by rw [← StatePublisher.currentSlot, hcur, segdiskStateValidate_encode]) ?_
    · rw [hsel, ← StatePublisher.currentSlot, hcur, segdiskStateDecode_encode, hdgen]
      simp [← hdgen]
    · rw [hother, ← StatePublisher.nextSlot]
      rcases hpend with hinvalid | ⟨huuid, hahead⟩
      · exact Or.inl hinvalid
      · refine Or.inr ⟨?_, ?_⟩
        · rw [← StatePublisher.currentSlot, hcur, getBytes_segdiskStateEncode_uuid, hduuid, huuid]
        · rw [← StatePublisher.currentSlot, hcur, get64_segdiskStateEncode_generation]
          exact hahead

/-! ## Recovery after any run -/

/-- Crash-consistent publication: after any run of `write_state` calls on a zero-filled state
file, from any starting generation, in which some call returned `RS_RET_OK` and every partial
write left an invalid slot, selection succeeds and decodes the image the protocol
acknowledges, with its generation, from the slot of that generation. That image is the
one of the last call that returned `RS_RET_OK`, unless a later call completed its `pwrite`,
failed its sync, and no call has written that slot since. -/
theorem readStateSelect_runStateWrites (syncFiles : Bool) (uuid : Vector UInt8 16)
    (generation : UInt64) (calls : List StateWriteCall) (htorn : ∀ c ∈ calls, c.TearsInvalid)
    (hpub : ∃ c ∈ calls, c.Publishes syncFiles) :
    ∃ r, ((Publication.initial uuid generation).run syncFiles calls).recovered = some r ∧
      readStateSelect (runStateWrites syncFiles ⟨uuid, generation, .zeroed⟩ calls).stateFile =
        .ok (r, slotIndex r.generation) := by
  have hinv := @publicationInv_run syncFiles _ _ _ (publicationInv_initial uuid generation) htorn
  obtain ⟨d, hd⟩ := Option.isSome_iff_exists.mp (Publication.run_durable_isSome (Or.inr hpub))
  exact readStateSelect_of_publicationInv hinv hd

/-- One acknowledged write from the last generation before the wrap is read back under
generation 0. -/
theorem readStateSelect_runStateWrites_wrap :
    (∀ c ∈ [(⟨default, true, ⟨.complete, false⟩⟩ : StateWriteCall)], c.TearsInvalid) ∧
      (∃ c ∈ [(⟨default, true, ⟨.complete, false⟩⟩ : StateWriteCall)], c.Publishes false) ∧
      ∃ r, ((Publication.initial default uint64Max).run false
          [⟨default, true, ⟨.complete, false⟩⟩]).recovered = some r ∧
        readStateSelect (runStateWrites false ⟨default, uint64Max, .zeroed⟩
          [⟨default, true, ⟨.complete, false⟩⟩]).stateFile = .ok (r, slotIndex r.generation) :=
  ⟨by simp [StateWriteCall.TearsInvalid], ⟨_, List.mem_singleton_self _, rfl, rfl⟩,
    readStateSelect_runStateWrites false default uint64Max _
      (by simp [StateWriteCall.TearsInvalid]) ⟨_, List.mem_singleton_self _, rfl, rfl⟩⟩

/-- An acknowledged write, a write whose sync fails, and a write torn by a crash. -/
def syncLossCalls : List StateWriteCall :=
  [⟨default, true, ⟨.complete, false⟩⟩, ⟨default, true, ⟨.complete, true⟩⟩,
    ⟨default, true, ⟨.failedPartial fun _ => 0, false⟩⟩]

/-- Recovery does not always return the last image whose `pwrite` completed: a write whose
sync failed leaves the generation unchanged, so the retry after it targets the same slot, and
a crash during that retry destroys the unsynced image while the acknowledged one survives. -/
theorem readStateSelect_not_lastCompleted :
    ¬ ∀ (syncFiles : Bool) (uuid : Vector UInt8 16) (generation : UInt64)
      (calls : List StateWriteCall),
      (∀ c ∈ calls.dropLast, ∀ left, c.io.pwrite ≠ .failedPartial left) →
      (∀ c ∈ calls, c.TearsInvalid) →
      ∀ r, (Publication.initial uuid generation).lastCompleted syncFiles calls = some r →
        readStateSelect (runStateWrites syncFiles ⟨uuid, generation, .zeroed⟩ calls).stateFile =
          .ok (r, slotIndex r.generation) := by
  intro hclaim
  have hzero : segdiskStateValidate (fun _ => 0) = false := by decide
  have h1 : slotIndex 1 = 1 := by decide
  have h2 : slotIndex 2 = 0 := by decide
  have hfile : (runStateWrites false ⟨default, 0, .zeroed⟩ syncLossCalls).stateFile =
      ⟨fun _ => 0, segdiskStateEncode (captureStateImage ⟨default, 0, .zeroed⟩ default) 1⟩ := by
    simp [runStateWrites, syncLossCalls, writeState, StateFile.setSlot, StateFile.zeroed, h1, h2]
  -- the torn slot 0 is invalid, so the acknowledged image in slot 1 is read back
  have hread : readStateSelect (runStateWrites false ⟨default, 0, .zeroed⟩ syncLossCalls).stateFile
      = .ok (segdiskStateDecode
          (segdiskStateEncode (captureStateImage ⟨default, 0, .zeroed⟩ default) 1), 1) := by
    rw [hfile]
    exact segdiskStateSelect_slot1 (segdiskStateValidate_encode _ _) (Or.inl hzero)
  have hlast : (Publication.initial default 0).lastCompleted false syncLossCalls =
      some { (default : SegdiskStateImage) with uuid := default, generation := 2 } := by
    simp [Publication.lastCompleted, syncLossCalls, Publication.step, Publication.initial,
      Publication.written]
  have hclaimed := hclaim false default 0 syncLossCalls
    (by simp [syncLossCalls]) (by simp [syncLossCalls, StateWriteCall.TearsInvalid, hzero]) _ hlast
  rw [hread] at hclaimed
  simp [h2] at hclaimed

end Rsyslog.Segdisk
