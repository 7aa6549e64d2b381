import Rsyslog.Common.ByteBuffer
import Rsyslog.Common.Wraparound
import Rsyslog.Runtime.Basic
import Rsyslog.Segdisk.Crc

/-!
# The fixed-size state slot of the segmentedDisk store

`runtime/segdisk_state.c` serialises the store's durable state into a 256-byte slot: an
eight-byte magic, the store and codec versions, the store's UUID, a generation counter and
the remaining 22 fields of `segdisk_state_image_t`, big-endian at fixed offsets, and a
CRC-32C of the first 252 bytes in the last four. The state file holds two such slots;
`segdiskStateSelect` validates both and decodes the one whose generation is newer in the
wrapping serial order.

Encoding is inverted by decoding, with the generation taken from the encoder's argument,
and an encoded slot always validates.
-/

namespace Rsyslog.Segdisk

open Rsyslog.Common

/-- `segdisk_state_image_t`: the durable state of a store. -/
@[ext] structure SegdiskStateImage where
  uuid : Vector UInt8 16
  generation : UInt64
  flags : UInt32
  committedSegment : UInt64
  committedOffset : Int64
  committedRecordSequence : UInt64
  firstLiveSegment : UInt64
  lastDataSegment : UInt64
  activeSegment : UInt64
  recoveryFirst : UInt64
  recoveryLast : UInt64
  nextSegment : UInt64
  knownQueueSize : UInt64
  bytes : Int64
  segments : UInt64
  writerSegment : UInt64
  writerEnd : Int64
  writerSequence : UInt64
  writerCount : UInt64
  deleteFirst : UInt64
  deleteLast : UInt64
  deleteBytes : Int64
  deleteSegments : UInt64
  deriving DecidableEq, Repr, Inhabited

/-- `STATE_MAGIC`, the ASCII text `RSSEGST2`. -/
def stateMagic : List UInt8 :=
  [0x52, 0x53, 0x53, 0x45, 0x47, 0x53, 0x54, 0x32]

/-- `SEGDISK_STATE_STORE_VERSION`. -/
def segdiskStateStoreVersion : UInt16 := 2

/-- `SEGDISK_CODEC_VERSION`. -/
def segdiskCodecVersion : UInt16 := 1

/-- `SEGDISK_STATE_SLOT_LEN`. -/
def segdiskStateSlotLen : ℕ := 256

/-- `UINT64_MAX`. -/
def uint64Max : UInt64 := 18446744073709551615

/-- `segdiskStateEncode`: the slot image of a state with the given generation. -/
def segdiskStateEncode (s : SegdiskStateImage) (generation : UInt64) : ℕ → UInt8 :=
  let b : ℕ → UInt8 := fun _ => 0
  let b := putBytes b 0 stateMagic
  let b := put16 b 8 segdiskStateStoreVersion
  let b := put16 b 10 segdiskCodecVersion
  let b := putBytes b 12 s.uuid.toList
  let b := put64 b 28 generation
  let b := put32 b 36 s.flags
  let b := put64 b 40 s.committedSegment
  let b := put64 b 48 s.committedOffset.toUInt64
  let b := put64 b 56 s.committedRecordSequence
  let b := put64 b 64 s.firstLiveSegment
  let b := put64 b 72 s.lastDataSegment
  let b := put64 b 80 s.activeSegment
  let b := put64 b 88 s.recoveryFirst
  let b := put64 b 96 s.recoveryLast
  let b := put64 b 104 s.nextSegment
  let b := put64 b 112 s.knownQueueSize
  let b := put64 b 120 s.bytes.toUInt64
  let b := put64 b 128 s.segments
  let b := put64 b 136 s.writerSegment
  let b := put64 b 144 s.writerEnd.toUInt64
  let b := put64 b 152 s.writerSequence
  let b := put64 b 160 s.writerCount
  let b := put64 b 168 s.deleteFirst
  let b := put64 b 176 s.deleteLast
  let b := put64 b 184 s.deleteBytes.toUInt64
  let b := put64 b 192 s.deleteSegments
  put32 b (segdiskStateSlotLen - 4) (segdiskCrc32c (getBytes b 0 (segdiskStateSlotLen - 4)))

/-- `segdiskStateValidate`: magic, both versions and the trailing CRC match. -/
def segdiskStateValidate (b : ℕ → UInt8) : Bool :=
  getBytes b 0 8 == stateMagic && get16 b 8 == segdiskStateStoreVersion &&
    get16 b 10 == segdiskCodecVersion &&
    get32 b (segdiskStateSlotLen - 4) == segdiskCrc32c (getBytes b 0 (segdiskStateSlotLen - 4))

/-- `segdiskStateDecode`: every field read back from its offset. -/
def segdiskStateDecode (b : ℕ → UInt8) : SegdiskStateImage where
  uuid := Vector.ofFn fun i => b (12 + i)
  generation := get64 b 28
  flags := get32 b 36
  committedSegment := get64 b 40
  committedOffset := (get64 b 48).toInt64
  committedRecordSequence := get64 b 56
  firstLiveSegment := get64 b 64
  lastDataSegment := get64 b 72
  activeSegment := get64 b 80
  recoveryFirst := get64 b 88
  recoveryLast := get64 b 96
  nextSegment := get64 b 104
  knownQueueSize := get64 b 112
  bytes := (get64 b 120).toInt64
  segments := get64 b 128
  writerSegment := get64 b 136
  writerEnd := (get64 b 144).toInt64
  writerSequence := get64 b 152
  writerCount := get64 b 160
  deleteFirst := get64 b 168
  deleteLast := get64 b 176
  deleteBytes := (get64 b 184).toInt64
  deleteSegments := get64 b 192

/-- `segdiskStateGenerationNewer`: serial comparison of two generations. -/
def segdiskStateGenerationNewer (candidate reference : UInt64) : Bool :=
  if candidate = reference then false
  else
    let distance :=
      if candidate > reference then candidate - reference else uint64Max - reference + candidate + 1
    distance < (1 : UInt64) <<< 63

/-- `segdiskStateSelect`: the decoded newer valid slot and its index, or
`RS_RET_INVALID_VALUE` when no slot is valid, the UUIDs differ or the generations are
incomparable. -/
def segdiskStateSelect (slot0 : ℕ → UInt8) (present0 : Bool) (slot1 : ℕ → UInt8)
    (present1 : Bool) : Except RsRetVal (SegdiskStateImage × ℕ) :=
  let valid0 := present0 && segdiskStateValidate slot0
  let valid1 := present1 && segdiskStateValidate slot1
  if !valid0 && !valid1 then .error .invalidValue
  else if valid0 && valid1 && getBytes slot0 12 16 != getBytes slot1 12 16 then .error .invalidValue
  else if valid0 && valid1 && get64 slot0 28 != get64 slot1 28 &&
      !segdiskStateGenerationNewer (get64 slot0 28) (get64 slot1 28) &&
      !segdiskStateGenerationNewer (get64 slot1 28) (get64 slot0 28) then .error .invalidValue
  else
    let selected :=
      if valid1 && (!valid0 || segdiskStateGenerationNewer (get64 slot1 28) (get64 slot0 28))
      then 1 else 0
    .ok (segdiskStateDecode (if selected = 0 then slot0 else slot1), selected)

@[simp] theorem stateMagic_length : stateMagic.length = 8 := rfl

/-- The fields below the CRC as a layout table, in the order `segdiskStateEncode` writes
them. -/
def stateFields (s : SegdiskStateImage) (generation : UInt64) : List (ℕ × List UInt8) :=
  [(0, stateMagic), (8, be16 segdiskStateStoreVersion), (10, be16 segdiskCodecVersion),
    (12, s.uuid.toList), (28, be64 generation), (36, be32 s.flags),
    (40, be64 s.committedSegment), (48, be64 s.committedOffset.toUInt64),
    (56, be64 s.committedRecordSequence), (64, be64 s.firstLiveSegment),
    (72, be64 s.lastDataSegment), (80, be64 s.activeSegment), (88, be64 s.recoveryFirst),
    (96, be64 s.recoveryLast), (104, be64 s.nextSegment), (112, be64 s.knownQueueSize),
    (120, be64 s.bytes.toUInt64), (128, be64 s.segments), (136, be64 s.writerSegment),
    (144, be64 s.writerEnd.toUInt64), (152, be64 s.writerSequence), (160, be64 s.writerCount),
    (168, be64 s.deleteFirst), (176, be64 s.deleteLast), (184, be64 s.deleteBytes.toUInt64),
    (192, be64 s.deleteSegments)]

/-- The bytes a slot's CRC covers: the layout table written over a zeroed buffer. -/
def stateBody (s : SegdiskStateImage) (generation : UInt64) : ℕ → UInt8 :=
  writeFields (fun _ => 0) (stateFields s generation)

/-- Encoding writes the layout table and then the CRC of its first 252 bytes. -/
theorem segdiskStateEncode_eq (s : SegdiskStateImage) (g : UInt64) :
    segdiskStateEncode s g =
      put32 (stateBody s g) 252 (segdiskCrc32c (getBytes (stateBody s g) 0 252)) := rfl

/-- The fields of the slot layout occupy disjoint byte ranges. -/
theorem stateFields_disjoint (s : SegdiskStateImage) (g : UInt64) :
    (fieldSpans (stateFields s g)).Pairwise SpanDisjoint := by
  have hspans : fieldSpans (stateFields s g) =
      [(0, 8), (8, 2), (10, 2), (12, 16), (28, 8), (36, 4), (40, 8), (48, 8), (56, 8), (64, 8),
        (72, 8), (80, 8), (88, 8), (96, 8), (104, 8), (112, 8), (120, 8), (128, 8), (136, 8),
        (144, 8), (152, 8), (160, 8), (168, 8), (176, 8), (184, 8), (192, 8)] := by
    simp [fieldSpans, stateFields]
  rw [hspans]
  decide

/-- Every field of the layout table reads back from an encoded slot. -/
theorem getBytes_segdiskStateEncode {s : SegdiskStateImage} {g : UInt64} {off : ℕ}
    {src : List UInt8} (hmem : (off, src) ∈ stateFields s g) (hcrc : off + src.length ≤ 252) :
    getBytes (segdiskStateEncode s g) off src.length = src := by
  rw [segdiskStateEncode_eq, put32, getBytes_putBytes_of_disjoint _ _ (Or.inl hcrc)]
  exact getBytes_writeFields _ (stateFields_disjoint s g) hmem

/-- A 64-bit field of the layout table reads back from an encoded slot. -/
theorem get64_segdiskStateEncode {s : SegdiskStateImage} {g : UInt64} {off : ℕ} {v : UInt64}
    (hmem : (off, be64 v) ∈ stateFields s g) (hcrc : off + 8 ≤ 252) :
    get64 (segdiskStateEncode s g) off = v :=
  get64_eq_of_getBytes (getBytes_segdiskStateEncode hmem hcrc)

/-- The generation of an encoded slot is the encoder's argument. -/
@[simp] theorem get64_segdiskStateEncode_generation (s : SegdiskStateImage) (g : UInt64) :
    get64 (segdiskStateEncode s g) 28 = g :=
  get64_segdiskStateEncode (by simp [stateFields]) (by decide)

/-- The UUID bytes of an encoded slot are the state's UUID. -/
@[simp] theorem getBytes_segdiskStateEncode_uuid (s : SegdiskStateImage) (g : UInt64) :
    getBytes (segdiskStateEncode s g) 12 16 = s.uuid.toList := by
  simpa using @getBytes_segdiskStateEncode s g 12 s.uuid.toList (by simp [stateFields]) (by simp)

/-- An encoded slot always validates: the magic and versions are in place and the CRC field
holds the CRC of the bytes before it, which the CRC write does not touch. -/
@[simp] theorem segdiskStateValidate_encode (s : SegdiskStateImage) (g : UInt64) :
    segdiskStateValidate (segdiskStateEncode s g) = true := by
  have hmagic : getBytes (segdiskStateEncode s g) 0 8 = stateMagic :=
    @getBytes_segdiskStateEncode s g 0 stateMagic (by simp [stateFields]) (by decide)
  have hstore : get16 (segdiskStateEncode s g) 8 = segdiskStateStoreVersion :=
    get16_eq_of_getBytes (@getBytes_segdiskStateEncode s g 8 (be16 segdiskStateStoreVersion)
      (by simp [stateFields]) (by decide))
  have hcodec : get16 (segdiskStateEncode s g) 10 = segdiskCodecVersion :=
    get16_eq_of_getBytes (@getBytes_segdiskStateEncode s g 10 (be16 segdiskCodecVersion)
      (by simp [stateFields]) (by decide))
  have hbody : getBytes (segdiskStateEncode s g) 0 252 = getBytes (stateBody s g) 0 252 := by
    rw [segdiskStateEncode_eq, put32]
    exact getBytes_putBytes_of_disjoint _ _ (Or.inl (Nat.le_refl 252))
  have hcrc : get32 (segdiskStateEncode s g) 252 = segdiskCrc32c (getBytes (stateBody s g) 0 252) := by
    rw [segdiskStateEncode_eq, get32_put32]
  simp [segdiskStateValidate, segdiskStateSlotLen, hmagic, hstore, hcodec, hbody, hcrc]

/-- A signed 64-bit field, stored as its two's-complement bits, reads back from an encoded
slot. -/
theorem toInt64_get64_segdiskStateEncode {s : SegdiskStateImage} {g : UInt64} {off : ℕ}
    {v : Int64} (hmem : (off, be64 v.toUInt64) ∈ stateFields s g) (hcrc : off + 8 ≤ 252) :
    (get64 (segdiskStateEncode s g) off).toInt64 = v := by
  rw [get64_segdiskStateEncode hmem hcrc, Int64.toInt64_toUInt64]

/-- Decoding an encoded slot restores every field of the state, with the generation the
encoder was given: the round trip of `segdiskStateEncode` and `segdiskStateDecode`. -/
theorem segdiskStateDecode_encode (s : SegdiskStateImage) (g : UInt64) :
    segdiskStateDecode (segdiskStateEncode s g) = { s with generation := g } := by
  apply SegdiskStateImage.ext
  case uuid =>
    apply Vector.toList_inj.mp
    rw [segdiskStateDecode, Vector.toList_ofFn, ← getBytes_eq_ofFn,
      getBytes_segdiskStateEncode_uuid]
  case flags =>
    exact get32_eq_of_getBytes
      (@getBytes_segdiskStateEncode s g 36 (be32 s.flags) (by simp [stateFields]) (by simp))
  case generation => exact get64_segdiskStateEncode_generation s g
  case committedOffset | bytes | writerEnd | deleteBytes =>
    exact toInt64_get64_segdiskStateEncode (by simp [stateFields]) (by decide)
  all_goals exact get64_segdiskStateEncode (by simp [stateFields]) (by decide)

/-- The encoder never reads the generation field of the state it is given. -/
@[simp] theorem segdiskStateEncode_setGeneration (s : SegdiskStateImage) (x g : UInt64) :
    segdiskStateEncode { s with generation := x } g = segdiskStateEncode s g := rfl

/-- `segdiskStateGenerationNewer` is the serial order of the wrapping counter: both of its
branches compute the forward distance `candidate - reference` modulo `2 ^ 64`. -/
theorem segdiskStateGenerationNewer_iff (c r : UInt64) :
    segdiskStateGenerationNewer c r = true ↔ SerialAhead c r := by
  have hc := c.toNat_lt
  have hr := r.toNat_lt
  have hhalf : (1 : UInt64) <<< 63 = 9223372036854775808 := by decide
  unfold segdiskStateGenerationNewer SerialAhead
  by_cases heq : c = r
  · simp [heq]
  · have hne := toNat_ne_of_ne heq
    simp only [heq, if_false, decide_eq_true_eq, ne_eq, not_false_eq_true, true_and, hhalf,
      UInt64.lt_iff_toNat_lt, UInt64.reduceToNat]
    split
    · rfl
    · rename_i hle
      simp only [UInt64.toNat_add, UInt64.toNat_sub, uint64Max, UInt64.reduceToNat,
        UInt64.toNat_one]
      omega

/-- With both slots read, slot 0 is selected when it is valid and slot 1 is either invalid or
an image of the same store whose generation slot 0 is ahead of. -/
theorem segdiskStateSelect_slot0 {slot0 slot1 : ℕ → UInt8}
    (h0 : segdiskStateValidate slot0 = true)
    (h1 : segdiskStateValidate slot1 = false ∨
      (getBytes slot0 12 16 = getBytes slot1 12 16 ∧
        SerialAhead (get64 slot0 28) (get64 slot1 28))) :
    segdiskStateSelect slot0 true slot1 true = .ok (segdiskStateDecode slot0, 0) := by
  rcases h1 with h1 | ⟨huuid, hahead⟩
  · simp [segdiskStateSelect, h0, h1]
  · have hnewer := (segdiskStateGenerationNewer_iff _ _).mpr hahead
    have hback : segdiskStateGenerationNewer (get64 slot1 28) (get64 slot0 28) = false := by
      rw [Bool.eq_false_iff, ne_eq, segdiskStateGenerationNewer_iff]
      exact not_serialAhead_of_serialAhead hahead
    by_cases hv1 : segdiskStateValidate slot1 = true
    · simp [segdiskStateSelect, h0, hv1, huuid, hnewer, hback]
    · simp [segdiskStateSelect, h0, hv1]

/-- With both slots read, slot 1 is selected when it is valid and slot 0 is either invalid or
an image of the same store that slot 1's generation is ahead of. -/
theorem segdiskStateSelect_slot1 {slot0 slot1 : ℕ → UInt8}
    (h1 : segdiskStateValidate slot1 = true)
    (h0 : segdiskStateValidate slot0 = false ∨
      (getBytes slot0 12 16 = getBytes slot1 12 16 ∧
        SerialAhead (get64 slot1 28) (get64 slot0 28))) :
    segdiskStateSelect slot0 true slot1 true = .ok (segdiskStateDecode slot1, 1) := by
  rcases h0 with h0 | ⟨huuid, hahead⟩
  · simp [segdiskStateSelect, h0, h1]
  · have hnewer := (segdiskStateGenerationNewer_iff _ _).mpr hahead
    by_cases hv0 : segdiskStateValidate slot0 = true
    · simp [segdiskStateSelect, hv0, h1, huuid, hnewer]
    · simp [segdiskStateSelect, hv0, h1, hnewer]

/-- A slot encoded from any state with any generation validates and decodes to that state with
the generation replaced; of two slots encoded from states of one store with consecutive
generations `g` and `g + 1`, the selection takes the later one, whichever slot holds it. -/
theorem segdiskStateSlot_roundTrip_select (s : SegdiskStateImage) (g : UInt64)
    (older newer : SegdiskStateImage) (gen : UInt64) (huuid : older.uuid = newer.uuid) :
    segdiskStateValidate (segdiskStateEncode s g) = true ∧
      segdiskStateDecode (segdiskStateEncode s g) = { s with generation := g } ∧
      segdiskStateSelect (segdiskStateEncode older gen) true
          (segdiskStateEncode newer (gen + 1)) true =
        .ok ({ newer with generation := gen + 1 }, 1) ∧
      segdiskStateSelect (segdiskStateEncode newer (gen + 1)) true
          (segdiskStateEncode older gen) true =
        .ok ({ newer with generation := gen + 1 }, 0) := by
  have hsame : getBytes (segdiskStateEncode older gen) 12 16 =
      getBytes (segdiskStateEncode newer (gen + 1)) 12 16 := by
    rw [getBytes_segdiskStateEncode_uuid, getBytes_segdiskStateEncode_uuid, huuid]
  have hahead : SerialAhead (get64 (segdiskStateEncode newer (gen + 1)) 28)
      (get64 (segdiskStateEncode older gen) 28) := by
    simpa using serialAhead_succ gen
  refine ⟨segdiskStateValidate_encode s g, segdiskStateDecode_encode s g, ?_, ?_⟩
  · rw [segdiskStateSelect_slot1 (segdiskStateValidate_encode _ _) (Or.inr ⟨hsame, hahead⟩),
      segdiskStateDecode_encode]
  · rw [segdiskStateSelect_slot0 (segdiskStateValidate_encode _ _) (Or.inr ⟨hsame.symm, hahead⟩),
      segdiskStateDecode_encode]

/-- The round trip and the selection for the image decoded from a zeroed slot, as the older and
the newer state, at the generation wrap. -/
theorem segdiskStateSlot_roundTrip_select_wrap :
    (segdiskStateDecode fun _ => 0).uuid = (segdiskStateDecode fun _ => 0).uuid ∧
      segdiskStateSelect (segdiskStateEncode (segdiskStateDecode fun _ => 0) uint64Max) true
          (segdiskStateEncode (segdiskStateDecode fun _ => 0) (uint64Max + 1)) true =
        .ok ({ segdiskStateDecode fun _ => 0 with generation := 0 }, 1) :=
  ⟨rfl, (segdiskStateSlot_roundTrip_select (segdiskStateDecode fun _ => 0) 0
    (segdiskStateDecode fun _ => 0) (segdiskStateDecode fun _ => 0) uint64Max rfl).2.2.1⟩

end Rsyslog.Segdisk
