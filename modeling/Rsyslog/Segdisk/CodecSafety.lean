import Rsyslog.Segdisk.Codec

/-!
# The decoder on arbitrary bytes

`segdiskCodecDecode` reads queue records back after a restart, from files that a crash or a
disk fault may have damaged, so it must be safe on every byte string. Each arm of its switch
reads only the payload it is handed, since `NEED` checks a fixed width before a fixed-width
field is read (`decodeFieldValue_local`); with the TLV reader this gives that the decoder reads
only the bytes below `len` and that its loop ends within `len` iterations.

What the decoder accepts is described by `WellFormedRecords`: the bytes are exactly a stream of
records, each within the payload limit, each known field with the type and width the decoder
demands, no unknown field with the critical flag, no id in 1..31 twice, and the raw message and
the MSG offset present. The `seen` mask is the set of ids met so far (`handleTlvs_decodeField_eq_ok`).
-/

namespace Rsyslog.Segdisk

open Rsyslog.Common

variable {σ J ρ : Type}

/-! ## Guards -/

@[simp] theorem need_eq_ok_iff {type : UInt8} {n : ℕ} {t : TlvType} {nbytes : ℕ} {u : Unit} :
    need type n t nbytes = .ok u ↔ type = t.code ∧ n = nbytes := by
  by_cases ht : type = t.code <;> by_cases hn : n = nbytes <;> simp [need, ht, hn]

@[simp] theorem needType_eq_ok_iff {type : UInt8} {t : TlvType} {u : Unit} :
    needType type t = .ok u ↔ type = t.code := by
  unfold needType
  split_ifs with h <;> simp_all

/-- A computation behind a guard succeeds only when the guard does. -/
theorem Except.eq_ok_of_bind_eq_ok {ε α β : Type} {x : Except ε α} {k : α → Except ε β} {b : β}
    (h : x >>= k = .ok b) : ∃ a, x = .ok a ∧ k a = .ok b := by
  cases x with
  | error e => cases h
  | ok a => exact ⟨a, rfl, h⟩

/-- After `NEED(t, nbytes)` the rest runs only with the checked width. -/
theorem need_bind_congr {type : UInt8} {n : ℕ} {t : TlvType} {nbytes : ℕ} {α : Type}
    {k k' : Unit → Except RsRetVal α} (h : n = nbytes → k () = k' ()) :
    need type n t nbytes >>= k = need type n t nbytes >>= k' := by
  unfold need
  split_ifs with hn
  · rfl
  · exact h (by omega)

/-! ## Reading only the payload -/

/-- `decode_time` reads only its 20 bytes. -/
theorem decodeTime_congr {p p' : ℕ → UInt8} {n : ℕ} (h : ∀ i < n, p i = p' i) :
    decodeTime p n = decodeTime p' n := by
  unfold decodeTime
  split_ifs with hn
  · rfl
  · have h20 : ∀ i < 20, p i = p' i := fun i hi => h i (by omega)
    have hyear : get16 p 12 = get16 p' 12 := get16_congr fun i hi => h20 _ (by omega)
    have hfrac : get32 p 14 = get32 p' 14 := get32_congr fun i hi => h20 _ (by omega)
    simp only [hyear, hfrac, h20 0 (by decide), h20 1 (by decide), h20 2 (by decide),
      h20 3 (by decide), h20 4 (by decide), h20 5 (by decide), h20 6 (by decide),
      h20 7 (by decide), h20 8 (by decide), h20 9 (by decide), h20 10 (by decide),
      h20 11 (by decide)]

/-- Every arm of the switch reads only the `n` bytes of its payload. -/
theorem decodeFieldValue_local (env : MsgEnv σ J ρ) (field : UInt16) (type flags : UInt8)
    {p p' : ℕ → UInt8} {n : ℕ} (h : ∀ i < n, p i = p' i) (msg : Smsg σ J ρ) :
    decodeFieldValue env field type flags p n msg =
      decodeFieldValue env field type flags p' n msg := by
  have hbytes : getBytes p 0 n = getBytes p' 0 n := getBytes_congr fun i hi => by
    simpa using h i hi
  -- a fixed-width field is read only once `NEED` has checked its width
  have h8 : n = 1 → p 0 = p' 0 := fun hn => h 0 (by omega)
  have h16 : n = 2 → get16 p 0 = get16 p' 0 := fun hn =>
    get16_congr fun i hi => by simpa using h i (by omega)
  have h32 : n = 4 → get32 p 0 = get32 p' 0 := fun hn =>
    get32_congr fun i hi => by simpa using h i (by omega)
  have h64 : n = 8 → get64 p 0 = get64 p' 0 := fun hn =>
    get64_congr fun i hi => by simpa using h i (by omega)
  unfold decodeFieldValue
  split
  all_goals first
    | exact need_bind_congr fun hn => by rw [h16 hn]
    | exact need_bind_congr fun hn => by rw [h32 hn]
    | exact need_bind_congr fun hn => by rw [h64 hn]
    | exact need_bind_congr fun hn => by rw [h8 hn]
    | exact need_bind_congr fun _ => by rw [decodeTime_congr h]
    | (simp only [dupText, hbytes]; try rfl)

/-- The loop body reads only the payload it is handed. -/
theorem decodeField_local (env : MsgEnv σ J ρ) : HandlerLocal (decodeField env) := by
  intro field type flags p p' n st h
  simp only [decodeField, decodeFieldValue_local env field type flags h]

/-- The decoder reads only the `len` bytes of its buffer. -/
theorem segdiskCodecDecode_congr (env : MsgEnv σ J ρ) {buf buf' : ℕ → UInt8} {len : ℕ}
    (h : ∀ i < len, buf i = buf' i) :
    segdiskCodecDecode env buf len = segdiskCodecDecode env buf' len := by
  simp only [segdiskCodecDecode, tlvRead_congr (decodeField_local env) h]

/-- The decoder's loop ends within `len` iterations: any bound from `len` up gives the same
result. -/
theorem segdiskCodecDecode_loop_fuel (env : MsgEnv σ J ρ) (buf : ℕ → UInt8) {len fuel : ℕ}
    (h : len ≤ fuel) :
    tlvRead tlvMaxPayload .invalidValue (decodeField env) buf len fuel 0 (0, msgBaseConstruct) =
      tlvRead tlvMaxPayload .invalidValue (decodeField env) buf len len 0 (0, msgBaseConstruct) :=
  (tlvRead_fuel _ (by omega) h).symm

/-! ## What the decoder accepts -/

/-- The type, and for a fixed-width field the payload length, that the decoder demands of a
known field. -/
def TlvField.shape : TlvField → TlvType × Option ℕ
  | .protocol | .severity | .facility => (.u16, some 2)
  | .flags | .msgOffset | .afterPriOffset => (.u32, some 4)
  | .gentime => (.u64, some 8)
  | .received | .timestamp => (.time, some 20)
  | .parseSuccess => (.u8, some 1)
  | _ => (.bytes, none)

/-- A record the decoder's per-record checks let through: a known field has its type and width,
an unknown field is not critical. -/
def ShapeOk (t : Tlv) : Prop :=
  match TlvField.ofId t.field with
  | some f => t.type = f.shape.1.code ∧ ∀ w ∈ f.shape.2, t.payload.length = w
  | none => t.flags &&& tlvCritical = 0

/-- The ids in 1..31 of a stream's records, the ones the `seen` mask tracks. -/
def trackedIds (ts : List Tlv) : List UInt16 :=
  (ts.map (·.field)).filter fun f => 1 ≤ f ∧ f ≤ 31

/-- A record stream of the form the decoder accepts. -/
structure WellFormedRecords (ts : List Tlv) : Prop where
  payloads : ∀ t ∈ ts, t.payload.length ≤ tlvMaxPayload
  shapes : ∀ t ∈ ts, ShapeOk t
  nodup : (trackedIds ts).Nodup
  rawmsg : TlvField.rawmsg.id ∈ ts.map (·.field)
  msgOffset : TlvField.msgOffset.id ∈ ts.map (·.field)

/-- An arm of the switch that succeeds saw the type and width its field demands. -/
theorem decodeFieldValue_shapeOk (env : MsgEnv σ J ρ) {t : Tlv} {p : ℕ → UInt8}
    {msg msg' : Smsg σ J ρ}
    (h : decodeFieldValue env t.field t.type t.flags p t.payload.length msg = .ok msg') :
    ShapeOk t := by
  unfold decodeFieldValue at h
  unfold ShapeOk
  rcases hf : TlvField.ofId t.field with _ | f
  · simp only [hf] at h
    by_contra hc
    simp [hc] at h
  · -- every arm starts with its guard
    cases f <;> simp only [hf] at h <;> obtain ⟨u, hg, -⟩ := Except.eq_ok_of_bind_eq_ok h <;>
      simp_all [TlvField.shape]

/-- The bit `fieldBit` sets for an id in 1..31 is bit `field - 1`. -/
theorem fieldBit_eq {field : UInt16} (h : 1 ≤ field) :
    fieldBit field = 1 <<< UInt32.ofNat (field.toNat - 1) := by
  have h1 : 1 ≤ field.toNat := by simpa [UInt16.le_iff_toNat_le] using h
  have hlt := field.toNat_lt
  unfold fieldBit
  congr 1
  apply UInt32.toNat_inj.mp
  rw [UInt32.toNat_sub_of_le _ _ (by simpa [UInt32.le_iff_toNat_le] using h1),
    UInt32.toNat_ofNat_of_lt' (by rw [UInt32.size]; omega)]
  simp

/-- One accepted iteration: a tracked id was not yet in the mask and is added to it, an id
outside 1..31 leaves the mask, and the switch accepted the record. -/
theorem decodeField_eq_ok (env : MsgEnv σ J ρ) {field : UInt16} {type flags : UInt8}
    {p : ℕ → UInt8} {n : ℕ} {seen seen' : UInt32} {msg msg' : Smsg σ J ρ}
    (h : decodeField env field type flags p n (seen, msg) = .ok (seen', msg')) :
    ((1 ≤ field ∧ field ≤ 31) → ¬ seen.toNat.testBit (field.toNat - 1) ∧
        ∀ j, seen'.toNat.testBit j ↔ seen.toNat.testBit j ∨ j = field.toNat - 1) ∧
      (¬ (1 ≤ field ∧ field ≤ 31) → seen' = seen) ∧
      decodeFieldValue env field type flags p n msg = .ok msg' := by
  rw [decodeField] at h
  split_ifs at h with hrep htr
  · -- a tracked id: it was not yet in the mask, and now it is
    dsimp only at h
    split at h
    · cases h
    · next msg₁ hval =>
      obtain ⟨rfl, rfl⟩ := Prod.mk.inj (Except.ok.inj h)
      have hk : field.toNat - 1 < 32 := by
        have := UInt16.le_iff_toNat_le.mp htr.2
        simp at this
        omega
      have hfree : ¬ (seen &&& 1 <<< UInt32.ofNat (field.toNat - 1) ≠ 0) := by
        rw [← fieldBit_eq htr.1]
        exact fun hc => hrep ⟨htr, hc⟩
      rw [and_one_shiftLeft_ne_zero_iff _ hk] at hfree
      refine ⟨fun _ => ⟨hfree, fun j => ?_⟩, fun hn => absurd htr hn, hval⟩
      rw [fieldBit_eq htr.1]
      exact testBit_or_one_shiftLeft _ hk j
  · -- an id outside 1..31 leaves the mask
    dsimp only at h
    split at h
    · cases h
    · next msg₁ hval =>
      obtain ⟨rfl, rfl⟩ := Prod.mk.inj (Except.ok.inj h)
      exact ⟨fun ht => absurd ht htr, fun _ => rfl, hval⟩

/-- Over a run of accepted records the mask gains exactly their tracked ids, none of which it
held before; so no tracked id occurs twice. -/
theorem handleTlvs_decodeField_eq_ok (env : MsgEnv σ J ρ) :
    ∀ {ts : List Tlv} {seen seen' : UInt32} {msg msg' : Smsg σ J ρ},
      handleTlvs (decodeField env) (seen, msg) ts = .ok (seen', msg') →
      (∀ t ∈ ts, ShapeOk t) ∧ (trackedIds ts).Nodup ∧
        (∀ f ∈ trackedIds ts, ¬ seen.toNat.testBit (f.toNat - 1)) ∧
        ∀ j, seen'.toNat.testBit j → seen.toNat.testBit j ∨ ∃ f ∈ trackedIds ts, j = f.toNat - 1
  | [], seen, seen', msg, msg', h => by
    obtain ⟨rfl, rfl⟩ := Prod.mk.inj (Except.ok.inj h)
    simp [trackedIds]
  | t :: ts, seen, seen', msg, msg', h => by
    simp only [handleTlvs] at h
    split at h
    · cases h
    · next st hstep =>
      obtain ⟨seen₁, msg₁⟩ := st
      obtain ⟨htr, hun, hval⟩ := decodeField_eq_ok env hstep
      obtain ⟨hshapes, hnodup, hfresh, hbits⟩ := handleTlvs_decodeField_eq_ok env h
      have hshapes' : ∀ t' ∈ t :: ts, ShapeOk t' := by
        intro t' ht'
        rcases List.mem_cons.mp ht' with rfl | ht'
        · exact decodeFieldValue_shapeOk env hval
        · exact hshapes t' ht'
      by_cases ht : 1 ≤ t.field ∧ t.field ≤ 31
      · obtain ⟨hnew, hset⟩ := htr ht
        have htrack : trackedIds (t :: ts) = t.field :: trackedIds ts := by
          simp [trackedIds, ht]
        rw [htrack]
        refine ⟨hshapes', List.nodup_cons.mpr ⟨fun hmem => ?_, hnodup⟩, ?_, ?_⟩
        · -- the id is in the mask from now on, so the rest of the run cannot meet it again
          exact hfresh _ hmem ((hset _).mpr (.inr rfl))
        · intro f hf
          rcases List.mem_cons.mp hf with rfl | hf
          · exact hnew
          · exact fun hs => hfresh f hf ((hset _).mpr (.inl hs))
        · intro j hj
          rcases hbits j hj with hj | ⟨f, hf, rfl⟩
          · rcases (hset j).mp hj with hj | rfl
            · exact .inl hj
            · exact .inr ⟨t.field, List.mem_cons_self, rfl⟩
          · exact .inr ⟨f, List.mem_cons_of_mem _ hf, rfl⟩
      · have htrack : trackedIds (t :: ts) = trackedIds ts := by
          simp [trackedIds, ht]
        rw [htrack]
        rw [hun ht] at hfresh hbits
        exact ⟨hshapes', hnodup, hfresh, hbits⟩

/-- Every id of a record in a stream that the mask tracks is the id of one of its records. -/
theorem mem_map_field_of_mem_trackedIds {ts : List Tlv} {f : UInt16} (h : f ∈ trackedIds ts) :
    f ∈ ts.map (·.field) :=
  (List.mem_filter.mp h).1

/-- What the decoder accepts is a well-formed record stream: a repeated id in 1..31, a known
field of the wrong type or width, an unknown critical field, a payload running past the end and
a stream lacking the raw message or the MSG offset are all rejected. -/
theorem segdiskCodecDecode_eq_ok (env : MsgEnv σ J ρ) {buf : ℕ → UInt8} {len : ℕ}
    {msg : Smsg σ J ρ} (h : segdiskCodecDecode env buf len = .ok msg) :
    ∃ ts, getBytes buf 0 len = encodeTlvs ts ∧ WellFormedRecords ts := by
  unfold segdiskCodecDecode at h
  obtain ⟨⟨seen, m⟩, hread, hfin⟩ := Except.eq_ok_of_bind_eq_ok h
  obtain ⟨ts, hbytes, hpay, hrun⟩ :=
    exists_encodeTlvs_of_tlvRead_eq_ok (decodeField_local env) (by omega) hread
  obtain ⟨hshapes, hnodup, -, hbits⟩ := handleTlvs_decodeField_eq_ok env hrun
  -- the final check: the mask holds the bits of `F_RAWMSG` and `F_MSG_OFFSET`
  have hreq : seen &&& requiredFields = requiredFields := by
    by_contra hc
    simp [hc] at hfin
  rw [and_eq_self_iff] at hreq
  have hmem : ∀ f : TlvField, requiredFields.toNat.testBit (f.id.toNat - 1) →
      f.id ∈ ts.map (·.field) := by
    intro f hf
    rcases hbits _ (hreq _ hf) with h0 | ⟨g, hg, hj⟩
    · simp at h0
    · have hg1 : 1 ≤ g.toNat := by
        have := (List.mem_filter.mp hg).2
        simp only [decide_eq_true_eq] at this
        simpa [UInt16.le_iff_toNat_le] using this.1
      have hf1 := (TlvField.id_range f).1
      have hgf : g = f.id := UInt16.toNat_inj.mp (by omega)
      exact hgf ▸ mem_map_field_of_mem_trackedIds hg
  exact ⟨ts, by simpa using hbytes, ⟨hpay, hshapes, hnodup, hmem .rawmsg (by decide),
    hmem .msgOffset (by decide)⟩⟩

end Rsyslog.Segdisk
