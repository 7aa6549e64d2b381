import Rsyslog.Segdisk.CodecSafety

/-!
# The queue record codec's round trip

What `segdiskCodecDecode` makes of the bytes `segdiskCodecEncode` wrote. The encoder's output is
the stream of `encodedRecords`: the fixed-width fields of the message, then the TAG, the raw
message, the hostname and the input name of the message as `getTAG` leaves it, then the sender,
its IP and its port and the remaining fields of the message as the first sender getter leaves it
(`queuedMsg`). The TLV reader hands these records to the loop body one by one, the seen mask
only collects their ids since no id is written twice, and each arm of the switch reads back the
value its `add_*` helper wrote: one read-back lemma per group of `ADD(..)` lines.

The decoder does not rebuild the message itself but `queuedImage`: the setters it calls store
a protocol version other than `0` and `1` as `0`, read text fields as C strings, store an empty
APP-NAME as `"-"`, recompute the MSG length from the offset, look the ruleset up again by name,
and end a pending DNS resolution by storing the sender's name. `MsgSetAfterPRIOffs` refuses an
offset outside the raw message, which the encoder stores as it is
(`segdiskCodecDecode_afterPriPastEnd`); `RoundTripDomain` excludes it, with JSON trees that do
not read back from their text.
-/

namespace Rsyslog.Segdisk

open Rsyslog.Common

variable {σ J ρ : Type}

/-! ## The encoder -/

/-- `add_tlv` appends the record exactly when the buffer stays within `TLV_MAX_PAYLOAD`. -/
theorem addTlv_eq (b : List UInt8) (t : Tlv) :
    addTlv b t = if b.length + t.encode.length ≤ tlvMaxPayload then .ok (b ++ t.encode)
      else .error .fileTooLarge := by
  have hlen : t.encode.length = tlvHdrLen + t.payload.length := Tlv.encode_length t
  unfold addTlv reserve
  by_cases h : b.length + t.encode.length ≤ tlvMaxPayload
  · have h1 : ¬ t.payload.length > 2 ^ 32 - 1 := by
      simp only [tlvMaxPayload, tlvHdrLen] at h hlen; omega
    have h2 : ¬ (tlvHdrLen + t.payload.length > tlvMaxPayload ∨
        b.length > tlvMaxPayload - (tlvHdrLen + t.payload.length)) := by omega
    simp only [h, h1, h2, if_true, if_false]
  · rw [if_neg h]
    split_ifs with h1 h2
    · rfl
    · rfl
    · exfalso; omega

/-- A run of `ADD(..)` lines appends all its records, or fails with `RS_RET_FILE_TOO_LARGE`
if they do not fit. -/
theorem addAll_eq {b : List UInt8} (hb : b.length ≤ tlvMaxPayload) (ts : List Tlv) :
    addAll b ts = if b.length + (encodeTlvs ts).length ≤ tlvMaxPayload then
      .ok (b ++ encodeTlvs ts) else .error .fileTooLarge := by
  induction ts generalizing b with
  | nil => simp [addAll, hb]
  | cons t ts ih =>
    rw [addAll, addTlv_eq]
    by_cases ht : b.length + t.encode.length ≤ tlvMaxPayload
    · have hb' : (b ++ t.encode).length ≤ tlvMaxPayload := by simpa using ht
      simp only [ht, if_true, ih hb', List.length_append, encodeTlvs_cons, List.append_assoc,
        Nat.add_assoc]
    · have : ¬ b.length + (encodeTlvs (t :: ts)).length ≤ tlvMaxPayload := by
        simp only [encodeTlvs_cons, List.length_append]; omega
      simp only [ht, this, if_false]

/-- A run of `ADD(..)` lines that succeeds appended its records. -/
theorem addAll_eq_ok {b b' : List UInt8} {ts : List Tlv} (hb : b.length ≤ tlvMaxPayload)
    (h : addAll b ts = .ok b') : b' = b ++ encodeTlvs ts ∧ b'.length ≤ tlvMaxPayload := by
  rw [addAll_eq hb] at h
  split_ifs at h with hlen
  cases h
  exact ⟨rfl, by simpa using hlen⟩

variable (env : MsgEnv σ J ρ)

/-- The message as the encoder leaves it: with the TAG `getTAG` answered and the sender
resolved by the first of the sender getters. -/
def queuedMsg (m : Smsg σ J ρ) : Smsg σ J ρ :=
  resolveDNS env (getTAG m).2

/-- The records the encoder writes for a message, in order. -/
def encodedRecords (m : Smsg σ J ρ) : List Tlv :=
  let q := queuedMsg env m
  fixedRecords m ++ textRecords (getTAG m).1 (getTAG m).2 ++
    addBytes .rcvfrom (some (cString q.rcvFrom.text)) ++
    addBytes .rcvfromip (some (cString (q.pRcvFromIP.getD []))) ++
    trailingRecords env (q.pRcvFromPort.getD []) q

/-- An encoding that succeeds is the stream of `encodedRecords`, within `TLV_MAX_PAYLOAD`, and
leaves the message queued. -/
theorem segdiskCodecEncode_eq_ok {m : Smsg σ J ρ} {bytes : List UInt8}
    (h : (segdiskCodecEncode env m).1 = .ok bytes) :
    bytes = encodeTlvs (encodedRecords env m) ∧ bytes.length ≤ tlvMaxPayload ∧
      (segdiskCodecEncode env m).2 = queuedMsg env m := by
  unfold segdiskCodecEncode at h ⊢
  simp only [getRcvFrom, getRcvFromIP, getRcvFromPort, resolveDNS_idem] at h ⊢
  -- every stage succeeded, each appending its records
  split at h
  · cases h
  next b₁ h₁ =>
  obtain ⟨rfl, hl₁⟩ := addAll_eq_ok (by simp) h₁
  split at h
  · cases h
  next b₂ h₂ =>
  obtain ⟨rfl, hl₂⟩ := addAll_eq_ok hl₁ h₂
  split at h
  · cases h
  next b₃ h₃ =>
  obtain ⟨rfl, hl₃⟩ := addAll_eq_ok hl₂ h₃
  split at h
  · cases h
  next b₄ h₄ =>
  obtain ⟨rfl, hl₄⟩ := addAll_eq_ok hl₃ h₄
  obtain ⟨rfl, hl₅⟩ := addAll_eq_ok hl₄ h
  refine ⟨?_, hl₅, rfl⟩
  simp [encodedRecords, queuedMsg, encodeTlvs_append]

/-! ## The ids the encoder writes -/

/-- The records an `add_*` helper appends carry its field's id, once at most. -/
theorem addBytes_fields_sublist (f : TlvField) (o : Option (List UInt8)) :
    ((addBytes f o).map (·.field)).Sublist [f.id] := by
  cases o <;> simp [addBytes, tlvRecord]

/-- A group of records with one field's id, before the ids that follow it. -/
theorem sublist_cons_of_fields {rs : List Tlv} {f : TlvField} {l l' : List UInt16}
    (hf : (rs.map (·.field)).Sublist [f.id]) (h : l.Sublist l') :
    (rs.map (·.field) ++ l).Sublist (f.id :: l') :=
  hf.append h

/-- The fields in the order the encoder writes them. -/
def encoderFields : List TlvField :=
  [.protocol, .severity, .facility, .flags, .gentime, .received, .timestamp, .tag, .rawmsg,
    .hostname, .inputname, .rcvfrom, .rcvfromip, .rcvfromport, .structuredData, .json, .localvars,
    .appname, .procid, .msgid, .uuid, .ruleset, .msgOffset, .afterPriOffset, .parseSuccess]

/-- The encoder writes the ids in increasing order, each at most once. -/
theorem encodedRecords_fields_sublist (m : Smsg σ J ρ) :
    ((encodedRecords env m).map (·.field)).Sublist (encoderFields.map TlvField.id) := by
  simp only [encodedRecords, fixedRecords, textRecords, trailingRecords, addJson, addCstr,
    List.map_append, List.append_assoc, encoderFields, List.map_cons, List.map_nil]
  -- one step per record, in the order they are written
  repeat refine sublist_cons_of_fields (by first
    | exact addBytes_fields_sublist _ _
    | simp [addU16, addU32, addU64, addTime, tlvRecord]) ?_
  simp [addU8, tlvRecord]

/-- The encoder writes no id twice. -/
theorem trackedIds_encodedRecords_nodup (m : Smsg σ J ρ) :
    (trackedIds (encodedRecords env m)).Nodup := by
  have hsub : (trackedIds (encodedRecords env m)).Sublist (encoderFields.map TlvField.id) :=
    ((encodedRecords_fields_sublist env m).filter _).trans List.filter_sublist
  exact hsub.nodup (by decide)

/-- The id of a record in 1..31 is tracked. -/
theorem mem_trackedIds_of_mem {t : Tlv} {ts : List Tlv} (h : t ∈ ts)
    (ht : 1 ≤ t.field ∧ t.field ≤ 31) : t.field ∈ trackedIds ts :=
  List.mem_filter.mpr ⟨List.mem_map_of_mem h, by simpa using ht⟩

/-- The encoder always writes the raw message and the MSG offset. -/
theorem required_mem_trackedIds (m : Smsg σ J ρ) :
    TlvField.rawmsg.id ∈ trackedIds (encodedRecords env m) ∧
      TlvField.msgOffset.id ∈ trackedIds (encodedRecords env m) := by
  constructor
  · refine mem_trackedIds_of_mem (t := tlvRecord .rawmsg .bytes (getRawMsg (getTAG m).2)) ?_
      (show 1 ≤ TlvField.rawmsg.id ∧ TlvField.rawmsg.id ≤ 31 by decide)
    simp [encodedRecords, textRecords, addBytes]
  · refine mem_trackedIds_of_mem
      (t := tlvRecord .msgOffset .u32 (be32 (queuedMsg env m).offMSG.toUInt32)) ?_
      (show 1 ≤ TlvField.msgOffset.id ∧ TlvField.msgOffset.id ≤ 31 by decide)
    simp [encodedRecords, trailingRecords, addU32]

/-! ## The seen mask over fresh ids -/

/-- The mask after one iteration: an id in 1..31 adds its bit. -/
def seenStep (seen : UInt32) (field : UInt16) : UInt32 :=
  if 1 ≤ field ∧ field ≤ 31 then seen ||| fieldBit field else seen

/-- The mask after a run of records. -/
def seenAfter (seen : UInt32) (ts : List Tlv) : UInt32 :=
  ts.foldl (fun s t => seenStep s t.field) seen

/-- The bit of a tracked id is one of the mask's 32. -/
theorem fieldBit_lt {field : UInt16} (h : 1 ≤ field ∧ field ≤ 31) : field.toNat - 1 < 32 := by
  have := UInt16.le_iff_toNat_le.mp h.2
  simp at this
  omega

/-- One iteration adds the bit of a tracked id to the mask and nothing else. -/
theorem testBit_seenStep (seen : UInt32) (field : UInt16) (j : ℕ) :
    (seenStep seen field).toNat.testBit j ↔
      seen.toNat.testBit j ∨ ((1 ≤ field ∧ field ≤ 31) ∧ j = field.toNat - 1) := by
  unfold seenStep
  split_ifs with h
  · rw [fieldBit_eq h.1, testBit_or_one_shiftLeft _ (fieldBit_lt h)]
    simp [h]
  · simp [h]

/-- An iteration on an id not yet in the mask runs the switch and records the id. -/
theorem decodeField_of_fresh {field : UInt16} {type flags : UInt8} {p : ℕ → UInt8} {n : ℕ}
    {seen : UInt32} (msg : Smsg σ J ρ)
    (h : (1 ≤ field ∧ field ≤ 31) → ¬ seen.toNat.testBit (field.toNat - 1)) :
    decodeField env field type flags p n (seen, msg) =
      (decodeFieldValue env field type flags p n msg).map fun m => (seenStep seen field, m) := by
  have hrep : ¬ ((1 ≤ field ∧ field ≤ 31) ∧ seen &&& fieldBit field ≠ 0) := by
    rintro ⟨ht, hset⟩
    rw [fieldBit_eq ht.1, and_one_shiftLeft_ne_zero_iff _ (fieldBit_lt ht)] at hset
    exact h ht hset
  rw [decodeField, if_neg hrep]
  cases decodeFieldValue env field type flags p n msg <;> rfl

/-- Over records whose tracked ids are distinct and not yet in the mask, the loop body is the
switch, with the mask collecting the ids. -/
theorem handleTlvs_decodeField_of_nodup :
    ∀ {ts : List Tlv} {seen : UInt32} (msg : Smsg σ J ρ), (trackedIds ts).Nodup →
      (∀ f ∈ trackedIds ts, ¬ seen.toNat.testBit (f.toNat - 1)) →
      handleTlvs (decodeField env) (seen, msg) ts =
        (handleTlvs (decodeFieldValue env) msg ts).map fun m => (seenAfter seen ts, m)
  | [], _, _, _, _ => rfl
  | t :: ts, seen, msg, hnodup, hfresh => by
    have htrack : trackedIds (t :: ts) =
        if 1 ≤ t.field ∧ t.field ≤ 31 then t.field :: trackedIds ts else trackedIds ts := by
      by_cases ht : 1 ≤ t.field ∧ t.field ≤ 31 <;> simp [trackedIds, ht]
    have hhead : (1 ≤ t.field ∧ t.field ≤ 31) → ¬ seen.toNat.testBit (t.field.toNat - 1) :=
      fun ht => hfresh _ (by rw [htrack, if_pos ht]; exact List.mem_cons_self)
    have hnodup' : (trackedIds ts).Nodup := by
      rw [htrack] at hnodup
      split_ifs at hnodup
      exacts [(List.nodup_cons.mp hnodup).2, hnodup]
    -- the tail's ids stay fresh once the head's is in the mask
    have hfresh' :
        ∀ f ∈ trackedIds ts, ¬ (seenStep seen t.field).toNat.testBit (f.toNat - 1) := by
      intro f hf hbit
      rcases (testBit_seenStep _ _ _).mp hbit with hs | ⟨ht, hj⟩
      · refine hfresh f ?_ hs
        rw [htrack]
        split_ifs
        exacts [List.mem_cons_of_mem _ hf, hf]
      · -- the same bit is the same id, which the tail cannot repeat
        have hf1 : 1 ≤ f.toNat := by
          have := (List.mem_filter.mp hf).2
          simp only [decide_eq_true_eq] at this
          simpa [UInt16.le_iff_toNat_le] using this.1
        have ht1 : 1 ≤ t.field.toNat := by simpa [UInt16.le_iff_toNat_le] using ht.1
        have hft : f = t.field := UInt16.toNat_inj.mp (by omega)
        rw [htrack, if_pos ht] at hnodup
        exact (List.nodup_cons.mp hnodup).1 (hft ▸ hf)
    simp only [handleTlvs, decodeField_of_fresh env msg hhead]
    cases decodeFieldValue env t.field t.type t.flags (bufferOf t.payload) t.payload.length msg with
    | error e => rfl
    | ok m₁ => exact handleTlvs_decodeField_of_nodup m₁ hnodup' hfresh'

/-- A run keeps the bits of the mask and adds those of its tracked ids. -/
theorem testBit_seenAfter {j : ℕ} :
    ∀ {ts : List Tlv} {seen : UInt32},
      (seen.toNat.testBit j ∨ ∃ f ∈ trackedIds ts, j = f.toNat - 1) →
      (seenAfter seen ts).toNat.testBit j
  | [], seen, h => by simpa [trackedIds, seenAfter] using h
  | t :: ts, seen, h => by
    have htrack : trackedIds (t :: ts) =
        if 1 ≤ t.field ∧ t.field ≤ 31 then t.field :: trackedIds ts else trackedIds ts := by
      by_cases ht : 1 ≤ t.field ∧ t.field ≤ 31 <;> simp [trackedIds, ht]
    show (seenAfter (seenStep seen t.field) ts).toNat.testBit j
    apply testBit_seenAfter
    rcases h with hs | ⟨f, hf, rfl⟩
    · exact .inl ((testBit_seenStep _ _ _).mpr (.inl hs))
    · rw [htrack] at hf
      split_ifs at hf with ht
      · rcases List.mem_cons.mp hf with rfl | hf
        · exact .inl ((testBit_seenStep _ _ _).mpr (.inr ⟨ht, rfl⟩))
        · exact .inr ⟨f, hf, rfl⟩
      · exact .inr ⟨f, hf, rfl⟩

/-- A mask holding the raw message's and the MSG offset's ids passes the final check. -/
theorem seenAfter_requiredFields {ts : List Tlv} (hraw : TlvField.rawmsg.id ∈ trackedIds ts)
    (hoff : TlvField.msgOffset.id ∈ trackedIds ts) :
    seenAfter 0 ts &&& requiredFields = requiredFields := by
  rw [and_eq_self_iff]
  intro j hj
  have hreq : requiredFields = 1 <<< UInt32.ofNat 8 ||| 1 <<< UInt32.ofNat 22 := by decide
  rw [hreq, testBit_or_one_shiftLeft _ (by decide), toNat_one_shiftLeft (by decide),
    Nat.testBit_two_pow] at hj
  rcases hj with hj | rfl
  · obtain rfl : j = 8 := by simpa [eq_comm] using hj
    exact testBit_seenAfter (.inr ⟨_, hraw, rfl⟩)
  · exact testBit_seenAfter (.inr ⟨_, hoff, rfl⟩)

/-! ## Reading back one group of records -/

/-- `dup_text` of a payload reads the C string it holds. -/
theorem dupText_bufferOf (d : List UInt8) : dupText (bufferOf d) d.length = cString d := by
  rw [dupText, getBytes_bufferOf]

/-- An optional text record is handed to the loop body if it is there. -/
theorem handleTlvs_addBytes {S E : Type}
    (handle : UInt16 → UInt8 → UInt8 → (ℕ → UInt8) → ℕ → S → Except E S) (s : S) (f : TlvField)
    (o : Option (List UInt8)) :
    handleTlvs handle s (addBytes f o) =
      o.elim (.ok s) fun d => handle f.id TlvType.bytes.code 0 (bufferOf d) d.length s := by
  cases o <;> simp [addBytes, tlvRecord, handleTlvs_singleton]

/-- `decode_time` reads back the 20 bytes `add_time` writes. -/
theorem decodeTime_timeBytes (t : SyslogTime) :
    decodeTime (bufferOf (timeBytes t)) 20 = .ok t := by
  have hyear : get16 (bufferOf (timeBytes t)) 12 = t.year.toUInt16 :=
    get16_eq_of_getBytes (by rw [getBytes_bufferOf_eq (by simp [timeBytes])]; rfl)
  have hfrac : get32 (bufferOf (timeBytes t)) 14 = t.secfrac.toUInt32 :=
    get32_eq_of_getBytes (by rw [getBytes_bufferOf_eq (by simp [timeBytes])]; rfl)
  rw [decodeTime, if_neg (by simp), hyear, hfrac]
  simp [bufferOf, timeBytes]

@[simp] theorem timeBytes_length (t : SyslogTime) : (timeBytes t).length = 20 := rfl

/-- The parse-success byte reads back as the `sbool` it was cast from. -/
theorem ofNat_toUInt8_toNat (b : Int8) : Int8.ofNat b.toUInt8.toNat = b :=
  Int8.toBitVec_inj.1 (by simp)

/-- The fixed-width fields, written before `getTAG`. -/
theorem handleTlvs_fixedRecords (m x : Smsg σ J ρ) :
    handleTlvs (decodeFieldValue env) x (fixedRecords m) =
      .ok { x with
        iProtocolVersion := if m.iProtocolVersion = 1 then 1 else 0
        iSeverity := m.iSeverity
        iFacility := m.iFacility
        msgFlags := m.msgFlags
        ttGenTime := m.ttGenTime
        tRcvdAt := m.tRcvdAt
        tTIMESTAMP := m.tTIMESTAMP } := by
  simp [fixedRecords, addU16, addU32, addU64, addTime, tlvRecord, handleTlvs, decodeFieldValue,
    need, get16_bufferOf_be16, get32_bufferOf_be32, get64_bufferOf_be64, decodeTime_timeBytes,
    setProtocolVersion_toUInt16, bind, Except.bind, pure, Except.pure]

/-- The TAG, the raw message, the hostname if there is one, and the input name. -/
theorem handleTlvs_textRecords (tag : List UInt8) (m x : Smsg σ J ρ) :
    handleTlvs (decodeFieldValue env) x (textRecords tag m) =
      .ok { msgSetRawMsg (msgSetTAG x tag) (getRawMsg m) with
        pszHOSTNAME := m.pszHOSTNAME.or x.pszHOSTNAME
        pInputName := some (getInputName m) } := by
  rw [textRecords, handleTlvs_append, handleTlvs_append, handleTlvs_append]
  cases m.pszHOSTNAME <;>
    simp [handleTlvs_addBytes, decodeFieldValue, needType, bind, Except.bind, pure, Except.pure,
      msgSetHOSTNAME, msgSetInputNameStr, msgSetRawMsg_eq, msgSetTAG]

/-- The sender's name, the IP and the port are stored through their setters. -/
theorem handleTlvs_rcvfrom (d : List UInt8) (x : Smsg σ J ρ) :
    handleTlvs (decodeFieldValue env) x (addBytes .rcvfrom (some d)) =
      .ok (msgSetRcvFromText x d) := by
  simp [handleTlvs_addBytes, decodeFieldValue, needType, bind, Except.bind, pure, Except.pure]

theorem handleTlvs_rcvfromip (d : List UInt8) (x : Smsg σ J ρ) :
    handleTlvs (decodeFieldValue env) x (addBytes .rcvfromip (some d)) =
      .ok (msgSetRcvFromIPText x d) := by
  simp [handleTlvs_addBytes, decodeFieldValue, needType, bind, Except.bind, pure, Except.pure]

theorem handleTlvs_rcvfromport (d : List UInt8) (x : Smsg σ J ρ) :
    handleTlvs (decodeFieldValue env) x (addBytes .rcvfromport (some d)) =
      .ok (msgSetRcvFromPortText x d) := by
  simp [handleTlvs_addBytes, decodeFieldValue, needType, bind, Except.bind, pure, Except.pure]

/-- Each optional text field is stored as the C string it holds, or left as it was. -/
theorem handleTlvs_structuredData (o : Option (List UInt8)) (x : Smsg σ J ρ) :
    handleTlvs (decodeFieldValue env) x (addBytes .structuredData o) =
      .ok { x with pszStrucData := (o.map cString).or x.pszStrucData } := by
  cases o <;> simp [handleTlvs_addBytes, decodeFieldValue, needType, bind, Except.bind, pure,
    Except.pure, dupText_bufferOf, msgSetStructuredData]

/-- A JSON tree that json-c reads back from its text is stored again. -/
theorem handleTlvs_addJson (o : Option J) (x : Smsg σ J ρ)
    (h : ∀ j ∈ o, env.jsonTokenerParse (cString (env.jsonToString j)) = some j) :
    handleTlvs (decodeFieldValue env) x (addJson env .json o) =
      .ok { x with json := o.or x.json } ∧
    handleTlvs (decodeFieldValue env) x (addJson env .localvars o) =
      .ok { x with localvars := o.or x.localvars } := by
  cases o with
  | none => simp [addJson, handleTlvs_addBytes]
  | some j =>
    have hj := h j rfl
    simp [addJson, handleTlvs_addBytes, decodeFieldValue, needType, bind, Except.bind, pure,
      Except.pure, dupText_bufferOf, hj]

theorem handleTlvs_appname (o : Option (List UInt8)) (x : Smsg σ J ρ) :
    handleTlvs (decodeFieldValue env) x (addCstr .appname o) =
      .ok { x with pCSAPPNAME :=
        (o.map fun a => if cString a = [] then nilValue else cString a).or x.pCSAPPNAME } := by
  cases o <;> simp [addCstr, handleTlvs_addBytes, decodeFieldValue, needType, bind, Except.bind,
    pure, Except.pure, dupText_bufferOf, msgSetAPPNAME]

theorem handleTlvs_procid (o : Option (List UInt8)) (x : Smsg σ J ρ) :
    handleTlvs (decodeFieldValue env) x (addCstr .procid o) =
      .ok { x with pCSPROCID := (o.map cString).or x.pCSPROCID } := by
  cases o <;> simp [addCstr, handleTlvs_addBytes, decodeFieldValue, needType, bind, Except.bind,
    pure, Except.pure, dupText_bufferOf, msgSetPROCID]

theorem handleTlvs_msgid (o : Option (List UInt8)) (x : Smsg σ J ρ) :
    handleTlvs (decodeFieldValue env) x (addCstr .msgid o) =
      .ok { x with pCSMSGID := (o.map cString).or x.pCSMSGID } := by
  cases o <;> simp [addCstr, handleTlvs_addBytes, decodeFieldValue, needType, bind, Except.bind,
    pure, Except.pure, dupText_bufferOf, msgSetMSGID]

theorem handleTlvs_uuid (o : Option (List UInt8)) (x : Smsg σ J ρ) :
    handleTlvs (decodeFieldValue env) x (addBytes .uuid (o.map cString)) =
      .ok { x with pszUUID := (o.map cString).or x.pszUUID } := by
  cases o <;> simp [handleTlvs_addBytes, decodeFieldValue, needType, bind, Except.bind,
    pure, Except.pure, dupText_bufferOf]

/-- A ruleset is stored again if one of its name still exists. -/
theorem handleTlvs_ruleset (o : Option ρ) (x : Smsg σ J ρ) :
    handleTlvs (decodeFieldValue env) x
        (addBytes .ruleset (o.map fun rs => cString (env.rulesetGetName rs))) =
      .ok { x with pRuleset := (o.bind fun rs =>
        env.rulesetGetRuleset (cString (env.rulesetGetName rs))).or x.pRuleset } := by
  cases o with
  | none => simp [handleTlvs_addBytes]
  | some rs =>
    simp only [Option.map_some, handleTlvs_addBytes, Option.elim_some, decodeFieldValue,
      TlvField.ofId_id, needType, dupText_bufferOf, cString_cString, msgSetRulesetByName]
    cases h : env.rulesetGetRuleset (cString (env.rulesetGetName rs)) <;>
      simp [h, bind, Except.bind, pure, Except.pure]

/-- The MSG offset, the after-PRI offset inside the raw message, and the parse-success flag. -/
theorem handleTlvs_offsets (m x : Smsg σ J ρ) (h0 : 0 ≤ m.offAfterPRI)
    (hle : m.offAfterPRI ≤ x.iLenRawMsg) :
    handleTlvs (decodeFieldValue env) x
        (addU32 .msgOffset m.offMSG.toUInt32 ++ addU32 .afterPriOffset m.offAfterPRI.toUInt32 ++
          addU8 .parseSuccess m.bParseSuccess.toUInt8) =
      .ok { msgSetMSGoffs x m.offMSG with
        offAfterPRI := m.offAfterPRI
        bParseSuccess := m.bParseSuccess } := by
  -- `MsgSetMSGoffs` keeps the raw message the after-PRI offset is checked against
  have hafter : msgSetAfterPRIOffs (msgSetMSGoffs x m.offMSG) m.offAfterPRI =
      (.ok, { msgSetMSGoffs x m.offMSG with offAfterPRI := m.offAfterPRI }) := by
    refine msgSetAfterPRIOffs_of_le h0 ?_
    unfold msgSetMSGoffs
    split_ifs <;> exact hle
  simp [addU32, addU8, tlvRecord, handleTlvs, decodeFieldValue, need, get32_bufferOf_be32,
    hafter, bind, Except.bind, pure, Except.pure, bufferOf, msgSetParseSuccess, ofNat_toUInt8_toNat]

/-- The records from the sender's port to the end. -/
theorem handleTlvs_trailingRecords (port : List UInt8) (q x : Smsg σ J ρ)
    (h0 : 0 ≤ q.offAfterPRI) (hle : q.offAfterPRI ≤ x.iLenRawMsg)
    (hjson : ∀ j ∈ q.json, env.jsonTokenerParse (cString (env.jsonToString j)) = some j)
    (hlocal : ∀ j ∈ q.localvars, env.jsonTokenerParse (cString (env.jsonToString j)) = some j) :
    handleTlvs (decodeFieldValue env) x (trailingRecords env port q) =
      .ok { msgSetMSGoffs
          { x with
            pRcvFromPort := some (cString port)
            pszStrucData := (q.pszStrucData.map cString).or x.pszStrucData
            json := q.json.or x.json
            localvars := q.localvars.or x.localvars
            pCSAPPNAME :=
              (q.pCSAPPNAME.map fun a => if cString a = [] then nilValue else cString a).or
                x.pCSAPPNAME
            pCSPROCID := (q.pCSPROCID.map cString).or x.pCSPROCID
            pCSMSGID := (q.pCSMSGID.map cString).or x.pCSMSGID
            pszUUID := (q.pszUUID.map cString).or x.pszUUID
            pRuleset := (q.pRuleset.bind fun rs =>
              env.rulesetGetRuleset (cString (env.rulesetGetName rs))).or x.pRuleset }
          q.offMSG with
        offAfterPRI := q.offAfterPRI
        bParseSuccess := q.bParseSuccess } := by
  -- the optional text and JSON records first, then the three offsets
  have hassoc : ∀ l a b c : List Tlv, l ++ a ++ b ++ c = l ++ (a ++ b ++ c) := by simp
  rw [trailingRecords, hassoc, handleTlvs_append]
  conv_lhs =>
    arg 1
    simp only [handleTlvs_append, handleTlvs_rcvfromport, handleTlvs_structuredData,
      (handleTlvs_addJson env _ _ hjson).1, (handleTlvs_addJson env _ _ hlocal).2,
      handleTlvs_appname, handleTlvs_procid, handleTlvs_msgid, handleTlvs_uuid, handleTlvs_ruleset,
      Except.bind, msgSetRcvFromPortText]
  exact handleTlvs_offsets env q _ h0 hle

/-! ## The round trip -/

/-- The domain of the round trip: an after-PRI offset inside the raw message, which
`MsgSetAfterPRIOffs` demands, and JSON trees that json-c reads back from the text it prints. -/
structure RoundTripDomain (m : Smsg σ J ρ) : Prop where
  afterPri_nonneg : 0 ≤ m.offAfterPRI
  afterPri_le : m.offAfterPRI ≤ m.iLenRawMsg
  json : ∀ j ∈ m.json, env.jsonTokenerParse (cString (env.jsonToString j)) = some j
  localvars : ∀ j ∈ m.localvars, env.jsonTokenerParse (cString (env.jsonToString j)) = some j

/-- What the decoder rebuilds from the records of a message `q` as the encoder left it: the
protocol version read back as `0` unless it is `1`; a raw message, an input name, a sender, its
IP and its port always present; the texts read as C strings (cut at their first NUL), an empty
APP-NAME as `"-"`; the ruleset looked up again by name; the MSG length recomputed from the
offset; and the sender stored as a name, which ends a pending resolution. -/
def queuedImage (q : Smsg σ J ρ) : Smsg σ J ρ :=
  msgSetRcvFromText
    { q with
      iProtocolVersion := if q.iProtocolVersion = 1 then 1 else 0
      iLenMSG := if q.offMSG > q.iLenRawMsg then 0 else q.iLenRawMsg - q.offMSG
      pszRawMsg := some (getRawMsg q)
      pInputName := some (getInputName q)
      pRcvFromIP := some (cString (q.pRcvFromIP.getD []))
      pRcvFromPort := some (cString (q.pRcvFromPort.getD []))
      pszStrucData := q.pszStrucData.map cString
      pCSAPPNAME := q.pCSAPPNAME.map fun a => if cString a = [] then nilValue else cString a
      pCSPROCID := q.pCSPROCID.map cString
      pCSMSGID := q.pCSMSGID.map cString
      pszUUID := q.pszUUID.map cString
      pRuleset := q.pRuleset.bind fun rs =>
        env.rulesetGetRuleset (cString (env.rulesetGetName rs)) }
    (cString q.rcvFrom.text)

/-- The switch over the encoder's records, from the decoder's fresh message, builds the queued
image. -/
theorem handleTlvs_encodedRecords {m : Smsg σ J ρ} (hdom : RoundTripDomain env m) :
    handleTlvs (decodeFieldValue env) msgBaseConstruct (encodedRecords env m) =
      .ok (queuedImage env (queuedMsg env m)) := by
  -- the queued message is `m` with its TAG answered and its sender resolved
  obtain ⟨flags, rcvFrom, ip, port, hq⟩ := resolveDNS_eq env (getTAG m).2
  -- storing the sender's name clears a pending flag, before or after the resolution
  have hflags : (if flags &&& needsDnsResol != 0 then flags &&& ~~~needsDnsResol else flags) =
      if m.msgFlags &&& needsDnsResol != 0 then m.msgFlags &&& ~~~needsDnsResol
      else m.msgFlags := by
    have h := msgFlags_msgSetRcvFromWithoutAddRef_resolveDNS env (getTAG m).2 none
    rw [msgFlags_msgSetRcvFromWithoutAddRef, msgFlags_msgSetRcvFromWithoutAddRef, hq,
      getTAG_snd] at h
    simpa [Smsg.dnsResolPending] using h
  have hqm : queuedMsg env m = { m with
      TAG := (getTAG m).1
      msgFlags := flags
      rcvFrom := rcvFrom
      pRcvFromIP := ip
      pRcvFromPort := port } := by
    rw [queuedMsg, hq, getTAG_snd]
  have hjson : ∀ j ∈ (queuedMsg env m).json,
      env.jsonTokenerParse (cString (env.jsonToString j)) = some j := by
    rw [hqm]; exact hdom.json
  have hlocal : ∀ j ∈ (queuedMsg env m).localvars,
      env.jsonTokenerParse (cString (env.jsonToString j)) = some j := by
    rw [hqm]; exact hdom.localvars
  simp only [encodedRecords, handleTlvs_append, handleTlvs_fixedRecords, Except.bind,
    handleTlvs_textRecords, handleTlvs_rcvfrom, handleTlvs_rcvfromip]
  rw [handleTlvs_trailingRecords env _ _ _ ?h0 ?hle hjson hlocal]
  case h0 => rw [hqm]; exact hdom.afterPri_nonneg
  case hle =>
    rw [hqm, getTAG_snd]
    simpa [msgSetRcvFromIPText, msgSetRcvFromText, msgSetRcvFromWithoutAddRef_eq, msgSetRawMsg_eq,
      Smsg.iLenRawMsg, getRawMsg] using hdom.afterPri_le
  congr 1
  rw [hqm, getTAG_snd]
  simp [queuedImage, msgSetMSGoffs_eq, msgSetRcvFromWithoutAddRef_eq, msgSetRcvFromText,
    msgSetRcvFromIPText, msgSetRawMsg_eq, msgSetTAG, msgBaseConstruct, Smsg.dnsResolPending,
    getRawMsg, getInputName, Smsg.iLenRawMsg]
  simpa using hflags.symm

/-- The decoder reads back the encoder's bytes as the queued image. -/
theorem segdiskCodecDecode_encode {m : Smsg σ J ρ} {bytes : List UInt8}
    (hdom : RoundTripDomain env m) (h : (segdiskCodecEncode env m).1 = .ok bytes) :
    segdiskCodecDecode env (bufferOf bytes) bytes.length =
      .ok (queuedImage env (segdiskCodecEncode env m).2) := by
  obtain ⟨rfl, hlen, hq⟩ := segdiskCodecEncode_eq_ok env h
  rw [hq]
  -- the reader hands each record to the loop body
  have hread : tlvRead tlvMaxPayload .invalidValue (decodeField env)
      (bufferOf (encodeTlvs (encodedRecords env m)))
      (0 + (encodeTlvs (encodedRecords env m)).length)
      (encodeTlvs (encodedRecords env m)).length 0 (0, msgBaseConstruct) =
        handleTlvs (decodeField env) (0, msgBaseConstruct) (encodedRecords env m) :=
    tlvRead_encodeTlvs (decodeField_local env) (by decide) (0, msgBaseConstruct)
      (getBytes_bufferOf _) (fun t ht => (payload_length_le_encodeTlvs ht).trans hlen)
      (length_le_encodeTlvs (encodedRecords env m))
  rw [Nat.zero_add] at hread
  -- the ids are distinct, so the mask only collects them
  have hrun : handleTlvs (decodeField env) (0, msgBaseConstruct) (encodedRecords env m) =
      (handleTlvs (decodeFieldValue env) msgBaseConstruct (encodedRecords env m)).map
        fun msg => (seenAfter 0 (encodedRecords env m), msg) :=
    handleTlvs_decodeField_of_nodup env msgBaseConstruct (trackedIds_encodedRecords_nodup env m)
      (fun f _ => by simp)
  obtain ⟨hraw, hoff⟩ := required_mem_trackedIds env m
  unfold segdiskCodecDecode
  rw [hread, hrun, handleTlvs_encodedRecords env hdom]
  simp [seenAfter_requiredFields hraw hoff, Except.map, bind, Except.bind, pure, Except.pure]

/-- A message environment with no names, no JSON and no rulesets. -/
def unitEnv : MsgEnv Unit Unit Unit :=
  ⟨fun _ _ => ([], []), fun _ => 0, fun _ => [], fun _ => none, fun _ => [], fun _ => none⟩

/-- The queue record codec: the decoder reads back what the encoder wrote, as the queued image,
whenever the after-PRI offset lies inside the raw message and the JSON trees read back; and on
every byte string the decoder reads only the bytes below `len`, its loop ends within `len`
iterations, and what it accepts is a well-formed record stream. -/
theorem segdiskCodec_roundTrip (env : MsgEnv σ J ρ) :
    (∀ (m : Smsg σ J ρ) (bytes : List UInt8), RoundTripDomain env m →
      (segdiskCodecEncode env m).1 = .ok bytes →
      segdiskCodecDecode env (bufferOf bytes) bytes.length =
        .ok (queuedImage env (segdiskCodecEncode env m).2)) ∧
    (∀ (buf buf' : ℕ → UInt8) (len : ℕ), (∀ i < len, buf i = buf' i) →
      segdiskCodecDecode env buf len = segdiskCodecDecode env buf' len) ∧
    (∀ (buf : ℕ → UInt8) (len fuel : ℕ), len ≤ fuel →
      tlvRead tlvMaxPayload .invalidValue (decodeField env) buf len fuel 0 (0, msgBaseConstruct) =
        tlvRead tlvMaxPayload .invalidValue (decodeField env) buf len len 0
          (0, msgBaseConstruct)) ∧
    (∀ (buf : ℕ → UInt8) (len : ℕ) (msg : Smsg σ J ρ),
      segdiskCodecDecode env buf len = .ok msg →
      ∃ ts, getBytes buf 0 len = encodeTlvs ts ∧ WellFormedRecords ts) :=
  ⟨fun _ _ hdom h => segdiskCodecDecode_encode env hdom h,
    fun _ _ _ h => segdiskCodecDecode_congr env h,
    fun buf _ _ h => segdiskCodecDecode_loop_fuel env buf h,
    fun _ _ _ h => segdiskCodecDecode_eq_ok env h⟩

set_option maxRecDepth 10000 in
/-- The round trip at a raw message `"x"` with both offsets at `0`. -/
theorem segdiskCodec_roundTrip_unitEnv :
    let m : Smsg Unit Unit Unit := { msgBaseConstruct with pszRawMsg := some [0x78], offMSG := 0 }
    RoundTripDomain unitEnv m ∧ ∃ bytes, (segdiskCodecEncode unitEnv m).1 = .ok bytes ∧
      segdiskCodecDecode unitEnv (bufferOf bytes) bytes.length =
        .ok (queuedImage unitEnv (segdiskCodecEncode unitEnv m).2) := by
  intro m
  have hdom : RoundTripDomain unitEnv m :=
    ⟨by decide, by decide, by simp [m, msgBaseConstruct], by simp [m, msgBaseConstruct]⟩
  refine ⟨hdom, ?_⟩
  cases hb : (segdiskCodecEncode unitEnv m).1 with
  | error e =>
    have : (segdiskCodecEncode unitEnv m).1.isOk = true := by decide +kernel
    simp [hb, Except.isOk, Except.toBool] at this
  | ok b => exact ⟨b, rfl, (segdiskCodec_roundTrip unitEnv).1 m b hdom hb⟩

set_option maxRecDepth 10000 in
/-- A raw message `"x"` with its after-PRI offset at `5`, past its end: the encoder stores the
offset and the decoder's `MsgSetAfterPRIOffs` refuses it, so the round trip fails with
`RS_RET_ERR` for a message whose fields are all in the ranges the encoder stores. -/
theorem segdiskCodecDecode_afterPriPastEnd :
    let m : Smsg Unit Unit Unit :=
      { msgBaseConstruct with pszRawMsg := some [0x78], offAfterPRI := 5 }
    ∃ bytes, (segdiskCodecEncode unitEnv m).1 = .ok bytes ∧
      segdiskCodecDecode unitEnv (bufferOf bytes) bytes.length = .error .err := by
  intro m
  have h : (segdiskCodecEncode unitEnv m).1.toOption.map
      (fun b => segdiskCodecDecode unitEnv (bufferOf b) b.length) = some (.error .err) := by
    decide +kernel
  cases hb : (segdiskCodecEncode unitEnv m).1 with
  | error e => simp [hb, Except.toOption] at h
  | ok b => exact ⟨b, rfl, by simpa [hb, Except.toOption] using h⟩

end Rsyslog.Segdisk
