import Rsyslog.Common.Tlv
import Rsyslog.Runtime.Msg

/-!
# The queue record codec

`runtime/segdisk_codec.c` turns a message into the payload of a queue record and back. The
payload is a stream of TLV records (`Rsyslog.Common.Tlv`), one per stored field, in a fixed
order. The encoder appends them with `add_tlv`, which refuses to let the buffer grow past
`TLV_MAX_PAYLOAD`; reading the TAG and the sender's name on the way may store an emulated TAG
and a resolved name in the message. The decoder builds a fresh message, walks the stream with
the reader of the TLV library, remembers the ids 1 to 31 it has met in a 32-bit mask to reject
repeats, checks each known field's type and width before calling its setter, refuses unknown
fields that carry the critical flag, and at the end demands the raw message and the MSG offset.

Each `add_*` helper is modelled by the records it appends: one, or none for a `NULL` string.
A run of `ADD(..)` lines between two getter calls is `addAll` over those records.
-/

namespace Rsyslog.Segdisk

open Rsyslog.Common

variable {σ J ρ : Type}

/-- `enum tlv_type`. -/
inductive TlvType where
  | u8 | u16 | u32 | u64 | bytes | time
  deriving DecidableEq, Repr

/-- The byte that names a TLV type. -/
def TlvType.code : TlvType → UInt8
  | .u8 => 1
  | .u16 => 2
  | .u32 => 3
  | .u64 => 4
  | .bytes => 5
  | .time => 6

/-- `enum tlv_field`. -/
inductive TlvField where
  | protocol | severity | facility | flags | gentime | received | timestamp | tag | rawmsg
  | hostname | inputname | rcvfrom | rcvfromip | rcvfromport | structuredData | json
  | localvars | appname | procid | msgid | uuid | ruleset | msgOffset | afterPriOffset
  | parseSuccess
  deriving DecidableEq, Repr

/-- The id of a field, `F_PROTOCOL = 1` to `F_PARSE_SUCCESS = 25`. -/
def TlvField.id : TlvField → UInt16
  | .protocol => 1
  | .severity => 2
  | .facility => 3
  | .flags => 4
  | .gentime => 5
  | .received => 6
  | .timestamp => 7
  | .tag => 8
  | .rawmsg => 9
  | .hostname => 10
  | .inputname => 11
  | .rcvfrom => 12
  | .rcvfromip => 13
  | .rcvfromport => 14
  | .structuredData => 15
  | .json => 16
  | .localvars => 17
  | .appname => 18
  | .procid => 19
  | .msgid => 20
  | .uuid => 21
  | .ruleset => 22
  | .msgOffset => 23
  | .afterPriOffset => 24
  | .parseSuccess => 25

/-- The field an id names: the `case` of the decoder's `switch (field)` it selects, if any. -/
def TlvField.ofId (field : UInt16) : Option TlvField :=
  match field.toNat with
  | 1 => some .protocol
  | 2 => some .severity
  | 3 => some .facility
  | 4 => some .flags
  | 5 => some .gentime
  | 6 => some .received
  | 7 => some .timestamp
  | 8 => some .tag
  | 9 => some .rawmsg
  | 10 => some .hostname
  | 11 => some .inputname
  | 12 => some .rcvfrom
  | 13 => some .rcvfromip
  | 14 => some .rcvfromport
  | 15 => some .structuredData
  | 16 => some .json
  | 17 => some .localvars
  | 18 => some .appname
  | 19 => some .procid
  | 20 => some .msgid
  | 21 => some .uuid
  | 22 => some .ruleset
  | 23 => some .msgOffset
  | 24 => some .afterPriOffset
  | 25 => some .parseSuccess
  | _ => none

@[simp] theorem TlvField.ofId_id (f : TlvField) : TlvField.ofId f.id = some f := by
  cases f <;> rfl

/-- An id the switch knows is the id of its field. -/
theorem TlvField.id_of_ofId {field : UInt16} {f : TlvField} (h : TlvField.ofId field = some f) :
    f.id = field := by
  apply UInt16.toNat_inj.mp
  unfold TlvField.ofId at h
  split at h <;> cases h <;> simp_all [TlvField.id]

/-- Every field id lies in 1..25. -/
theorem TlvField.id_range (f : TlvField) : 1 ≤ f.id.toNat ∧ f.id.toNat ≤ 25 := by
  cases f <;> decide

/-- Distinct fields have distinct ids. -/
theorem TlvField.id_injective : Function.Injective TlvField.id := by
  intro f g h
  have := TlvField.ofId_id f
  rwa [h, TlvField.ofId_id, Option.some.injEq, eq_comm] at this

/-- `TLV_MAX_PAYLOAD`. -/
def tlvMaxPayload : ℕ := 128 * 1024 * 1024

/-- `TLV_CRITICAL`. -/
def tlvCritical : UInt8 := 0x01

/-! ## Encoder -/

/-- The record `add_tlv(b, field, type, 0, data, len)` appends. -/
def tlvRecord (field : TlvField) (type : TlvType) (data : List UInt8) : Tlv :=
  ⟨field.id, type.code, 0, data⟩

/-- `reserve`: room for `add` more bytes, up to `TLV_MAX_PAYLOAD` in all. -/
def reserve (b : List UInt8) (add : ℕ) : RsRetVal :=
  if add > tlvMaxPayload ∨ b.length > tlvMaxPayload - add then .fileTooLarge else .ok

/-- `add_tlv`: append a record, refusing a payload whose length does not fit 32 bits and a
buffer that would grow past `TLV_MAX_PAYLOAD`. -/
def addTlv (b : List UInt8) (t : Tlv) : Except RsRetVal (List UInt8) :=
  if t.payload.length > 2 ^ 32 - 1 then .error .fileTooLarge
  else
    match reserve b (tlvHdrLen + t.payload.length) with
    | .ok => .ok (b ++ t.encode)
    | r => .error r

/-- A run of `ADD(..)` lines: append records in order, stopping at the first failure. -/
def addAll (b : List UInt8) : List Tlv → Except RsRetVal (List UInt8)
  | [] => .ok b
  | t :: ts =>
    match addTlv b t with
    | .error r => .error r
    | .ok b => addAll b ts

/-- The record `add_u8` appends. -/
def addU8 (f : TlvField) (v : UInt8) : List Tlv :=
  [tlvRecord f .u8 [v]]

/-- The record `add_u16` appends. -/
def addU16 (f : TlvField) (v : UInt16) : List Tlv :=
  [tlvRecord f .u16 (be16 v)]

/-- The record `add_u32` appends. -/
def addU32 (f : TlvField) (v : UInt32) : List Tlv :=
  [tlvRecord f .u32 (be32 v)]

/-- The record `add_u64` appends. -/
def addU64 (f : TlvField) (v : UInt64) : List Tlv :=
  [tlvRecord f .u64 (be64 v)]

/-- The records `add_bytes` appends: none for a `NULL` pointer. -/
def addBytes (f : TlvField) (p : Option (List UInt8)) : List Tlv :=
  p.toList.map (tlvRecord f .bytes)

/-- The 20 bytes `add_time` writes from its zeroed array `d`: twelve one-byte fields, the year,
the fraction, and two bytes left zero. -/
def timeBytes (t : SyslogTime) : List UInt8 :=
  [t.timeType, t.month, t.day, t.wday, t.hour, t.minute, t.second, t.secfracPrecision,
    t.OffsetMinute, t.OffsetHour, t.OffsetMode, t.inUTC] ++ be16 t.year.toUInt16 ++
    be32 t.secfrac.toUInt32 ++ [0, 0]

/-- The record `add_time` appends. -/
def addTime (f : TlvField) (t : SyslogTime) : List Tlv :=
  [tlvRecord f .time (timeBytes t)]

/-- The records `add_json` appends: the tree's plain JSON text as a C string. -/
def addJson (env : MsgEnv σ J ρ) (f : TlvField) (json : Option J) : List Tlv :=
  addBytes f (json.map fun j => cString (env.jsonToString j))

/-- The records `add_cstr` appends. -/
def addCstr (f : TlvField) (text : Option (List UInt8)) : List Tlv :=
  addBytes f text

/-- The records of the `ADD(..)` lines before `getTAG`: the fixed-width fields. -/
def fixedRecords (msg : Smsg σ J ρ) : List Tlv :=
  addU16 .protocol msg.iProtocolVersion.toUInt16 ++ addU16 .severity msg.iSeverity ++
    addU16 .facility msg.iFacility ++ addU32 .flags msg.msgFlags.toUInt32 ++
    addU64 .gentime msg.ttGenTime.toUInt64 ++ addTime .received msg.tRcvdAt ++
    addTime .timestamp msg.tTIMESTAMP

/-- The records of the `ADD(..)` lines from the TAG to the input name. -/
def textRecords (tag : List UInt8) (msg : Smsg σ J ρ) : List Tlv :=
  addBytes .tag (some tag) ++ addBytes .rawmsg (some (getRawMsg msg)) ++
    addBytes .hostname msg.pszHOSTNAME ++ addBytes .inputname (some (getInputName msg))

/-- The records of the `ADD(..)` lines from the sender's port to the end. -/
def trailingRecords (env : MsgEnv σ J ρ) (port : List UInt8) (msg : Smsg σ J ρ) : List Tlv :=
  addBytes .rcvfromport (some (cString port)) ++ addBytes .structuredData msg.pszStrucData ++
    addJson env .json msg.json ++ addJson env .localvars msg.localvars ++
    addCstr .appname msg.pCSAPPNAME ++ addCstr .procid msg.pCSPROCID ++
    addCstr .msgid msg.pCSMSGID ++ addBytes .uuid (msg.pszUUID.map cString) ++
    addBytes .ruleset (msg.pRuleset.map fun rs => cString (env.rulesetGetName rs)) ++
    addU32 .msgOffset msg.offMSG.toUInt32 ++ addU32 .afterPriOffset msg.offAfterPRI.toUInt32 ++
    addU8 .parseSuccess msg.bParseSuccess.toUInt8

/-- `segdiskCodecEncode`: the encoded bytes or the first error, and the message, in which
`getTAG` may have stored an emulated TAG and `getRcvFrom` a resolved sender. -/
def segdiskCodecEncode (env : MsgEnv σ J ρ) (msg : Smsg σ J ρ) :
    Except RsRetVal (List UInt8) × Smsg σ J ρ :=
  match addAll [] (fixedRecords msg) with
  | .error r => (.error r, msg)
  | .ok b =>
    let (tag, msg) := getTAG msg
    match addAll b (textRecords tag msg) with
    | .error r => (.error r, msg)
    | .ok b =>
      let (text, msg) := getRcvFrom env msg
      match addAll b (addBytes .rcvfrom (some (cString text))) with
      | .error r => (.error r, msg)
      | .ok b =>
        let (text, msg) := getRcvFromIP env msg
        match addAll b (addBytes .rcvfromip (some (cString text))) with
        | .error r => (.error r, msg)
        | .ok b =>
          let (text, msg) := getRcvFromPort env msg
          (addAll b (trailingRecords env text msg), msg)

/-! ## Decoder -/

/-- `decode_time`. -/
def decodeTime (p : ℕ → UInt8) (len : ℕ) : Except RsRetVal SyslogTime :=
  if len ≠ 20 then .error .invalidValue
  else
    .ok { timeType := p 0, month := p 1, day := p 2, wday := p 3, hour := p 4,
          minute := p 5, second := p 6, secfracPrecision := p 7, OffsetMinute := p 8,
          OffsetHour := p 9, OffsetMode := p 10, inUTC := p 11, year := (get16 p 12).toInt16,
          secfrac := (get32 p 14).toInt32 }

/-- `NEED(t, nbytes)`: the record has type `t` and a payload of `nbytes` bytes. -/
def need (type : UInt8) (n : ℕ) (t : TlvType) (nbytes : ℕ) : Except RsRetVal Unit :=
  if type ≠ t.code ∨ n ≠ nbytes then .error .invalidValue else .ok ()

/-- `NEED_TYPE(t)`: the record has type `t`. -/
def needType (type : UInt8) (t : TlvType) : Except RsRetVal Unit :=
  if type ≠ t.code then .error .invalidValue else .ok ()

/-- `dup_text`: a NUL-terminated copy of the payload, read as the C string it holds. -/
def dupText (p : ℕ → UInt8) (n : ℕ) : List UInt8 :=
  cString (getBytes p 0 n)

/-- The arm of the decoder's `switch (field)` that a record selects. -/
def decodeFieldValue (env : MsgEnv σ J ρ) (field : UInt16) (type flags : UInt8)
    (p : ℕ → UInt8) (n : ℕ) (msg : Smsg σ J ρ) : Except RsRetVal (Smsg σ J ρ) :=
  match TlvField.ofId field with
  | some .protocol => do
    need type n .u16 2
    pure (setProtocolVersion msg (get16 p 0).toNat)
  | some .severity => do
    need type n .u16 2
    pure { msg with iSeverity := get16 p 0 }
  | some .facility => do
    need type n .u16 2
    pure { msg with iFacility := get16 p 0 }
  | some .flags => do
    need type n .u32 4
    pure { msg with msgFlags := (get32 p 0).toInt32 }
  | some .gentime => do
    need type n .u64 8
    pure { msg with ttGenTime := (get64 p 0).toInt64 }
  | some .received => do
    need type n .time 20
    let t ← decodeTime p n
    pure { msg with tRcvdAt := t }
  | some .timestamp => do
    need type n .time 20
    let t ← decodeTime p n
    pure { msg with tTIMESTAMP := t }
  | some .tag => do
    needType type .bytes
    pure (msgSetTAG msg (getBytes p 0 n))
  | some .rawmsg => do
    needType type .bytes
    pure (msgSetRawMsg msg (getBytes p 0 n))
  | some .hostname => do
    needType type .bytes
    pure (msgSetHOSTNAME msg (getBytes p 0 n))
  | some .inputname => do
    needType type .bytes
    pure (msgSetInputNameStr msg (getBytes p 0 n))
  | some .rcvfrom => do
    needType type .bytes
    pure (msgSetRcvFromText msg (getBytes p 0 n))
  | some .rcvfromip => do
    needType type .bytes
    pure (msgSetRcvFromIPText msg (getBytes p 0 n))
  | some .rcvfromport => do
    needType type .bytes
    pure (msgSetRcvFromPortText msg (getBytes p 0 n))
  | some .structuredData => do
    needType type .bytes
    pure (msgSetStructuredData msg (dupText p n))
  | some .json => do
    needType type .bytes
    match env.jsonTokenerParse (dupText p n) with
    | none => throw .invalidValue
    | some j => pure { msg with json := some j }
  | some .localvars => do
    needType type .bytes
    match env.jsonTokenerParse (dupText p n) with
    | none => throw .invalidValue
    | some j => pure { msg with localvars := some j }
  | some .appname => do
    needType type .bytes
    pure (msgSetAPPNAME msg (dupText p n))
  | some .procid => do
    needType type .bytes
    pure (msgSetPROCID msg (dupText p n))
  | some .msgid => do
    needType type .bytes
    pure (msgSetMSGID msg (dupText p n))
  | some .uuid => do
    needType type .bytes
    pure { msg with pszUUID := some (dupText p n) }
  | some .ruleset => do
    needType type .bytes
    -- a ruleset that no longer exists leaves the message on the default ruleset
    let (r, msg) := msgSetRulesetByName env msg (dupText p n)
    if r ≠ .ok ∧ r ≠ .notFound then throw r else pure msg
  | some .msgOffset => do
    need type n .u32 4
    pure (msgSetMSGoffs msg (get32 p 0).toInt32)
  | some .afterPriOffset => do
    need type n .u32 4
    let (r, msg) := msgSetAfterPRIOffs msg (get32 p 0).toInt32
    if r ≠ .ok then throw r else pure msg
  | some .parseSuccess => do
    need type n .u8 1
    pure (msgSetParseSuccess msg (Int32.ofNat (p 0).toNat))
  | none => if flags &&& tlvCritical ≠ 0 then throw .invalidValue else pure msg

/-- `1u << (field - 1)`: the bit of the `seen` mask that stands for an id in 1..31. -/
def fieldBit (field : UInt16) : UInt32 :=
  1 <<< (field.toUInt32 - 1)

/-- The body of the decoder's loop after the header checks: the repeat check for ids 1..31,
then the switch. -/
def decodeField (env : MsgEnv σ J ρ) (field : UInt16) (type flags : UInt8) (p : ℕ → UInt8)
    (n : ℕ) : UInt32 × Smsg σ J ρ → Except RsRetVal (UInt32 × Smsg σ J ρ)
  | (seen, msg) =>
    if (1 ≤ field ∧ field ≤ 31) ∧ seen &&& fieldBit field ≠ 0 then .error .invalidValue
    else
      let seen := if 1 ≤ field ∧ field ≤ 31 then seen ||| fieldBit field else seen
      match decodeFieldValue env field type flags p n msg with
      | .error r => .error r
      | .ok msg => .ok (seen, msg)

/-- The bits of `F_RAWMSG` and `F_MSG_OFFSET`, which every record must carry. -/
def requiredFields : UInt32 :=
  fieldBit TlvField.rawmsg.id ||| fieldBit TlvField.msgOffset.id

/-- `segdiskCodecDecode` on the `len` bytes of `buf`. Its `while (pos < len)` loop is the TLV
reader with `len` iterations, which `tlvRead_fuel` shows to be enough. -/
def segdiskCodecDecode (env : MsgEnv σ J ρ) (buf : ℕ → UInt8) (len : ℕ) :
    Except RsRetVal (Smsg σ J ρ) := do
  let (seen, msg) ←
    tlvRead tlvMaxPayload .invalidValue (decodeField env) buf len len 0 (0, msgBaseConstruct)
  if seen &&& requiredFields ≠ requiredFields then throw .invalidValue else pure msg

end Rsyslog.Segdisk
