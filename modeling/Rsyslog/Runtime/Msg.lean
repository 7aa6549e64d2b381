import Rsyslog.Common.ByteBuffer
import Rsyslog.Runtime.Basic

/-!
# Message objects

The part of `smsg_t` (`runtime/msg.h`) that the queue codec stores, with the setters and getters
of `runtime/msg.c` that the codec calls. Signed C integers are held in the Lean type of their
width (`short` as `Int16`, `int` as `Int32`, `time_t` as `Int64`, `sbool` as `Int8`) and C
casts between widths are the conversions between those types; `char` fields, whose signedness
the platform chooses, are held as their byte.

Strings the object keeps with a length (`TAG`, the raw message, the hostname, properties,
`cstr_t`) are byte lists and may hold NUL bytes. A `char *` argument is the C string it points
to, a byte list without NUL; `cString` reads one from a buffer.

Three things the getters and setters consult lie outside the message: the DNS cache, json-c and
the rulesets of the running configuration. `MsgEnv` gives them as functions. Allocation never
fails in this model, and the `assert`s of the C code are those of a release build, which does
not evaluate them.
-/

namespace Rsyslog

open Rsyslog.Common

/-- `struct syslogTime` (`runtime/syslogd-types.h`). -/
structure SyslogTime where
  timeType : UInt8
  month : UInt8
  day : UInt8
  wday : UInt8
  hour : UInt8
  minute : UInt8
  second : UInt8
  secfracPrecision : UInt8
  OffsetMinute : UInt8
  OffsetHour : UInt8
  OffsetMode : UInt8
  year : Int16
  secfrac : Int32
  inUTC : UInt8
  deriving DecidableEq, Repr

/-- A `syslogTime` cleared with `memset(.., 0, ..)`. -/
def SyslogTime.zero : SyslogTime :=
  ⟨0, 0, 0, 0, 0, 0, 0, 0, 0, 0, 0, 0, 0, 0⟩

/-- The `rcvFrom` union of `smsg_t`: the sender's name as a property, or, while the message
flag `NEEDS_DNSRESOL` is set, the peer address it is to be resolved from. -/
inductive RcvFrom (σ : Type) where
  | pRcvFrom (name : Option (List UInt8))
  | pfrominet (addr : σ)
  deriving DecidableEq, Repr

/-- The fields of `smsg_t` that the queue codec reads or writes, generic in the peer address
type `σ`, the JSON tree type `J` and the ruleset type `ρ`. `iLenRawMsg`, `iLenTAG`,
`iLenHOSTNAME`, `lenStrucData` and the `cstr_t` lengths are the lengths of the byte lists. -/
structure Smsg (σ J ρ : Type) where
  bParseSuccess : Int8
  iSeverity : UInt16
  iFacility : UInt16
  offAfterPRI : Int32
  offMSG : Int32
  iProtocolVersion : Int16
  msgFlags : Int32
  iLenMSG : Int32
  TAG : List UInt8
  pszRawMsg : Option (List UInt8)
  pszHOSTNAME : Option (List UInt8)
  pszStrucData : Option (List UInt8)
  pCSAPPNAME : Option (List UInt8)
  pCSPROCID : Option (List UInt8)
  pCSMSGID : Option (List UInt8)
  pInputName : Option (List UInt8)
  pRcvFromIP : Option (List UInt8)
  pRcvFromPort : Option (List UInt8)
  rcvFrom : RcvFrom σ
  pRuleset : Option ρ
  json : Option J
  localvars : Option J
  ttGenTime : Int64
  tRcvdAt : SyslogTime
  tTIMESTAMP : SyslogTime
  pszUUID : Option (List UInt8)
  deriving DecidableEq, Repr

/-- What message code consults outside the message. -/
structure MsgEnv (σ J ρ : Type) where
  /-- `net.cvthname`, answered from the DNS cache: the host name and the IP text of an address;
  the flag asks for the name with its case preserved (`PRESERVE_CASE`). -/
  cvthname : σ → Bool → List UInt8 × List UInt8
  /-- The port of an address: `sin_port` or `sin6_port` in host order, `0` for other families. -/
  sockaddrPort : σ → UInt16
  /-- `json_object_to_json_string_ext(.., JSON_C_TO_STRING_PLAIN)`. -/
  jsonToString : J → List UInt8
  /-- `json_tokener_parse`: the tree a C string denotes, if it is JSON. -/
  jsonTokenerParse : List UInt8 → Option J
  /-- `rulesetGetName`. -/
  rulesetGetName : ρ → List UInt8
  /-- `rulesetGetRuleset(runConf, .., name)`: the ruleset of that name, if one exists. -/
  rulesetGetRuleset : List UInt8 → Option ρ

/-- `NEEDS_DNSRESOL`: `rcvFrom` holds an address still to be resolved. -/
def needsDnsResol : Int32 := 0x040

/-- `PRESERVE_CASE`: resolve the sender's name with its case preserved. -/
def preserveCase : Int32 := 0x200

/-- `LOG_DEBUG`, the severity of a new message. -/
def logDebug : UInt16 := 7

/-- `LOG_INVLD`, `LOG_FAC_INVLD << 3`, the facility of a new message. -/
def logInvld : UInt16 := (24 : UInt16) <<< 3

/-- `CONF_TAG_MAXSIZE`: the size of the buffer an emulated TAG is printed into. -/
def confTagMaxsize : ℕ := 512

/-- `"-"`, the RFC 5424 NIL value. -/
def nilValue : List UInt8 := [0x2d]

variable {σ J ρ : Type}

/-- `msgBaseConstruct`, which `msgConstructForDeserializer` is. It leaves `ttGenTime`
uninitialised; the model starts it at `0`. -/
def msgBaseConstruct : Smsg σ J ρ where
  bParseSuccess := 0
  iSeverity := logDebug
  iFacility := logInvld
  offAfterPRI := 0
  offMSG := -1
  iProtocolVersion := 0
  msgFlags := 0
  iLenMSG := 0
  TAG := []
  pszRawMsg := none
  pszHOSTNAME := none
  pszStrucData := none
  pCSAPPNAME := none
  pCSPROCID := none
  pCSMSGID := none
  pInputName := none
  pRcvFromIP := none
  pRcvFromPort := none
  rcvFrom := .pRcvFrom none
  pRuleset := none
  json := none
  localvars := none
  ttGenTime := 0
  tRcvdAt := SyslogTime.zero
  tTIMESTAMP := SyslogTime.zero
  pszUUID := none

/-- `iLenRawMsg`: the length of the raw message, `0` while there is none. -/
def Smsg.iLenRawMsg (m : Smsg σ J ρ) : Int32 :=
  Int32.ofNat (m.pszRawMsg.getD []).length

/-- Whether `NEEDS_DNSRESOL` is set. -/
def Smsg.dnsResolPending (m : Smsg σ J ρ) : Bool :=
  m.msgFlags &&& needsDnsResol != 0

/-! ## Setters -/

/-- `setProtocolVersion`: versions other than `0` and `1` are stored as `0`. -/
def setProtocolVersion (pM : Smsg σ J ρ) (iNewVersion : ℤ) : Smsg σ J ρ :=
  let iNewVersion := if iNewVersion ≠ 0 ∧ iNewVersion ≠ 1 then 0 else iNewVersion
  { pM with iProtocolVersion := Int16.ofInt iNewVersion }

/-- `MsgSetTAG`. -/
def msgSetTAG (pMsg : Smsg σ J ρ) (buf : List UInt8) : Smsg σ J ρ :=
  { pMsg with TAG := buf }

/-- `MsgSetRawMsg`: the cached MSG length follows the change of length while `offMSG` points
into the new raw message, and is `0` otherwise. -/
def msgSetRawMsg (pThis : Smsg σ J ρ) (rawMsg : List UInt8) : Smsg σ J ρ :=
  let deltaSize := Int32.ofNat rawMsg.length - pThis.iLenRawMsg
  let pThis' := { pThis with pszRawMsg := some rawMsg }
  if pThis'.iLenRawMsg > pThis.offMSG then { pThis' with iLenMSG := pThis.iLenMSG + deltaSize }
  else { pThis' with iLenMSG := 0 }

/-- `MsgSetHOSTNAME`. -/
def msgSetHOSTNAME (pThis : Smsg σ J ρ) (hostname : List UInt8) : Smsg σ J ρ :=
  { pThis with pszHOSTNAME := some hostname }

/-- `MsgSetInputNameStr`. -/
def msgSetInputNameStr (pMsg : Smsg σ J ρ) (text : List UInt8) : Smsg σ J ρ :=
  { pMsg with pInputName := some text }

/-- `MsgSetRcvFromWithoutAddRef`: storing a name ends a pending resolution. -/
def msgSetRcvFromWithoutAddRef (pThis : Smsg σ J ρ) (new : Option (List UInt8)) : Smsg σ J ρ :=
  if pThis.dnsResolPending then
    { pThis with msgFlags := pThis.msgFlags &&& ~~~needsDnsResol, rcvFrom := .pRcvFrom new }
  else { pThis with rcvFrom := .pRcvFrom new }

/-- `MsgSetRcvFromText`, through `MsgSetRcvFrom`. -/
def msgSetRcvFromText (pMsg : Smsg σ J ρ) (text : List UInt8) : Smsg σ J ρ :=
  msgSetRcvFromWithoutAddRef pMsg (some text)

/-- `MsgSetRcvFromIPText`, through `MsgSetRcvFromIPStr` with a fresh property. -/
def msgSetRcvFromIPText (pMsg : Smsg σ J ρ) (text : List UInt8) : Smsg σ J ρ :=
  { pMsg with pRcvFromIP := some text }

/-- `MsgSetRcvFromPortText`, through `MsgSetRcvFromPortStr` with a fresh property. -/
def msgSetRcvFromPortText (pMsg : Smsg σ J ρ) (text : List UInt8) : Smsg σ J ρ :=
  { pMsg with pRcvFromPort := some text }

/-- `MsgSetStructuredData`, a copy of a C string. -/
def msgSetStructuredData (pMsg : Smsg σ J ρ) (pszStrucData : List UInt8) : Smsg σ J ρ :=
  { pMsg with pszStrucData := some pszStrucData }

/-- `MsgSetAPPNAME`: an empty name is stored as the NIL value `"-"`. -/
def msgSetAPPNAME (pMsg : Smsg σ J ρ) (pszAPPNAME : List UInt8) : Smsg σ J ρ :=
  let pszAPPNAME := if pszAPPNAME = [] then nilValue else pszAPPNAME
  { pMsg with pCSAPPNAME := some pszAPPNAME }

/-- `MsgSetPROCID`. -/
def msgSetPROCID (pMsg : Smsg σ J ρ) (pszPROCID : List UInt8) : Smsg σ J ρ :=
  { pMsg with pCSPROCID := some pszPROCID }

/-- `MsgSetMSGID`. -/
def msgSetMSGID (pMsg : Smsg σ J ρ) (pszMSGID : List UInt8) : Smsg σ J ρ :=
  { pMsg with pCSMSGID := some pszMSGID }

/-- `MsgSetRulesetByName`: a ruleset that does not exist leaves `pRuleset` as it was. -/
def msgSetRulesetByName (env : MsgEnv σ J ρ) (pMsg : Smsg σ J ρ) (rulesetName : List UInt8) :
    RsRetVal × Smsg σ J ρ :=
  match env.rulesetGetRuleset rulesetName with
  | some rs => (.ok, { pMsg with pRuleset := some rs })
  | none => (.notFound, pMsg)

/-- `MsgSetMSGoffs`: an offset past the raw message leaves an empty MSG. -/
def msgSetMSGoffs (pMsg : Smsg σ J ρ) (offs : Int32) : Smsg σ J ρ :=
  if offs > pMsg.iLenRawMsg then { pMsg with offMSG := offs, iLenMSG := 0 }
  else { pMsg with offMSG := offs, iLenMSG := pMsg.iLenRawMsg - offs }

/-- `MsgSetAfterPRIOffs`: the offset must lie inside the raw message. -/
def msgSetAfterPRIOffs (pMsg : Smsg σ J ρ) (offs : Int32) : RsRetVal × Smsg σ J ρ :=
  if offs < 0 ∨ offs > pMsg.iLenRawMsg then (.err, { pMsg with offAfterPRI := 0 })
  else (.ok, { pMsg with offAfterPRI := offs })

/-- `MsgSetParseSuccess`: the `int` argument is stored in an `sbool`. -/
def msgSetParseSuccess (pMsg : Smsg σ J ρ) (bSuccess : Int32) : Smsg σ J ρ :=
  { pMsg with bParseSuccess := bSuccess.toInt8 }

/-! ## Getters -/

/-- `getRawMsg`: `""` while there is no raw message. -/
def getRawMsg (pM : Smsg σ J ρ) : List UInt8 :=
  pM.pszRawMsg.getD []

/-- `getInputName`: `""` while there is no input name. -/
def getInputName (pM : Smsg σ J ρ) : List UInt8 :=
  pM.pInputName.getD []

/-- `tryEmulateTAG`: a syslog-protocol message without TAG gets `APP-NAME`, or
`APP-NAME[PROCID]` cut to the TAG buffer, as its TAG. For version 1, `getAPPNAME` and
`getPROCID` read the fields as they are: `prepareAPPNAME` and `preparePROCID` emulate only for
version 0. -/
def tryEmulateTAG (pM : Smsg σ J ρ) : Smsg σ J ρ :=
  if pM.TAG ≠ [] then pM
  else if pM.iProtocolVersion = 1 then
    -- `getPROCID` answers "-" and `getAPPNAME` answers "" for a missing field
    let procid := pM.pCSPROCID.getD nilValue
    let appname := pM.pCSAPPNAME.getD []
    if cString procid = nilValue then msgSetTAG pM appname
    else
      -- `snprintf(bufTAG, CONF_TAG_MAXSIZE, "%s[%s]", ..)` keeps what fits before the NUL
      msgSetTAG pM ((cString appname ++ [0x5b] ++ cString procid ++ [0x5d]).take
        (confTagMaxsize - 1))
  else pM

/-- `getTAG`: the TAG, emulated first if there is none. -/
def getTAG (pM : Smsg σ J ρ) : List UInt8 × Smsg σ J ρ :=
  let pM := if pM.TAG = [] then tryEmulateTAG pM else pM
  (pM.TAG, pM)

/-- The decimal text `snprintf(.., "%u", pnum)` prints. -/
def decimalText (pnum : UInt16) : List UInt8 :=
  (Nat.toDigits 10 pnum.toNat).map fun c => c.toNat.toUInt8

/-- `resolveDNS`: a pending resolution stores the resolved name and IP, and the address's port
when no port is known. A pending flag over a union that holds a name is not a state the runtime
builds (the C code would read the name as an address); the model leaves such a message as it
is. -/
def resolveDNS (env : MsgEnv σ J ρ) (pMsg : Smsg σ J ρ) : Smsg σ J ρ :=
  if pMsg.dnsResolPending then
    match pMsg.rcvFrom with
    | .pfrominet addr =>
      let (localName, ip) := env.cvthname addr (pMsg.msgFlags &&& preserveCase != 0)
      let pMsg :=
        if pMsg.pRcvFromPort = none then
          { pMsg with pRcvFromPort := some (decimalText (env.sockaddrPort addr)) }
        else pMsg
      { msgSetRcvFromWithoutAddRef pMsg (some localName) with pRcvFromIP := some ip }
    | .pRcvFrom _ => pMsg
  else pMsg

/-- The name `rcvFrom.pRcvFrom` gives, `""` for none. An address read as a property is not a
state the runtime builds; the model reads it as `""`. -/
def RcvFrom.text : RcvFrom σ → List UInt8
  | .pRcvFrom name => name.getD []
  | .pfrominet _ => []

/-- `getRcvFrom`: the sender's name, resolved first if it is pending. -/
def getRcvFrom (env : MsgEnv σ J ρ) (pM : Smsg σ J ρ) : List UInt8 × Smsg σ J ρ :=
  let pM := resolveDNS env pM
  (pM.rcvFrom.text, pM)

/-- `getRcvFromIP`. -/
def getRcvFromIP (env : MsgEnv σ J ρ) (pM : Smsg σ J ρ) : List UInt8 × Smsg σ J ρ :=
  let pM := resolveDNS env pM
  (pM.pRcvFromIP.getD [], pM)

/-- `getRcvFromPort`. -/
def getRcvFromPort (env : MsgEnv σ J ρ) (pM : Smsg σ J ρ) : List UInt8 × Smsg σ J ρ :=
  let pM := resolveDNS env pM
  (pM.pRcvFromPort.getD [], pM)

/-! ## Setters as record updates -/

/-- `setProtocolVersion` on a version read back from its 16-bit form keeps `0` and `1` and
stores any other version as `0`. -/
theorem setProtocolVersion_toUInt16 (pM : Smsg σ J ρ) (v : Int16) :
    setProtocolVersion pM (v.toUInt16.toNat : ℤ) =
      { pM with iProtocolVersion := if v = 1 then 1 else 0 } := by
  have hback : ∀ {k : ℕ}, k < 2 ^ 16 → v.toUInt16.toNat = k → v = (UInt16.ofNat k).toInt16 := by
    intro k hk h
    rw [← Int16.toInt16_toUInt16 v]
    congr 1
    apply UInt16.toNat_inj.mp
    rw [h, UInt16.toNat_ofNat_of_lt' (by simpa using hk)]
  unfold setProtocolVersion
  by_cases h0 : v.toUInt16.toNat = 0
  · obtain rfl : v = 0 := hback (by decide) h0
    rfl
  · by_cases h1 : v.toUInt16.toNat = 1
    · obtain rfl : v = 1 := hback (by decide) h1
      rfl
    · have hv : v ≠ 1 := by rintro rfl; exact h1 rfl
      have hout : ((v.toUInt16.toNat : ℕ) : ℤ) ≠ 0 ∧ ((v.toUInt16.toNat : ℕ) : ℤ) ≠ 1 :=
        ⟨by exact_mod_cast h0, by exact_mod_cast h1⟩
      rw [if_pos hout, if_neg hv]
      rfl

theorem msgSetRawMsg_eq (pThis : Smsg σ J ρ) (rawMsg : List UInt8) :
    msgSetRawMsg pThis rawMsg = { pThis with
      pszRawMsg := some rawMsg
      iLenMSG := if Int32.ofNat rawMsg.length > pThis.offMSG then
        pThis.iLenMSG + (Int32.ofNat rawMsg.length - pThis.iLenRawMsg) else 0 } := by
  have hlen : ({ pThis with pszRawMsg := some rawMsg } : Smsg σ J ρ).iLenRawMsg =
      Int32.ofNat rawMsg.length := rfl
  unfold msgSetRawMsg
  dsimp only
  rw [hlen]
  by_cases h : Int32.ofNat rawMsg.length > pThis.offMSG
  · rw [if_pos h, if_pos h]
  · rw [if_neg h, if_neg h]

theorem msgSetRcvFromWithoutAddRef_eq (pThis : Smsg σ J ρ) (new : Option (List UInt8)) :
    msgSetRcvFromWithoutAddRef pThis new = { pThis with
      msgFlags := if pThis.dnsResolPending then pThis.msgFlags &&& ~~~needsDnsResol
        else pThis.msgFlags
      rcvFrom := .pRcvFrom new } := by
  unfold msgSetRcvFromWithoutAddRef
  split_ifs <;> rfl

theorem msgSetMSGoffs_eq (pMsg : Smsg σ J ρ) (offs : Int32) :
    msgSetMSGoffs pMsg offs = { pMsg with
      offMSG := offs
      iLenMSG := if offs > pMsg.iLenRawMsg then 0 else pMsg.iLenRawMsg - offs } := by
  unfold msgSetMSGoffs
  split_ifs <;> rfl

/-- `MsgSetAfterPRIOffs` accepts an offset inside the raw message. -/
theorem msgSetAfterPRIOffs_of_le {pMsg : Smsg σ J ρ} {offs : Int32} (h0 : 0 ≤ offs)
    (hle : offs ≤ pMsg.iLenRawMsg) :
    msgSetAfterPRIOffs pMsg offs = (.ok, { pMsg with offAfterPRI := offs }) := by
  have hin : ¬ (offs < 0 ∨ offs > pMsg.iLenRawMsg) := by
    rintro (h | h)
    · exact absurd h0 (Int32.not_le.mpr h)
    · exact absurd hle (Int32.not_le.mpr h)
  rw [msgSetAfterPRIOffs, if_neg hin]

/-! ## What the getters change -/

/-- TAG emulation changes the TAG and nothing else. -/
theorem tryEmulateTAG_eq (pM : Smsg σ J ρ) :
    tryEmulateTAG pM = { pM with TAG := (tryEmulateTAG pM).TAG } := by
  unfold tryEmulateTAG msgSetTAG
  dsimp only
  split_ifs <;> rfl

/-- `getTAG` leaves the message as it was but for the TAG it answers. -/
theorem getTAG_snd (pM : Smsg σ J ρ) : (getTAG pM).2 = { pM with TAG := (getTAG pM).1 } := by
  unfold getTAG
  dsimp only
  split_ifs
  · exact tryEmulateTAG_eq pM
  · rfl

/-- `resolveDNS` changes only the flags, the sender and its IP and port. -/
theorem resolveDNS_eq (env : MsgEnv σ J ρ) (pMsg : Smsg σ J ρ) :
    ∃ flags rcvFrom ip port, resolveDNS env pMsg =
      { pMsg with msgFlags := flags, rcvFrom := rcvFrom, pRcvFromIP := ip, pRcvFromPort := port } := by
  unfold resolveDNS
  split
  · split
    · unfold msgSetRcvFromWithoutAddRef
      split_ifs <;> simp_all [Smsg.dnsResolPending]
    · exact ⟨_, _, _, _, rfl⟩
  · exact ⟨_, _, _, _, rfl⟩

/-- Clearing `NEEDS_DNSRESOL` leaves it clear. -/
theorem dnsResolPending_clear (f : Int32) : (f &&& ~~~needsDnsResol) &&& needsDnsResol = 0 := by
  apply Int32.toBitVec_inj.1
  simp [BitVec.and_assoc]

theorem resolveDNS_of_not_pending (env : MsgEnv σ J ρ) {pMsg : Smsg σ J ρ}
    (h : pMsg.dnsResolPending = false) : resolveDNS env pMsg = pMsg := by
  simp [resolveDNS, h]

/-- Storing a name leaves no resolution pending. -/
theorem dnsResolPending_msgSetRcvFromWithoutAddRef (pThis : Smsg σ J ρ)
    (new : Option (List UInt8)) : (msgSetRcvFromWithoutAddRef pThis new).dnsResolPending = false := by
  unfold msgSetRcvFromWithoutAddRef
  split_ifs with h
  · simp [Smsg.dnsResolPending, dnsResolPending_clear]
  · simpa [Smsg.dnsResolPending] using h

/-- A message is resolved at most once: the getters after the first find nothing pending. -/
theorem resolveDNS_idem (env : MsgEnv σ J ρ) (pMsg : Smsg σ J ρ) :
    resolveDNS env (resolveDNS env pMsg) = resolveDNS env pMsg := by
  cases hp : pMsg.dnsResolPending
  · rw [resolveDNS_of_not_pending env hp, resolveDNS_of_not_pending env hp]
  · cases hr : pMsg.rcvFrom with
    | pRcvFrom n => simp [resolveDNS, hp, hr]
    | pfrominet a =>
      -- storing the resolved name cleared the flag
      apply resolveDNS_of_not_pending
      simp only [resolveDNS, hp, hr, if_true]
      exact dnsResolPending_msgSetRcvFromWithoutAddRef _ _

/-- The flags after storing a name: `NEEDS_DNSRESOL` cleared if it was set. -/
theorem msgFlags_msgSetRcvFromWithoutAddRef (pThis : Smsg σ J ρ) (new : Option (List UInt8)) :
    (msgSetRcvFromWithoutAddRef pThis new).msgFlags =
      if pThis.dnsResolPending then pThis.msgFlags &&& ~~~needsDnsResol else pThis.msgFlags := by
  unfold msgSetRcvFromWithoutAddRef
  split_ifs <;> rfl

/-- Storing a name after a resolution leaves the flags it would have left without one. -/
theorem msgFlags_msgSetRcvFromWithoutAddRef_resolveDNS (env : MsgEnv σ J ρ) (pMsg : Smsg σ J ρ)
    (new : Option (List UInt8)) :
    (msgSetRcvFromWithoutAddRef (resolveDNS env pMsg) new).msgFlags =
      (msgSetRcvFromWithoutAddRef pMsg new).msgFlags := by
  cases hp : pMsg.dnsResolPending
  · rw [resolveDNS_of_not_pending env hp]
  · cases hr : pMsg.rcvFrom with
    | pRcvFrom n => simp [resolveDNS, hp, hr]
    | pfrominet a =>
      have hres : (resolveDNS env pMsg).dnsResolPending = false := by
        simp only [resolveDNS, hp, hr, if_true]
        exact dnsResolPending_msgSetRcvFromWithoutAddRef _ _
      rw [msgFlags_msgSetRcvFromWithoutAddRef, msgFlags_msgSetRcvFromWithoutAddRef, hres, hp]
      simp only [resolveDNS, hp, hr, if_true, Bool.false_eq_true, if_false]
      have hp' : pMsg.msgFlags &&& needsDnsResol ≠ 0 := by simpa [Smsg.dnsResolPending] using hp
      split_ifs <;> simp [msgFlags_msgSetRcvFromWithoutAddRef, Smsg.dnsResolPending, hp']
end Rsyslog
