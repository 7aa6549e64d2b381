import Rsyslog.Runtime.Datetime

/-!
# The RFC 5424 parser (`tools/pmrfc5424.c`)

`parse` reads `VERSION SP TIMESTAMP SP HOSTNAME SP APP-NAME SP PROCID SP MSGID SP
STRUCTURED-DATA SP MSG` after the PRI. It copies each header field into one work buffer, as a
C string, and stores what the buffer holds with the matching setter. The helpers report a
missing SP, which `parse` ignores; once the timestamp has been read, every field is stored
whatever the helpers found.

The parse pointer and the count of bytes left are kept as in the C code: the bytes left are a
list, and the pointer is the offset of its first byte in the raw message. The work buffer is the
byte list the helpers write into; a setter reads its C string.
-/

namespace Rsyslog

open Rsyslog.Common

variable {σ J ρ : Type}

/-- `IGNDATE`: the message's own timestamp is to be replaced by the time of reception. -/
def ignDate : Int32 := 0x004

/-- `MSG_RFC5424_PROTOCOL`. -/
def msgRfc5424Protocol : ℤ := 1

/-- The work buffer after a field is copied into its start with the terminating NUL. -/
def putCString (buf field : List UInt8) : List UInt8 :=
  field ++ 0 :: buf.drop (field.length + 1)

/-- `parseRFCField` on the bytes left: the field up to the next SP, the bytes after that SP, and
whether the SP was there. -/
def parseRFCField (s : List UInt8) : List UInt8 × List UInt8 × Bool :=
  let field := s.takeWhile (· != 0x20)
  match s.drop field.length with
  | 0x20 :: rest => (field, rest, true)
  | rest => (field, rest, false)

/-- The copy loop of `parseRFCStructuredData` from the `[` on: the bytes copied, the bytes left
and whether it stopped at a `]`. A `\]` is copied whole; a `]` ends the data when an SP or the
end of the message follows it. -/
def sdCopyLoop : List UInt8 → List UInt8 × List UInt8 × Bool
  | [] => ([], [], false)
  | [c] => if c = 0x5d then ([c], [], true) else ([], [c], false)
  | c :: d :: rest =>
    if c = 0x5c ∧ d = 0x5d then
      let r := sdCopyLoop rest
      (c :: d :: r.1, r.2.1, r.2.2)
    else if c = 0x5d ∧ d = 0x20 then ([c], d :: rest, true)
    else
      let r := sdCopyLoop (d :: rest)
      (c :: r.1, r.2.1, r.2.2)

/-- `parseRFCStructuredData` on the bytes left: `none` when they start with neither `[` nor `-`,
where it returns before writing to the buffer; otherwise the bytes it copies, the bytes after
the SP that ends the field, and whether the data ended well. -/
def parseRFCStructuredData (s : List UInt8) : Option (List UInt8 × List UInt8 × Bool) :=
  match s with
  | [] => none
  | c :: rest =>
    if c ≠ 0x5b ∧ c ≠ 0x2d then none
    else
      let r := if c = 0x2d then ([0x2d], rest, true) else sdCopyLoop s
      match r.2.1 with
      | 0x20 :: left => some (r.1, left, r.2.2)
      | left => some (r.1, left, false)

/-- The four fields after the timestamp and the structured data, read into the work buffer and
stored; the result is the message and the bytes left. -/
def parseRFCHeader (pMsg : Smsg σ J ρ) (s : List UInt8) : Smsg σ J ρ × List UInt8 :=
  let (hostname, s, _) := parseRFCField s
  let pBuf := putCString [] hostname
  let pMsg := msgSetHOSTNAME pMsg (cString pBuf)
  let (appname, s, _) := parseRFCField s
  let pBuf := putCString pBuf appname
  let pMsg := msgSetAPPNAME pMsg (cString pBuf)
  let (procid, s, _) := parseRFCField s
  let pBuf := putCString pBuf procid
  let pMsg := msgSetPROCID pMsg (cString pBuf)
  let (msgid, s, _) := parseRFCField s
  let pBuf := putCString pBuf msgid
  let pMsg := msgSetMSGID pMsg (cString pBuf)
  -- without `[` or `-` the helper writes nothing, and the buffer still holds the MSGID
  let (pBuf, s) := match parseRFCStructuredData s with
    | some (sd, rest, _) => (putCString pBuf sd, rest)
    | none => (pBuf, s)
  (msgSetStructuredData pMsg (cString pBuf), s)

/-- `parse` of pmrfc5424 on a message whose PRI has been read: `none` is
`RS_RET_COULD_NOT_PARSE`, for a message that does not go on with `1 `. -/
def pmrfc5424Parse (pMsg : Smsg σ J ρ) : Option (Smsg σ J ρ) :=
  let raw := pMsg.pszRawMsg.getD []
  let p := pMsg.offAfterPRI.toInt.toNat
  let lenMsg : ℤ := pMsg.iLenRawMsg.toInt - pMsg.offAfterPRI.toInt
  match (raw.drop p).take lenMsg.toNat with
  | 0x31 :: 0x20 :: s =>
    let pMsg := setProtocolVersion pMsg msgRfc5424Protocol
    -- the timestamp: `-` for none, else RFC 3339; a bad one stops the parse of the header
    let ts : Option (Smsg σ J ρ × ℕ × List UInt8) :=
      match s with
      | 0x2d :: 0x20 :: s' => some ({ pMsg with tTIMESTAMP := pMsg.tRcvdAt }, p + 4, s')
      | _ =>
        match parseTIMESTAMP3339 (bufferOf raw) pMsg.tTIMESTAMP (p + 2) (lenMsg - 2) with
        | (.ok, t, p', lenStr) =>
          let t := if pMsg.msgFlags &&& ignDate ≠ 0 then pMsg.tRcvdAt else t
          some ({ pMsg with tTIMESTAMP := t }, p', (raw.drop p').take lenStr.toNat)
        | _ => none
    match ts with
    | some (pMsg, p', s) =>
      let (pMsg, rest) := parseRFCHeader pMsg s
      some (msgSetMSGoffs pMsg (Int32.ofNat (p' + (s.length - rest.length))))
    | none => some (msgSetMSGoffs pMsg (Int32.ofNat (p + 2)))
  | _ => none

/-! ## The helpers -/

/-- A field copied into the work buffer reads back from it, if it has no NUL. -/
theorem cString_putCString (buf : List UInt8) {field : List UInt8} (h : 0 ∉ field) :
    cString (putCString buf field) = field := by
  have hne : ∀ a ∈ field, decide (a ≠ 0) = true := fun a ha => by
    simpa using ne_of_mem_of_not_mem ha h
  rw [cString, putCString, List.takeWhile_append_of_pos hne]
  simp

/-- A field without SP, followed by an SP, is read whole and the SP passed. -/
theorem parseRFCField_append {field : List UInt8} (rest : List UInt8) (h : 0x20 ∉ field) :
    parseRFCField (field ++ 0x20 :: rest) = (field, rest, true) := by
  have hne : ∀ a ∈ field, (a != 0x20) = true := fun a ha => by
    simpa using ne_of_mem_of_not_mem ha h
  have ht : (field ++ 0x20 :: rest).takeWhile (· != 0x20) = field := by
    rw [List.takeWhile_append_of_pos hne]
    simp
  simp [parseRFCField, ht]

/-- Bytes that start with neither `[` nor `-` are not structured data. -/
theorem parseRFCStructuredData_eq_none {s : List UInt8} (h5b : s.head? ≠ some 0x5b)
    (h2d : s.head? ≠ some 0x2d) : parseRFCStructuredData s = none := by
  cases s with
  | nil => rfl
  | cons c rest =>
    simp only [List.head?_cons, ne_eq, Option.some.injEq] at h5b h2d
    simp [parseRFCStructuredData, h5b, h2d]

/-! ## A message without structured data -/

/-- Four fields without SP or NUL, followed by bytes that are not structured data: each field is
stored, and the structured data is the buffer's last field, the MSGID. -/
theorem parseRFCHeader_noStructuredData (pMsg : Smsg σ J ρ)
    {hostname appname procid msgid text : List UInt8} (hh : 0x20 ∉ hostname ∧ 0 ∉ hostname)
    (ha : 0x20 ∉ appname ∧ 0 ∉ appname) (hp : 0x20 ∉ procid ∧ 0 ∉ procid)
    (hm : 0x20 ∉ msgid ∧ 0 ∉ msgid) (h5b : text.head? ≠ some 0x5b)
    (h2d : text.head? ≠ some 0x2d) :
    parseRFCHeader pMsg (hostname ++ 0x20 :: appname ++ 0x20 :: procid ++ 0x20 :: msgid ++
        0x20 :: text) =
      (msgSetStructuredData (msgSetMSGID (msgSetPROCID (msgSetAPPNAME
        (msgSetHOSTNAME pMsg hostname) appname) procid) msgid) msgid, text) := by
  simp only [parseRFCHeader, List.append_assoc, List.cons_append,
    parseRFCField_append _ hh.1, parseRFCField_append _ ha.1, parseRFCField_append _ hp.1,
    parseRFCField_append _ hm.1, parseRFCStructuredData_eq_none h5b h2d,
    cString_putCString _ hh.2, cString_putCString _ ha.2, cString_putCString _ hp.2,
    cString_putCString _ hm.2]

theorem pmrfc5424Parse_msgidAsStructuredData (pMsg : Smsg σ J ρ)
    {pri hostname appname procid msgid text : List UInt8}
    (hraw : pMsg.pszRawMsg = some (pri ++ [0x31, 0x20, 0x2d, 0x20] ++ hostname ++ 0x20 :: appname ++
      0x20 :: procid ++ 0x20 :: msgid ++ 0x20 :: text))
    (hoff : pMsg.offAfterPRI.toInt = pri.length) (hsize : (pMsg.pszRawMsg.getD []).length < 2 ^ 31)
    (hfields : ∀ f ∈ [hostname, appname, procid, msgid], ∀ c ∈ f, 33 ≤ c ∧ c ≤ 126)
    (h5b : text.head? ≠ some 0x5b) (h2d : text.head? ≠ some 0x2d) :
    ∃ m, pmrfc5424Parse pMsg = some m ∧ m.pCSMSGID = some msgid ∧ m.pszStrucData = some msgid := by
  -- printable US-ASCII holds neither SP nor NUL
  have hsp : ∀ f ∈ [hostname, appname, procid, msgid], 0x20 ∉ f ∧ 0 ∉ f := by
    intro f hf
    refine ⟨fun h => ?_, fun h => ?_⟩
    · have := hfields f hf 0x20 h
      simp at this
    · have := hfields f hf 0 h
      simp at this
  simp only [List.mem_cons, List.not_mem_nil, or_false, forall_eq_or_imp, forall_eq] at hsp
  obtain ⟨hh, ha, hp, hm⟩ := hsp
  -- the bytes after the PRI are the whole rest of the raw message
  have hlen : (pMsg.iLenRawMsg.toInt - pMsg.offAfterPRI.toInt).toNat =
      ((pMsg.pszRawMsg.getD []).drop pri.length).length := by
    rw [Smsg.iLenRawMsg, Int32.toInt_ofNat_of_lt hsize, hoff, List.length_drop]
    omega
  have hpos : pMsg.offAfterPRI.toInt.toNat = pri.length := by
    rw [hoff]
    simp
  have hbytes : ((pMsg.pszRawMsg.getD []).drop pri.length).take
      (pMsg.iLenRawMsg.toInt - pMsg.offAfterPRI.toInt).toNat =
      0x31 :: 0x20 :: 0x2d :: 0x20 :: (hostname ++ 0x20 :: appname ++ 0x20 :: procid ++
        0x20 :: msgid ++ 0x20 :: text) := by
    rw [hlen, List.take_length, hraw]
    simp
  have hheader := parseRFCHeader_noStructuredData
    { setProtocolVersion pMsg msgRfc5424Protocol with
      tTIMESTAMP := (setProtocolVersion pMsg msgRfc5424Protocol).tRcvdAt } hh ha hp hm h5b h2d
  unfold pmrfc5424Parse
  simp only [hpos, hbytes, hheader]
  rw [msgSetMSGoffs_eq]
  exact ⟨_, rfl, rfl, rfl⟩

/-- `<13>1 - host app 12 ID47 hello` stores `ID47` as its structured data. -/
theorem pmrfc5424Parse_msgidAsStructuredData_id47 :
    let pMsg : Smsg Unit Unit Unit := { msgBaseConstruct with
      pszRawMsg := some (asciiBytes "<13>1 - host app 12 ID47 hello")
      offAfterPRI := 4 }
    ∃ m, pmrfc5424Parse pMsg = some m ∧ m.pCSMSGID = some (asciiBytes "ID47") ∧
      m.pszStrucData = some (asciiBytes "ID47") :=
  @pmrfc5424Parse_msgidAsStructuredData Unit Unit Unit _ (asciiBytes "<13>") (asciiBytes "host")
    (asciiBytes "app") (asciiBytes "12") (asciiBytes "ID47") (asciiBytes "hello") rfl
    (by decide) (by decide +kernel) (by decide +kernel) (by decide) (by decide)

end Rsyslog
