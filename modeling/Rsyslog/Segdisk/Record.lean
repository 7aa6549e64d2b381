import Rsyslog.Segdisk.StateCodec

/-!
# Segment files of the segmentedDisk store

A segment file of `runtime/segdisk_store.c` starts with a 52-byte header naming the store's
UUID and the segment's id and continues with records. A record is a 32-byte header (magic,
version, payload length, sequence number, a CRC of the first 24 header bytes and a CRC of
the payload) followed by the payload. Sealing appends a 48-byte footer.

`record_at` scans a segment from an offset for the next record whose header and payload
check out: it steps over damaged header bytes one at a time within a scan budget and over
records whose payload is damaged. A record that `make_record` framed is read back by
`record_at` from the offset it was written at, whatever surrounds it, as long as the
reader's data end covers it.
-/

namespace Rsyslog.Segdisk

open Rsyslog.Common

/-- `SEG_MAGIC`, the ASCII text `RSSEGH02`. -/
def segMagic : List UInt8 :=
  [0x52, 0x53, 0x53, 0x45, 0x47, 0x48, 0x30, 0x32]

/-- `REC_MAGIC`, the ASCII text `RSRECD02`. -/
def recMagic : List UInt8 :=
  [0x52, 0x53, 0x52, 0x45, 0x43, 0x44, 0x30, 0x32]

/-- `FOOT_MAGIC`, the ASCII text `RSSEAL02`. -/
def footMagic : List UInt8 :=
  [0x52, 0x53, 0x53, 0x45, 0x41, 0x4C, 0x30, 0x32]

/-- `STORE_VERSION`. -/
def storeVersion : UInt16 := 2

/-- `SEG_HDR_LEN`. -/
def segHdrLen : ℕ := 52

/-- `REC_HDR_LEN`. -/
def recHdrLen : ℕ := 32

/-- `FOOT_LEN`. -/
def footLen : ℕ := 48

/-- `MAX_RECORD_SIZE`. -/
def maxRecordSize : ℕ := 128 * 1024 * 1024

/-- The bytes of a file as a buffer, zero past its end. -/
def fileBuf (file : List UInt8) : ℕ → UInt8 :=
  fun i => file.getD i 0

/-- `read_full_at`: `len` bytes of a file from an offset, or `RS_RET_EOF` when the file ends
first. -/
def readFullAt (file : List UInt8) (len off : ℕ) : Except RsRetVal (List UInt8) :=
  if len = 0 ∨ off + len ≤ file.length then .ok (getBytes (fileBuf file) off len)
  else .error .eof

/-- `write_segment_header`: magic, both versions, the store's UUID, the segment id, the first
sequence number 1, the header length and a CRC of the first 48 bytes. -/
def segmentHeader (uuid : Vector UInt8 16) (id : ℕ) : List UInt8 :=
  let b : ℕ → UInt8 := fun _ => 0
  let b := putBytes b 0 segMagic
  let b := put16 b 8 storeVersion
  let b := put16 b 10 segdiskCodecVersion
  let b := putBytes b 12 uuid.toList
  let b := put64 b 28 id.toUInt64
  let b := put64 b 36 1
  let b := put32 b 44 segHdrLen.toUInt32
  getBytes (put32 b 48 (segdiskCrc32c (getBytes b 0 48))) 0 segHdrLen

/-- The 48-byte footer `seal_active` appends: magic, the segment id, its first and last
sequence numbers, its record count, its rolling CRC and a CRC of the first 44 bytes. -/
def sealFooter (id firstSequence lastSequence recordCount : ℕ) (rollingCrc : UInt32) :
    List UInt8 :=
  let b : ℕ → UInt8 := fun _ => 0
  let b := putBytes b 0 footMagic
  let b := put64 b 8 id.toUInt64
  let b := put64 b 16 firstSequence.toUInt64
  let b := put64 b 24 lastSequence.toUInt64
  let b := put64 b 32 recordCount.toUInt64
  let b := put32 b 40 rollingCrc
  getBytes (put32 b 44 (segdiskCrc32c (getBytes b 0 44))) 0 footLen

/-- The 32-byte header `make_record` writes before a payload. -/
def recordHeader (payload : List UInt8) (sequence : UInt64) : ℕ → UInt8 :=
  let b : ℕ → UInt8 := fun _ => 0
  let b := putBytes b 0 recMagic
  let b := put16 b 8 storeVersion
  let b := put32 b 12 payload.length.toUInt32
  let b := put64 b 16 sequence
  let b := put32 b 24 (segdiskCrc32c (getBytes b 0 24))
  put32 b 28 (segdiskCrc32c payload)

/-- `make_record`: the encoded message framed as a record with a sequence number, and the
record's contribution to the segment's rolling CRC. -/
def makeRecord {α : Type} (encode : α → Except RsRetVal (List UInt8)) (msg : α)
    (sequence : UInt64) : Except RsRetVal (List UInt8 × UInt32) :=
  match encode msg with
  | .error r => .error r
  | .ok payload =>
    if maxRecordSize < payload.length then .error .fileTooLarge
    else
      let h := getBytes (recordHeader payload sequence) 0 recHdrLen
      .ok (h ++ payload, segdiskCrc32c h ^^^ segdiskCrc32c payload)

/-- The checks `record_at` makes on a record header read into a buffer: magic, version,
header CRC and the payload length limit. -/
def recordHeaderOk (h : ℕ → UInt8) : Bool :=
  getBytes h 0 8 == recMagic && get16 h 8 == storeVersion &&
    get32 h 24 == segdiskCrc32c (getBytes h 0 24) && (get32 h 12).toNat ≤ maxRecordSize

/-- The payload of a record whose header passed its checks, decoded, when it can be read in
full, matches its CRC and decodes. -/
def recordPayload {α : Type} (decode : List UInt8 → Except RsRetVal α) (file : List UInt8)
    (len off : ℕ) (crc : UInt32) : Option α :=
  match readFullAt file len off with
  | .ok payload => if segdiskCrc32c payload = crc then (decode payload).toOption else none
  | .error _ => none

/-- The in/out arguments of `record_at`: the offset, the counts of skipped and discovered
records and the remaining scan budget. -/
structure RecordCursor where
  off : ℕ
  skipped : ℕ
  discovered : ℕ
  scanBudget : ℕ
  deriving DecidableEq, Repr

/-- The loop of `record_at` over a file whose reader data end is `dataEnd`; records are counted
as discovered when `newlyDiscovered` holds. Every iteration advances the offset, so a fuel of
`dataEnd + 1` is never exhausted. -/
def recordAtLoop {α : Type} (decode : List UInt8 → Except RsRetVal α) (file : List UInt8)
    (dataEnd : ℕ) (newlyDiscovered : Bool) :
    ℕ → RecordCursor → Except RsRetVal (α × UInt64) × RecordCursor
  | 0, c => (.error .noData, c)
  | fuel + 1, c =>
    if c.off + recHdrLen ≤ dataEnd then
      match readFullAt file recHdrLen c.off with
      | .error r => (.error r, c)
      | .ok h =>
        let n := (get32 (fileBuf h) 12).toNat
        if !recordHeaderOk (fileBuf h) || dataEnd < c.off + recHdrLen + n then
          -- a damaged header: resynchronise one byte further on, within the budget
          let c := { c with off := c.off + 1 }
          if c.scanBudget = 0 then (.error .retry, c)
          else
            recordAtLoop decode file dataEnd newlyDiscovered fuel
              { c with scanBudget := c.scanBudget - 1 }
        else
          let payload := recordPayload decode file n (c.off + recHdrLen) (get32 (fileBuf h) 28)
          let c := { c with
            off := c.off + recHdrLen + n
            discovered := if newlyDiscovered then c.discovered + 1 else c.discovered }
          match payload with
          | some msg => (.ok (msg, get64 (fileBuf h) 16), c)
          | none =>
            recordAtLoop decode file dataEnd newlyDiscovered fuel { c with skipped := c.skipped + 1 }
    else (.error .noData, c)

/-- `record_at` on an open segment file: the next intact record from the cursor's offset,
`RS_RET_RETRY` when the scan budget runs out, or `RS_RET_NO_DATA` at the data end, where a
segment other than the active one moves the offset over its damaged tail. -/
def recordAt {α : Type} (decode : List UInt8 → Except RsRetVal α) (file : List UInt8)
    (dataEnd : ℕ) (isActive newlyDiscovered : Bool) (c : RecordCursor) :
    Except RsRetVal (α × UInt64) × RecordCursor :=
  match recordAtLoop decode file dataEnd newlyDiscovered (dataEnd + 1) c with
  | (.error .noData, c) =>
    if c.off < dataEnd && !isActive then (.error .noData, { c with off := dataEnd })
    else (.error .noData, c)
  | r => r

/-! ## Reading back a record header -/

@[simp] theorem recMagic_length : recMagic.length = 8 := rfl

/-- The fields of a record header below its two CRCs, as a layout table. -/
def recordFields (payload : List UInt8) (sequence : UInt64) : List (ℕ × List UInt8) :=
  [(0, recMagic), (8, be16 storeVersion), (12, be32 payload.length.toUInt32), (16, be64 sequence)]

/-- The bytes the header CRC covers: the layout table over a zeroed buffer. -/
def recordBody (payload : List UInt8) (sequence : UInt64) : ℕ → UInt8 :=
  writeFields (fun _ => 0) (recordFields payload sequence)

/-- A record header is the layout table followed by the header CRC and the payload CRC. -/
theorem recordHeader_eq (payload : List UInt8) (sequence : UInt64) :
    recordHeader payload sequence =
      put32 (put32 (recordBody payload sequence) 24
        (segdiskCrc32c (getBytes (recordBody payload sequence) 0 24))) 28
        (segdiskCrc32c payload) := rfl

/-- The fields of the record header layout occupy disjoint byte ranges. -/
theorem recordFields_disjoint (payload : List UInt8) (sequence : UInt64) :
    (fieldSpans (recordFields payload sequence)).Pairwise SpanDisjoint := by
  have hspans : fieldSpans (recordFields payload sequence) = [(0, 8), (8, 2), (12, 4), (16, 8)] := by
    simp [fieldSpans, recordFields]
  rw [hspans]
  decide

/-- The bytes below the header CRC read back as the layout table. -/
theorem getBytes_recordHeader_body (payload : List UInt8) (sequence : UInt64) {len : ℕ}
    (hlen : len ≤ 24) :
    getBytes (recordHeader payload sequence) 0 len = getBytes (recordBody payload sequence) 0 len := by
  rw [recordHeader_eq, put32, getBytes_putBytes_of_disjoint _ _ (Or.inl (by omega)), put32,
    getBytes_putBytes_of_disjoint _ _ (Or.inl (by omega))]

/-- Every field of the layout table reads back from a record header. -/
theorem getBytes_recordHeader {payload : List UInt8} {sequence : UInt64} {off : ℕ}
    {src : List UInt8} (hmem : (off, src) ∈ recordFields payload sequence)
    (hcrc : off + src.length ≤ 24) :
    getBytes (recordHeader payload sequence) off src.length = src := by
  rw [recordHeader_eq, put32, getBytes_putBytes_of_disjoint _ _ (Or.inl (by omega)), put32,
    getBytes_putBytes_of_disjoint _ _ (Or.inl hcrc)]
  exact getBytes_writeFields _ (recordFields_disjoint payload sequence) hmem

/-- The payload length field of a record header holds the payload's length. -/
theorem get32_recordHeader_length {payload : List UInt8} (sequence : UInt64)
    (hlen : payload.length ≤ maxRecordSize) :
    (get32 (recordHeader payload sequence) 12).toNat = payload.length := by
  have hfield := get32_eq_of_getBytes
    (@getBytes_recordHeader payload sequence 12 (be32 payload.length.toUInt32)
      (by simp [recordFields]) (by simp))
  rw [hfield, Nat.toUInt32_eq, UInt32.toNat_ofNat', Nat.mod_eq_of_lt]
  exact lt_of_le_of_lt hlen (by decide)

/-- The sequence field of a record header holds the sequence number. -/
@[simp] theorem get64_recordHeader_sequence (payload : List UInt8) (sequence : UInt64) :
    get64 (recordHeader payload sequence) 16 = sequence :=
  get64_eq_of_getBytes
    (@getBytes_recordHeader payload sequence 16 (be64 sequence) (by simp [recordFields]) (by simp))

/-- The last four header bytes hold the payload CRC. -/
@[simp] theorem get32_recordHeader_payloadCrc (payload : List UInt8) (sequence : UInt64) :
    get32 (recordHeader payload sequence) 28 = segdiskCrc32c payload := by
  rw [recordHeader_eq, get32_put32]

/-- A header that `make_record` wrote passes every check of `record_at`. -/
theorem recordHeaderOk_recordHeader {payload : List UInt8} (sequence : UInt64)
    (hlen : payload.length ≤ maxRecordSize) :
    recordHeaderOk (recordHeader payload sequence) = true := by
  have hmagic : getBytes (recordHeader payload sequence) 0 8 = recMagic :=
    @getBytes_recordHeader payload sequence 0 recMagic (by simp [recordFields]) (by simp)
  have hversion : get16 (recordHeader payload sequence) 8 = storeVersion :=
    get16_eq_of_getBytes (@getBytes_recordHeader payload sequence 8 (be16 storeVersion)
      (by simp [recordFields]) (by simp))
  have hcrc : get32 (recordHeader payload sequence) 24 =
      segdiskCrc32c (getBytes (recordHeader payload sequence) 0 24) := by
    rw [getBytes_recordHeader_body payload sequence (Nat.le_refl 24), recordHeader_eq, put32,
      get32_putBytes_of_disjoint _ _ (Or.inl (Nat.le_refl 28)), get32_put32]
  simp [recordHeaderOk, hmagic, hversion, hcrc, get32_recordHeader_length sequence hlen, hlen]

/-- The header checks only read the first 32 bytes of their buffer. -/
theorem recordHeaderOk_congr {b b' : ℕ → UInt8} (h : ∀ i < recHdrLen, b i = b' i) :
    recordHeaderOk b = recordHeaderOk b' := by
  have h0 : ∀ len ≤ recHdrLen, getBytes b 0 len = getBytes b' 0 len := fun len hlen =>
    getBytes_congr fun i hi => by simpa using h i (by omega)
  have h16 : get16 b 8 = get16 b' 8 := get16_congr fun i hi => h _ (by simp [recHdrLen]; omega)
  have h24 : get32 b 24 = get32 b' 24 := get32_congr fun i hi => h _ (by simp [recHdrLen]; omega)
  have h12 : get32 b 12 = get32 b' 12 := get32_congr fun i hi => h _ (by simp [recHdrLen]; omega)
  simp only [recordHeaderOk, h0 8 (by decide), h0 24 (by decide), h16, h24, h12]

/-! ## Reading a record from a file -/

/-- The buffer view of the first bytes of another buffer agrees with it below their count. -/
theorem fileBuf_getBytes {b : ℕ → UInt8} {len i : ℕ} (hi : i < len) :
    fileBuf (getBytes b 0 len) i = b i := by
  simp [fileBuf, getBytes, List.getD_eq_getElem?_getD, hi]

/-- The bytes of a file from the start of a piece in its middle, over the piece's length, are
the piece. -/
theorem getBytes_fileBuf_append (pre l post : List UInt8) :
    getBytes (fileBuf (pre ++ (l ++ post))) pre.length l.length = l := by
  apply List.ext_getElem (by simp)
  intro i hi _
  simp only [getBytes_length] at hi
  simp [getBytes, fileBuf, List.getD_eq_getElem?_getD, List.getElem?_append_right,
    List.getElem?_append_left hi, hi]

/-- A piece of a file is read back in full from its offset. -/
theorem readFullAt_append (pre l post : List UInt8) :
    readFullAt (pre ++ (l ++ post)) l.length pre.length = .ok l := by
  rw [readFullAt, if_pos (Or.inr (by simp)), getBytes_fileBuf_append]

/-- A record that `make_record` framed is read back by the first iteration of `record_at`'s
loop from the offset it starts at: its header passes the checks, its payload is read in full
and matches its CRC, and the offset moves past the record. -/
theorem recordAtLoop_record {α : Type} {decode : List UInt8 → Except RsRetVal α}
    {pre post payload : List UInt8} {sequence : UInt64} {dataEnd : ℕ} {newlyDiscovered : Bool}
    {msg : α} (fuel : ℕ) (c : RecordCursor) (hlen : payload.length ≤ maxRecordSize)
    (hoff : c.off = pre.length) (hend : pre.length + recHdrLen + payload.length ≤ dataEnd)
    (hdec : decode payload = .ok msg) :
    recordAtLoop decode
        (pre ++ (getBytes (recordHeader payload sequence) 0 recHdrLen ++ payload ++ post))
        dataEnd newlyDiscovered (fuel + 1) c =
      (.ok (msg, sequence), { c with
        off := c.off + recHdrLen + payload.length
        discovered := if newlyDiscovered then c.discovered + 1 else c.discovered }) := by
  set hdr := getBytes (recordHeader payload sequence) 0 recHdrLen
  have hhdrlen : hdr.length = recHdrLen := getBytes_length _ _ _
  have hbuf : ∀ i < recHdrLen, fileBuf hdr i = recordHeader payload sequence i :=
    fun i hi => fileBuf_getBytes hi
  have hread : readFullAt (pre ++ (hdr ++ payload ++ post)) recHdrLen c.off = .ok hdr := by
    rw [hoff, ← hhdrlen, List.append_assoc]
    exact readFullAt_append pre hdr (payload ++ post)
  have hok : recordHeaderOk (fileBuf hdr) = true := by
    rw [recordHeaderOk_congr hbuf]
    exact recordHeaderOk_recordHeader sequence hlen
  have hn : (get32 (fileBuf hdr) 12).toNat = payload.length := by
    have h12 : get32 (fileBuf hdr) 12 = get32 (recordHeader payload sequence) 12 :=
      get32_congr fun i hi => hbuf _ (by simp only [recHdrLen]; omega)
    rw [h12, get32_recordHeader_length sequence hlen]
  have hcrc : get32 (fileBuf hdr) 28 = segdiskCrc32c payload := by
    have h28 : get32 (fileBuf hdr) 28 = get32 (recordHeader payload sequence) 28 :=
      get32_congr fun i hi => hbuf _ (by simp only [recHdrLen]; omega)
    rw [h28, get32_recordHeader_payloadCrc]
  have hseq : get64 (fileBuf hdr) 16 = sequence := by
    have h16 : get64 (fileBuf hdr) 16 = get64 (recordHeader payload sequence) 16 :=
      get64_congr fun i hi => hbuf _ (by simp only [recHdrLen]; omega)
    rw [h16, get64_recordHeader_sequence]
  have hpayload : recordPayload decode (pre ++ (hdr ++ payload ++ post)) payload.length
      (c.off + recHdrLen) (segdiskCrc32c payload) = some msg := by
    have hfull : readFullAt (pre ++ hdr ++ (payload ++ post)) payload.length (pre ++ hdr).length =
        .ok payload := readFullAt_append (pre ++ hdr) payload post
    rw [List.length_append, hhdrlen, ← hoff, List.append_assoc] at hfull
    simp [recordPayload, List.append_assoc, hfull, hdec, Except.toOption]
  have hfits : c.off + recHdrLen ≤ dataEnd := by omega
  have hwithin : ¬ dataEnd < c.off + recHdrLen + payload.length := by omega
  simp only [recordAtLoop, if_pos hfits, hread, hok, hn, hwithin, hpayload, hcrc, hseq]
  simp

/-- What a successful `make_record` returns: the header over the encoded payload, which is
within the size limit. -/
theorem makeRecord_eq_ok {α : Type} {encode : α → Except RsRetVal (List UInt8)} {msg : α}
    {sequence : UInt64} {record : List UInt8} {crc : UInt32}
    (h : makeRecord encode msg sequence = .ok (record, crc)) :
    ∃ payload, encode msg = .ok payload ∧ payload.length ≤ maxRecordSize ∧
      record = getBytes (recordHeader payload sequence) 0 recHdrLen ++ payload := by
  cases henc : encode msg with
  | error e => simp [makeRecord, henc] at h
  | ok payload =>
    by_cases hlen : maxRecordSize < payload.length
    · simp [makeRecord, henc, hlen] at h
    · simp only [makeRecord, henc, hlen, if_false, Except.ok.injEq, Prod.mk.injEq] at h
      exact ⟨payload, rfl, by omega, h.1.symm⟩

/-- `record_at` returns, from the offset it was written at, the message of a record that
`make_record` framed, whatever surrounds the record in the file, when the codec decodes
what it encoded and the reader's data end covers the record. -/
theorem recordAt_makeRecord {α : Type} {encode : α → Except RsRetVal (List UInt8)}
    {decode : List UInt8 → Except RsRetVal α} {msg : α} {sequence : UInt64}
    {record pre post : List UInt8} {crc : UInt32} {dataEnd : ℕ} {isActive newlyDiscovered : Bool}
    (c : RecordCursor) (hrec : makeRecord encode msg sequence = .ok (record, crc))
    (hcodec : ∀ payload, encode msg = .ok payload → decode payload = .ok msg)
    (hoff : c.off = pre.length) (hend : pre.length + record.length ≤ dataEnd) :
    recordAt decode (pre ++ (record ++ post)) dataEnd isActive newlyDiscovered c =
      (.ok (msg, sequence), { c with
        off := c.off + record.length
        discovered := if newlyDiscovered then c.discovered + 1 else c.discovered }) := by
  obtain ⟨payload, henc, hlen, rfl⟩ := makeRecord_eq_ok hrec
  have hend' : pre.length + recHdrLen + payload.length ≤ dataEnd := by
    simpa [recHdrLen, Nat.add_assoc] using hend
  have hloop := @recordAtLoop_record α decode pre post payload sequence dataEnd newlyDiscovered
    msg dataEnd c hlen hoff hend' (hcodec payload henc)
  rw [recordAt, hloop]
  simp [recHdrLen, Nat.add_assoc]

end Rsyslog.Segdisk
