import Rsyslog.Common.ByteBuffer

/-!
# Type-length-value record streams

A stream of records, each an eight-byte big-endian header (a 16-bit field id, a type byte, a
flags byte and a 32-bit payload length) followed by its payload. A reader walks a buffer of
`len` bytes record by record, checks that each header and payload lies inside the buffer and
below a payload limit, and hands each payload to a handler that updates a state or fails; `fuel`
bounds its iterations. The results hold for every handler that reads only its own payload
(`HandlerLocal`). The last section gives the bit facts of a 32-bit mask of the ids met.
-/

namespace Rsyslog.Common

/-- One record of a stream. -/
structure Tlv where
  field : UInt16
  type : UInt8
  flags : UInt8
  payload : List UInt8
  deriving DecidableEq, Repr

/-- The length of a record header: field id, type, flags and payload length. -/
def tlvHdrLen : ℕ := 8

/-- A record as bytes: its header, then its payload. -/
def Tlv.encode (t : Tlv) : List UInt8 :=
  be16 t.field ++ [t.type, t.flags] ++ be32 (UInt32.ofNat t.payload.length) ++ t.payload

/-- Records written one after the other. -/
def encodeTlvs (ts : List Tlv) : List UInt8 :=
  ts.flatMap Tlv.encode

@[simp] theorem Tlv.encode_length (t : Tlv) : t.encode.length = tlvHdrLen + t.payload.length := by
  simp [Tlv.encode, tlvHdrLen]
  omega

@[simp] theorem encodeTlvs_nil : encodeTlvs [] = [] := rfl

@[simp] theorem encodeTlvs_cons (t : Tlv) (ts : List Tlv) :
    encodeTlvs (t :: ts) = t.encode ++ encodeTlvs ts := rfl

theorem encodeTlvs_append (ts ts' : List Tlv) :
    encodeTlvs (ts ++ ts') = encodeTlvs ts ++ encodeTlvs ts' := by
  simp [encodeTlvs]

/-- A record's payload is no longer than the stream it is part of. -/
theorem payload_length_le_encodeTlvs {t : Tlv} {ts : List Tlv} (h : t ∈ ts) :
    t.payload.length ≤ (encodeTlvs ts).length := by
  induction ts with
  | nil => cases h
  | cons t' ts ih =>
    rw [encodeTlvs_cons, List.length_append, Tlv.encode_length]
    rcases List.mem_cons.mp h with rfl | h
    · omega
    · have := ih h
      omega

/-- Every record takes at least one byte, its header eight. -/
theorem length_le_encodeTlvs (ts : List Tlv) : ts.length ≤ (encodeTlvs ts).length := by
  induction ts with
  | nil => simp
  | cons t ts ih =>
    rw [encodeTlvs_cons, List.length_append, Tlv.encode_length, List.length_cons]
    simp only [tlvHdrLen]
    omega

/-! ## Reading bytes back -/

/-- Reading `m + n` bytes is reading `m`, then `n` more. -/
theorem getBytes_add (b : ℕ → UInt8) (off m n : ℕ) :
    getBytes b off (m + n) = getBytes b off m ++ getBytes b (off + m) n := by
  simp only [getBytes, List.range_add, List.map_append, List.map_map]
  congr 1
  apply List.map_congr_left
  intro i _
  simp [Nat.add_assoc]

/-- The first byte of a range, then the rest. -/
theorem getBytes_succ (b : ℕ → UInt8) (off n : ℕ) :
    getBytes b off (n + 1) = b off :: getBytes b (off + 1) n := by
  rw [Nat.add_comm, getBytes_add]
  simp [getBytes]

@[simp] theorem getBytes_zero (b : ℕ → UInt8) (off : ℕ) : getBytes b off 0 = [] := rfl

/-- A range of a buffer laid out from `0` holds the bytes at those offsets. -/
theorem bufferOf_getBytes {b : ℕ → UInt8} {off n i : ℕ} (hi : i < n) :
    bufferOf (getBytes b off n) i = b (off + i) := by
  simp [bufferOf, getBytes, List.getElem?_range hi]

/-- A range that holds a concatenation holds each part, one after the other. -/
theorem getBytes_eq_append {b : ℕ → UInt8} {off : ℕ} {l₁ l₂ : List UInt8}
    (h : getBytes b off (l₁ ++ l₂).length = l₁ ++ l₂) :
    getBytes b off l₁.length = l₁ ∧ getBytes b (off + l₁.length) l₂.length = l₂ := by
  rw [List.length_append, getBytes_add] at h
  exact List.append_inj h (by simp)

/-- The bytes at one offset of a range that holds a byte string. -/
theorem apply_eq_of_getBytes {b : ℕ → UInt8} {off : ℕ} {l : List UInt8}
    (h : getBytes b off l.length = l) (i : ℕ) (hi : i < l.length) : b (off + i) = l[i] := by
  have := congrArg (·[i]?) h
  simp only [getBytes, List.getElem?_map, List.getElem?_range hi, Option.map_some] at this
  exact Option.some.inj (this.trans (List.getElem?_eq_getElem hi))

section Reader

variable {S E : Type} (maxPayload : ℕ) (invalid : E)
  (handle : UInt16 → UInt8 → UInt8 → (ℕ → UInt8) → ℕ → S → Except E S)

/-- One iteration of the reader at `pos`: check and read the header, check the payload's length,
hand the payload to `handle`, and go on with `next` after it. At or past `len` the reader stops
and returns its state. -/
def tlvStep (buf : ℕ → UInt8) (len : ℕ) (next : ℕ → S → Except E S) (pos : ℕ) (s : S) :
    Except E S :=
  if pos < len then
    if len - pos < tlvHdrLen then .error invalid
    else
      let field := get16 buf pos
      let type := buf (pos + 2)
      let flags := buf (pos + 3)
      let n := (get32 buf (pos + 4)).toNat
      let pos := pos + tlvHdrLen
      if n > maxPayload ∨ n > len - pos then .error invalid
      else
        match handle field type flags (fun i => buf (pos + i)) n s with
        | .error e => .error e
        | .ok s => next (pos + n) s
  else .ok s

/-- The reader's loop, `while (pos < len)`, for at most `fuel` iterations. -/
def tlvRead (buf : ℕ → UInt8) (len : ℕ) : ℕ → ℕ → S → Except E S
  | 0, _, s => .ok s
  | fuel + 1, pos, s => tlvStep maxPayload invalid handle buf len (tlvRead buf len fuel) pos s

/-- The handler run over records, each given its own payload. -/
def handleTlvs : S → List Tlv → Except E S
  | s, [] => .ok s
  | s, t :: ts =>
    match handle t.field t.type t.flags (bufferOf t.payload) t.payload.length s with
    | .error e => .error e
    | .ok s => handleTlvs s ts

theorem handleTlvs_singleton (s : S) (t : Tlv) :
    handleTlvs handle s [t] = handle t.field t.type t.flags (bufferOf t.payload) t.payload.length s := by
  simp only [handleTlvs]
  split <;> simp_all

/-- A handler reads only the `n` bytes of the payload it is handed. -/
def HandlerLocal : Prop :=
  ∀ field type flags (p p' : ℕ → UInt8) n s, (∀ i < n, p i = p' i) →
    handle field type flags p n s = handle field type flags p' n s

@[simp] theorem handleTlvs_nil (s : S) : handleTlvs handle s [] = .ok s := rfl

theorem handleTlvs_append (s : S) (ts ts' : List Tlv) :
    handleTlvs handle s (ts ++ ts') = (handleTlvs handle s ts).bind (handleTlvs handle · ts') := by
  induction ts generalizing s with
  | nil => rfl
  | cons t ts ih =>
    simp only [List.cons_append, handleTlvs]
    split
    · rfl
    · exact ih _

variable {maxPayload invalid handle}

/-- A step depends on its continuation only after the current position, and only when it
reads a record. -/
theorem tlvStep_congr_next {buf : ℕ → UInt8} {len : ℕ} {next next' : ℕ → S → Except E S}
    {pos : ℕ} (h : pos < len → ∀ q s, pos < q → next q s = next' q s) (s : S) :
    tlvStep maxPayload invalid handle buf len next pos s =
      tlvStep maxPayload invalid handle buf len next' pos s := by
  unfold tlvStep
  dsimp only
  split_ifs with hpos hhdr hbad
  · rfl
  · rfl
  · split
    · rfl
    · exact h hpos _ _ (by simp [tlvHdrLen]; omega)
  · rfl

/-- A step reads only the bytes below `len`. -/
theorem tlvStep_congr_buf (hloc : HandlerLocal handle) {buf buf' : ℕ → UInt8} {len : ℕ}
    (hbuf : ∀ i < len, buf i = buf' i) (next : ℕ → S → Except E S) (pos : ℕ) (s : S) :
    tlvStep maxPayload invalid handle buf len next pos s =
      tlvStep maxPayload invalid handle buf' len next pos s := by
  unfold tlvStep
  by_cases hpos : pos < len
  · by_cases hhdr : len - pos < tlvHdrLen
    · simp [hpos, hhdr]
    · -- the header lies below `len`
      have hin : ∀ i < tlvHdrLen, buf (pos + i) = buf' (pos + i) := fun i hi =>
        hbuf _ (by simp [tlvHdrLen] at hhdr hi; omega)
      have hfield : get16 buf pos = get16 buf' pos :=
        get16_congr fun i hi => hin i (by simp [tlvHdrLen]; omega)
      have hn : get32 buf (pos + 4) = get32 buf' (pos + 4) := get32_congr fun i hi => by
        rw [Nat.add_assoc]
        exact hin _ (by simp [tlvHdrLen]; omega)
      simp only [hpos, hhdr, if_true, if_false, hfield, hn, hin 2 (by decide), hin 3 (by decide)]
      split_ifs with hbad
      · rfl
      · -- and so does the payload
        rw [hloc _ _ _ _ (fun i => buf' (pos + tlvHdrLen + i)) _ _ fun i hi =>
          hbuf _ (by simp [tlvHdrLen] at hbad hi ⊢; omega)]
  · simp [hpos]

/-- A step past the end stops. -/
theorem tlvStep_of_le {buf : ℕ → UInt8} {len pos : ℕ} (h : len ≤ pos)
    (next : ℕ → S → Except E S) (s : S) :
    tlvStep maxPayload invalid handle buf len next pos s = .ok s := by
  simp [tlvStep, Nat.not_lt.mpr h]

/-- The loop reads only the bytes below `len`. -/
theorem tlvRead_congr (hloc : HandlerLocal handle) {buf buf' : ℕ → UInt8} {len : ℕ}
    (hbuf : ∀ i < len, buf i = buf' i) (fuel pos : ℕ) (s : S) :
    tlvRead maxPayload invalid handle buf len fuel pos s =
      tlvRead maxPayload invalid handle buf' len fuel pos s := by
  induction fuel generalizing pos s with
  | zero => rfl
  | succ fuel ih =>
    simp only [tlvRead]
    rw [tlvStep_congr_buf hloc hbuf]
    exact tlvStep_congr_next (fun _ q s _ => ih q s) s

/-- Every iteration consumes a header, so fuel covering the bytes left is enough: more fuel
gives the same result, which is the result of the unbounded `while` loop. -/
theorem tlvRead_fuel {buf : ℕ → UInt8} {len : ℕ} :
    ∀ {fuel fuel' pos : ℕ} (s : S), len - pos ≤ fuel → fuel ≤ fuel' →
      tlvRead maxPayload invalid handle buf len fuel pos s =
        tlvRead maxPayload invalid handle buf len fuel' pos s
  | 0, 0, _, _, _, _ => rfl
  | 0, _ + 1, pos, s, h, _ => by
    rw [tlvRead, tlvRead, tlvStep_of_le (by omega)]
  | fuel + 1, fuel' + 1, pos, s, h, h' => by
    simp only [tlvRead]
    -- the next iteration starts past `pos`, with one byte fewer left at least
    exact tlvStep_congr_next (fun hpos q s hq => tlvRead_fuel s (by omega) (by omega)) s

/-- What one accepted step read: either nothing, at the end, or one record whose bytes lie
inside the buffer and whose payload the handler accepted. -/
theorem tlvStep_eq_ok (hloc : HandlerLocal handle) {buf : ℕ → UInt8} {len : ℕ}
    {next : ℕ → S → Except E S} {pos : ℕ} {s s' : S}
    (h : tlvStep maxPayload invalid handle buf len next pos s = .ok s') :
    (len ≤ pos ∧ s' = s) ∨
      ∃ t : Tlv, pos < len ∧ pos + t.encode.length ≤ len ∧
        getBytes buf pos t.encode.length = t.encode ∧ t.payload.length ≤ maxPayload ∧
        ∃ s₁, handle t.field t.type t.flags (bufferOf t.payload) t.payload.length s = .ok s₁ ∧
          next (pos + t.encode.length) s₁ = .ok s' := by
  unfold tlvStep at h
  dsimp only at h
  split_ifs at h with hpos hhdr hbad
  · simp only [tlvHdrLen, not_lt, not_or] at hhdr hbad h
    set n := (get32 buf (pos + 4)).toNat with hn
    -- the record the step read: its header fields and its payload
    let t : Tlv := ⟨get16 buf pos, buf (pos + 2), buf (pos + 3), getBytes buf (pos + 8) n⟩
    have hlen : t.payload.length = n := getBytes_length _ _ _
    have hbytes : getBytes buf pos t.encode.length = t.encode := by
      have h8 : getBytes buf pos tlvHdrLen = [buf pos, buf (pos + 1), buf (pos + 2),
          buf (pos + 3), buf (pos + 4), buf (pos + 4 + 1), buf (pos + 4 + 2), buf (pos + 4 + 3)] :=
        rfl
      rw [Tlv.encode_length, hlen, getBytes_add, h8]
      simp only [t, Tlv.encode, be16_get16, getBytes_length, hn, UInt32.ofNat_toNat, be32_get32]
      rfl
    right
    refine ⟨t, hpos, by simp [hlen, tlvHdrLen]; omega, hbytes, hlen ▸ hbad.1, ?_⟩
    split at h
    · cases h
    · next s₁ hs₁ =>
      refine ⟨s₁, ?_, by simpa [hlen, tlvHdrLen, Nat.add_assoc] using h⟩
      rw [hlen, ← hs₁]
      exact hloc _ _ _ _ _ _ _ fun i hi => bufferOf_getBytes hi
  · exact .inl ⟨Nat.not_lt.mp hpos, (Except.ok.inj h).symm⟩

/-- A step over a record laid down in the buffer hands the handler that record's payload and
goes on after it. -/
theorem tlvStep_encode (hloc : HandlerLocal handle) (hmax : maxPayload < 2 ^ 32)
    {buf : ℕ → UInt8} {len : ℕ} {pos : ℕ} {t : Tlv}
    (hbytes : getBytes buf pos t.encode.length = t.encode) (hlen : pos + t.encode.length ≤ len)
    (hpay : t.payload.length ≤ maxPayload) (next : ℕ → S → Except E S) (s : S) :
    tlvStep maxPayload invalid handle buf len next pos s =
      match handle t.field t.type t.flags (bufferOf t.payload) t.payload.length s with
      | .error e => .error e
      | .ok s₁ => next (pos + t.encode.length) s₁ := by
  -- the header's four parts, each read from its place in the record
  obtain ⟨hhead, hpayload⟩ := getBytes_eq_append (by rwa [Tlv.encode] at hbytes)
  obtain ⟨hhead, hn⟩ := getBytes_eq_append hhead
  obtain ⟨hfield, htf⟩ := getBytes_eq_append hhead
  have htype := apply_eq_of_getBytes htf 0 (by simp)
  have hflags := apply_eq_of_getBytes htf 1 (by simp)
  simp only [be16_length, List.getElem_cons_zero, List.getElem_cons_succ] at htype hflags
  simp only [be16_length, List.length_cons, List.length_nil, List.length_append,
    be32_length] at hn hpayload htf
  have hf : get16 buf pos = t.field := get16_eq_of_getBytes hfield
  have hlen32 : (get32 buf (pos + 4)).toNat = t.payload.length := by
    have hsize : t.payload.length < UInt32.size := lt_of_le_of_lt hpay (hmax.trans_le (by decide))
    rw [get32_eq_of_getBytes (by simpa using hn), UInt32.toNat_ofNat_of_lt' hsize]
  have hend : pos + tlvHdrLen + t.payload.length = pos + t.encode.length := by
    simp [Nat.add_assoc]
  simp only [Tlv.encode_length] at hlen
  unfold tlvStep
  simp only [show pos < len by simp [tlvHdrLen] at hlen; omega, if_true,
    show ¬ len - pos < tlvHdrLen by omega, if_false, hf, htype, hflags, hlen32,
    show ¬ (t.payload.length > maxPayload ∨ t.payload.length > len - (pos + tlvHdrLen)) by omega]
  rw [hend, hloc _ _ _ _ (bufferOf t.payload) _ _ fun i hi => by
    have hb : buf (pos + tlvHdrLen + i) = t.payload[i] :=
      apply_eq_of_getBytes (by simpa [tlvHdrLen, Nat.add_assoc] using hpayload) i hi
    rw [hb]
    simp [bufferOf, List.getElem?_eq_getElem hi]]

/-- The reader reads back the records laid down from `pos` to `len`, one handler call each. -/
theorem tlvRead_encodeTlvs (hloc : HandlerLocal handle) (hmax : maxPayload < 2 ^ 32)
    {buf : ℕ → UInt8} :
    ∀ {ts : List Tlv} {fuel pos : ℕ} (s : S),
      getBytes buf pos (encodeTlvs ts).length = encodeTlvs ts →
      (∀ t ∈ ts, t.payload.length ≤ maxPayload) → ts.length ≤ fuel →
      tlvRead maxPayload invalid handle buf (pos + (encodeTlvs ts).length) fuel pos s =
        handleTlvs handle s ts
  | [], 0, _, _, _, _, _ => rfl
  | [], _ + 1, pos, s, _, _, _ => by
    rw [tlvRead, tlvStep_of_le (by simp)]
    rfl
  | t :: ts, fuel + 1, pos, s, hbytes, hpay, hfuel => by
    rw [encodeTlvs_cons] at hbytes
    obtain ⟨ht, hts⟩ := getBytes_eq_append hbytes
    rw [tlvRead, encodeTlvs_cons, List.length_append,
      tlvStep_encode hloc hmax ht (by omega) (hpay t List.mem_cons_self), handleTlvs]
    split
    · rfl
    · -- the rest of the stream, from the end of this record
      rw [← Nat.add_assoc]
      exact tlvRead_encodeTlvs hloc hmax _ hts (fun t' ht' => hpay t' (List.mem_cons_of_mem _ ht'))
        (by simpa using hfuel)

/-- What the reader accepts is a sequence of records filling the buffer from `pos` to `len`,
each within the payload limit and each accepted by the handler. -/
theorem exists_encodeTlvs_of_tlvRead_eq_ok (hloc : HandlerLocal handle) {buf : ℕ → UInt8}
    {len : ℕ} :
    ∀ {fuel pos : ℕ} {s s' : S}, len - pos ≤ fuel →
      tlvRead maxPayload invalid handle buf len fuel pos s = .ok s' →
      ∃ ts : List Tlv, getBytes buf pos (len - pos) = encodeTlvs ts ∧
        (∀ t ∈ ts, t.payload.length ≤ maxPayload) ∧ handleTlvs handle s ts = .ok s'
  | 0, pos, s, s', hfuel, h => ⟨[], by simp [show len - pos = 0 by omega], by simp,
      by simpa [tlvRead] using h⟩
  | fuel + 1, pos, s, s', hfuel, h => by
    rw [tlvRead] at h
    rcases tlvStep_eq_ok hloc h with ⟨hend, rfl⟩ | ⟨t, hpos, hlen, hbytes, hpay, s₁, hs₁, hnext⟩
    · exact ⟨[], by simp [show len - pos = 0 by omega], by simp, rfl⟩
    · obtain ⟨ts, hts, hpays, hrun⟩ :=
        exists_encodeTlvs_of_tlvRead_eq_ok hloc (by simp [tlvHdrLen] at hlen ⊢; omega) hnext
      refine ⟨t :: ts, ?_, ?_, by simp [handleTlvs, hs₁, hrun]⟩
      · rw [show len - pos = t.encode.length + (len - (pos + t.encode.length)) by omega,
          getBytes_add, hbytes, hts, encodeTlvs_cons]
      · intro t' ht'
        rcases List.mem_cons.mp ht' with rfl | ht'
        · exact hpay
        · exact hpays t' ht'

end Reader

/-! ## Masks of seen ids -/

/-- The mask with bit `k` alone set, as `1u << k`. -/
theorem toNat_one_shiftLeft {k : ℕ} (hk : k < 32) :
    ((1 : UInt32) <<< UInt32.ofNat k).toNat = 2 ^ k := by
  rw [UInt32.toNat_shiftLeft, UInt32.toNat_ofNat_of_lt' (hk.trans (by decide)), Nat.mod_eq_of_lt hk,
    UInt32.toNat_one, Nat.one_shiftLeft, Nat.mod_eq_of_lt (Nat.pow_lt_pow_right (by decide) hk)]

/-- Testing bit `k` of a mask with `&` tests the bit. -/
theorem and_one_shiftLeft_ne_zero_iff (x : UInt32) {k : ℕ} (hk : k < 32) :
    x &&& ((1 : UInt32) <<< UInt32.ofNat k) ≠ 0 ↔ x.toNat.testBit k := by
  rw [ne_eq, ← UInt32.toNat_inj, UInt32.toNat_and, toNat_one_shiftLeft hk, Nat.and_two_pow,
    UInt32.toNat_zero]
  cases x.toNat.testBit k <;> simp

/-- Setting bit `k` of a mask with `|` adds `k` to the bits it has. -/
theorem testBit_or_one_shiftLeft (x : UInt32) {k : ℕ} (hk : k < 32) (j : ℕ) :
    (x ||| ((1 : UInt32) <<< UInt32.ofNat k)).toNat.testBit j ↔ x.toNat.testBit j ∨ j = k := by
  rw [UInt32.toNat_or, toNat_one_shiftLeft hk, Nat.testBit_or, Nat.testBit_two_pow,
    Bool.or_eq_true, decide_eq_true_eq]
  exact Iff.or Iff.rfl eq_comm

/-- A mask has all the bits of another exactly when `&` with it leaves the other. -/
theorem and_eq_self_iff (x m : UInt32) :
    x &&& m = m ↔ ∀ j, m.toNat.testBit j → x.toNat.testBit j := by
  rw [← UInt32.toNat_inj, UInt32.toNat_and]
  constructor
  · intro h j hj
    rw [← h, Nat.testBit_and] at hj
    exact (Bool.and_eq_true _ _ ▸ hj).1
  · intro h
    apply Nat.eq_of_testBit_eq
    intro j
    rw [Nat.testBit_and]
    cases hm : m.toNat.testBit j
    · simp
    · simp [h j hm]

end Rsyslog.Common
