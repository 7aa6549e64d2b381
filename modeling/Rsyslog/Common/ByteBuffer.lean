import Mathlib.Data.Nat.Bitwise
import Mathlib.Data.List.TakeWhile

/-!
# Big-endian fields in a byte-addressed buffer

A C byte array is modelled as a function from offsets to bytes; only the offsets the code
addresses carry meaning. `putBytes` is `memcpy` into the buffer, the `put*` writers store an
unsigned integer most significant byte first and the `get*` readers reassemble it with shifts
and `|`, in the form the hand-written helpers of on-disk formats use.

Each reader inverts its writer, and a write leaves every offset outside its range unchanged,
so a record written field by field at disjoint offsets reads back field by field. A layout
table (`writeFields`) lists such fields with their offsets; when the ranges of its fields are
pairwise disjoint, a decidable condition on offsets and lengths, every field reads back.

A string kept without its length, as a `char *`, is read up to its first NUL: `cString` is
that reading of a byte string, the identity on byte strings without NUL.
-/

namespace Rsyslog.Common

/-- Copy a byte string into a buffer at an offset, as `memcpy(b + off, src, len)`. -/
def putBytes (b : ℕ → UInt8) (off : ℕ) (src : List UInt8) : ℕ → UInt8 :=
  fun j => if off ≤ j then src.getD (j - off) (b j) else b j

/-- The `len` consecutive bytes of a buffer starting at an offset. -/
def getBytes (b : ℕ → UInt8) (off len : ℕ) : List UInt8 :=
  (List.range len).map fun i => b (off + i)

/-- The two bytes of a 16-bit value, most significant first. -/
def be16 (v : UInt16) : List UInt8 :=
  [(v >>> 8).toUInt8, v.toUInt8]

/-- The four bytes of a 32-bit value, most significant first. -/
def be32 (v : UInt32) : List UInt8 :=
  [(v >>> 24).toUInt8, (v >>> 16).toUInt8, (v >>> 8).toUInt8, v.toUInt8]

/-- The eight bytes of a 64-bit value: the high word, then the low word. -/
def be64 (v : UInt64) : List UInt8 :=
  be32 (v >>> 32).toUInt32 ++ be32 v.toUInt32

/-- Store a 16-bit value big-endian at an offset. -/
abbrev put16 (b : ℕ → UInt8) (off : ℕ) (v : UInt16) : ℕ → UInt8 :=
  putBytes b off (be16 v)

/-- Store a 32-bit value big-endian at an offset. -/
abbrev put32 (b : ℕ → UInt8) (off : ℕ) (v : UInt32) : ℕ → UInt8 :=
  putBytes b off (be32 v)

/-- Store a 64-bit value big-endian at an offset. -/
abbrev put64 (b : ℕ → UInt8) (off : ℕ) (v : UInt64) : ℕ → UInt8 :=
  putBytes b off (be64 v)

/-- Read a big-endian 16-bit value at an offset. -/
def get16 (b : ℕ → UInt8) (off : ℕ) : UInt16 :=
  ((b off).toUInt16 <<< 8) ||| (b (off + 1)).toUInt16

/-- Read a big-endian 32-bit value at an offset. -/
def get32 (b : ℕ → UInt8) (off : ℕ) : UInt32 :=
  ((b off).toUInt32 <<< 24) ||| ((b (off + 1)).toUInt32 <<< 16) |||
    ((b (off + 2)).toUInt32 <<< 8) ||| (b (off + 3)).toUInt32

/-- Read a big-endian 64-bit value at an offset: the high word, then the low word. -/
def get64 (b : ℕ → UInt8) (off : ℕ) : UInt64 :=
  ((get32 b off).toUInt64 <<< 32) ||| (get32 b (off + 4)).toUInt64

@[simp] theorem be16_length (v : UInt16) : (be16 v).length = 2 := rfl

@[simp] theorem be32_length (v : UInt32) : (be32 v).length = 4 := rfl

@[simp] theorem be64_length (v : UInt64) : (be64 v).length = 8 := rfl

@[simp] theorem getBytes_length (b : ℕ → UInt8) (off len : ℕ) :
    (getBytes b off len).length = len := by
  simp [getBytes]

/-- The bytes of a range, listed by position. -/
theorem getBytes_eq_ofFn (b : ℕ → UInt8) (off len : ℕ) :
    getBytes b off len = List.ofFn fun i : Fin len => b (off + i) := by
  apply List.ext_getElem (by simp)
  intro i hi _
  simp [getBytes]

/-- Offsets below the copied range keep their bytes. -/
theorem putBytes_apply_of_lt {b : ℕ → UInt8} {off j : ℕ} (src : List UInt8) (h : j < off) :
    putBytes b off src j = b j := by
  simp [putBytes, Nat.not_le.mpr h]

/-- Offsets past the copied range keep their bytes. -/
theorem putBytes_apply_of_le {b : ℕ → UInt8} {off j : ℕ} {src : List UInt8}
    (h : off + src.length ≤ j) : putBytes b off src j = b j := by
  simp only [putBytes, show off ≤ j by omega, if_true]
  exact List.getD_eq_default _ _ (by omega)

/-- A write outside `[off, off + src.length)` is invisible at `j`. -/
theorem putBytes_apply_of_disjoint {b : ℕ → UInt8} {off j : ℕ} {src : List UInt8}
    (h : j < off ∨ off + src.length ≤ j) : putBytes b off src j = b j := by
  rcases h with h | h
  · exact putBytes_apply_of_lt src h
  · exact putBytes_apply_of_le h

/-- Inside the copied range the buffer holds the copied byte. -/
theorem putBytes_apply_add (b : ℕ → UInt8) (off : ℕ) (src : List UInt8) {i : ℕ}
    (h : i < src.length) : putBytes b off src (off + i) = src[i] := by
  simp [putBytes, List.getElem?_eq_getElem h]

/-- Reading back a copied range returns the copied bytes. -/
theorem getBytes_putBytes (b : ℕ → UInt8) (off : ℕ) (src : List UInt8) :
    getBytes (putBytes b off src) off src.length = src := by
  apply List.ext_getElem (by simp)
  intro i hi _
  simp only [getBytes, List.getElem_map, List.getElem_range]
  exact putBytes_apply_add b off src (by simpa using hi)

/-- A byte string read from a buffer depends only on the bytes in its range. -/
theorem getBytes_congr {b b' : ℕ → UInt8} {off len : ℕ}
    (h : ∀ i < len, b (off + i) = b' (off + i)) : getBytes b off len = getBytes b' off len := by
  apply List.ext_getElem (by simp)
  intro i hi _
  simpa [getBytes] using h i (by simpa using hi)

/-- A 32-bit read depends only on its four bytes. -/
theorem get32_congr {b b' : ℕ → UInt8} {off : ℕ}
    (h : ∀ i < 4, b (off + i) = b' (off + i)) : get32 b off = get32 b' off := by
  have h0 := h 0 (by omega)
  have h1 := h 1 (by omega)
  have h2 := h 2 (by omega)
  have h3 := h 3 (by omega)
  simp only [Nat.add_zero] at h0
  simp only [get32, h0, h1, h2, h3]

/-- A 16-bit read depends only on its two bytes. -/
theorem get16_congr {b b' : ℕ → UInt8} {off : ℕ}
    (h : ∀ i < 2, b (off + i) = b' (off + i)) : get16 b off = get16 b' off := by
  have h0 := h 0 (by omega)
  have h1 := h 1 (by omega)
  simp only [Nat.add_zero] at h0
  simp only [get16, h0, h1]

/-- A 64-bit read depends only on its eight bytes. -/
theorem get64_congr {b b' : ℕ → UInt8} {off : ℕ}
    (h : ∀ i < 8, b (off + i) = b' (off + i)) : get64 b off = get64 b' off := by
  have hhi : get32 b off = get32 b' off := get32_congr fun i hi => h i (by omega)
  have hlo : get32 b (off + 4) = get32 b' (off + 4) := get32_congr fun i hi => by
    rw [Nat.add_assoc]
    exact h (4 + i) (by omega)
  simp only [get64, hhi, hlo]

/-- Copying a concatenation is copying its two parts one after the other. -/
theorem putBytes_append (b : ℕ → UInt8) (off : ℕ) (src₁ src₂ : List UInt8) :
    putBytes b off (src₁ ++ src₂) = putBytes (putBytes b off src₁) (off + src₁.length) src₂ := by
  funext j
  by_cases hj : j < off + src₁.length
  · rw [putBytes_apply_of_lt src₂ hj]
    by_cases hlo : j < off
    · rw [putBytes_apply_of_lt _ hlo, putBytes_apply_of_lt _ hlo]
    · obtain ⟨i, rfl⟩ := Nat.exists_eq_add_of_le (Nat.not_lt.mp hlo)
      rw [putBytes_apply_add _ _ _ (by simp; omega), putBytes_apply_add _ _ _ (by omega),
        List.getElem_append_left]
  · obtain ⟨i, rfl⟩ := Nat.exists_eq_add_of_le (Nat.not_lt.mp hj)
    by_cases hi : i < src₂.length
    · rw [putBytes_apply_add _ _ _ hi, Nat.add_assoc,
        putBytes_apply_add _ _ _ (by simp; omega), List.getElem_append_right (by omega)]
      simp
    · rw [putBytes_apply_of_le (by simp; omega), putBytes_apply_of_le (by omega),
        putBytes_apply_of_le (by omega)]

/-- A 64-bit store is the store of its high word followed by its low word. -/
theorem put64_eq (b : ℕ → UInt8) (off : ℕ) (v : UInt64) :
    put64 b off v = put32 (put32 b off (v >>> 32).toUInt32) (off + 4) v.toUInt32 := by
  rw [put64, be64, putBytes_append, be32_length]

/-- A byte shifted left inside a wider word loses nothing to the word's width. -/
theorem byte_shiftLeft_mod {x k w : ℕ} (hx : x < 2 ^ 8) (hk : k + 8 ≤ w) :
    x <<< k % 2 ^ w = 2 ^ k * x := by
  rw [Nat.shiftLeft_eq, Nat.mul_comm]
  apply Nat.mod_eq_of_lt
  calc 2 ^ k * x < 2 ^ k * 2 ^ 8 := Nat.mul_lt_mul_of_pos_left hx (Nat.two_pow_pos k)
    _ = 2 ^ (k + 8) := (Nat.pow_add 2 k 8).symm
    _ ≤ 2 ^ w := Nat.pow_le_pow_right (by decide) hk

/-- The 16-bit reader inverts the 16-bit writer. -/
@[simp] theorem get16_put16 (b : ℕ → UInt8) (off : ℕ) (v : UInt16) :
    get16 (put16 b off v) off = v := by
  have h0 : put16 b off v (off + 0) = (v >>> 8).toUInt8 :=
    putBytes_apply_add b off (be16 v) (by simp)
  have h1 : put16 b off v (off + 1) = v.toUInt8 := putBytes_apply_add b off (be16 v) (by simp)
  rw [Nat.add_zero] at h0
  rw [get16, h0, h1]
  apply UInt16.toNat_inj.mp
  have hv := v.toNat_lt
  simp only [UInt16.toNat_or, UInt16.toNat_shiftLeft, UInt8.toNat_toUInt16, UInt16.toNat_toUInt8,
    UInt16.toNat_shiftRight, UInt16.reduceToNat, Nat.reduceMod, Nat.shiftRight_eq_div_pow]
  rw [byte_shiftLeft_mod (Nat.mod_lt _ (by decide)) (by decide),
    ← Nat.two_pow_add_eq_or_of_lt (Nat.mod_lt _ (by decide))]
  omega

/-- The 32-bit reader inverts the 32-bit writer. -/
@[simp] theorem get32_put32 (b : ℕ → UInt8) (off : ℕ) (v : UInt32) :
    get32 (put32 b off v) off = v := by
  have h0 : put32 b off v (off + 0) = (v >>> 24).toUInt8 :=
    putBytes_apply_add b off (be32 v) (by simp)
  have h1 : put32 b off v (off + 1) = (v >>> 16).toUInt8 :=
    putBytes_apply_add b off (be32 v) (by simp)
  have h2 : put32 b off v (off + 2) = (v >>> 8).toUInt8 :=
    putBytes_apply_add b off (be32 v) (by simp)
  have h3 : put32 b off v (off + 3) = v.toUInt8 := putBytes_apply_add b off (be32 v) (by simp)
  rw [Nat.add_zero] at h0
  rw [get32, h0, h1, h2, h3]
  apply UInt32.toNat_inj.mp
  have hv := v.toNat_lt
  simp only [UInt32.toNat_or, UInt32.toNat_shiftLeft, UInt8.toNat_toUInt32, UInt32.toNat_toUInt8,
    UInt32.toNat_shiftRight, UInt32.reduceToNat, Nat.reduceMod, Nat.shiftRight_eq_div_pow]
  -- reassociate the `|` chain to the right so that each step adds one byte below the others
  rw [byte_shiftLeft_mod (Nat.mod_lt _ (by decide)) (by decide),
    byte_shiftLeft_mod (Nat.mod_lt _ (by decide)) (by decide),
    byte_shiftLeft_mod (Nat.mod_lt _ (by decide)) (by decide), Nat.lor_assoc, Nat.lor_assoc,
    ← Nat.two_pow_add_eq_or_of_lt (Nat.mod_lt _ (by decide)),
    ← Nat.two_pow_add_eq_or_of_lt
      (by omega : 2 ^ 8 * (v.toNat / 2 ^ 8 % 2 ^ 8) + v.toNat % 2 ^ 8 < 2 ^ 16),
    ← Nat.two_pow_add_eq_or_of_lt (by omega)]
  omega

/-- The 64-bit reader inverts the 64-bit writer. -/
@[simp] theorem get64_put64 (b : ℕ → UInt8) (off : ℕ) (v : UInt64) :
    get64 (put64 b off v) off = v := by
  have hhi : get32 (put64 b off v) off = (v >>> 32).toUInt32 := by
    rw [put64_eq]
    calc get32 (put32 (put32 b off (v >>> 32).toUInt32) (off + 4) v.toUInt32) off
        = get32 (put32 b off (v >>> 32).toUInt32) off :=
          get32_congr fun i hi => putBytes_apply_of_lt _ (by omega)
      _ = (v >>> 32).toUInt32 := get32_put32 _ _ _
  have hlo : get32 (put64 b off v) (off + 4) = v.toUInt32 := by
    rw [put64_eq, get32_put32]
  rw [get64, hhi, hlo]
  apply UInt64.toNat_inj.mp
  have hv := v.toNat_lt
  simp only [UInt64.toNat_or, UInt64.toNat_shiftLeft, UInt32.toNat_toUInt64,
    UInt64.toNat_toUInt32, UInt64.toNat_shiftRight, UInt64.reduceToNat, Nat.reduceMod,
    Nat.shiftRight_eq_div_pow]
  rw [Nat.shiftLeft_eq, Nat.mod_eq_of_lt (by omega), Nat.mul_comm,
    ← Nat.two_pow_add_eq_or_of_lt (Nat.mod_lt _ (by decide))]
  omega

/-- A copy that misses a read range leaves the bytes read there unchanged. -/
theorem getBytes_putBytes_of_disjoint (b : ℕ → UInt8) {off off' len : ℕ} (src : List UInt8)
    (h : off' + len ≤ off ∨ off + src.length ≤ off') :
    getBytes (putBytes b off src) off' len = getBytes b off' len :=
  getBytes_congr fun _ _ => putBytes_apply_of_disjoint (by omega)

/-- A copy that misses a 16-bit field leaves it unchanged. -/
theorem get16_putBytes_of_disjoint (b : ℕ → UInt8) {off off' : ℕ} (src : List UInt8)
    (h : off' + 2 ≤ off ∨ off + src.length ≤ off') :
    get16 (putBytes b off src) off' = get16 b off' :=
  get16_congr fun _ _ => putBytes_apply_of_disjoint (by omega)

/-- A copy that misses a 32-bit field leaves it unchanged. -/
theorem get32_putBytes_of_disjoint (b : ℕ → UInt8) {off off' : ℕ} (src : List UInt8)
    (h : off' + 4 ≤ off ∨ off + src.length ≤ off') :
    get32 (putBytes b off src) off' = get32 b off' :=
  get32_congr fun _ _ => putBytes_apply_of_disjoint (by omega)

/-- A copy that misses a 64-bit field leaves it unchanged. -/
theorem get64_putBytes_of_disjoint (b : ℕ → UInt8) {off off' : ℕ} (src : List UInt8)
    (h : off' + 8 ≤ off ∨ off + src.length ≤ off') :
    get64 (putBytes b off src) off' = get64 b off' :=
  get64_congr fun _ _ => putBytes_apply_of_disjoint (by omega)

/-- Write the fields of a layout table in order, each a `memcpy` of its bytes at its offset. -/
def writeFields (b : ℕ → UInt8) : List (ℕ × List UInt8) → ℕ → UInt8
  | [] => b
  | (off, src) :: rest => writeFields (putBytes b off src) rest

/-- Two byte ranges, given by offset and length, do not overlap. -/
def SpanDisjoint (a c : ℕ × ℕ) : Prop :=
  a.1 + a.2 ≤ c.1 ∨ c.1 + c.2 ≤ a.1

instance (a c : ℕ × ℕ) : Decidable (SpanDisjoint a c) :=
  inferInstanceAs (Decidable (_ ∨ _))

/-- The offset and length of each field of a layout table. -/
def fieldSpans (fields : List (ℕ × List UInt8)) : List (ℕ × ℕ) :=
  fields.map fun f => (f.1, f.2.length)

/-- Writes whose ranges all miss a byte leave that byte unchanged. -/
theorem writeFields_apply_of_disjoint (b : ℕ → UInt8) (fields : List (ℕ × List UInt8)) {j : ℕ}
    (h : ∀ f ∈ fields, j < f.1 ∨ f.1 + f.2.length ≤ j) : writeFields b fields j = b j := by
  induction fields generalizing b with
  | nil => rfl
  | cons f rest ih =>
    obtain ⟨off, src⟩ := f
    rw [writeFields, ih _ fun f hf => h f (List.mem_cons_of_mem _ hf)]
    exact putBytes_apply_of_disjoint (h _ List.mem_cons_self)

/-- A field of a layout table with pairwise disjoint ranges reads back as written. -/
theorem getBytes_writeFields (b : ℕ → UInt8) {fields : List (ℕ × List UInt8)}
    (hdisj : (fieldSpans fields).Pairwise SpanDisjoint) {off : ℕ} {src : List UInt8}
    (hmem : (off, src) ∈ fields) : getBytes (writeFields b fields) off src.length = src := by
  induction fields generalizing b with
  | nil => simp at hmem
  | cons f rest ih =>
    obtain ⟨o, s⟩ := f
    simp only [fieldSpans, List.map_cons, List.pairwise_cons, List.mem_map] at hdisj
    obtain ⟨hhead, hrest⟩ := hdisj
    rw [writeFields]
    rcases List.mem_cons.mp hmem with heq | hmem
    · obtain ⟨rfl, rfl⟩ := Prod.mk.inj heq
      rw [@getBytes_congr _ (putBytes b off src) _ _ fun i hi =>
        writeFields_apply_of_disjoint _ _ fun f hf => by
          have := hhead (f.1, f.2.length) ⟨f, hf, rfl⟩
          simp only [SpanDisjoint] at this
          omega]
      exact getBytes_putBytes b off src
    · exact ih _ hrest hmem

/-- Two buffers with the same bytes in a range agree at every offset of the range. -/
theorem apply_eq_of_getBytes_eq {b b' : ℕ → UInt8} {off len : ℕ}
    (h : getBytes b off len = getBytes b' off len) {i : ℕ} (hi : i < len) :
    b (off + i) = b' (off + i) := by
  have := congrArg (·[i]?) h
  simpa [getBytes, hi] using this

/-- A 64-bit field reads back from any buffer holding its eight bytes. -/
theorem get64_eq_of_getBytes {b : ℕ → UInt8} {off : ℕ} {v : UInt64}
    (h : getBytes b off 8 = be64 v) : get64 b off = v := by
  have hput : getBytes (put64 b off v) off 8 = be64 v := getBytes_putBytes b off (be64 v)
  rw [← get64_put64 b off v]
  exact get64_congr fun i hi => apply_eq_of_getBytes_eq (h.trans hput.symm) hi

/-- A 32-bit field reads back from any buffer holding its four bytes. -/
theorem get32_eq_of_getBytes {b : ℕ → UInt8} {off : ℕ} {v : UInt32}
    (h : getBytes b off 4 = be32 v) : get32 b off = v := by
  have hput : getBytes (put32 b off v) off 4 = be32 v := getBytes_putBytes b off (be32 v)
  rw [← get32_put32 b off v]
  exact get32_congr fun i hi => apply_eq_of_getBytes_eq (h.trans hput.symm) hi

/-- A 16-bit field reads back from any buffer holding its two bytes. -/
theorem get16_eq_of_getBytes {b : ℕ → UInt8} {off : ℕ} {v : UInt16}
    (h : getBytes b off 2 = be16 v) : get16 b off = v := by
  have hput : getBytes (put16 b off v) off 2 = be16 v := getBytes_putBytes b off (be16 v)
  rw [← get16_put16 b off v]
  exact get16_congr fun i hi => apply_eq_of_getBytes_eq (h.trans hput.symm) hi

/-- Writing back a 16-bit value read from a buffer gives the two bytes it was read from. -/
theorem be16_get16 (b : ℕ → UInt8) (off : ℕ) : be16 (get16 b off) = [b off, b (off + 1)] := by
  have hx := (b off).toNat_lt
  have hy := (b (off + 1)).toNat_lt
  have hv : (get16 b off).toNat = 2 ^ 8 * (b off).toNat + (b (off + 1)).toNat := by
    simp only [get16, UInt16.toNat_or, UInt16.toNat_shiftLeft, UInt8.toNat_toUInt16,
      UInt16.reduceToNat, Nat.reduceMod]
    rw [byte_shiftLeft_mod hx (by decide), ← Nat.two_pow_add_eq_or_of_lt hy]
  simp only [be16, List.cons.injEq, and_true]
  constructor
  · apply UInt8.toNat_inj.mp
    simp only [UInt16.toNat_toUInt8, UInt16.toNat_shiftRight, UInt16.reduceToNat, Nat.reduceMod,
      Nat.shiftRight_eq_div_pow, hv]
    omega
  · apply UInt8.toNat_inj.mp
    simp only [UInt16.toNat_toUInt8, hv]
    omega

/-- Writing back a 32-bit value read from a buffer gives the four bytes it was read from. -/
theorem be32_get32 (b : ℕ → UInt8) (off : ℕ) :
    be32 (get32 b off) = [b off, b (off + 1), b (off + 2), b (off + 3)] := by
  have h0 := (b off).toNat_lt
  have h1 := (b (off + 1)).toNat_lt
  have h2 := (b (off + 2)).toNat_lt
  have h3 := (b (off + 3)).toNat_lt
  have hv : (get32 b off).toNat = 2 ^ 24 * (b off).toNat + 2 ^ 16 * (b (off + 1)).toNat +
      2 ^ 8 * (b (off + 2)).toNat + (b (off + 3)).toNat := by
    simp only [get32, UInt32.toNat_or, UInt32.toNat_shiftLeft, UInt8.toNat_toUInt32,
      UInt32.reduceToNat, Nat.reduceMod]
    rw [byte_shiftLeft_mod h0 (by decide), byte_shiftLeft_mod h1 (by decide),
      byte_shiftLeft_mod h2 (by decide), Nat.lor_assoc, Nat.lor_assoc,
      ← Nat.two_pow_add_eq_or_of_lt h3,
      ← Nat.two_pow_add_eq_or_of_lt
        (by omega : 2 ^ 8 * (b (off + 2)).toNat + (b (off + 3)).toNat < 2 ^ 16),
      ← Nat.two_pow_add_eq_or_of_lt (by omega)]
    omega
  simp only [be32, List.cons.injEq, and_true]
  -- each byte of the value is one digit of its base-256 expansion
  refine ⟨?_, ?_, ?_, ?_⟩ <;> apply UInt8.toNat_inj.mp <;>
    simp only [UInt32.toNat_toUInt8, UInt32.toNat_shiftRight, UInt32.reduceToNat, Nat.reduceMod,
      Nat.shiftRight_eq_div_pow, hv] <;> omega

/-! ## Byte strings in memory -/

/-- A byte string laid out from offset `0`, as a buffer holding it. -/
def bufferOf (l : List UInt8) : ℕ → UInt8 :=
  fun i => l.getD i 0

/-- The bytes of a string literal written in ASCII. -/
def asciiBytes (s : String) : List UInt8 :=
  s.toList.map Char.toUInt8

/-- A buffer holding a byte string reads it back. -/
@[simp] theorem getBytes_bufferOf (l : List UInt8) : getBytes (bufferOf l) 0 l.length = l := by
  apply List.ext_getElem (by simp)
  intro i hi _
  simp [getBytes, bufferOf, List.getElem?_eq_getElem (by simpa using hi)]

/-- A window inside a byte string's buffer reads the bytes of the string there. -/
theorem getBytes_bufferOf_eq {l : List UInt8} {off n : ℕ} (h : off + n ≤ l.length) :
    getBytes (bufferOf l) off n = (l.drop off).take n := by
  apply List.ext_getElem
  · simp; omega
  · intro i h1 h2
    have hi : off + i < l.length := by simp at h2; omega
    simp [getBytes, bufferOf, List.getElem?_eq_getElem hi]

/-- A 16-bit field reads back from the buffer of its two bytes. -/
theorem get16_bufferOf_be16 (v : UInt16) : get16 (bufferOf (be16 v)) 0 = v :=
  get16_eq_of_getBytes (getBytes_bufferOf _)

/-- A 32-bit field reads back from the buffer of its four bytes. -/
theorem get32_bufferOf_be32 (v : UInt32) : get32 (bufferOf (be32 v)) 0 = v :=
  get32_eq_of_getBytes (getBytes_bufferOf _)

/-- A 64-bit field reads back from the buffer of its eight bytes. -/
theorem get64_bufferOf_be64 (v : UInt64) : get64 (bufferOf (be64 v)) 0 = v :=
  get64_eq_of_getBytes (getBytes_bufferOf _)

/-- A 32-bit field read from a byte string is the four bytes there. -/
theorem be32_get32_bufferOf {l : List UInt8} {off : ℕ} (h : off + 4 ≤ l.length) :
    be32 (get32 (bufferOf l) off) = (l.drop off).take 4 := by
  rw [be32_get32, ← getBytes_bufferOf_eq h]
  rfl

/-- The string a `char *` designates: its bytes up to the first NUL, which is what `strlen`
counts and `strdup` copies. -/
def cString (s : List UInt8) : List UInt8 :=
  s.takeWhile (· ≠ 0)

/-- A byte string without NUL is its own C string. -/
@[simp] theorem cString_of_nul_free {s : List UInt8} (h : 0 ∉ s) : cString s = s :=
  List.takeWhile_eq_self_iff.mpr fun x hx => by
    simpa using ne_of_mem_of_not_mem hx h

/-- A C string holds no NUL. -/
theorem nul_not_mem_cString (s : List UInt8) : 0 ∉ cString s := fun h => by
  simpa using List.mem_takeWhile_imp h

/-- Taking the C string of a C string changes nothing. -/
@[simp] theorem cString_cString (s : List UInt8) : cString (cString s) = cString s :=
  cString_of_nul_free (nul_not_mem_cString s)

/-- `hexdigit`, the upper-case hex digits `msg.c` and `parser.c` print bytes with. -/
def hexdigit : List UInt8 :=
  asciiBytes "0123456789ABCDEF"

end Rsyslog.Common
