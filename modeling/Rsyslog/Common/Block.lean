import Rsyslog.Common.Tlv

/-!
# C objects with bounds

An object that `malloc`, `realloc` or a declaration creates is a block: a number of bytes and
their contents. A pointer into it is an offset from the block's base, signed since C pointer
arithmetic may step before the base. An access touches a range of offsets and is defined only
when the range lies inside the block; `read` and `write` answer `none` for any other range, so
a model whose run ends in `some` made no access outside the objects it was given.

`memcpy` reads its source range whole before it writes, so `memmove` is a `memcpy` from the
block to itself. `realloc` keeps the bytes of the old block that fit in the new one; the rest
of a new block holds whatever the allocator left there, given as a function.

An `int` converted to `size_t` is taken modulo `2^64`, so a negative count becomes a count no
block holds.
-/

namespace Rsyslog.Common

/-- A C object: `cap` bytes from its base, and their contents. -/
structure Block where
  cap : ℕ
  data : ℕ → UInt8

namespace Block

/-- Whether the `n` bytes starting `off` bytes after the base lie inside the block. -/
def InBounds (b : Block) (off : ℤ) (n : ℕ) : Prop :=
  0 ≤ off ∧ off + n ≤ b.cap

instance (b : Block) (off : ℤ) (n : ℕ) : Decidable (b.InBounds off n) :=
  inferInstanceAs (Decidable (0 ≤ off ∧ off + n ≤ b.cap))

/-- Reading `n` bytes at `off`; `none` when the range leaves the block. -/
def read (b : Block) (off : ℤ) (n : ℕ) : Option (List UInt8) :=
  if b.InBounds off n then some (getBytes b.data off.toNat n) else none

/-- Storing bytes at `off`; `none` when the range leaves the block. -/
def write (b : Block) (off : ℤ) (src : List UInt8) : Option Block :=
  if b.InBounds off src.length then some ⟨b.cap, putBytes b.data off.toNat src⟩ else none

/-- `memcpy(dst + dOff, src + sOff, n)`. -/
def memcpy (dst : Block) (dOff : ℤ) (src : Block) (sOff : ℤ) (n : ℕ) : Option Block := do
  dst.write dOff (← src.read sOff n)

/-- `memmove(b + dOff, b + sOff, n)`. -/
def memmove (b : Block) (dOff sOff : ℤ) (n : ℕ) : Option Block :=
  b.memcpy dOff b sOff n

/-- The object `malloc(n)` returns. -/
def malloc (n : ℕ) (fresh : ℕ → UInt8) : Block :=
  ⟨n, fresh⟩

/-- The object `realloc(b, n)` returns: the bytes of `b` that fit, then fresh ones. -/
def realloc (b : Block) (n : ℕ) (fresh : ℕ → UInt8) : Block :=
  ⟨n, fun i => if i < min b.cap n then b.data i else fresh i⟩

/-- A byte string as the object holding it. -/
def ofList (l : List UInt8) : Block :=
  ⟨l.length, bufferOf l⟩

variable {b dst src : Block} {off dOff sOff : ℤ} {n : ℕ}

theorem read_of_inBounds (h : b.InBounds off n) :
    b.read off n = some (getBytes b.data off.toNat n) := by
  rw [read, if_pos h]

theorem write_of_inBounds {l : List UInt8} (h : b.InBounds off l.length) :
    b.write off l = some ⟨b.cap, putBytes b.data off.toNat l⟩ := by
  rw [write, if_pos h]

theorem write_of_not_inBounds {l : List UInt8} (h : ¬b.InBounds off l.length) :
    b.write off l = none := by
  rw [write, if_neg h]

/-- A write inside the block stores its bytes. -/
theorem write_natCast {l : List UInt8} {k : ℕ} (h : k + l.length ≤ b.cap) :
    b.write k l = some ⟨b.cap, putBytes b.data k l⟩ := by
  rw [write_of_inBounds ⟨Int.natCast_nonneg k, by omega⟩, Int.toNat_natCast]

/-- A copy between ranges inside both blocks stores the source bytes. -/
theorem memcpy_natCast (dk sk : ℕ) (hs : sk + n ≤ src.cap) (hd : dk + n ≤ dst.cap) :
    dst.memcpy dk src sk n = some ⟨dst.cap, putBytes dst.data dk (getBytes src.data sk n)⟩ := by
  rw [memcpy, read_of_inBounds ⟨Int.natCast_nonneg sk, by omega⟩, Int.toNat_natCast]
  exact write_natCast (by simpa using hd)

/-- A copy whose destination leaves its block faults, whatever the source holds. -/
theorem memcpy_of_not_inBounds (hs : src.InBounds sOff n) (hd : ¬dst.InBounds dOff n) :
    dst.memcpy dOff src sOff n = none := by
  rw [memcpy, read_of_inBounds hs]
  exact write_of_not_inBounds (by simpa using hd)

/-- The first `k` bytes of a block survive a `realloc` to at least `k` bytes. -/
theorem getBytes_realloc {k : ℕ} (fresh : ℕ → UInt8) (hb : k ≤ b.cap) (hn : k ≤ n) :
    getBytes (b.realloc n fresh).data 0 k = getBytes b.data 0 k := by
  apply getBytes_congr
  intro i hi
  simp only [realloc, Nat.zero_add]
  rw [if_pos (by omega)]

theorem read_ofList (l : List UInt8) : (ofList l).read 0 l.length = some l := by
  rw [read_of_inBounds ⟨Int.le_refl 0, by simp [ofList]⟩]
  simp [ofList]

end Block

@[simp] theorem putBytes_nil (b : ℕ → UInt8) (off : ℕ) : putBytes b off [] = b := by
  funext j
  simp [putBytes]

/-- Storing the bytes a range already holds changes nothing. -/
theorem putBytes_getBytes_self (b : ℕ → UInt8) (off n : ℕ) : putBytes b off (getBytes b off n) = b := by
  funext j
  by_cases hj : off ≤ j ∧ j < off + n
  · obtain ⟨i, rfl⟩ := Nat.exists_eq_add_of_le hj.1
    rw [putBytes_apply_add _ _ _ (by simp; omega)]
    simp [getBytes]
  · exact putBytes_apply_of_disjoint (by simp; omega)

/-- A write between a prefix and a suffix it leaves in place: the range over the three holds
them in order. -/
theorem getBytes_putBytes_between {b : ℕ → UInt8} {k : ℕ} {pre src suf : List UInt8}
    (hk : pre.length = k) (hpre : getBytes b 0 k = pre)
    (hsuf : getBytes b (k + src.length) suf.length = suf) :
    getBytes (putBytes b k src) 0 (k + src.length + suf.length) = pre ++ src ++ suf := by
  subst hk
  rw [getBytes_add, getBytes_add, Nat.zero_add, Nat.zero_add, getBytes_putBytes,
    getBytes_putBytes_of_disjoint _ _ (.inl (by omega)),
    getBytes_putBytes_of_disjoint _ _ (.inr (by omega)), hpre, hsuf]

/-- The conversion of a C `int` to `size_t`. -/
def toSizeT (v : ℤ) : ℕ :=
  (v % 2 ^ 64).toNat

theorem toSizeT_of_nonneg {v : ℤ} (h0 : 0 ≤ v) (h : v < 2 ^ 64) : toSizeT v = v.toNat := by
  rw [toSizeT, Int.emod_eq_of_lt h0 h]

/-- The first `k` bytes of a range. -/
theorem take_getBytes (b : ℕ → UInt8) (off : ℕ) {k n : ℕ} (h : k ≤ n) :
    (getBytes b off n).take k = getBytes b off k := by
  obtain ⟨j, rfl⟩ := Nat.exists_eq_add_of_le h
  rw [getBytes_add, List.take_left' (getBytes_length _ _ _)]

/-- A range without its first `k` bytes. -/
theorem drop_getBytes (b : ℕ → UInt8) (off : ℕ) {k n : ℕ} (h : k ≤ n) :
    (getBytes b off n).drop k = getBytes b (off + k) (n - k) := by
  obtain ⟨j, rfl⟩ := Nat.exists_eq_add_of_le h
  rw [getBytes_add, List.drop_left' (getBytes_length _ _ _), Nat.add_sub_cancel_left]

/-- An `int` sum or difference that stays in range does not wrap. -/
theorem int32_toInt_add {a b : Int32} (h0 : -2 ^ 31 ≤ a.toInt + b.toInt)
    (h1 : a.toInt + b.toInt < 2 ^ 31) : (a + b).toInt = a.toInt + b.toInt := by
  rw [Int32.toInt_add, Int.bmod_eq_of_le (by omega) (by omega)]

theorem int32_toInt_sub {a b : Int32} (h0 : -2 ^ 31 ≤ a.toInt - b.toInt)
    (h1 : a.toInt - b.toInt < 2 ^ 31) : (a - b).toInt = a.toInt - b.toInt := by
  rw [Int32.toInt_sub, Int.bmod_eq_of_le (by omega) (by omega)]

/-- A non-negative `int` converted to `size_t` keeps its value. -/
theorem toSizeT_int32 {v : Int32} {n : ℕ} (h : v.toInt = n) : toSizeT v.toInt = n := by
  have hlt := Int32.toInt_lt v
  rw [toSizeT_of_nonneg (by omega) (by omega), h, Int.toNat_natCast]

end Rsyslog.Common
