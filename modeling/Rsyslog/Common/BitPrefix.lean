import Mathlib.Data.Nat.Bitwise

/-!
# Prefixes of byte strings

A network prefix `a/b` stands for the addresses whose first `b` bits are those of `a`. The bits
of a byte string are counted in network order: bit 0 is the most significant bit of the first
byte. Masking a string with the mask of its first `b` bits keeps those bits and clears the rest,
so two strings of one length agree on their first `b` bits iff their masked forms are equal;
that is what lets a prefix test be written as a masked comparison. Masking is idempotent, so a
prefix test against an address that was masked beforehand is the same test as against the
address itself.
-/

namespace Rsyslog.Common

/-- Bit `i` of a byte string in network order; past the end of the string every bit is clear. -/
def netBit (xs : List UInt8) (i : ℕ) : Bool :=
  (xs.getD (i / 8) 0).toNat.testBit (7 - i % 8)

/-- Two byte strings agree on their first `b` bits. -/
def PrefixAgree (b : ℕ) (xs ys : List UInt8) : Prop :=
  ∀ i < b, netBit xs i = netBit ys i

instance (b : ℕ) (xs ys : List UInt8) : Decidable (PrefixAgree b xs ys) :=
  inferInstanceAs (Decidable (∀ i < b, netBit xs i = netBit ys i))

/-- The byte that keeps the first `j` bits of a byte, for `j ≤ 8`. -/
def bytePrefixMask (j : ℕ) : UInt8 :=
  UInt8.ofNat (2 ^ 8 - 2 ^ (8 - j))

/-- The mask of the first `b` bits of a string of `n` bytes. -/
def prefixMask : ℕ → ℕ → List UInt8
  | 0, _ => []
  | n + 1, b => bytePrefixMask (min 8 b) :: prefixMask n (b - 8)

/-- Bytewise and: the `&` of two words held as their bytes in memory. -/
def andBytes (xs ys : List UInt8) : List UInt8 :=
  List.zipWith (· &&& ·) xs ys

/-! ## Bits of a byte string -/

theorem netBit_cons_of_lt {x : UInt8} {xs : List UInt8} {i : ℕ} (hi : i < 8) :
    netBit (x :: xs) i = x.toNat.testBit (7 - i) := by
  simp [netBit, Nat.div_eq_of_lt hi, Nat.mod_eq_of_lt hi]

theorem netBit_cons_add (x : UInt8) (xs : List UInt8) (i : ℕ) :
    netBit (x :: xs) (i + 8) = netBit xs i := by
  have hdiv : (i + 8) / 8 = i / 8 + 1 := by omega
  simp [netBit, hdiv]

/-- The first `b` bits of two strings: those of the first bytes, then the rest. -/
theorem prefixAgree_cons {b : ℕ} {x y : UInt8} {xs ys : List UInt8} :
    PrefixAgree b (x :: xs) (y :: ys) ↔
      (∀ i < min 8 b, x.toNat.testBit (7 - i) = y.toNat.testBit (7 - i)) ∧
        PrefixAgree (b - 8) xs ys := by
  constructor
  · intro h
    refine ⟨fun i hi => ?_, fun i hi => ?_⟩
    · have := h i (by omega)
      rwa [netBit_cons_of_lt (by omega), netBit_cons_of_lt (by omega)] at this
    · have := h (i + 8) (by omega)
      rwa [netBit_cons_add, netBit_cons_add] at this
  · rintro ⟨hhead, htail⟩ i hi
    by_cases hi8 : i < 8
    · rw [netBit_cons_of_lt hi8, netBit_cons_of_lt hi8]
      exact hhead i (by omega)
    · obtain ⟨k, rfl⟩ : ∃ k, i = k + 8 := ⟨i - 8, by omega⟩
      rw [netBit_cons_add, netBit_cons_add]
      exact htail k (by omega)

/-! ## Masking one byte -/

/-- The mask of the first `j` bits has exactly the low bits from `8 - j` to 7 set. -/
theorem testBit_bytePrefixMask {j : ℕ} (hj : j ≤ 8) (t : ℕ) :
    (bytePrefixMask j).toNat.testBit t = (decide (8 - j ≤ t) && decide (t < 8)) := by
  by_cases ht : t < 8
  · have key : ∀ j < 9, ∀ t < 8,
        (bytePrefixMask j).toNat.testBit t = (decide (8 - j ≤ t) && decide (t < 8)) := by
      decide
    exact key j (by omega) t ht
  · rw [Nat.testBit_lt_two_pow (lt_of_lt_of_le (bytePrefixMask j).toNat_lt
      (Nat.pow_le_pow_right (by omega) (by omega)))]
    simp [ht]

/-- Two bytes are equal under a mask iff they agree on the bits the mask keeps. -/
theorem and_eq_and_iff {x y m : UInt8} :
    x &&& m = y &&& m ↔ ∀ t, m.toNat.testBit t → x.toNat.testBit t = y.toNat.testBit t := by
  rw [← UInt8.toNat_inj, UInt8.toNat_and, UInt8.toNat_and]
  constructor
  · intro h t hm
    have := congrArg (Nat.testBit · t) h
    simpa [Nat.testBit_and, hm] using this
  · intro h
    apply Nat.eq_of_testBit_eq
    intro t
    rw [Nat.testBit_and, Nat.testBit_and]
    cases hm : m.toNat.testBit t
    · simp
    · simp [h t hm]

/-- A byte masked to its first `j` bits keeps those bits, counted from the top. -/
theorem and_bytePrefixMask_eq_iff {x y : UInt8} {j : ℕ} (hj : j ≤ 8) :
    x &&& bytePrefixMask j = y &&& bytePrefixMask j ↔
      ∀ i < j, x.toNat.testBit (7 - i) = y.toNat.testBit (7 - i) := by
  rw [and_eq_and_iff]
  constructor
  · intro h i hi
    exact h (7 - i) (by rw [testBit_bytePrefixMask hj]; simp; omega)
  · intro h t ht
    rw [testBit_bytePrefixMask hj] at ht
    simp only [Bool.and_eq_true, decide_eq_true_eq] at ht
    have := h (7 - t) (by omega)
    rwa [show 7 - (7 - t) = t by omega] at this

/-! ## Masking a string -/

@[simp]
theorem length_andBytes (xs ys : List UInt8) :
    (andBytes xs ys).length = min xs.length ys.length := by
  simp [andBytes]

@[simp]
theorem length_prefixMask (n b : ℕ) : (prefixMask n b).length = n := by
  induction n generalizing b with
  | zero => rfl
  | succ n ih => simp [prefixMask, ih]

theorem andBytes_cons (x m : UInt8) (xs ms : List UInt8) :
    andBytes (x :: xs) (m :: ms) = (x &&& m) :: andBytes xs ms := rfl

theorem andBytes_append {xs ms : List UInt8} (ys ns : List UInt8)
    (h : xs.length = ms.length) :
    andBytes (xs ++ ys) (ms ++ ns) = andBytes xs ms ++ andBytes ys ns :=
  List.zipWith_append h

/-- The main fact: masked equality is agreement on the prefix. -/
theorem andBytes_prefixMask_eq_iff {n b : ℕ} {xs ys : List UInt8} (hx : xs.length = n)
    (hy : ys.length = n) :
    andBytes xs (prefixMask n b) = andBytes ys (prefixMask n b) ↔ PrefixAgree b xs ys := by
  -- induction on the length, byte by byte, with the prefix shrinking by 8 bits each time
  induction n generalizing xs ys b with
  | zero =>
    rw [List.length_eq_zero_iff] at hx hy
    subst hx hy
    exact ⟨fun _ i _ => rfl, fun _ => rfl⟩
  | succ n ih =>
    obtain ⟨x, xs, rfl⟩ := List.exists_cons_of_length_eq_add_one hx
    obtain ⟨y, ys, rfl⟩ := List.exists_cons_of_length_eq_add_one hy
    simp only [List.length_cons, Nat.add_right_cancel_iff] at hx hy
    rw [prefixMask, andBytes_cons, andBytes_cons, List.cons.injEq, prefixAgree_cons,
      and_bytePrefixMask_eq_iff (min_le_left 8 b), ih hx hy]

/-- Masking twice is masking once. -/
theorem andBytes_prefixMask_idem {n b : ℕ} {xs : List UInt8} (hx : xs.length = n) :
    andBytes (andBytes xs (prefixMask n b)) (prefixMask n b) = andBytes xs (prefixMask n b) := by
  induction n generalizing xs b with
  | zero =>
    rw [List.length_eq_zero_iff] at hx
    subst hx
    rfl
  | succ n ih =>
    obtain ⟨x, xs, rfl⟩ := List.exists_cons_of_length_eq_add_one hx
    simp only [List.length_cons, Nat.add_right_cancel_iff] at hx
    rw [prefixMask, andBytes_cons, andBytes_cons, ih hx, UInt8.and_assoc, UInt8.and_self]

/-- A string agrees with its masked form on the prefix. -/
theorem prefixAgree_andBytes_iff {n b : ℕ} {xs ys : List UInt8} (hx : xs.length = n)
    (hy : ys.length = n) :
    PrefixAgree b xs (andBytes ys (prefixMask n b)) ↔ PrefixAgree b xs ys := by
  have hm : (andBytes ys (prefixMask n b)).length = n := by simp [hy]
  rw [← andBytes_prefixMask_eq_iff hx hm, andBytes_prefixMask_idem hy,
    andBytes_prefixMask_eq_iff hx hy]

/-! ## Masks of whole bytes -/

theorem prefixMask_add (m n b : ℕ) :
    prefixMask (m + n) b = prefixMask m b ++ prefixMask n (b - 8 * m) := by
  induction m generalizing b with
  | zero => simp [prefixMask]
  | succ m ih =>
    rw [Nat.add_right_comm, prefixMask, ih, prefixMask, List.cons_append, Nat.sub_sub]
    congr 3
    omega

/-- A prefix that covers the string keeps every byte whole. -/
theorem prefixMask_of_le {n b : ℕ} (h : 8 * n ≤ b) : prefixMask n b = List.replicate n 0xff := by
  induction n generalizing b with
  | zero => rfl
  | succ n ih =>
    rw [prefixMask, ih (by omega), min_eq_left (by omega)]
    rfl

/-- The empty prefix clears every byte. -/
theorem prefixMask_zero_right (n : ℕ) : prefixMask n 0 = List.replicate n 0 := by
  induction n with
  | zero => rfl
  | succ n ih =>
    rw [prefixMask, ih]
    rfl

theorem andBytes_replicate_ff {xs : List UInt8} {n : ℕ} (hx : xs.length = n) :
    andBytes xs (List.replicate n 0xff) = xs := by
  induction n generalizing xs with
  | zero => exact (List.length_eq_zero_iff.mp hx).symm ▸ rfl
  | succ n ih =>
    obtain ⟨x, xs, rfl⟩ := List.exists_cons_of_length_eq_add_one hx
    rw [List.replicate_succ, andBytes_cons, ih (by simpa using hx)]
    congr 1
    apply UInt8.toNat_inj.mp
    rw [UInt8.toNat_and, show (0xff : UInt8).toNat = 2 ^ 8 - 1 from rfl,
      Nat.and_two_pow_sub_one_eq_mod, Nat.mod_eq_of_lt x.toNat_lt]

theorem andBytes_replicate_zero {xs : List UInt8} {n : ℕ} (hx : xs.length = n) :
    andBytes xs (List.replicate n 0) = List.replicate n 0 := by
  induction n generalizing xs with
  | zero => exact (List.length_eq_zero_iff.mp hx).symm ▸ rfl
  | succ n ih =>
    obtain ⟨x, xs, rfl⟩ := List.exists_cons_of_length_eq_add_one hx
    rw [List.replicate_succ, andBytes_cons, ih (by simpa using hx), UInt8.and_zero]

end Rsyslog.Common
