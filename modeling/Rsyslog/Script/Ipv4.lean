import Rsyslog.Script.Value

/-!
# The IPv4 conversions of RainerScript (`ipv42num`, `num2ipv4`)

`doFunct_Ipv42num` scans the C string of its argument byte by byte with four unsigned
accumulators, one per group of digits, and three flags: `prevdot` forbids two dots in a row,
`startblank` marks the leading spaces and `endblank` the trailing ones. The groups are neither
checked to be non-empty nor to be at most 255; the accumulators and the big-endian combination
wrap modulo 2^32. The result is -1 for a format error.

`doFunct_num2ipv4` reads its argument as a number, answers "-1" when that fails or the number is
outside 0..2^32-1, and otherwise prints the four octets big-endian with `%d`.

The scan is read here segment by segment: leading spaces, a group of digits, a dot, trailing
spaces (`ipv42numLoop_digits`, `ipv42numLoop_group_dot`, ...). From these, every dotted quad in
which the middle groups are non-empty is accepted with the big-endian value of its groups modulo
2^32 (`ipv42num_dottedQuad`), and `ipv42num` reads back what `num2ipv4` prints
(`doFunctNum2ipv4_roundTrip`).
-/

namespace Rsyslog.Script

open Rsyslog.Common

/-! ## The model -/

/-- The scan state of `doFunct_Ipv42num`: the accumulators `num` (indexed by `cyc`, which stays
at most 3), and the three flags. -/
structure Ipv42numState where
  num : ℕ → UInt32
  cyc : ℕ
  prevdot : Bool
  startblank : Bool
  endblank : Bool

/-- The state before the first byte. -/
def ipv42numInit : Ipv42numState :=
  ⟨fun _ => 0, 0, false, false, false⟩

/-- One round of the loop of `doFunct_Ipv42num`, on the byte `c` at index `i`; `none` is the
`goto done` of a format error. -/
def ipv42numStep (s : Ipv42numState) (i : ℕ) (c : UInt8) : Option Ipv42numState :=
  if isdigit c then
    if s.endblank then none
    else
      let digit := (c - '0'.toUInt8).toUInt32
      some { s with
        num := Function.update s.num s.cyc (s.num s.cyc * 10 + digit)
        prevdot := false
        startblank := false }
  else if c = ' '.toUInt8 then
    if i = 0 ∨ s.startblank then some { s with prevdot := false, startblank := true }
    else some { s with prevdot := false, endblank := true }
  else if c = '.'.toUInt8 then
    if s.endblank then none
    else if s.prevdot then none
    else if s.cyc + 1 > 3 then none
    else some { s with startblank := false, prevdot := true, cyc := s.cyc + 1 }
  else none

/-- The loop of `doFunct_Ipv42num` from the byte at index `i`. -/
def ipv42numLoop : Ipv42numState → ℕ → List UInt8 → Option Ipv42numState
  | s, _, [] => some s
  | s, i, c :: cs => (ipv42numStep s i c).bind fun s => ipv42numLoop s (i + 1) cs

/-- The value `doFunct_Ipv42num` computes from the bytes of a C string: -1 for a format error or
a count of dots other than three, else the accumulators combined big-endian in unsigned
arithmetic. -/
def ipv42num (str : List UInt8) : Int64 :=
  match ipv42numLoop ipv42numInit 0 str with
  | none => -1
  | some s =>
    if s.cyc ≠ 3 then -1
    else Int64.ofNat (s.num 0 * 256 * 256 * 256 + s.num 1 * 256 * 256 + s.num 2 * 256 + s.num 3).toNat

/-- `doFunct_Ipv42num`: `ipv42num` of the argument's C string, which holds no NUL, so that
`strlen` is its length. -/
def doFunctIpv42num (v : Svar) : Svar :=
  .num (ipv42num (var2CString v))

/-- The text `%d` prints for a number that is not negative. -/
def decimalText (n : ℕ) : List UInt8 :=
  (Nat.toDigits 10 n).map Char.toUInt8

/-- The octets the loop of `doFunct_num2ipv4` stores in `numip`, lowest first. The number is
not negative there, so C's `%` and `/` are those of ℕ. -/
def num2ipv4Octets (num : ℕ) : ℕ → List ℕ
  | 0 => []
  | k + 1 => num % 256 :: num2ipv4Octets (num / 256) k

/-- The `"%d.%d.%d.%d"` of `doFunct_num2ipv4`, highest octet first. -/
def num2ipv4Text (num : ℕ) : List UInt8 :=
  let numip := num2ipv4Octets num 4
  decimalText (numip.getD 3 0) ++ '.'.toUInt8 :: decimalText (numip.getD 2 0) ++
    '.'.toUInt8 :: decimalText (numip.getD 1 0) ++ '.'.toUInt8 :: decimalText (numip.getD 0 0)

/-- `doFunct_num2ipv4`. -/
def doFunctNum2ipv4 (v : Svar) : Svar :=
  let (num, success) := var2Number v
  if !success then .str (asciiBytes "-1")
  else if num.toInt < 0 ∨ num.toInt > 4294967295 then .str (asciiBytes "-1")
  else .str (num2ipv4Text num.toInt.toNat)

/-! ## Reading the scan segment by segment -/

/-- The accumulation of a run of digits into one accumulator, as the loop makes it. -/
def ipv42numAccum (x : UInt32) (g : List UInt8) : UInt32 :=
  g.foldl (fun x c => x * 10 + (c - '0'.toUInt8).toUInt32) x

/-- The number a run of decimal digits denotes. -/
def digitsValue (g : List UInt8) : ℕ :=
  g.foldl (fun n c => n * 10 + (c.toNat - '0'.toNat)) 0

/-- The text of a dotted quad: `n` spaces, four groups separated by dots, `m` spaces. -/
def dottedQuadText (n : ℕ) (g₀ g₁ g₂ g₃ : List UInt8) (m : ℕ) : List UInt8 :=
  List.replicate n ' '.toUInt8 ++ (g₀ ++ '.'.toUInt8 :: (g₁ ++ '.'.toUInt8 ::
    (g₂ ++ '.'.toUInt8 :: (g₃ ++ List.replicate m ' '.toUInt8))))

theorem ipv42numLoop_append (s : Ipv42numState) (i : ℕ) (xs ys : List UInt8) :
    ipv42numLoop s i (xs ++ ys) =
      (ipv42numLoop s i xs).bind fun s' => ipv42numLoop s' (i + xs.length) ys := by
  induction xs generalizing s i with
  | nil => rfl
  | cons c xs ih =>
    simp only [List.cons_append, ipv42numLoop, Option.bind_assoc, ih, List.length_cons]
    rw [Nat.add_assoc, Nat.add_comm 1]

theorem isdigit_space : isdigit ' '.toUInt8 = false := by decide

theorem isdigit_dot : isdigit '.'.toUInt8 = false := by decide

theorem dot_ne_space : '.'.toUInt8 ≠ ' '.toUInt8 := by decide

/-- A space never fails and keeps the accumulators and the group index. -/
theorem ipv42numStep_space (s : Ipv42numState) (i : ℕ) :
    ∃ s', ipv42numStep s i ' '.toUInt8 = some s' ∧ s'.num = s.num ∧ s'.cyc = s.cyc := by
  unfold ipv42numStep
  simp only [isdigit_space, Bool.false_eq_true, if_false, if_true]
  split <;> exact ⟨_, rfl, rfl, rfl⟩

/-- A run of spaces, anywhere, keeps the accumulators and the group index. -/
theorem ipv42numLoop_spaces (m : ℕ) :
    ∀ (s : Ipv42numState) (i : ℕ), ∃ s', ipv42numLoop s i (List.replicate m ' '.toUInt8) = some s' ∧
      s'.num = s.num ∧ s'.cyc = s.cyc := by
  induction m with
  | zero => exact fun s _ => ⟨s, rfl, rfl, rfl⟩
  | succ m ih =>
    intro s i
    obtain ⟨t, ht, hnum, hcyc⟩ := ipv42numStep_space s i
    obtain ⟨s', hs', hnum', hcyc'⟩ := ih t (i + 1)
    refine ⟨s', ?_, hnum'.trans hnum, hcyc'.trans hcyc⟩
    simp only [List.replicate_succ, ipv42numLoop, ht, Option.bind_some, hs']

/-- Within the leading spaces a further space changes nothing. -/
theorem ipv42numLoop_startblank (s : Ipv42numState) (hs : s.startblank = true)
    (hp : s.prevdot = false) (k : ℕ) :
    ∀ i, ipv42numLoop s i (List.replicate k ' '.toUInt8) = some s := by
  induction k with
  | zero => exact fun _ => rfl
  | succ k ih =>
    intro i
    have hstep : ipv42numStep s i ' '.toUInt8 = some s := by
      cases s
      simp_all [ipv42numStep, isdigit_space]
    simp only [List.replicate_succ, ipv42numLoop, hstep, Option.bind_some, ih]

/-- The leading spaces leave every accumulator at 0, the first group current and no flag that
a digit or dot would trip over. -/
theorem ipv42numLoop_leadingSpaces (n : ℕ) :
    ∃ s, ipv42numLoop ipv42numInit 0 (List.replicate n ' '.toUInt8) = some s ∧
      s.num = ipv42numInit.num ∧ s.cyc = 0 ∧ s.prevdot = false ∧ s.endblank = false := by
  cases n with
  | zero => exact ⟨ipv42numInit, rfl, rfl, rfl, rfl, rfl⟩
  | succ n =>
    -- the first space, at index 0, opens the leading run
    have hfirst : ipv42numStep ipv42numInit 0 ' '.toUInt8 =
        some { ipv42numInit with startblank := true } := by
      simp [ipv42numStep, isdigit_space, ipv42numInit]
    refine ⟨{ ipv42numInit with startblank := true }, ?_, rfl, rfl, rfl, rfl⟩
    simp only [List.replicate_succ, ipv42numLoop, hfirst, Option.bind_some]
    exact ipv42numLoop_startblank _ rfl rfl n 1

/-- A run of digits goes into the current accumulator, at any index. -/
theorem ipv42numLoop_digits (g : List UInt8) (hg : ∀ c ∈ g, isdigit c = true) :
    ∀ s : Ipv42numState, s.endblank = false → ∃ s', (∀ i, ipv42numLoop s i g = some s') ∧
      s'.num = Function.update s.num s.cyc (ipv42numAccum (s.num s.cyc) g) ∧ s'.cyc = s.cyc ∧
      s'.endblank = false ∧ s'.prevdot = (s.prevdot && g.isEmpty) := by
  induction g with
  | nil =>
    intro s hs
    exact ⟨s, fun _ => rfl, by simp [ipv42numAccum], rfl, hs, by simp⟩
  | cons c g ih =>
    intro s hs
    have hc : isdigit c = true := hg c List.mem_cons_self
    let t : Ipv42numState := { s with
      num := Function.update s.num s.cyc (s.num s.cyc * 10 + (c - '0'.toUInt8).toUInt32)
      prevdot := false
      startblank := false }
    have hstep : ∀ i, ipv42numStep s i c = some t := by
      simp [ipv42numStep, hc, hs, t]
    obtain ⟨s', hs', hnum, hcyc, hend, hprev⟩ :=
      ih (fun d hd => hg d (List.mem_cons_of_mem c hd)) t hs
    refine ⟨s', fun i => ?_, ?_, hcyc, hend, ?_⟩
    · simp only [ipv42numLoop, hstep, Option.bind_some, hs']
    · rw [hnum]
      simp [t, ipv42numAccum]
    · simp [hprev, t]

/-- A dot after a group moves on to the next accumulator. -/
theorem ipv42numLoop_dot (s : Ipv42numState) (i : ℕ) (rest : List UInt8)
    (hs : s.endblank = false) (hp : s.prevdot = false) (hc : s.cyc < 3) :
    ipv42numLoop s i ('.'.toUInt8 :: rest) =
      ipv42numLoop { s with startblank := false, prevdot := true, cyc := s.cyc + 1 } (i + 1)
        rest := by
  have hcyc : ¬ s.cyc + 1 > 3 := by omega
  simp [ipv42numLoop, ipv42numStep, isdigit_dot, dot_ne_space, hs, hp, hcyc]

/-- A group followed by its dot. -/
theorem ipv42numLoop_group_dot (g : List UInt8) (hg : ∀ c ∈ g, isdigit c = true)
    (s : Ipv42numState) (hs : s.endblank = false) (hp : (s.prevdot && g.isEmpty) = false)
    (hc : s.cyc < 3) :
    ∃ s', (∀ i rest, ipv42numLoop s i (g ++ '.'.toUInt8 :: rest) =
        ipv42numLoop s' (i + g.length + 1) rest) ∧
      s'.num = Function.update s.num s.cyc (ipv42numAccum (s.num s.cyc) g) ∧
      s'.cyc = s.cyc + 1 ∧ s'.endblank = false ∧ s'.prevdot = true := by
  obtain ⟨t, ht, hnum, hcyc, hend, hprev⟩ := ipv42numLoop_digits g hg s hs
  refine ⟨{ t with startblank := false, prevdot := true, cyc := t.cyc + 1 }, fun i rest => ?_,
    hnum, by simp [hcyc], hend, rfl⟩
  rw [ipv42numLoop_append, ht, Option.bind_some,
    ipv42numLoop_dot t _ rest hend (hprev.trans hp) (hcyc ▸ hc)]

/-! ## What the scan accepts -/

/-- Every dotted quad whose middle groups are not empty is accepted, with the accumulators of
its four groups combined big-endian. The scan is followed segment by segment. -/
theorem ipv42num_dottedQuad_accum (n m : ℕ) (g₀ g₁ g₂ g₃ : List UInt8)
    (hdigits : ∀ g ∈ [g₀, g₁, g₂, g₃], ∀ c ∈ g, isdigit c = true) (h₁ : g₁ ≠ []) (h₂ : g₂ ≠ []) :
    ipv42num (dottedQuadText n g₀ g₁ g₂ g₃ m) =
      Int64.ofNat (ipv42numAccum 0 g₀ * 256 * 256 * 256 + ipv42numAccum 0 g₁ * 256 * 256 +
        ipv42numAccum 0 g₂ * 256 + ipv42numAccum 0 g₃).toNat := by
  obtain ⟨s₀, hs₀, hnum₀, hcyc₀, hprev₀, hend₀⟩ := ipv42numLoop_leadingSpaces n
  obtain ⟨s₁, hs₁, hnum₁, hcyc₁, hend₁, -⟩ := ipv42numLoop_group_dot g₀ (hdigits g₀ (by simp))
    s₀ hend₀ (by simp [hprev₀]) (by omega)
  obtain ⟨s₂, hs₂, hnum₂, hcyc₂, hend₂, -⟩ := ipv42numLoop_group_dot g₁ (hdigits g₁ (by simp))
    s₁ hend₁ (by simp [h₁]) (by omega)
  obtain ⟨s₃, hs₃, hnum₃, hcyc₃, hend₃, -⟩ := ipv42numLoop_group_dot g₂ (hdigits g₂ (by simp))
    s₂ hend₂ (by simp [h₂]) (by omega)
  obtain ⟨s₄, hs₄, hnum₄, hcyc₄, -, -⟩ := ipv42numLoop_digits g₃ (hdigits g₃ (by simp)) s₃ hend₃
  -- the trailing spaces keep the accumulators and the count of dots
  have hloop : ∃ s₅, ipv42numLoop ipv42numInit 0 (dottedQuadText n g₀ g₁ g₂ g₃ m) = some s₅ ∧
      s₅.num = s₄.num ∧ s₅.cyc = s₄.cyc := by
    rw [dottedQuadText, ipv42numLoop_append, hs₀, Option.bind_some, hs₁, hs₂, hs₃,
      ipv42numLoop_append, hs₄, Option.bind_some]
    exact ipv42numLoop_spaces m s₄ _
  obtain ⟨s₅, hs₅, hnum₅, hcyc₅⟩ := hloop
  have hcyc : s₅.cyc = 3 := by omega
  -- the four accumulators, each written while its group was current
  have hnum : s₅.num = Function.update (Function.update (Function.update (Function.update
      (fun _ => 0) 0 (ipv42numAccum 0 g₀)) 1 (ipv42numAccum 0 g₁)) 2 (ipv42numAccum 0 g₂)) 3
      (ipv42numAccum 0 g₃) := by
    rw [hnum₅, hnum₄, hnum₃, hnum₂, hnum₁, hnum₀, hcyc₃, hcyc₂, hcyc₁, hcyc₀]
    simp [ipv42numInit]
  simp [ipv42num, hs₅, hcyc, hnum]

/-- The accumulator of a run of digits is the number it denotes, modulo 2^32. -/
theorem ipv42numAccum_ofNat (g : List UInt8) (hg : ∀ c ∈ g, isdigit c = true) :
    ∀ n : ℕ, ipv42numAccum (UInt32.ofNat n) g =
      UInt32.ofNat (g.foldl (fun n c => n * 10 + (c.toNat - '0'.toNat)) n) := by
  induction g with
  | nil => exact fun _ => rfl
  | cons c g ih =>
    intro n
    have hc : '0'.toUInt8 ≤ c := by
      have := hg c List.mem_cons_self
      simp only [isdigit, Bool.and_eq_true, decide_eq_true_eq] at this
      exact this.1
    have hdigit : (c - '0'.toUInt8).toUInt32.toNat = c.toNat - '0'.toNat := by
      rw [UInt8.toNat_toUInt32, UInt8.toNat_sub_of_le _ _ hc]
      rfl
    have hstep : UInt32.ofNat n * 10 + (c - '0'.toUInt8).toUInt32 =
        UInt32.ofNat (n * 10 + (c.toNat - '0'.toNat)) := by
      apply UInt32.toNat.inj
      simp only [UInt32.toNat_add, UInt32.toNat_mul, UInt32.toNat_ofNat, UInt32.toNat_ofNat',
        hdigit, Nat.reduceMod, Nat.reducePow]
      omega
    simp only [ipv42numAccum, List.foldl_cons] at ih ⊢
    rw [hstep, ih (fun d hd => hg d (List.mem_cons_of_mem c hd))]

theorem ipv42numAccum_zero (g : List UInt8) (hg : ∀ c ∈ g, isdigit c = true) :
    ipv42numAccum 0 g = UInt32.ofNat (digitsValue g) :=
  ipv42numAccum_ofNat g hg 0

/-- Every dotted quad whose middle groups are not empty is accepted, with the value of its
groups combined big-endian modulo 2^32: a group above 255 is not refused, and neither is an
empty first or last group. -/
theorem ipv42num_dottedQuad (n m : ℕ) (g₀ g₁ g₂ g₃ : List UInt8)
    (hdigits : ∀ g ∈ [g₀, g₁, g₂, g₃], ∀ c ∈ g, isdigit c = true) (h₁ : g₁ ≠ []) (h₂ : g₂ ≠ []) :
    (ipv42num (dottedQuadText n g₀ g₁ g₂ g₃ m)).toInt =
      ((digitsValue g₀ * 256 ^ 3 + digitsValue g₁ * 256 ^ 2 + digitsValue g₂ * 256 +
        digitsValue g₃) % 2 ^ 32 : ℕ) := by
  rw [ipv42num_dottedQuad_accum n m g₀ g₁ g₂ g₃ hdigits h₁ h₂,
    ipv42numAccum_zero g₀ (hdigits g₀ (by simp)), ipv42numAccum_zero g₁ (hdigits g₁ (by simp)),
    ipv42numAccum_zero g₂ (hdigits g₂ (by simp)), ipv42numAccum_zero g₃ (hdigits g₃ (by simp)),
    Int64.toInt_ofNat_of_lt (Nat.lt_trans (UInt32.toNat_lt _) (by decide))]
  congr 1
  simp [UInt32.toNat_add, UInt32.toNat_mul]
  omega

/-! ## Reading back what `num2ipv4` prints -/

/-- Each of the ten digits `%d` prints is a digit byte of its own value, and only 0 prints as
'0'. -/
theorem digitChar_toUInt8 (d : ℕ) (hd : d < 10) :
    isdigit (Nat.digitChar d).toUInt8 = true ∧ (Nat.digitChar d).toUInt8.toNat - '0'.toNat = d ∧
      ((Nat.digitChar d).toUInt8 = '0'.toUInt8 → d = 0) := by
  have hten : ∀ d : Fin 10, isdigit (Nat.digitChar d).toUInt8 = true ∧
      (Nat.digitChar d).toUInt8.toNat - '0'.toNat = d ∧
      ((Nat.digitChar d).toUInt8 = '0'.toUInt8 → d.val = 0) := by
    decide
  exact hten ⟨d, hd⟩

/-- The digits of `%d`, last digit split off as `Nat.toDigits` does it. -/
theorem decimalText_eq (k : ℕ) :
    decimalText k = if k < 10 then [(Nat.digitChar k).toUInt8]
      else decimalText (k / 10) ++ [(Nat.digitChar (k % 10)).toUInt8] := by
  rw [decimalText, Nat.toDigits_eq_if (by decide)]
  split <;> simp [decimalText]

theorem decimalText_ne_nil (k : ℕ) : decimalText k ≠ [] := by
  simp [decimalText]

theorem digitsValue_append_singleton (g : List UInt8) (c : UInt8) :
    digitsValue (g ++ [c]) = digitsValue g * 10 + (c.toNat - '0'.toNat) := by
  simp [digitsValue, List.foldl_append]

/-- `%d` prints digits that denote the number; the induction follows `Nat.toDigits`, one digit
split off at a time. -/
theorem decimalText_digits (k : ℕ) :
    (∀ c ∈ decimalText k, isdigit c = true) ∧ digitsValue (decimalText k) = k := by
  induction k using Nat.strong_induction_on with
  | _ k ih =>
    rw [decimalText_eq]
    split
    · obtain ⟨hd, hv, -⟩ := digitChar_toUInt8 k ‹_›
      exact ⟨by simpa using hd, by simpa [digitsValue] using hv⟩
    · obtain ⟨ihd, ihv⟩ := ih (k / 10) (by omega)
      obtain ⟨hd, hv, -⟩ := digitChar_toUInt8 (k % 10) (Nat.mod_lt _ (by decide))
      refine ⟨?_, ?_⟩
      · intro c hc
        rcases List.mem_append.mp hc with hc | hc
        · exact ihd c hc
        · rw [List.mem_singleton.mp hc]
          exact hd
      · rw [digitsValue_append_singleton, ihv, hv]
        omega

/-- `num2ipv4` prints a dotted quad without spaces, of the four octets highest first. -/
theorem num2ipv4Text_eq (num : ℕ) :
    num2ipv4Text num = dottedQuadText 0 (decimalText (num / 256 / 256 / 256 % 256))
      (decimalText (num / 256 / 256 % 256)) (decimalText (num / 256 % 256))
      (decimalText (num % 256)) 0 := by
  simp [num2ipv4Text, num2ipv4Octets, dottedQuadText]

/-- `ipv42num` reads back every number `num2ipv4` prints. -/
theorem ipv42num_num2ipv4Text (num : ℕ) (h : num < 2 ^ 32) :
    (ipv42num (num2ipv4Text num)).toInt = num := by
  have hdigits : ∀ g ∈ [decimalText (num / 256 / 256 / 256 % 256),
      decimalText (num / 256 / 256 % 256), decimalText (num / 256 % 256),
      decimalText (num % 256)], ∀ c ∈ g, isdigit c = true := by
    intro g hg
    simp only [List.mem_cons, List.not_mem_nil, or_false] at hg
    rcases hg with rfl | rfl | rfl | rfl <;> exact (decimalText_digits _).1
  rw [num2ipv4Text_eq, ipv42num_dottedQuad 0 0 _ _ _ _ hdigits (decimalText_ne_nil _)
    (decimalText_ne_nil _)]
  simp only [decimalText_digits]
  congr 1
  omega

/-- The bytes `num2ipv4` prints are digits and dots, so they hold no NUL, and they hold a dot. -/
theorem num2ipv4Text_bytes (num : ℕ) :
    0 ∉ num2ipv4Text num ∧ '.'.toUInt8 ∈ num2ipv4Text num := by
  have hdigit : ∀ k, 0 ∉ decimalText k := fun k h0 =>
    absurd ((decimalText_digits k).1 0 h0) (by decide)
  rw [num2ipv4Text_eq]
  refine ⟨?_, by simp [dottedQuadText]⟩
  simp only [dottedQuadText, List.mem_append, List.mem_cons, List.replicate_zero, hdigit]
  decide

/-- `num2ipv4` answers "-1" exactly when its argument does not read as a number in
0..2^32-1; otherwise `ipv42num` reads the number back from its answer. -/
theorem doFunctNum2ipv4_roundTrip (v : Svar) :
    (doFunctNum2ipv4 v = .str (asciiBytes "-1") ↔ (var2Number v).2 = false ∨
      (var2Number v).1.toInt < 0 ∨ 4294967295 < (var2Number v).1.toInt) ∧
    ((var2Number v).2 = true → 0 ≤ (var2Number v).1.toInt → (var2Number v).1.toInt ≤ 4294967295 →
      doFunctIpv42num (doFunctNum2ipv4 v) = .num (var2Number v).1) := by
  rcases hv : var2Number v with ⟨num, success⟩
  dsimp only
  have hvalid : success = true → 0 ≤ num.toInt → num.toInt ≤ 4294967295 →
      doFunctNum2ipv4 v = .str (num2ipv4Text num.toInt.toNat) := by
    intro hs h0 h1
    simp [doFunctNum2ipv4, hv, hs]
    omega
  have hminus : '.'.toUInt8 ∉ asciiBytes "-1" := by decide
  refine ⟨⟨fun h => ?_, fun h => ?_⟩, fun hs h0 h1 => ?_⟩
  · -- a valid number prints with a dot, which "-1" lacks
    by_contra hn
    simp only [not_or, Bool.not_eq_false] at hn
    rw [hvalid hn.1 (by omega) (by omega), Svar.str.injEq] at h
    exact hminus (h ▸ (num2ipv4Text_bytes _).2)
  · rcases h with h | h | h <;> simp [doFunctNum2ipv4, hv, h]
  · rw [hvalid hs h0 h1, doFunctIpv42num, var2CString_str _ (num2ipv4Text_bytes _).1]
    congr 1
    apply Int64.toInt_inj.mp
    rw [ipv42num_num2ipv4Text _ (by omega)]
    omega

/-- `ipv42num` takes a group above 255 and an empty first or last group. -/
theorem doFunctIpv42num_accepts_malformed :
    doFunctIpv42num (.str (asciiBytes "256.0.0.0")) = .num 0 ∧
      doFunctIpv42num (.str (asciiBytes "1.2.3.")) = .num 16909056 ∧
      doFunctIpv42num (.str (asciiBytes ".1.2.3")) = .num 66051 := by
  decide

end Rsyslog.Script
