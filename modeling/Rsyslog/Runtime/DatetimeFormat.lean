import Rsyslog.Common.Tlv
import Rsyslog.Runtime.Datetime

/-!
# Writing timestamps, and reading them back (`runtime/datetime.c`)

`formatTimestamp3339` writes the fixed part `yyyy-mm-ddThh:mm:ss` digit by digit as
`(v / 10) % 10 + '0'` and `v % 10 + '0'`, then the fraction of a second when
`secfracPrecision > 0`, `secfracPrecision` digits with their leading zeros, and last the zone,
`Z` or the sign byte with `hh:mm`. `formatTimestamp3164` writes the fifteen bytes
`Mmm dd hh:mm:ss`, the tens of the day as a space when it is 0, unless `bBuggyDay` asks for the
digit.

The parsers of `Rsyslog.Runtime.Datetime` read these texts back. A parse is followed through
the text a cursor stands at (`TsCursor.At`): every step of the parser reads one piece of the
text and leaves the cursor at the rest, and the whole timestamp is read with nothing left.
-/

namespace Rsyslog

open Rsyslog.Common

/-! ## The formatters -/

/-- A `char` field of `struct syslogTime` read as an `int`: `char` is signed on x86-64. -/
def charInt (b : UInt8) : ℤ :=
  b.toInt8.toInt

/-- `v % 10 + '0'` stored into a `char`. C's `%` truncates towards zero. -/
def fmtDigit (v : ℤ) : UInt8 :=
  UInt8.ofInt (v.tmod 10 + '0'.toNat)

/-- The two digits `(v / 10) % 10 + '0'` and `v % 10 + '0'` of a field. -/
def fmtTwoDigits (v : ℤ) : List UInt8 :=
  [fmtDigit (v.tdiv 10), fmtDigit v]

/-- `tenPowers`. -/
def tenPowers : List ℤ :=
  [1, 10, 100, 1000, 10000, 100000]

/-- The `while (precision > 6)` loop of `getNormalizedSecFracPower`: each round drops the
last digit of the fraction. -/
def normalizeSecFrac : ℕ → ℤ → ℕ × ℤ
  | 0, secfrac => (0, secfrac)
  | precision + 1, secfrac =>
    if precision + 1 > 6 then normalizeSecFrac precision (secfrac.tdiv 10)
    else (precision + 1, secfrac)

/-- `getNormalizedSecFracPower(ts, &secfrac)`, called when `secfracPrecision > 0`: the power
of ten of the first digit written, `tenPowers[precision - 1]`, and the fraction cut to six
digits. -/
def getNormalizedSecFracPower (ts : SyslogTime) : ℤ × ℤ :=
  let n := normalizeSecFrac (charInt ts.secfracPrecision).toNat ts.secfrac.toInt
  (tenPowers.getD (n.1 - 1) 0, n.2)

/-- The digit loop of `formatTimestamp3339`: `digit = secfrac / power; secfrac -= digit *
power; power /= 10;` and one byte `digit + '0'` a round, `digit` being a `short`. -/
def secFracDigits (power secfrac : ℤ) : List UInt8 :=
  if _ : 0 < power then
    let digit : Int16 := Int16.ofInt (secfrac.tdiv power)
    UInt8.ofInt (digit.toInt + '0'.toNat) ::
      secFracDigits (power.tdiv 10) (secfrac - digit.toInt * power)
  else []
termination_by power.toNat
decreasing_by
  rw [Int.tdiv_eq_ediv_of_nonneg (by omega)]
  omega

/-- The fraction of `formatTimestamp3339`: a dot and the digits, when `secfracPrecision > 0`. -/
def formatSecFrac3339 (ts : SyslogTime) : List UInt8 :=
  if 0 < charInt ts.secfracPrecision then
    '.'.toUInt8 :: secFracDigits (getNormalizedSecFracPower ts).1 (getNormalizedSecFracPower ts).2
  else []

/-- The zone of `formatTimestamp3339`: `Z`, or the sign byte and `hh:mm`. -/
def formatTZ3339 (ts : SyslogTime) : List UInt8 :=
  if ts.OffsetMode = 'Z'.toUInt8 then ['Z'.toUInt8]
  else ts.OffsetMode :: fmtTwoDigits (charInt ts.OffsetHour) ++
    ':'.toUInt8 :: fmtTwoDigits (charInt ts.OffsetMinute)

/-- The text `formatTimestamp3339(ts, pBuf)` writes, without its NUL. -/
def formatTimestamp3339 (ts : SyslogTime) : List UInt8 :=
  let year := ts.year.toInt
  [fmtDigit (year.tdiv 1000), fmtDigit (year.tdiv 100), fmtDigit (year.tdiv 10), fmtDigit year] ++
    '-'.toUInt8 :: fmtTwoDigits (charInt ts.month) ++ '-'.toUInt8 :: fmtTwoDigits (charInt ts.day) ++
    'T'.toUInt8 :: fmtTwoDigits (charInt ts.hour) ++ ':'.toUInt8 ::
    fmtTwoDigits (charInt ts.minute) ++ ':'.toUInt8 :: fmtTwoDigits (charInt ts.second) ++
    formatSecFrac3339 ts ++ formatTZ3339 ts

/-- `monthNames`. -/
def monthNames : List (List UInt8) :=
  ["Jan", "Feb", "Mar", "Apr", "May", "Jun", "Jul", "Aug", "Sep", "Oct", "Nov", "Dec"].map
    asciiBytes

/-- The text `formatTimestamp3164(ts, pBuf, bBuggyDay)` writes, without its NUL; none where
`monthNames[(ts->month - 1) % 12]` lies outside the table. -/
def formatTimestamp3164 (ts : SyslogTime) (bBuggyDay : Bool) : Option (List UInt8) :=
  let i := (charInt ts.month - 1).tmod 12
  let iDay := ((charInt ts.day).tdiv 10).tmod 10
  if 0 ≤ i then
    (monthNames[i.toNat]?).map fun name =>
      name ++ ' '.toUInt8 ::
        (if bBuggyDay ∨ 0 < iDay then UInt8.ofInt (iDay + '0'.toNat) else ' '.toUInt8) ::
        fmtDigit (charInt ts.day) :: ' '.toUInt8 :: fmtTwoDigits (charInt ts.hour) ++
        ':'.toUInt8 :: fmtTwoDigits (charInt ts.minute) ++ ':'.toUInt8 ::
        fmtTwoDigits (charInt ts.second)
  else none

example : formatTimestamp3339 { SyslogTime.zero with
      year := 2024, month := 2, day := 29, hour := 13, minute := 5, second := 9, secfrac := 42
      secfracPrecision := 3, OffsetMode := '-'.toUInt8, OffsetHour := 5, OffsetMinute := 30 } =
    asciiBytes "2024-02-29T13:05:09.042-05:30" := by
  decide +kernel

example : formatTimestamp3164
    { SyslogTime.zero with month := 3, day := 7, hour := 8, minute := 0, second := 59 } false =
      some (asciiBytes "Mar  7 08:00:59") := by
  decide +kernel

/-! ## Reading a text with the parser steps -/

/-- The cursor stands at `text`: the bytes from the pointer are `text`, and `lenStr` counts
exactly them. -/
def TsCursor.At (buf : ℕ → UInt8) (c : TsCursor) (text : List UInt8) : Prop :=
  getBytes buf c.pos text.length = text ∧ c.lenStr = text.length

/-- The cursor `k` bytes further on. -/
def TsCursor.advance (c : TsCursor) (k : ℕ) : TsCursor :=
  ⟨c.pos + k, c.lenStr - k⟩

/-- The value `srSLMGParseInt32` accumulates from digits, `i * 10 + c - '0'` a digit. -/
def digitsInt (i : ℤ) (ds : List UInt8) : ℤ :=
  ds.foldl (fun i b => i * 10 + b.toNat - '0'.toNat) i

/-- The cursor the parsers write as `{ pszTS + 1, lenStr - 1 }`. -/
theorem TsCursor.next_eq (c : TsCursor) :
    ({ pos := c.pos + 1, lenStr := c.lenStr - 1 } : TsCursor) = c.advance 1 :=
  rfl

theorem TsCursor.advance_zero (c : TsCursor) : c.advance 0 = c := by
  simp [TsCursor.advance]

theorem TsCursor.advance_advance (c : TsCursor) (k l : ℕ) :
    (c.advance k).advance l = c.advance (k + l) := by
  simp only [TsCursor.advance, TsCursor.mk.injEq]
  omega

theorem TsCursor.At.drop {buf : ℕ → UInt8} {c : TsCursor} {t rest : List UInt8}
    (h : c.At buf (t ++ rest)) : (c.advance t.length).At buf rest := by
  obtain ⟨hbytes, hlen⟩ := h
  refine ⟨(getBytes_eq_append hbytes).2, ?_⟩
  simp only [TsCursor.advance, hlen, List.length_append]
  omega

theorem TsCursor.At.cons {buf : ℕ → UInt8} {c : TsCursor} {b : UInt8} {rest : List UInt8}
    (h : c.At buf (b :: rest)) :
    buf c.pos = b ∧ c.lenStr ≠ 0 ∧ (c.advance 1).At buf rest := by
  have hnext := TsCursor.At.drop (t := [b]) h
  obtain ⟨hbytes, hlen⟩ := h
  rw [List.length_cons, getBytes_succ] at hbytes
  refine ⟨(List.cons.inj hbytes).1, by simp [hlen]; omega, hnext⟩

/-- A step of a parser that reads `a` and stands at `c'` then lets the rest of the parser run
from there. -/
theorem TsScan.run_bind_of {α β : Type} {x : TsScan α} {f : α → TsScan β} {c c' : TsCursor}
    {a : α} (h : x.run c = some (a, c')) : (x >>= f).run c = (f a).run c' := by
  rw [StateT.run_bind, h]
  rfl

theorem TsScan.run_get_bind {α : Type} {f : TsCursor → TsScan α} (c : TsCursor) :
    (get >>= f).run c = (f c).run c :=
  TsScan.run_bind_of rfl

theorem TsScan.run_set_bind {α : Type} {f : PUnit → TsScan α} (c c₁ : TsCursor) :
    (set c₁ >>= f).run c = (f ⟨⟩).run c₁ :=
  TsScan.run_bind_of rfl

theorem expectByte_run {buf : ℕ → UInt8} {c : TsCursor} {ch : Char} {rest : List UInt8}
    (h : c.At buf (ch.toUInt8 :: rest)) : (expectByte buf ch).run c = some ((), c.advance 1) := by
  obtain ⟨hb, hlen, -⟩ := h.cons
  simp [expectByte, hb, hlen, TsCursor.advance]

theorem checkRange_run {lo hi v : ℤ} (c : TsCursor) (h : lo ≤ v ∧ v ≤ hi) :
    (checkRange lo hi v).run c = some ((), c) := by
  simp only [checkRange, if_neg (show ¬(v < lo ∨ hi < v) by omega)]
  rfl

/-- The loop of `srSLMGParseInt32` over digits followed by a byte that is not one, or by the
end of the length. The accumulator stays below `10^8`, far from the bound of the loop. -/
theorem srSLMGParseInt32Loop_digits (buf : ℕ → UInt8) (rest : List UInt8)
    (hstop : ∀ b ∈ rest.head?, isDigitByte b = false) (ds : List UInt8)
    (hds : ∀ b ∈ ds, isDigitByte b = true) :
    ∀ (i : ℤ) (c : TsCursor) (fuel : ℕ), c.At buf (ds ++ rest) → (ds ++ rest).length ≤ fuel →
      0 ≤ i → i < 10 ^ (8 - ds.length) → ds.length ≤ 8 →
      srSLMGParseInt32Loop buf fuel i c = (digitsInt i ds, c.advance ds.length) := by
  induction ds with
  | nil =>
    intro i c fuel h _ _ _ _
    cases fuel with
    | zero => simp [srSLMGParseInt32Loop, digitsInt, TsCursor.advance]
    | succ fuel =>
      -- the loop stops at the end of the length or at a byte that is not a digit
      have hstep : ¬(0 < c.lenStr ∧ isDigitByte (buf c.pos) = true ∧ i < intMax / 10 - 1) := by
        cases rest with
        | nil => simp [h.2]
        | cons b rest =>
          obtain ⟨hb, -, -⟩ := h.cons
          simp [hb, hstop b (by simp)]
      simp [srSLMGParseInt32Loop, hstep, digitsInt, TsCursor.advance]
  | cons d ds ih =>
    intro i c fuel h hfuel hi0 hi hlen
    obtain ⟨hb, hlenStr, hnext⟩ := h.cons
    obtain ⟨fuel, rfl⟩ : ∃ f, fuel = f + 1 := ⟨fuel - 1, by simp at hfuel; omega⟩
    have hd := hds d List.mem_cons_self
    have hdval : (d.toNat : ℤ) - '0'.toNat < 10 ∧ 0 ≤ (d.toNat : ℤ) - '0'.toNat := by
      simp only [isDigitByte, Bool.and_eq_true, decide_eq_true_eq, UInt8.le_iff_toNat_le] at hd
      have h0 : '0'.toUInt8.toNat = '0'.toNat := rfl
      have h9 : '9'.toUInt8.toNat = '0'.toNat + 9 := rfl
      omega
    have hpow : (10 : ℤ) ^ (8 - ds.length) = 10 * 10 ^ (8 - (d :: ds).length) := by
      simp only [List.length_cons]
      rw [← pow_succ']
      congr 1
      simp at hlen
      omega
    have hstep : 0 < c.lenStr ∧ isDigitByte (buf c.pos) = true ∧ i < intMax / 10 - 1 := by
      refine ⟨by have := h.2; omega, by rw [hb]; exact hd, ?_⟩
      have : (10 : ℤ) ^ (8 - (d :: ds).length) ≤ 10 ^ 7 :=
        pow_le_pow_right₀ (by norm_num) (by simp)
      simp only [intMax]
      omega
    have hrest := ih (fun b hb => hds b (List.mem_cons_of_mem d hb)) (i * 10 + d.toNat - '0'.toNat)
      (c.advance 1) fuel hnext (by simpa using hfuel) (by omega) (by rw [hpow]; omega)
      (by simp at hlen; omega)
    rw [srSLMGParseInt32Loop, if_pos hstep, hb]
    rw [TsCursor.next_eq, hrest, TsCursor.advance_advance, Nat.add_comm 1]
    rfl

theorem srSLMGParseInt32_run {buf : ℕ → UInt8} {c : TsCursor} {ds rest : List UInt8}
    (h : c.At buf (ds ++ rest)) (hds : ∀ b ∈ ds, isDigitByte b = true)
    (hstop : ∀ b ∈ rest.head?, isDigitByte b = false) (hlen : ds.length ≤ 8) :
    (srSLMGParseInt32 buf).run c = some (digitsInt 0 ds, c.advance ds.length) := by
  have hloop := srSLMGParseInt32Loop_digits buf rest hstop ds hds 0 c c.lenStr.toNat h
    (by rw [h.2]; omega) le_rfl (by positivity) hlen
  simp only [srSLMGParseInt32, modifyGet, MonadStateOf.modifyGet, StateT.modifyGet, StateT.run,
    hloop]
  rfl

/-- No fraction: the next byte is not a dot, or there is none. -/
theorem parseSecfrac_run_none {buf : ℕ → UInt8} {c : TsCursor} {rest : List UInt8}
    (h : c.At buf rest) (hdot : ∀ b ∈ rest.head?, b ≠ '.'.toUInt8) :
    (parseSecfrac buf).run c = some ((0, 0), c) := by
  have hno : ¬(0 < c.lenStr ∧ buf c.pos = '.'.toUInt8) := by
    cases rest with
    | nil => simp [h.2]
    | cons b rest =>
      obtain ⟨hb, -, -⟩ := h.cons
      simp [hb, hdot b (by simp)]
  simp [parseSecfrac, hno]

/-- A dot and the digits of the fraction: its value and the count of its digits. -/
theorem parseSecfrac_run_digits {buf : ℕ → UInt8} {c : TsCursor} {ds rest : List UInt8}
    (h : c.At buf ('.'.toUInt8 :: (ds ++ rest))) (hds : ∀ b ∈ ds, isDigitByte b = true)
    (hstop : ∀ b ∈ rest.head?, isDigitByte b = false) (hlen : ds.length ≤ 8) :
    (parseSecfrac buf).run c =
      some ((digitsInt 0 ds, (ds.length : ℤ)), (c.advance 1).advance ds.length) := by
  obtain ⟨hb, hlenStr, hnext⟩ := h.cons
  have hdigits := srSLMGParseInt32_run hnext hds hstop hlen
  have hdot : 0 < c.lenStr ∧ buf c.pos = '.'.toUInt8 := ⟨by have := h.2; omega, hb⟩
  simp only [parseSecfrac]
  rw [TsScan.run_get_bind, if_pos hdot, TsScan.run_set_bind, TsCursor.next_eq,
    TsScan.run_bind_of hdigits]
  simp [TsCursor.advance]

/-- The zone `Z`. -/
theorem parseTZ3339_run_Z {buf : ℕ → UInt8} {c : TsCursor} {rest : List UInt8}
    (h : c.At buf ('Z'.toUInt8 :: rest)) :
    (parseTZ3339 buf).run c = some (('Z'.toUInt8, 0, 0), c.advance 1) := by
  obtain ⟨hb, hlen, -⟩ := h.cons
  simp only [parseTZ3339]
  rw [TsScan.run_get_bind, if_neg hlen, if_pos hb]
  rfl

/-- The zone `+hh:mm` or `-hh:mm`, with its hours and minutes in range. -/
theorem parseTZ3339_run_offset {buf : ℕ → UInt8} {c : TsCursor} {sign : UInt8}
    {hh mm : List UInt8}
    (h : c.At buf (sign :: (hh ++ ':'.toUInt8 :: mm)))
    (hsign : sign = '+'.toUInt8 ∨ sign = '-'.toUInt8) (hZ : sign ≠ 'Z'.toUInt8)
    (hhh : ∀ b ∈ hh, isDigitByte b = true) (hmm : ∀ b ∈ mm, isDigitByte b = true)
    (hhlen : hh.length ≤ 8) (hmlen : mm.length ≤ 8)
    (hhour : 0 ≤ digitsInt 0 hh ∧ digitsInt 0 hh ≤ 23)
    (hminute : 0 ≤ digitsInt 0 mm ∧ digitsInt 0 mm ≤ 59) :
    (parseTZ3339 buf).run c = some ((sign, digitsInt 0 hh, digitsInt 0 mm),
      ((((c.advance 1).advance hh.length).advance 1).advance mm.length)) := by
  obtain ⟨hb, hlen, h₁⟩ := h.cons
  have hhour_run := srSLMGParseInt32_run h₁ hhh (by simp [isDigitByte]; decide) hhlen
  have h₂ := h₁.drop
  have hcolon := expectByte_run h₂
  obtain ⟨-, -, h₃⟩ := h₂.cons
  have hminute_run := srSLMGParseInt32_run
    (show TsCursor.At buf _ (mm ++ []) by rw [List.append_nil]; exact h₃) hmm (by simp) hmlen
  simp only [parseTZ3339]
  rw [TsScan.run_get_bind, if_neg hlen, if_neg (by rw [hb]; exact hZ),
    if_pos (by rw [hb]; exact hsign), TsScan.run_set_bind, TsCursor.next_eq,
    TsScan.run_bind_of hhour_run, TsScan.run_bind_of (checkRange_run _ hhour),
    TsScan.run_bind_of hcolon, TsScan.run_bind_of hminute_run,
    TsScan.run_bind_of (checkRange_run _ hminute), hb]
  rfl

/-- At the end of the length nothing follows the timestamp. -/
theorem skipTrailingSpace_run_end {buf : ℕ → UInt8} {c : TsCursor} (h : c.At buf []) :
    (skipTrailingSpace buf).run c = some ((), c) := by
  simp [skipTrailingSpace, h.2]

/-! ## The digits the formatters write -/

theorem toNat_uint8OfInt {x : ℤ} (h0 : 0 ≤ x) (h : x < 256) : (UInt8.ofInt x).toNat = x.toNat := by
  simp only [UInt8.ofInt, UInt8.toNat_ofNat']
  omega

/-- `v + '0'` for a digit value `v` is a digit byte of that value. -/
theorem digitByte_ofInt {v : ℤ} (h0 : 0 ≤ v) (h : v < 10) :
    isDigitByte (UInt8.ofInt (v + '0'.toNat)) = true ∧
      ((UInt8.ofInt (v + '0'.toNat)).toNat : ℤ) - '0'.toNat = v := by
  have h48 : ('0'.toNat : ℤ) = 48 := rfl
  have htoNat := toNat_uint8OfInt (x := v + '0'.toNat) (by omega) (by omega)
  refine ⟨?_, by omega⟩
  simp only [isDigitByte, Bool.and_eq_true, decide_eq_true_eq, UInt8.le_iff_toNat_le]
  have h0' : '0'.toUInt8.toNat = 48 := rfl
  have h9 : '9'.toUInt8.toNat = 57 := rfl
  omega

theorem fmtDigit_spec {v : ℤ} (h0 : 0 ≤ v) :
    isDigitByte (fmtDigit v) = true ∧ ((fmtDigit v).toNat : ℤ) - '0'.toNat = v % 10 := by
  rw [fmtDigit, Int.tmod_eq_emod_of_nonneg h0]
  exact digitByte_ofInt (Int.emod_nonneg v (by decide)) (Int.emod_lt_of_pos v (by decide))

/-- A field below 100 is written as two digits that read back as it. -/
theorem fmtTwoDigits_spec {v : ℤ} (h0 : 0 ≤ v) (h : v < 100) :
    (∀ b ∈ fmtTwoDigits v, isDigitByte b = true) ∧ digitsInt 0 (fmtTwoDigits v) = v := by
  have htens := fmtDigit_spec (v := v.tdiv 10) (Int.tdiv_nonneg h0 (by decide))
  have hunits := fmtDigit_spec h0
  simp only [fmtTwoDigits, Int.tdiv_eq_ediv_of_nonneg h0] at htens ⊢
  refine ⟨by simp [htens.1, hunits.1], ?_⟩
  simp only [digitsInt, List.foldl_cons, List.foldl_nil]
  omega

/-- A year below 10000 is written as four digits that read back as it. -/
theorem fmtYear_spec {y : ℤ} (h0 : 0 ≤ y) (h : y < 10000) :
    (∀ b ∈ [fmtDigit (y.tdiv 1000), fmtDigit (y.tdiv 100), fmtDigit (y.tdiv 10), fmtDigit y],
        isDigitByte b = true) ∧
      digitsInt 0 [fmtDigit (y.tdiv 1000), fmtDigit (y.tdiv 100), fmtDigit (y.tdiv 10),
        fmtDigit y] = y := by
  have h₃ := fmtDigit_spec (v := y.tdiv 1000) (Int.tdiv_nonneg h0 (by decide))
  have h₂ := fmtDigit_spec (v := y.tdiv 100) (Int.tdiv_nonneg h0 (by decide))
  have h₁ := fmtDigit_spec (v := y.tdiv 10) (Int.tdiv_nonneg h0 (by decide))
  have h₀ := fmtDigit_spec h0
  simp only [Int.tdiv_eq_ediv_of_nonneg h0] at h₃ h₂ h₁ ⊢
  refine ⟨by simp [h₃.1, h₂.1, h₁.1, h₀.1], ?_⟩
  simp only [digitsInt, List.foldl_cons, List.foldl_nil]
  omega

theorem digitsInt_cons (i : ℤ) (d : UInt8) (ds : List UInt8) :
    digitsInt i (d :: ds) = digitsInt (i * 10 + d.toNat - '0'.toNat) ds :=
  rfl

/-- Digits after a value already read shift it left. -/
theorem digitsInt_eq (ds : List UInt8) :
    ∀ i : ℤ, digitsInt i ds = i * 10 ^ ds.length + digitsInt 0 ds := by
  induction ds with
  | nil => simp [digitsInt]
  | cons d ds ih =>
    intro i
    simp only [digitsInt, List.foldl_cons] at ih ⊢
    rw [ih, ih (0 * 10 + d.toNat - '0'.toNat), List.length_cons, pow_succ]
    ring

/-- The fraction loop from the power `10^k` writes `k + 1` digits that read back as the
fraction, when it has at most that many. The induction is on `k`, one digit a round. -/
theorem secFracDigits_spec (k : ℕ) :
    ∀ s : ℤ, 0 ≤ s → s < 10 ^ (k + 1) →
      (∀ b ∈ secFracDigits (10 ^ k) s, isDigitByte b = true) ∧
        (secFracDigits (10 ^ k) s).length = k + 1 ∧ digitsInt 0 (secFracDigits (10 ^ k) s) = s := by
  induction k with
  | zero =>
    intro s h0 h
    have hdigit := digitByte_ofInt h0 (by simpa using h)
    have hs16 : (Int16.ofInt s).toInt = s := Int16.toInt_ofInt_of_le (by omega) (by simp at h; omega)
    rw [secFracDigits, dif_pos (by decide)]
    simp only [pow_zero, Int.tdiv_one, hs16, show (1 : ℤ).tdiv 10 = 0 from rfl]
    rw [secFracDigits, dif_neg (by decide)]
    refine ⟨fun b hb => by rw [List.mem_singleton.mp hb]; exact hdigit.1, rfl, ?_⟩
    simp only [digitsInt, List.foldl_cons, List.foldl_nil]
    omega
  | succ k ih =>
    intro s h0 h
    have hpow : (0 : ℤ) < 10 ^ (k + 1) := by positivity
    have hq0 : 0 ≤ s / 10 ^ (k + 1) := Int.ediv_nonneg h0 hpow.le
    have hq : s / 10 ^ (k + 1) < 10 := by
      rw [Int.ediv_lt_iff_lt_mul hpow]
      rw [pow_succ] at h
      linarith
    have hq16 : (Int16.ofInt (s / 10 ^ (k + 1))).toInt = s / 10 ^ (k + 1) :=
      Int16.toInt_ofInt_of_le (by omega) (by omega)
    have hdigit := digitByte_ofInt hq0 hq
    have hrem := Int.emod_lt_of_pos s hpow
    have hrem0 := Int.emod_nonneg s hpow.ne'
    have hnext : (10 ^ (k + 1) : ℤ).tdiv 10 = 10 ^ k := by
      rw [Int.tdiv_eq_ediv_of_nonneg hpow.le, pow_succ, Int.mul_ediv_cancel _ (by decide)]
    have hsub : s - s / 10 ^ (k + 1) * 10 ^ (k + 1) = s % 10 ^ (k + 1) := by
      rw [Int.emod_def]
      ring
    obtain ⟨ihd, ihl, ihv⟩ := ih (s % 10 ^ (k + 1)) hrem0 hrem
    rw [secFracDigits, dif_pos hpow]
    simp only [Int.tdiv_eq_ediv_of_nonneg h0, hq16, hnext, hsub]
    refine ⟨?_, by simp [ihl], ?_⟩
    · intro b hb
      rcases List.mem_cons.mp hb with rfl | hb
      · exact hdigit.1
      · exact ihd b hb
    · rw [digitsInt_cons, digitsInt_eq, ihv, ihl, Int.zero_mul, Int.zero_add, hdigit.2]
      have := Int.emod_def s (10 ^ (k + 1))
      linarith

/-! ## Reading back `formatTimestamp3339` -/

/-- A field of digits before a separator: its value, and the cursor at the separator. -/
theorem srSLMGParseInt32_run_field {buf : ℕ → UInt8} {c : TsCursor} {ds rest : List UInt8}
    {sep : UInt8} (h : c.At buf (ds ++ sep :: rest)) (hds : ∀ b ∈ ds, isDigitByte b = true)
    (hsep : isDigitByte sep = false) (hlen : ds.length ≤ 8) :
    (srSLMGParseInt32 buf).run c = some (digitsInt 0 ds, c.advance ds.length) ∧
      (c.advance ds.length).At buf (sep :: rest) :=
  ⟨srSLMGParseInt32_run h hds (by simpa using hsep) hlen, h.drop⟩

/-- The digits of a field that `ParseTIMESTAMP3339` reads, with the range it checks. -/
def FieldDigits (ds : List UInt8) (lo hi : ℤ) : Prop :=
  (∀ b ∈ ds, isDigitByte b = true) ∧ ds.length ≤ 8 ∧ lo ≤ digitsInt 0 ds ∧ digitsInt 0 ds ≤ hi

/-- `ParseTIMESTAMP3339` reads a text made of the digits of the date and the time with their
separators, then a fraction and a zone read as `frac` and `tz` up to the end of the length, and
stores what it read. -/
theorem parseTIMESTAMP3339Body_run (buf : ℕ → UInt8) (pTime : SyslogTime) {c : TsCursor}
    {Y M D H Mi S FZ : List UInt8}
    (h : c.At buf (Y ++ '-'.toUInt8 :: (M ++ '-'.toUInt8 :: (D ++ 'T'.toUInt8 ::
      (H ++ ':'.toUInt8 :: (Mi ++ ':'.toUInt8 :: (S ++ FZ)))))))
    (hY : FieldDigits Y 0 2099) (hM : FieldDigits M 1 12) (hD : FieldDigits D 1 31)
    (hH : FieldDigits H 0 23) (hMi : FieldDigits Mi 0 59) (hS : FieldDigits S 0 60)
    (hstop : ∀ b ∈ FZ.head?, isDigitByte b = false) {frac : ℤ × ℤ} {tz : UInt8 × ℤ × ℤ}
    (hFZ : ∀ c₁ : TsCursor, c₁.At buf FZ → ∃ c₂ c₃, (parseSecfrac buf).run c₁ = some (frac, c₂) ∧
      (parseTZ3339 buf).run c₂ = some (tz, c₃) ∧ c₃.At buf []) :
    ∃ cEnd : TsCursor, cEnd.lenStr = 0 ∧ (parseTIMESTAMP3339Body buf pTime).run c = some ({ pTime with
      timeType := 2
      year := (digitsInt 0 Y).toInt16
      month := UInt8.ofInt (digitsInt 0 M)
      day := UInt8.ofInt (digitsInt 0 D)
      hour := UInt8.ofInt (digitsInt 0 H)
      minute := UInt8.ofInt (digitsInt 0 Mi)
      second := UInt8.ofInt (digitsInt 0 S)
      secfrac := frac.1.toInt32
      secfracPrecision := UInt8.ofInt frac.2
      OffsetMode := tz.1
      OffsetHour := UInt8.ofInt tz.2.1
      OffsetMinute := UInt8.ofInt tz.2.2 }, cEnd) := by
  have hdash : isDigitByte '-'.toUInt8 = false := by decide
  have hT : isDigitByte 'T'.toUInt8 = false := by decide
  have hcolon : isDigitByte ':'.toUInt8 = false := by decide
  -- the date, one field and one separator at a time
  obtain ⟨rY, aY⟩ := srSLMGParseInt32_run_field h hY.1 hdash hY.2.1
  have eY := expectByte_run aY
  obtain ⟨rM, aM⟩ := srSLMGParseInt32_run_field aY.cons.2.2 hM.1 hdash hM.2.1
  have eM := expectByte_run aM
  obtain ⟨rD, aD⟩ := srSLMGParseInt32_run_field aM.cons.2.2 hD.1 hT hD.2.1
  have eD := expectByte_run aD
  -- the time
  obtain ⟨rH, aH⟩ := srSLMGParseInt32_run_field aD.cons.2.2 hH.1 hcolon hH.2.1
  have eH := expectByte_run aH
  obtain ⟨rMi, aMi⟩ := srSLMGParseInt32_run_field aH.cons.2.2 hMi.1 hcolon hMi.2.1
  have eMi := expectByte_run aMi
  have rS := srSLMGParseInt32_run aMi.cons.2.2 hS.1 hstop hS.2.1
  obtain ⟨c₂, c₃, rF, rZ, aEnd⟩ := hFZ _ aMi.cons.2.2.drop
  refine ⟨c₃, by simpa using aEnd.2, ?_⟩
  simp only [parseTIMESTAMP3339Body]
  rw [TsScan.run_bind_of rY, TsScan.run_bind_of eY,
    TsScan.run_bind_of (checkRange_run _ hY.2.2), TsScan.run_bind_of rM,
    TsScan.run_bind_of (checkRange_run _ hM.2.2), TsScan.run_bind_of eM,
    TsScan.run_bind_of rD, TsScan.run_bind_of (checkRange_run _ hD.2.2),
    TsScan.run_bind_of eD, TsScan.run_bind_of rH,
    TsScan.run_bind_of (checkRange_run _ hH.2.2), TsScan.run_bind_of eH,
    TsScan.run_bind_of rMi, TsScan.run_bind_of (checkRange_run _ hMi.2.2),
    TsScan.run_bind_of eMi, TsScan.run_bind_of rS,
    TsScan.run_bind_of (checkRange_run _ hS.2.2), TsScan.run_bind_of rF,
    TsScan.run_bind_of rZ, TsScan.run_bind_of (skipTrailingSpace_run_end aEnd)]
  rfl

theorem charInt_of_lt {b : UInt8} (h : b.toNat < 128) : charInt b = b.toNat :=
  toInt_toInt8_of_lt h

theorem uint8OfInt_toNat (b : UInt8) : UInt8.ofInt (b.toNat : ℤ) = b := by
  apply UInt8.toNat.inj
  rw [toNat_uint8OfInt (by omega) (by have := b.toNat_lt; omega)]
  simp

/-- A field of `struct syslogTime` below 100 is written as two digits that
`ParseTIMESTAMP3339` reads back, within the range it checks. -/
theorem fieldDigits_fmtTwoDigits {b : UInt8} {lo hi : ℤ} (h : lo ≤ b.toNat ∧ (b.toNat : ℤ) ≤ hi)
    (h100 : b.toNat < 100) :
    FieldDigits (fmtTwoDigits (charInt b)) lo hi ∧ digitsInt 0 (fmtTwoDigits (charInt b)) = b.toNat := by
  rw [charInt_of_lt (by omega)]
  obtain ⟨hds, hv⟩ := fmtTwoDigits_spec (v := b.toNat) (by omega) (by omega)
  exact ⟨⟨hds, by simp [fmtTwoDigits], by omega, by omega⟩, hv⟩

/-- Up to six digits the fraction is not cut, and its first digit has the power
`10^(precision - 1)`. -/
theorem getNormalizedSecFracPower_of_le (ts : SyslogTime) (h1 : 1 ≤ ts.secfracPrecision.toNat)
    (h6 : ts.secfracPrecision.toNat ≤ 6) :
    getNormalizedSecFracPower ts = (10 ^ (ts.secfracPrecision.toNat - 1), ts.secfrac.toInt) := by
  have hpowers : ∀ k : Fin 6, tenPowers.getD k.val 0 = 10 ^ k.val := by decide
  have hnorm : normalizeSecFrac ts.secfracPrecision.toNat ts.secfrac.toInt =
      (ts.secfracPrecision.toNat, ts.secfrac.toInt) := by
    obtain ⟨p, hp⟩ : ∃ p, ts.secfracPrecision.toNat = p + 1 := ⟨_, (Nat.succ_pred_eq_of_pos h1).symm⟩
    rw [hp, normalizeSecFrac, if_neg (by omega)]
  simp only [getNormalizedSecFracPower, charInt_of_lt (by omega : ts.secfracPrecision.toNat < 128),
    Int.toNat_natCast, hnorm]
  rw [hpowers ⟨ts.secfracPrecision.toNat - 1, by omega⟩]

/-- `ParseTIMESTAMP3339` reads the fraction `formatTimestamp3339` writes back as the fraction
and its count of digits. -/
theorem parseSecfrac_run_format {buf : ℕ → UInt8} {c : TsCursor} {ts : SyslogTime}
    {rest : List UInt8} (h : c.At buf (formatSecFrac3339 ts ++ rest))
    (hprec : ts.secfracPrecision.toNat ≤ 6)
    (hfrac : 0 ≤ ts.secfrac.toInt ∧ ts.secfrac.toInt < 10 ^ ts.secfracPrecision.toNat)
    (hrest : ∀ b ∈ rest.head?, isDigitByte b = false ∧ b ≠ '.'.toUInt8) :
    ∃ c', (parseSecfrac buf).run c =
      some ((ts.secfrac.toInt, (ts.secfracPrecision.toNat : ℤ)), c') ∧ c'.At buf rest := by
  have hchar := charInt_of_lt (b := ts.secfracPrecision) (by omega)
  by_cases hp : ts.secfracPrecision.toNat = 0
  · -- no fraction is written, and the fraction is 0
    have hF : formatSecFrac3339 ts = [] := by simp [formatSecFrac3339, hchar, hp]
    rw [hF, List.nil_append] at h
    have hzero : ts.secfrac.toInt = 0 := by rw [hp] at hfrac; simp at hfrac; omega
    refine ⟨c, ?_, h⟩
    rw [parseSecfrac_run_none h (fun b hb => (hrest b hb).2), hzero, hp]
    rfl
  · obtain ⟨hds, hlen, hval⟩ := secFracDigits_spec (ts.secfracPrecision.toNat - 1)
      ts.secfrac.toInt hfrac.1 (by rw [Nat.sub_add_cancel (by omega)]; exact hfrac.2)
    have hF : formatSecFrac3339 ts =
        '.'.toUInt8 :: secFracDigits (10 ^ (ts.secfracPrecision.toNat - 1)) ts.secfrac.toInt := by
      rw [formatSecFrac3339, if_pos (by rw [hchar]; omega),
        getNormalizedSecFracPower_of_le ts (by omega) hprec]
    rw [hF, List.cons_append] at h
    refine ⟨_, ?_, h.cons.2.2.drop⟩
    rw [parseSecfrac_run_digits h hds (fun b hb => (hrest b hb).1) (by omega), hval, hlen,
      Nat.sub_add_cancel (by omega)]

/-- `ParseTIMESTAMP3339` reads the zone `formatTimestamp3339` writes back, up to the end. -/
theorem parseTZ3339_run_format {buf : ℕ → UInt8} {c : TsCursor} {ts : SyslogTime}
    (h : c.At buf (formatTZ3339 ts))
    (hmode : ts.OffsetMode = '+'.toUInt8 ∨ ts.OffsetMode = '-'.toUInt8 ∨
      (ts.OffsetMode = 'Z'.toUInt8 ∧ ts.OffsetHour = 0 ∧ ts.OffsetMinute = 0))
    (hoffset : ts.OffsetHour.toNat ≤ 23 ∧ ts.OffsetMinute.toNat ≤ 59) :
    ∃ c', (parseTZ3339 buf).run c = some ((ts.OffsetMode, (ts.OffsetHour.toNat : ℤ),
      (ts.OffsetMinute.toNat : ℤ)), c') ∧ c'.lenStr = 0 := by
  by_cases hZ : ts.OffsetMode = 'Z'.toUInt8
  · have hzero : ts.OffsetHour = 0 ∧ ts.OffsetMinute = 0 := by
      rcases hmode with h' | h' | h'
      · exact absurd (h'.symm.trans hZ) (by decide)
      · exact absurd (h'.symm.trans hZ) (by decide)
      · exact h'.2
    rw [formatTZ3339, if_pos hZ] at h
    refine ⟨c.advance 1, ?_, by simp [TsCursor.advance, h.2]⟩
    rw [parseTZ3339_run_Z h, hZ, hzero.1, hzero.2]
    rfl
  · have hsign : ts.OffsetMode = '+'.toUInt8 ∨ ts.OffsetMode = '-'.toUInt8 := by
      rcases hmode with h' | h' | h'
      · exact .inl h'
      · exact .inr h'
      · exact absurd h'.1 hZ
    obtain ⟨hhh, hhv⟩ := fieldDigits_fmtTwoDigits (b := ts.OffsetHour)
      (show (0 : ℤ) ≤ ts.OffsetHour.toNat ∧ (ts.OffsetHour.toNat : ℤ) ≤ 23 by omega) (by omega)
    obtain ⟨hmm, hmv⟩ := fieldDigits_fmtTwoDigits (b := ts.OffsetMinute)
      (show (0 : ℤ) ≤ ts.OffsetMinute.toNat ∧ (ts.OffsetMinute.toNat : ℤ) ≤ 59 by omega) (by omega)
    rw [formatTZ3339, if_neg hZ, List.cons_append] at h
    have hrun := parseTZ3339_run_offset h hsign hZ hhh.1 hmm.1 hhh.2.1 hmm.2.1
      (by omega) (by omega)
    rw [hhv, hmv] at hrun
    refine ⟨_, hrun, ?_⟩
    simp [TsCursor.advance, h.2, fmtTwoDigits]

/-- The text of `formatTimestamp3339` as the parser reads it, field by field. -/
abbrev formatFields3339 (t : SyslogTime) : List UInt8 :=
  [fmtDigit (t.year.toInt.tdiv 1000), fmtDigit (t.year.toInt.tdiv 100),
    fmtDigit (t.year.toInt.tdiv 10), fmtDigit t.year.toInt] ++
  '-'.toUInt8 :: (fmtTwoDigits (charInt t.month) ++ '-'.toUInt8 ::
  (fmtTwoDigits (charInt t.day) ++ 'T'.toUInt8 :: (fmtTwoDigits (charInt t.hour) ++
  ':'.toUInt8 :: (fmtTwoDigits (charInt t.minute) ++ ':'.toUInt8 ::
  (fmtTwoDigits (charInt t.second) ++ (formatSecFrac3339 t ++ formatTZ3339 t))))))

theorem formatTimestamp3339_eq (t : SyslogTime) : formatTimestamp3339 t = formatFields3339 t := by
  simp only [formatTimestamp3339, List.append_assoc, List.cons_append]

/-- The first byte after the seconds: the dot of the fraction, or the zone. -/
theorem formatTail3339_head (ts : SyslogTime) :
    ∀ b ∈ (formatSecFrac3339 ts ++ formatTZ3339 ts).head?, b = '.'.toUInt8 ∨ b = ts.OffsetMode := by
  intro b hb
  unfold formatSecFrac3339 formatTZ3339 at hb
  split at hb
  · simp only [List.cons_append, List.head?_cons, Option.mem_def, Option.some.injEq] at hb
    exact .inl hb.symm
  · split at hb <;> simp_all

/-- A timestamp that `formatTimestamp3339` writes is read back by `ParseTIMESTAMP3339` up to
its end: the return code is `RS_RET_OK`, the pointer has passed the whole text, no length is
left, and `*pTime` holds the timestamp's fields with `timeType` 2. -/
theorem parseTIMESTAMP3339_formatTimestamp3339 (buf : ℕ → UInt8) (pTime t : SyslogTime)
    (pszTS : ℕ) (hbuf : getBytes buf pszTS (formatTimestamp3339 t).length = formatTimestamp3339 t)
    (hyear : 0 ≤ t.year.toInt ∧ t.year.toInt ≤ 2099)
    (hmonth : 1 ≤ t.month.toNat ∧ t.month.toNat ≤ 12) (hday : 1 ≤ t.day.toNat ∧ t.day.toNat ≤ 31)
    (hhour : t.hour.toNat ≤ 23) (hminute : t.minute.toNat ≤ 59) (hsecond : t.second.toNat ≤ 60)
    (hprec : t.secfracPrecision.toNat ≤ 6)
    (hfrac : 0 ≤ t.secfrac.toInt ∧ t.secfrac.toInt < 10 ^ t.secfracPrecision.toNat)
    (hmode : t.OffsetMode = '+'.toUInt8 ∨ t.OffsetMode = '-'.toUInt8 ∨
      (t.OffsetMode = 'Z'.toUInt8 ∧ t.OffsetHour = 0 ∧ t.OffsetMinute = 0))
    (hoffset : t.OffsetHour.toNat ≤ 23 ∧ t.OffsetMinute.toNat ≤ 59) :
    parseTIMESTAMP3339 buf pTime pszTS (formatTimestamp3339 t).length =
      (.ok, { pTime with
        timeType := 2
        year := t.year
        month := t.month
        day := t.day
        hour := t.hour
        minute := t.minute
        second := t.second
        secfrac := t.secfrac
        secfracPrecision := t.secfracPrecision
        OffsetMode := t.OffsetMode
        OffsetHour := t.OffsetHour
        OffsetMinute := t.OffsetMinute }, pszTS + (formatTimestamp3339 t).length, 0) := by
  -- the fields as digits that read back within their ranges
  obtain ⟨hYd, hYv⟩ := fmtYear_spec hyear.1 (by omega)
  have hY : FieldDigits [fmtDigit (t.year.toInt.tdiv 1000), fmtDigit (t.year.toInt.tdiv 100),
      fmtDigit (t.year.toInt.tdiv 10), fmtDigit t.year.toInt] 0 2099 :=
    ⟨hYd, by simp, by omega, by omega⟩
  obtain ⟨hM, hMv⟩ := fieldDigits_fmtTwoDigits (b := t.month)
    (show (1 : ℤ) ≤ t.month.toNat ∧ (t.month.toNat : ℤ) ≤ 12 by omega) (by omega)
  obtain ⟨hD, hDv⟩ := fieldDigits_fmtTwoDigits (b := t.day)
    (show (1 : ℤ) ≤ t.day.toNat ∧ (t.day.toNat : ℤ) ≤ 31 by omega) (by omega)
  obtain ⟨hH, hHv⟩ := fieldDigits_fmtTwoDigits (b := t.hour)
    (show (0 : ℤ) ≤ t.hour.toNat ∧ (t.hour.toNat : ℤ) ≤ 23 by omega) (by omega)
  obtain ⟨hMi, hMiv⟩ := fieldDigits_fmtTwoDigits (b := t.minute)
    (show (0 : ℤ) ≤ t.minute.toNat ∧ (t.minute.toNat : ℤ) ≤ 59 by omega) (by omega)
  obtain ⟨hS, hSv⟩ := fieldDigits_fmtTwoDigits (b := t.second)
    (show (0 : ℤ) ≤ t.second.toNat ∧ (t.second.toNat : ℤ) ≤ 60 by omega) (by omega)
  -- the text in the shape the parser reads it
  have hat : TsCursor.At buf ⟨pszTS, (formatTimestamp3339 t).length⟩ (formatFields3339 t) :=
    ⟨by rw [← formatTimestamp3339_eq]; exact hbuf, by rw [formatTimestamp3339_eq]⟩
  -- the first byte after the seconds is a dot or the zone, neither a digit
  have hsign : isDigitByte t.OffsetMode = false := by
    rcases hmode with h | h | h
    · rw [h]; decide
    · rw [h]; decide
    · rw [h.1]; decide
  have hstop : ∀ b ∈ (formatSecFrac3339 t ++ formatTZ3339 t).head?, isDigitByte b = false := by
    intro b hb
    rcases formatTail3339_head t b hb with rfl | rfl
    · decide
    · exact hsign
  have hFZ : ∀ c₁ : TsCursor, c₁.At buf (formatSecFrac3339 t ++ formatTZ3339 t) →
      ∃ c₂ c₃, (parseSecfrac buf).run c₁ =
          some ((t.secfrac.toInt, (t.secfracPrecision.toNat : ℤ)), c₂) ∧
        (parseTZ3339 buf).run c₂ = some ((t.OffsetMode, (t.OffsetHour.toNat : ℤ),
          (t.OffsetMinute.toNat : ℤ)), c₃) ∧ c₃.At buf [] := by
    intro c₁ h₁
    have hzone : ∀ b ∈ (formatTZ3339 t).head?, isDigitByte b = false ∧ b ≠ '.'.toUInt8 := by
      intro b hb
      have hb' : b = t.OffsetMode := by
        unfold formatTZ3339 at hb
        split at hb <;> simp_all
      subst hb'
      refine ⟨hsign, ?_⟩
      rcases hmode with h | h | h
      · rw [h]; decide
      · rw [h]; decide
      · rw [h.1]; decide
    obtain ⟨c₂, hF, h₂⟩ := parseSecfrac_run_format h₁ hprec hfrac hzone
    obtain ⟨c₃, hZ, h₃⟩ := parseTZ3339_run_format h₂ hmode hoffset
    exact ⟨c₂, c₃, hF, hZ, by simp [TsCursor.At, h₃]⟩
  obtain ⟨cEnd, hlen0, hrun⟩ := parseTIMESTAMP3339Body_run buf pTime hat hY hM hD hH hMi hS
    hstop hFZ
  -- the pointer has passed the whole text, as no length is left
  have htrack : TsWindow.Tracks ⟨pszTS, pszTS + (formatTimestamp3339 t).length⟩ cEnd :=
    TsScan.of_triple (parseTIMESTAMP3339Body_tracks buf pTime _)
      (⟨le_rfl, by push_cast; rfl, Int.natCast_nonneg _⟩ : TsWindow.Tracks _ ⟨pszTS, _⟩) hrun
  have hpos : cEnd.pos = pszTS + (formatTimestamp3339 t).length := by
    have := htrack.2.1
    simp only [hlen0] at this
    omega
  simp only [parseTIMESTAMP3339, commitParse, hrun, hpos, hlen0, hYv, hMv, hDv, hHv, hMiv, hSv,
    Int.toInt16, Int16.ofInt_toInt, uint8OfInt_toNat, Int.toInt32, Int32.ofInt_toInt]

theorem parseTIMESTAMP3339_formatTimestamp3339_leapSecond :
    parseTIMESTAMP3339 (bufferOf (formatTimestamp3339 { SyslogTime.zero with
        year := 2016, month := 12, day := 31, hour := 23, minute := 59, second := 60
        secfrac := 7, secfracPrecision := 6, OffsetMode := '+'.toUInt8, OffsetHour := 14 }))
      SyslogTime.zero 0 (asciiBytes "2016-12-31T23:59:60.000007+14:00").length =
    (.ok, { SyslogTime.zero with
        timeType := 2, year := 2016, month := 12, day := 31, hour := 23, minute := 59
        second := 60, secfrac := 7, secfracPrecision := 6, OffsetMode := '+'.toUInt8
        OffsetHour := 14 }, 0 + (asciiBytes "2016-12-31T23:59:60.000007+14:00").length, 0) := by
  have htext : formatTimestamp3339 { SyslogTime.zero with
      year := 2016, month := 12, day := 31, hour := 23, minute := 59, second := 60
      secfrac := 7, secfracPrecision := 6, OffsetMode := '+'.toUInt8, OffsetHour := 14 } =
      asciiBytes "2016-12-31T23:59:60.000007+14:00" := by
    decide +kernel
  rw [← htext]
  exact parseTIMESTAMP3339_formatTimestamp3339 _ SyslogTime.zero _ 0 (getBytes_bufferOf _)
    (by decide) (by decide) (by decide) (by decide) (by decide) (by decide) (by decide)
    (by decide) (by decide) (by decide)

/-! ## Reading back `formatTimestamp3164` -/

/-- A month name is not a leading year. -/
theorem leadingYear_run_letter {buf : ℕ → UInt8} {c : TsCursor}
    (h : isDigitByte (buf c.pos) = false) : (leadingYear buf).run c = some (0, c) := by
  simp only [leadingYear]
  rw [TsScan.run_get_bind, if_neg (by rw [h]; decide)]
  rfl

/-- Each name of `monthNames` is three bytes, and the `switch` of `ParseTIMESTAMP3164` tells it
apart as its month. -/
theorem monthNames_lookup : ∀ i : Fin 12, (monthNames.getD i.val []).length = 3 ∧
    ((lookupLetter ((monthNames.getD i.val []).getD 0 0) monthTrie).bind fun seconds =>
      (lookupLetter ((monthNames.getD i.val []).getD 1 0) seconds).bind fun thirds =>
        lookupLetter ((monthNames.getD i.val []).getD 2 0) thirds) = some (i.val + 1 : ℤ) := by
  decide

theorem parseMonth_run {buf : ℕ → UInt8} {c : TsCursor} {rest : List UInt8} (m : ℕ) (hm : m < 12)
    (h : c.At buf (monthNames.getD m [] ++ rest)) :
    (parseMonth buf).run c = some ((m + 1 : ℤ), c.advance 3) := by
  have hlen : (monthNames.getD m []).length = 3 := (monthNames_lookup ⟨m, hm⟩).1
  have hbyte : ∀ k < 3, buf (c.pos + k) = (monthNames.getD m []).getD k 0 := by
    intro k hk
    rw [apply_eq_of_getBytes h.1 k (by rw [List.length_append, hlen]; omega),
      List.getElem_append_left (by omega)]
    exact (List.getD_eq_getElem _ 0 (by omega)).symm
  simp only [parseMonth]
  rw [TsScan.run_get_bind, ← Nat.add_zero c.pos, hbyte 0 (by decide), hbyte 1 (by decide),
    hbyte 2 (by decide), Nat.add_zero]
  -- with the bytes known, the three lookups of each month compute
  interval_cases m <;> rfl

/-- A month name starts with a letter. -/
theorem monthNames_head : ∀ i : Fin 12, ∀ b ∈ (monthNames.getD i.val []).head?,
    isDigitByte b = false := by
  decide +kernel

/-- A second space before a one-digit day is passed. -/
theorem skipDayPad_run_space {buf : ℕ → UInt8} {c : TsCursor} {rest : List UInt8}
    (h : c.At buf (' '.toUInt8 :: rest)) : (skipDayPad buf).run c = some ((), c.advance 1) := by
  obtain ⟨hb, -, -⟩ := h.cons
  simp only [skipDayPad]
  rw [TsScan.run_get_bind, if_pos hb]
  rfl

theorem skipDayPad_run_other {buf : ℕ → UInt8} {c : TsCursor} {b : UInt8} {rest : List UInt8}
    (h : c.At buf (b :: rest)) (hb : b ≠ ' '.toUInt8) : (skipDayPad buf).run c = some ((), c) := by
  obtain ⟨hb', -, -⟩ := h.cons
  simp only [skipDayPad]
  rw [TsScan.run_get_bind, if_neg (by rw [hb']; exact hb)]
  rfl

/-- An hour that cannot be a year is left as the hour. -/
theorem ciscoYear_run_hour {buf : ℕ → UInt8} (c : TsCursor) {year hour : ℤ}
    (h : ¬(year = 0 ∧ 1970 < hour ∧ hour < 2100)) :
    (ciscoYear buf year hour).run c = some ((year, hour), c) := by
  simp only [ciscoYear, if_neg h]
  rfl

/-- At the end of the length there is no colon to pass. -/
theorem skipColon_run_end {buf : ℕ → UInt8} {c : TsCursor} (h : c.At buf []) :
    (skipColon buf).run c = some ((), c) := by
  simp [skipColon, h.2]

/-- The day as `formatTimestamp3164` writes it: its tens, or a space for none, and its units. -/
abbrev formatDay3164 (ts : SyslogTime) (bBuggyDay : Bool) : List UInt8 :=
  [if bBuggyDay ∨ 0 < ((charInt ts.day).tdiv 10).tmod 10 then
      UInt8.ofInt (((charInt ts.day).tdiv 10).tmod 10 + '0'.toNat)
    else ' '.toUInt8,
    fmtDigit (charInt ts.day)]

/-- The text of `formatTimestamp3164` after the month name, field by field. -/
abbrev formatFields3164 (ts : SyslogTime) (bBuggyDay : Bool) : List UInt8 :=
  ' '.toUInt8 :: (formatDay3164 ts bBuggyDay ++ ' '.toUInt8 :: (fmtTwoDigits (charInt ts.hour) ++
    ':'.toUInt8 :: (fmtTwoDigits (charInt ts.minute) ++ ':'.toUInt8 ::
    fmtTwoDigits (charInt ts.second))))

/-- For a month in 1..12 the formatter finds its name, and writes it before the other fields. -/
theorem formatTimestamp3164_of_month (ts : SyslogTime) (bBuggyDay : Bool)
    (hmonth : 1 ≤ ts.month.toNat ∧ ts.month.toNat ≤ 12) :
    formatTimestamp3164 ts bBuggyDay =
      some (monthNames.getD (ts.month.toNat - 1) [] ++ formatFields3164 ts bBuggyDay) := by
  have hi : (charInt ts.month - 1).tmod 12 = ((ts.month.toNat - 1 : ℕ) : ℤ) := by
    rw [charInt_of_lt (by omega), Int.tmod_eq_emod_of_nonneg (by omega)]
    omega
  have hname : monthNames[ts.month.toNat - 1]? = some (monthNames.getD (ts.month.toNat - 1) []) := by
    rw [List.getD_eq_getElem?_getD, List.getElem?_eq_getElem (by simp [monthNames]; omega)]
    rfl
  rw [formatTimestamp3164, if_pos (by rw [hi]; omega), hi, Int.toNat_natCast, hname, Option.map_some]
  simp only [formatFields3164, formatDay3164, List.append_assoc, List.cons_append, List.nil_append]

/-- The day `formatTimestamp3164` writes, with a space or a digit for its tens, is read by the
pad check and the digits after it: two bytes in all, whichever the pad. -/
theorem skipDayPad_run_format {buf : ℕ → UInt8} {c : TsCursor} {ts : SyslogTime}
    {bBuggyDay : Bool} {rest : List UInt8} (hday : 1 ≤ ts.day.toNat ∧ ts.day.toNat ≤ 31)
    (h : c.At buf (formatDay3164 ts bBuggyDay ++ rest)) :
    ∃ ds : List UInt8, ds.length ≤ 2 ∧
      (skipDayPad buf).run c = some ((), c.advance (2 - ds.length)) ∧
      (c.advance (2 - ds.length)).At buf (ds ++ rest) ∧ FieldDigits ds 1 31 ∧
      digitsInt 0 ds = ts.day.toNat := by
  have htens : ((charInt ts.day).tdiv 10).tmod 10 = ((ts.day.toNat / 10 : ℕ) : ℤ) := by
    rw [charInt_of_lt (by omega), Int.tdiv_eq_ediv_of_nonneg (by omega),
      Int.tmod_eq_emod_of_nonneg (by omega)]
    omega
  have hchar : charInt ts.day = ts.day.toNat := charInt_of_lt (by omega)
  by_cases hc : bBuggyDay = true ∨ 0 < ((charInt ts.day).tdiv 10).tmod 10
  · -- the tens are written as a digit: the two bytes are `fmtTwoDigits` of the day
    obtain ⟨hD, hDv⟩ := fieldDigits_fmtTwoDigits (b := ts.day)
      (show (1 : ℤ) ≤ ts.day.toNat ∧ (ts.day.toNat : ℤ) ≤ 31 by omega) (by omega)
    have hds : formatDay3164 ts bBuggyDay = fmtTwoDigits (charInt ts.day) := by
      rw [formatDay3164, if_pos hc]
      rfl
    have hpad : isDigitByte (fmtDigit ((charInt ts.day).tdiv 10)) = true :=
      hD.1 _ (by simp [fmtTwoDigits])
    rw [hds] at h
    have h' : c.At buf (fmtDigit ((charInt ts.day).tdiv 10) :: (fmtDigit (charInt ts.day) :: rest)) := h
    have hlen2 : (fmtTwoDigits (charInt ts.day)).length = 2 := rfl
    refine ⟨fmtTwoDigits (charInt ts.day), hlen2.le, ?_, ?_, hD, hDv⟩
    · rw [skipDayPad_run_other h' (fun hb => by rw [hb] at hpad; exact absurd hpad (by decide)),
        hlen2, Nat.sub_self, TsCursor.advance_zero]
    · rw [hlen2, Nat.sub_self, TsCursor.advance_zero]
      exact h
  · -- no tens: a space, then the units alone
    have hds : formatDay3164 ts bBuggyDay = ' '.toUInt8 :: [fmtDigit (charInt ts.day)] := by
      rw [formatDay3164, if_neg hc]
    rw [hds, List.cons_append] at h
    have hlt : ts.day.toNat < 10 := by omega
    have hunits := fmtDigit_spec (v := ts.day.toNat) (by omega)
    refine ⟨[fmtDigit (charInt ts.day)], by simp, skipDayPad_run_space h, h.cons.2.2, ⟨?_, by simp, ?_⟩, ?_⟩
    · simpa [hchar] using hunits.1
    all_goals simp only [digitsInt, List.foldl_cons, List.foldl_nil, hchar]; omega

/-- The date `formatTimestamp3164` writes is read as no year, its month and its day, in six
bytes. -/
theorem parse3164Date_run_format {buf : ℕ → UInt8} {c : TsCursor} {ts : SyslogTime}
    {bBuggyDay : Bool} {rest : List UInt8} (hmonth : 1 ≤ ts.month.toNat ∧ ts.month.toNat ≤ 12)
    (hday : 1 ≤ ts.day.toNat ∧ ts.day.toNat ≤ 31)
    (h : c.At buf (monthNames.getD (ts.month.toNat - 1) [] ++ ' '.toUInt8 ::
      (formatDay3164 ts bBuggyDay ++ ' '.toUInt8 :: rest))) :
    (parse3164Date buf).run c =
      some ((0, (ts.month.toNat : ℤ), (ts.day.toNat : ℤ)), c.advance 6) := by
  have hlen : (monthNames.getD (ts.month.toNat - 1) []).length = 3 :=
    (monthNames_lookup ⟨ts.month.toNat - 1, by omega⟩).1
  have hletter : ∀ b ∈ (monthNames.getD (ts.month.toNat - 1) []).head?, isDigitByte b = false :=
    monthNames_head ⟨ts.month.toNat - 1, by omega⟩
  have hlenStr : ¬c.lenStr < 3 := by
    rw [h.2, List.length_append, hlen]
    omega
  -- the month name, whose first byte is a letter
  have hfirst : isDigitByte (buf c.pos) = false := by
    obtain ⟨b₀, bs, hbs⟩ := List.exists_cons_of_length_eq_add_one hlen
    rw [hbs, List.cons_append] at h
    rw [h.cons.1]
    exact hletter b₀ (by rw [hbs]; rfl)
  have hM := parseMonth_run _ (by omega) h
  have a₁ : (c.advance 3).At buf (' '.toUInt8 :: (formatDay3164 ts bBuggyDay ++ ' '.toUInt8 :: rest)) := by
    simpa only [hlen] using h.drop
  have e₁ := expectByte_run a₁
  -- the day, padded by a space or a digit
  obtain ⟨ds, hdslen, hpad, a₂, hD, hDv⟩ := skipDayPad_run_format hday a₁.cons.2.2
  obtain ⟨rD, -⟩ := srSLMGParseInt32_run_field a₂ hD.1 (by decide) hD.2.1
  have hend : (((c.advance 3).advance 1).advance (2 - ds.length)).advance ds.length = c.advance 6 := by
    simp only [TsCursor.advance_advance]
    congr 1
    omega
  simp only [parse3164Date]
  rw [TsScan.run_get_bind, if_neg hlenStr, TsScan.run_bind_of (leadingYear_run_letter hfirst),
    TsScan.run_bind_of hM, TsScan.run_bind_of e₁, TsScan.run_bind_of hpad, TsScan.run_bind_of rD,
    TsScan.run_bind_of (checkRange_run _ (by rw [hDv]; omega)), hDv, hend,
    Nat.cast_sub (by omega), Nat.cast_one, sub_add_cancel]
  rfl

/-- `ParseTIMESTAMP3164`, with neither a TZSTRING nor a year after the time looked for, reads
the text `formatTimestamp3164` writes to its end and stores its fields: no year, no fraction,
and `timeType` 1. -/
theorem parseTIMESTAMP3164Body_run_format (buf : ℕ → UInt8)
    (glblFindTimezone : List UInt8 → Option TzInfo) (pTime ts : SyslogTime) (bBuggyDay : Bool)
    {c : TsCursor} (hmonth : 1 ≤ ts.month.toNat ∧ ts.month.toNat ≤ 12)
    (hday : 1 ≤ ts.day.toNat ∧ ts.day.toNat ≤ 31) (hhour : ts.hour.toNat ≤ 23)
    (hminute : ts.minute.toNat ≤ 59) (hsecond : ts.second.toNat ≤ 60)
    (h : c.At buf (monthNames.getD (ts.month.toNat - 1) [] ++ formatFields3164 ts bBuggyDay)) :
    (parseTIMESTAMP3164Body buf glblFindTimezone pTime false false).run c = some ({ pTime with
      timeType := 1
      month := ts.month
      day := ts.day
      hour := ts.hour
      minute := ts.minute
      second := ts.second
      secfrac := 0
      secfracPrecision := 0 }, c.advance 15) := by
  have hlen : (monthNames.getD (ts.month.toNat - 1) []).length = 3 :=
    (monthNames_lookup ⟨ts.month.toNat - 1, by omega⟩).1
  obtain ⟨hH, hHv⟩ := fieldDigits_fmtTwoDigits (b := ts.hour)
    (show (0 : ℤ) ≤ ts.hour.toNat ∧ (ts.hour.toNat : ℤ) ≤ 23 by omega) (by omega)
  obtain ⟨hMi, hMiv⟩ := fieldDigits_fmtTwoDigits (b := ts.minute)
    (show (0 : ℤ) ≤ ts.minute.toNat ∧ (ts.minute.toNat : ℤ) ≤ 59 by omega) (by omega)
  obtain ⟨hS, hSv⟩ := fieldDigits_fmtTwoDigits (b := ts.second)
    (show (0 : ℤ) ≤ ts.second.toNat ∧ (ts.second.toNat : ℤ) ≤ 60 by omega) (by omega)
  -- the date takes six bytes; the time follows its space
  have hdate := parse3164Date_run_format hmonth hday h
  have a₁ : (c.advance 6).At buf (' '.toUInt8 :: (fmtTwoDigits (charInt ts.hour) ++
      ':'.toUInt8 :: (fmtTwoDigits (charInt ts.minute) ++ ':'.toUInt8 ::
      fmtTwoDigits (charInt ts.second)))) := by
    have h6 : (monthNames.getD (ts.month.toNat - 1) [] ++
        ' '.toUInt8 :: formatDay3164 ts bBuggyDay).length = 6 := by
      rw [List.length_append, hlen]
      rfl
    have hdrop := TsCursor.At.drop
      (t := monthNames.getD (ts.month.toNat - 1) [] ++ ' '.toUInt8 :: formatDay3164 ts bBuggyDay)
      (by rw [List.append_assoc]; exact h)
    rw [h6] at hdrop
    exact hdrop
  have e₁ := expectByte_run a₁
  obtain ⟨rH, aH⟩ := srSLMGParseInt32_run_field a₁.cons.2.2 hH.1 (by decide) hH.2.1
  have e₂ := expectByte_run aH
  obtain ⟨rMi, aMi⟩ := srSLMGParseInt32_run_field aH.cons.2.2 hMi.1 (by decide) hMi.2.1
  have e₃ := expectByte_run aMi
  have a₂ := aMi.cons.2.2
  rw [← List.append_nil (fmtTwoDigits (charInt ts.second))] at a₂
  have rS := srSLMGParseInt32_run a₂ hS.1 (by simp) hS.2.1
  -- nothing is left after the seconds
  have aEnd := a₂.drop
  have hend : ((((((c.advance 6).advance 1).advance (fmtTwoDigits (charInt ts.hour)).length).advance
      1).advance (fmtTwoDigits (charInt ts.minute)).length).advance 1).advance
      (fmtTwoDigits (charInt ts.second)).length = c.advance 15 := by
    simp only [TsCursor.advance_advance]
    rfl
  simp only [parseTIMESTAMP3164Body, Bool.false_eq_true, ↓reduceIte]
  rw [TsScan.run_bind_of hdate, TsScan.run_bind_of e₁, TsScan.run_bind_of rH, hHv,
    TsScan.run_bind_of (ciscoYear_run_hour _ (by omega)),
    TsScan.run_bind_of (checkRange_run _ (by omega)), TsScan.run_bind_of e₂,
    TsScan.run_bind_of rMi, hMiv, TsScan.run_bind_of (checkRange_run _ (by omega)),
    TsScan.run_bind_of e₃, TsScan.run_bind_of rS, hSv,
    TsScan.run_bind_of (checkRange_run _ (by omega)),
    TsScan.run_bind_of (parseSecfrac_run_none aEnd (by simp)), TsScan.run_bind_of rfl,
    TsScan.run_bind_of rfl, TsScan.run_bind_of (skipColon_run_end aEnd),
    TsScan.run_bind_of (skipTrailingSpace_run_end aEnd), hend]
  simp only [storeTIMESTAMP3164, uint8OfInt_toNat, lt_self_iff_false, ↓reduceIte]
  rfl

/-- A timestamp that `formatTimestamp3164` writes, for either `bBuggyDay`, is fifteen bytes
that `ParseTIMESTAMP3164`, with neither a TZSTRING nor a year after the time looked for, reads
to their end: the return code is `RS_RET_OK`, the pointer has passed the fifteen bytes, no
length is left, and `*pTime` has the month, day and time of the timestamp, no fraction and
`timeType` 1, and keeps its year and offset. -/
theorem parseTIMESTAMP3164_formatTimestamp3164 (glblFindTimezone : List UInt8 → Option TzInfo)
    (u t : SyslogTime) (bBuggyDay : Bool) (hmonth : 1 ≤ t.month.toNat ∧ t.month.toNat ≤ 12)
    (hday : 1 ≤ t.day.toNat ∧ t.day.toNat ≤ 31) (hhour : t.hour.toNat ≤ 23)
    (hminute : t.minute.toNat ≤ 59) (hsecond : t.second.toNat ≤ 60) :
    ∃ text, formatTimestamp3164 t bBuggyDay = some text ∧ text.length = 15 ∧
      ∀ (buf : ℕ → UInt8) (pszTS : ℕ), getBytes buf pszTS 15 = text →
        parseTIMESTAMP3164 buf glblFindTimezone u pszTS 15 false false =
          (.ok, { u with
            timeType := 1
            month := t.month
            day := t.day
            hour := t.hour
            minute := t.minute
            second := t.second
            secfrac := 0
            secfracPrecision := 0 }, pszTS + 15, 0) := by
  have hlen : (monthNames.getD (t.month.toNat - 1) []).length = 3 :=
    (monthNames_lookup ⟨t.month.toNat - 1, by omega⟩).1
  have hlen15 : (monthNames.getD (t.month.toNat - 1) [] ++ formatFields3164 t bBuggyDay).length =
      15 := by
    rw [List.length_append, hlen]
    rfl
  refine ⟨_, formatTimestamp3164_of_month t bBuggyDay hmonth, hlen15, fun buf pszTS hbuf => ?_⟩
  have hat : TsCursor.At buf ⟨pszTS, 15⟩
      (monthNames.getD (t.month.toNat - 1) [] ++ formatFields3164 t bBuggyDay) :=
    ⟨by rw [hlen15]; exact hbuf, by rw [hlen15]; rfl⟩
  simp only [parseTIMESTAMP3164, commitParse,
    parseTIMESTAMP3164Body_run_format buf glblFindTimezone u t bBuggyDay hmonth hday hhour hminute
      hsecond hat]
  rfl

theorem parseTIMESTAMP3164_formatTimestamp3164_buggyDay :
    ∃ text, formatTimestamp3164 { SyslogTime.zero with
        month := 12, day := 5, hour := 23, minute := 59, second := 60 } true = some text ∧
      text.length = 15 ∧
      ∀ (buf : ℕ → UInt8) (pszTS : ℕ), getBytes buf pszTS 15 = text →
        parseTIMESTAMP3164 buf (fun _ => none) SyslogTime.zero pszTS 15 false false =
          (.ok, { SyslogTime.zero with
            timeType := 1, month := 12, day := 5, hour := 23, minute := 59, second := 60
            secfrac := 0, secfracPrecision := 0 }, pszTS + 15, 0) :=
  parseTIMESTAMP3164_formatTimestamp3164 (fun _ => none) SyslogTime.zero _ true (by decide)
    (by decide) (by decide) (by decide) (by decide)

/-- The parse of a `formatTimestamp3164` text sets `timeType` to 1: read into a cleared
`syslogTime`, whose `timeType` is 0, `Mar  7 08:00:59` gives the month, day and time and
`timeType` 1, not the cleared timestamp with those fields alone replaced. -/
theorem parseTIMESTAMP3164_formatTimestamp3164_timeType :
    formatTimestamp3164 { SyslogTime.zero with month := 3, day := 7, hour := 8, second := 59 }
        false = some (asciiBytes "Mar  7 08:00:59") ∧
      parseTIMESTAMP3164 (bufferOf (asciiBytes "Mar  7 08:00:59")) (fun _ => none)
          SyslogTime.zero 0 15 false false =
        (.ok, { SyslogTime.zero with timeType := 1, month := 3, day := 7, hour := 8, second := 59 },
          15, 0) ∧
      (parseTIMESTAMP3164 (bufferOf (asciiBytes "Mar  7 08:00:59")) (fun _ => none)
          SyslogTime.zero 0 15 false false).2.1 ≠
        { SyslogTime.zero with
          month := 3, day := 7, hour := 8, minute := 0, second := 59
          secfrac := 0, secfracPrecision := 0 } := by
  decide +kernel

end Rsyslog
