import Mathlib
import Rsyslog.Common.ByteBuffer
import Rsyslog.Common.Calendar
import Rsyslog.Runtime.Msg

/-!
# Timestamp parsing and the weekday (`runtime/datetime.c`)

`ParseTIMESTAMP3339` and `ParseTIMESTAMP3164` read a timestamp at `*ppszTS` with `*pLenStr`
bytes left, and write the pointer, the length and `*pTime` back only when the whole timestamp is
valid. They are programs of `TsScan`, a cursor of pointer and length over an exception for the
return code; their loops are structural functions with the C length as fuel. `TsWindow.Tracks`
is the length accounting: the pointer plus the length stays the end of the caller's bytes.
`getWeekdayNbr` computes the weekday by a March-based formula without the Gregorian century
terms.
-/

namespace Rsyslog

open Std.Do
open Rsyslog.Common

set_option mvcgen.warning false

/-! ## The parse cursor -/

/-- The local parse state of the timestamp parsers: the pointer `pszTS`, as an offset into the
message buffer, and `lenStr`, the count of bytes the caller says are left. -/
structure TsCursor where
  pos : ℕ
  lenStr : ℤ
  deriving DecidableEq, Repr

/-- A step of a timestamp parser: it moves the cursor or aborts. Every abort of the two
parsers is `ABORT_FINALIZE(RS_RET_INVLD_TIME)`, so an abort needs no code. -/
abbrev TsScan := StateT TsCursor Option

/-- `ABORT_FINALIZE(RS_RET_INVLD_TIME)`. -/
def abortInvldTime {α : Type} : TsScan α :=
  MonadLift.monadLift (none : Option α)

/-- `c >= '0' && c <= '9'`. -/
def isDigitByte (b : UInt8) : Bool :=
  '0'.toUInt8 ≤ b && b ≤ '9'.toUInt8

/-- `INT_MAX`. -/
def intMax : ℤ := 2147483647

/-- The loop of `srSLMGParseInt32`: digits are accumulated while `lenStr > 0` and the value
is below `INT_MAX / 10 - 1`. Each round decrements `lenStr`, so its initial value is enough
fuel. -/
def srSLMGParseInt32Loop (buf : ℕ → UInt8) : ℕ → ℤ → TsCursor → ℤ × TsCursor
  | 0, i, c => (i, c)
  | fuel + 1, i, c =>
    if 0 < c.lenStr ∧ isDigitByte (buf c.pos) = true ∧ i < intMax / 10 - 1 then
      srSLMGParseInt32Loop buf fuel (i * 10 + (buf c.pos).toNat - '0'.toNat)
        { pos := c.pos + 1, lenStr := c.lenStr - 1 }
    else
      (i, c)

/-- `srSLMGParseInt32(&pszTS, &lenStr)`. -/
def srSLMGParseInt32 (buf : ℕ → UInt8) : TsScan ℤ :=
  modifyGet fun c => srSLMGParseInt32Loop buf c.lenStr.toNat 0 c

/-- `if (lenStr == 0 || *pszTS++ != ch) ABORT_FINALIZE(RS_RET_INVLD_TIME); --lenStr;` -/
def expectByte (buf : ℕ → UInt8) (ch : Char) : TsScan Unit := do
  let c ← get
  if c.lenStr = 0 ∨ buf c.pos ≠ ch.toUInt8 then abortInvldTime
  else set { pos := c.pos + 1, lenStr := c.lenStr - 1 : TsCursor }

/-- `if (v < lo || v > hi) ABORT_FINALIZE(RS_RET_INVLD_TIME);` -/
def checkRange (lo hi v : ℤ) : TsScan Unit :=
  if v < lo ∨ hi < v then abortInvldTime else pure ()

/-- The fraction of a second, present when a `.` follows the seconds: `secfrac` and
`secfracPrecision`, the count of its digits. -/
def parseSecfrac (buf : ℕ → UInt8) : TsScan (ℤ × ℤ) := do
  let c ← get
  if 0 < c.lenStr ∧ buf c.pos = '.'.toUInt8 then
    set { pos := c.pos + 1, lenStr := c.lenStr - 1 : TsCursor }
    let secfrac ← srSLMGParseInt32 buf
    let c' ← get
    pure (secfrac, (c'.pos : ℤ) - (c.pos + 1))
  else
    pure (0, 0)

/-- The end of a timestamp: `if (lenStr > 0) { if (*pszTS != ' ') ABORT; ++pszTS; --lenStr; }`. -/
def skipTrailingSpace (buf : ℕ → UInt8) : TsScan Unit := do
  let c ← get
  if 0 < c.lenStr then
    if buf c.pos ≠ ' '.toUInt8 then abortInvldTime
    else set { pos := c.pos + 1, lenStr := c.lenStr - 1 : TsCursor }
  else
    pure ()

/-- The end of both parsers: on success `*pTime`, `*ppszTS` and `*pLenStr` get the parsed
timestamp and the local pointer and length; on failure they keep the caller's values. -/
def commitParse (body : TsScan SyslogTime) (pTime : SyslogTime) (pszTS : ℕ) (lenStr : ℤ) :
    RsRetVal × SyslogTime × ℕ × ℤ :=
  match body.run ⟨pszTS, lenStr⟩ with
  | some (t, c) => (.ok, t, c.pos, c.lenStr)
  | none => (.invldTime, pTime, pszTS, lenStr)

/-! ## RFC 3339 -/

/-- The time zone of an RFC 3339 timestamp, `Z` or `+hh:mm` or `-hh:mm`: the `OffsetMode`,
`OffsetHour` and `OffsetMinute` it gives. -/
def parseTZ3339 (buf : ℕ → UInt8) : TsScan (UInt8 × ℤ × ℤ) := do
  let c ← get
  if c.lenStr = 0 then
    abortInvldTime
  else if buf c.pos = 'Z'.toUInt8 then
    set { pos := c.pos + 1, lenStr := c.lenStr - 1 : TsCursor }
    pure ('Z'.toUInt8, 0, 0)
  else if buf c.pos = '+'.toUInt8 ∨ buf c.pos = '-'.toUInt8 then
    set { pos := c.pos + 1, lenStr := c.lenStr - 1 : TsCursor }
    let OffsetHour ← srSLMGParseInt32 buf
    checkRange 0 23 OffsetHour
    -- `if (lenStr == 0 || *pszTS != ':') ABORT; --lenStr; pszTS++;`
    expectByte buf ':'
    let OffsetMinute ← srSLMGParseInt32 buf
    checkRange 0 59 OffsetMinute
    pure (buf c.pos, OffsetHour, OffsetMinute)
  else
    abortInvldTime

/-- The body of `ParseTIMESTAMP3339`, from the first digit of the year to the new
`*pTime`. -/
def parseTIMESTAMP3339Body (buf : ℕ → UInt8) (pTime : SyslogTime) : TsScan SyslogTime := do
  let year ← srSLMGParseInt32 buf
  -- `lenStr == 0 || *pszTS++ != '-' || year < 0 || year >= 2100`
  expectByte buf '-'
  checkRange 0 2099 year
  let month ← srSLMGParseInt32 buf
  checkRange 1 12 month
  expectByte buf '-'
  let day ← srSLMGParseInt32 buf
  checkRange 1 31 day
  expectByte buf 'T'
  let hour ← srSLMGParseInt32 buf
  checkRange 0 23 hour
  expectByte buf ':'
  let minute ← srSLMGParseInt32 buf
  checkRange 0 59 minute
  expectByte buf ':'
  let second ← srSLMGParseInt32 buf
  checkRange 0 60 second
  let frac ← parseSecfrac buf
  let tz ← parseTZ3339 buf
  skipTrailingSpace buf
  pure { pTime with
    timeType := 2
    year := year.toInt16
    month := UInt8.ofInt month
    day := UInt8.ofInt day
    hour := UInt8.ofInt hour
    minute := UInt8.ofInt minute
    second := UInt8.ofInt second
    secfrac := frac.1.toInt32
    secfracPrecision := UInt8.ofInt frac.2
    OffsetMode := tz.1
    OffsetHour := UInt8.ofInt tz.2.1
    OffsetMinute := UInt8.ofInt tz.2.2 }

/-- `ParseTIMESTAMP3339(pTime, ppszTS, pLenStr)`: the return code and the new `*pTime`,
`*ppszTS` and `*pLenStr`. -/
def parseTIMESTAMP3339 (buf : ℕ → UInt8) (pTime : SyslogTime) (pszTS : ℕ) (lenStr : ℤ) :
    RsRetVal × SyslogTime × ℕ × ℤ :=
  commitParse (parseTIMESTAMP3339Body buf pTime) pTime pszTS lenStr

/-! ## RFC 3164 -/

/-- The year some devices put before an RFC 3164 timestamp: digits for a year in 1970..2100
and a space, passed with `++pszTS` alone. Without a leading digit the year is 0, "no year". -/
def leadingYear (buf : ℕ → UInt8) : TsScan ℤ := do
  let c ← get
  if isDigitByte (buf c.pos) then
    let year ← srSLMGParseInt32 buf
    let c ← get
    if year < 1970 ∨ 2100 < year ∨ buf c.pos ≠ ' '.toUInt8 then abortInvldTime
    else
      -- `++pszTS; /* skip SP */`, with no `--lenStr`
      set { c with pos := c.pos + 1 }
      pure year
  else
    pure 0

/-- The month names as the nested `switch` of `ParseTIMESTAMP3164` tells them apart, letter by
letter: J(an/u(n/l)), Feb, Ma(r/y), A(pr/ug), Sep, Oct, Nov, Dec. -/
def monthTrie : List (Char × List (Char × List (Char × ℤ))) :=
  [('j', [('a', [('n', 1)]), ('u', [('n', 6), ('l', 7)])]),
   ('f', [('e', [('b', 2)])]),
   ('m', [('a', [('r', 3), ('y', 5)])]),
   ('a', [('p', [('r', 4)]), ('u', [('g', 8)])]),
   ('s', [('e', [('p', 9)])]),
   ('o', [('c', [('t', 10)])]),
   ('n', [('o', [('v', 11)])]),
   ('d', [('e', [('c', 12)])])]

/-- `*pszTS == 'x' || *pszTS == 'X'`. -/
def matchesLetter (b : UInt8) (ch : Char) : Bool :=
  b == ch.toUInt8 || b == ch.toUpper.toUInt8

/-- The branch of a `switch` level that a byte selects. -/
def lookupLetter {α : Type} (b : UInt8) : List (Char × α) → Option α
  | [] => none
  | (ch, a) :: rest => if matchesLetter b ch then some a else lookupLetter b rest

/-- The month name, read byte by byte down `monthTrie`, then `lenStr -= 3`. A byte is read only
when the ones before it matched. -/
def parseMonth (buf : ℕ → UInt8) : TsScan ℤ := do
  let c ← get
  match lookupLetter (buf c.pos) monthTrie with
  | none => abortInvldTime
  | some seconds =>
    match lookupLetter (buf (c.pos + 1)) seconds with
    | none => abortInvldTime
    | some thirds =>
      match lookupLetter (buf (c.pos + 2)) thirds with
      | none => abortInvldTime
      | some month =>
        set { pos := c.pos + 3, lenStr := c.lenStr - 3 : TsCursor }
        pure month

/-- A second space before a one-digit day: `if (*pszTS == ' ') { --lenStr; ++pszTS; }`, which
does not look at `lenStr`. -/
def skipDayPad (buf : ℕ → UInt8) : TsScan Unit := do
  let c ← get
  if buf c.pos = ' '.toUInt8 then set { pos := c.pos + 1, lenStr := c.lenStr - 1 : TsCursor }
  else pure ()

/-- A year where the hour should be, as Cisco devices send it: when no year was seen and the
number is in 1971..2099 it is the year, and the hour follows a space. -/
def ciscoYear (buf : ℕ → UInt8) (year hour : ℤ) : TsScan (ℤ × ℤ) :=
  if year = 0 ∧ 1970 < hour ∧ hour < 2100 then do
    expectByte buf ' '
    let hour' ← srSLMGParseInt32 buf
    pure (hour, hour')
  else
    pure (year, hour)

/-- The `for` loop that copies the TZSTRING into `tzstring[16]`: at most 15 bytes, up to a `:`
or a space, while `lenStr > 0`. -/
def tzStringLoop (buf : ℕ → UInt8) : ℕ → List UInt8 → TsCursor → List UInt8 × TsCursor
  | 0, tz, c => (tz, c)
  | fuel + 1, tz, c =>
    if 0 < c.lenStr ∧ buf c.pos ≠ ':'.toUInt8 ∧ buf c.pos ≠ ' '.toUInt8 then
      tzStringLoop buf fuel (tz ++ [buf c.pos]) { pos := c.pos + 1, lenStr := c.lenStr - 1 }
    else
      (tz, c)

/-- A time zone of the configuration (`tzinfo_t`). -/
structure TzInfo where
  offsMode : UInt8
  offsHour : Int8
  offsMin : Int8
  deriving DecidableEq, Repr

/-- The TZSTRING after the time, read when `bParseTZ` is set: the zone `glblFindTimezone`
finds for the name copied, if any. The name ends at its first NUL, as `tzstring[i] = '\0'`
makes it a C string. -/
def parseTZString (buf : ℕ → UInt8) (glblFindTimezone : List UInt8 → Option TzInfo) :
    TsScan (Option TzInfo) := do
  let c ← get
  if 2 < c.lenStr ∧ buf c.pos = ' '.toUInt8 then
    let tz ← modifyGet fun c => tzStringLoop buf 15 [] { pos := c.pos + 1, lenStr := c.lenStr - 1 }
    if 0 < tz.length then pure (glblFindTimezone (cString tz)) else pure none
  else
    pure none

/-- The loop `for (j = 1; j < 5; ++j)` of the year detection: the value of the digits up to
the first byte that is not one. -/
def yearDigits : List UInt8 → ℤ → ℤ
  | [], y => y
  | b :: bs, y => if isDigitByte b then yearDigits bs (10 * y + b.toNat - '0'.toNat) else y

/-- The year some devices send after the time, looked for when `bDetectYearAfterTime` is set
and no year was seen: a space, a year in 2000..2099 and a space or the end. The four digits
are consumed; the space after them stays for the check that follows. -/
def detectYearAfterTime (buf : ℕ → UInt8) (year : ℤ) : TsScan ℤ := do
  let c ← get
  if year = 0 ∧ 5 < c.lenStr ∧ buf c.pos = ' '.toUInt8 then
    let y := yearDigits ((List.range 4).map fun j => buf (c.pos + j + 1)) 0
    -- `if (lenStr > 6 && pszTS[5] != ' ') y = 0; /* no year! */`
    let y := if 6 < c.lenStr ∧ buf (c.pos + 5) ≠ ' '.toUInt8 then 0 else y
    if 2000 ≤ y ∧ y < 2100 then
      set { pos := c.pos + 5, lenStr := c.lenStr - 5 : TsCursor }
      pure y
    else
      pure year
  else
    pure year

/-- The extra `:` Cisco devices put after the date: `if (lenStr > 0 && *pszTS == ':')`. -/
def skipColon (buf : ℕ → UInt8) : TsScan Unit := do
  let c ← get
  if 0 < c.lenStr ∧ buf c.pos = ':'.toUInt8 then
    set { pos := c.pos + 1, lenStr := c.lenStr - 1 : TsCursor }
  else
    pure ()

/-- The fields of an RFC 3164 timestamp stored into `*pTime`: the year only when one was
found, the offset only when a zone was found whose mode is not NUL. -/
def storeTIMESTAMP3164 (pTime : SyslogTime) (year month day hour minute second : ℤ)
    (frac : ℤ × ℤ) (tz : Option TzInfo) : SyslogTime :=
  let t := { pTime with
    timeType := 1
    month := UInt8.ofInt month
    year := if 0 < year then year.toInt16 else pTime.year
    day := UInt8.ofInt day
    hour := UInt8.ofInt hour
    minute := UInt8.ofInt minute
    second := UInt8.ofInt second
    secfrac := frac.1.toInt32
    secfracPrecision := UInt8.ofInt frac.2 }
  match tz with
  | some z =>
    if z.offsMode ≠ 0 then
      { t with OffsetMode := z.offsMode, OffsetHour := z.offsHour.toUInt8,
               OffsetMinute := z.offsMin.toUInt8 }
    else t
  | none => t

/-- The date of an RFC 3164 timestamp, `[yyyy ]Mon dd`: the year (0 for none), the month and
the day. -/
def parse3164Date (buf : ℕ → UInt8) : TsScan (ℤ × ℤ × ℤ) := do
  let c ← get
  if c.lenStr < 3 then abortInvldTime
  else
    let year ← leadingYear buf
    let month ← parseMonth buf
    expectByte buf ' '
    skipDayPad buf
    let day ← srSLMGParseInt32 buf
    checkRange 1 31 day
    pure (year, month, day)

/-- The body of `ParseTIMESTAMP3164`, `[yyyy] Mon dd [yyyy] hh:mm:ss[.subsec][ TZSTRING][:]`. -/
def parseTIMESTAMP3164Body (buf : ℕ → UInt8) (glblFindTimezone : List UInt8 → Option TzInfo)
    (pTime : SyslogTime) (bParseTZ bDetectYearAfterTime : Bool) : TsScan SyslogTime := do
  let date ← parse3164Date buf
  expectByte buf ' '
  let hour ← srSLMGParseInt32 buf
  let yh ← ciscoYear buf date.1 hour
  checkRange 0 23 yh.2
  expectByte buf ':'
  let minute ← srSLMGParseInt32 buf
  checkRange 0 59 minute
  expectByte buf ':'
  let second ← srSLMGParseInt32 buf
  checkRange 0 60 second
  let frac ← parseSecfrac buf
  let tz ← if bParseTZ then parseTZString buf glblFindTimezone else pure none
  let year ← if bDetectYearAfterTime then detectYearAfterTime buf yh.1 else pure yh.1
  skipColon buf
  skipTrailingSpace buf
  pure (storeTIMESTAMP3164 pTime year date.2.1 date.2.2 yh.2 minute second frac tz)

/-- `ParseTIMESTAMP3164(pTime, ppszTS, pLenStr, bParseTZ, bDetectYearAfterTime)`: the return
code and the new `*pTime`, `*ppszTS` and `*pLenStr`. -/
def parseTIMESTAMP3164 (buf : ℕ → UInt8) (glblFindTimezone : List UInt8 → Option TzInfo)
    (pTime : SyslogTime) (pszTS : ℕ) (lenStr : ℤ) (bParseTZ bDetectYearAfterTime : Bool) :
    RsRetVal × SyslogTime × ℕ × ℤ :=
  commitParse (parseTIMESTAMP3164Body buf glblFindTimezone pTime bParseTZ bDetectYearAfterTime)
    pTime pszTS lenStr

/-! ## Length accounting -/

/-- The bytes a parse accounts for: from its start to the index where the caller's length
ends. -/
structure TsWindow where
  start : ℕ
  stop : ℕ

/-- The cursor lies in the window from its start, and `lenStr` counts the bytes from the
cursor to the window's end. -/
def TsWindow.Tracks (w : TsWindow) (c : TsCursor) : Prop :=
  w.start ≤ c.pos ∧ (c.pos : ℤ) + c.lenStr = w.stop ∧ 0 ≤ c.lenStr

/-- What a triple proves of a run that returns. -/
theorem TsScan.of_triple {α : Type} {P : TsCursor → Prop} {Q : α → TsCursor → Prop}
    {x : TsScan α} (h : ⦃fun c => ⌜P c⌝⦄ x ⦃⇓? r c => ⌜Q r c⌝⦄) {c c' : TsCursor} {r : α}
    (hc : P c) (hrun : x.run c = some (r, c')) : Q r c' := by
  have hwp := h c hc
  simp only [WP.wp, StateT.run] at hwp hrun
  simp only [PredTrans.apply_pushArg, hrun] at hwp
  exact hwp

/-- Each digit moves the pointer and the length together. -/
theorem srSLMGParseInt32Loop_tracks (buf : ℕ → UInt8) {w : TsWindow} (fuel : ℕ) (i : ℤ)
    {c : TsCursor} (h : w.Tracks c) : w.Tracks (srSLMGParseInt32Loop buf fuel i c).2 := by
  induction fuel generalizing i c with
  | zero => exact h
  | succ fuel ih =>
    unfold srSLMGParseInt32Loop
    split
    · next hdigit =>
      apply ih
      simp only [TsWindow.Tracks] at h ⊢
      push_cast
      omega
    · exact h

theorem srSLMGParseInt32_tracks (buf : ℕ → UInt8) (w : TsWindow) :
    ⦃fun c => ⌜w.Tracks c⌝⦄ srSLMGParseInt32 buf ⦃⇓? _ c => ⌜w.Tracks c⌝⦄ := by
  mvcgen [srSLMGParseInt32]
  exact srSLMGParseInt32Loop_tracks buf _ _ ‹_›

/-- Passing `k` bytes that the length still counts. -/
theorem TsWindow.Tracks.advance {w : TsWindow} {c : TsCursor} (h : w.Tracks c) (k : ℕ)
    (hk : (k : ℤ) ≤ c.lenStr) : w.Tracks { pos := c.pos + k, lenStr := c.lenStr - k } := by
  simp only [TsWindow.Tracks] at h ⊢
  push_cast
  omega

/-- A step that passes one byte the length still counts. -/
theorem TsWindow.Tracks.next {w : TsWindow} {c : TsCursor} (h : w.Tracks c)
    (hlen : c.lenStr ≠ 0) : w.Tracks { pos := c.pos + 1, lenStr := c.lenStr - 1 } :=
  h.advance 1 (by have := h.2.2; omega)

theorem expectByte_tracks (buf : ℕ → UInt8) (ch : Char) (w : TsWindow) :
    ⦃fun c => ⌜w.Tracks c⌝⦄ expectByte buf ch ⦃⇓? _ c => ⌜w.Tracks c⌝⦄ := by
  mvcgen [expectByte, abortInvldTime]
  exact TsWindow.Tracks.next ‹_› (by omega)

theorem parseSecfrac_tracks (buf : ℕ → UInt8) (w : TsWindow) :
    ⦃fun c => ⌜w.Tracks c⌝⦄ parseSecfrac buf ⦃⇓? _ c => ⌜w.Tracks c⌝⦄ := by
  mvcgen [parseSecfrac, srSLMGParseInt32_tracks]
  exact TsWindow.Tracks.next ‹_› (by omega)

theorem skipTrailingSpace_tracks (buf : ℕ → UInt8) (w : TsWindow) :
    ⦃fun c => ⌜w.Tracks c⌝⦄ skipTrailingSpace buf ⦃⇓? _ c => ⌜w.Tracks c⌝⦄ := by
  mvcgen [skipTrailingSpace, abortInvldTime]
  exact TsWindow.Tracks.next ‹_› (by omega)

theorem parseTZ3339_tracks (buf : ℕ → UInt8) (w : TsWindow) :
    ⦃fun c => ⌜w.Tracks c⌝⦄ parseTZ3339 buf ⦃⇓? _ c => ⌜w.Tracks c⌝⦄ := by
  mvcgen [parseTZ3339, checkRange, abortInvldTime, srSLMGParseInt32_tracks, expectByte_tracks]
  all_goals exact TsWindow.Tracks.next ‹_› ‹_›

theorem parseTIMESTAMP3339Body_tracks (buf : ℕ → UInt8) (pTime : SyslogTime) (w : TsWindow) :
    ⦃fun c => ⌜w.Tracks c⌝⦄ parseTIMESTAMP3339Body buf pTime ⦃⇓? _ c => ⌜w.Tracks c⌝⦄ := by
  mvcgen [parseTIMESTAMP3339Body, checkRange, abortInvldTime, srSLMGParseInt32_tracks,
    expectByte_tracks, parseSecfrac_tracks, parseTZ3339_tracks, skipTrailingSpace_tracks]

/-- A parse whose body ends inside the window `w` it started in returns a cursor inside `w`
when it succeeds, and leaves the caller's values when it fails. -/
theorem commitParse_tracks {body : TsScan SyslogTime} (pTime : SyslogTime) {p : ℕ} {n : ℤ}
    {w : TsWindow} {P : TsCursor → Prop} (hbody : ⦃fun c => ⌜P c⌝⦄ body ⦃⇓? _ c => ⌜w.Tracks c⌝⦄)
    (hpre : P ⟨p, n⟩) :
    let r := commitParse body pTime p n
    (r.1 = .ok → w.Tracks ⟨r.2.2.1, r.2.2.2⟩) ∧ (r.1 ≠ .ok → r.2 = (pTime, p, n)) := by
  cases hrun : body.run ⟨p, n⟩ with
  | some tc =>
    simp only [commitParse, hrun]
    exact ⟨fun _ => TsScan.of_triple hbody hpre hrun, fun h => absurd rfl h⟩
  | none => simp [commitParse, hrun]

/-- A cursor inside the window from `p` to `p + m` has passed `d ≤ m` bytes and has `m - d`
left. -/
theorem TsWindow.Tracks.advanced {p m : ℕ} {c : TsCursor} (h : TsWindow.Tracks ⟨p, p + m⟩ c) :
    ∃ d : ℕ, d ≤ m ∧ c.pos = p + d ∧ c.lenStr = (m : ℤ) - d := by
  obtain ⟨hstart, hsum, hlen⟩ := h
  dsimp only at hstart hsum
  push_cast at hsum
  refine ⟨c.pos - p, ?_, by omega, ?_⟩ <;> omega

/-- `ParseTIMESTAMP3339` accounts for the bytes it passes: on success the pointer moved by
`d ≤ n` bytes and the length is `n - d`; on failure the caller's pointer, length and
timestamp are unchanged. -/
theorem parseTIMESTAMP3339_accounts (buf : ℕ → UInt8) (pTime : SyslogTime) (p : ℕ) (n : ℤ)
    (hn : 0 ≤ n) :
    let r := parseTIMESTAMP3339 buf pTime p n
    (r.1 = .ok → ∃ d : ℕ, (d : ℤ) ≤ n ∧ r.2.2.1 = p + d ∧ r.2.2.2 = n - d) ∧
      (r.1 ≠ .ok → r.2 = (pTime, p, n)) := by
  have hpre : TsWindow.Tracks ⟨p, p + n.toNat⟩ ⟨p, n⟩ := by
    refine ⟨le_rfl, ?_, hn⟩
    push_cast
    omega
  obtain ⟨hok, hfail⟩ := commitParse_tracks pTime
    (parseTIMESTAMP3339Body_tracks buf pTime ⟨p, p + n.toNat⟩) hpre
  refine ⟨fun h => ?_, hfail⟩
  obtain ⟨d, hd, hpos, hlen⟩ := (hok h).advanced
  have hn' : (n.toNat : ℤ) = n := Int.toNat_of_nonneg hn
  exact ⟨d, by omega, hpos, hlen.trans (by omega)⟩

/-! ### RFC 3164

Until the TZSTRING, every byte `ParseTIMESTAMP3164` passes was matched against a digit, a
letter or a separator, so the pointer does not pass the NUL that ends the caller's bytes
(`TsWindow.Scans`). That is what keeps the steps which look at the byte under the pointer
without testing `lenStr` in bounds, and what fixes the count after a leading year. -/

/-- Tracked in `w`, with the NUL at `nul` inside the window and not passed. -/
def TsWindow.Scans (buf : ℕ → UInt8) (w : TsWindow) (nul : ℕ) (c : TsCursor) : Prop :=
  w.Tracks c ∧ c.pos ≤ nul ∧ nul ≤ w.stop ∧ buf nul = 0

/-- The window whose end lies one byte further when `b` holds. -/
def TsWindow.shift (w : TsWindow) (b : Bool) : TsWindow :=
  { w with stop := w.stop + if b then 1 else 0 }

/-- A byte that is not NUL, under the pointer, is before the NUL. -/
theorem TsWindow.Scans.lt_nul {buf : ℕ → UInt8} {w : TsWindow} {nul : ℕ} {c : TsCursor}
    (h : w.Scans buf nul c) (hb : buf c.pos ≠ 0) : c.pos < nul := by
  have hne : c.pos ≠ nul := fun hp => hb (hp ▸ h.2.2.2)
  exact lt_of_le_of_ne h.2.1 hne

/-- Passing a byte that is not NUL keeps the cursor tracked and before the NUL. -/
theorem TsWindow.Scans.next {buf : ℕ → UInt8} {w : TsWindow} {nul : ℕ} {c : TsCursor}
    (h : w.Scans buf nul c) (hb : buf c.pos ≠ 0) :
    w.Scans buf nul { pos := c.pos + 1, lenStr := c.lenStr - 1 } := by
  have hlt := h.lt_nul hb
  obtain ⟨⟨hstart, hsum, hlen⟩, -, hstop, hnul⟩ := h
  refine ⟨⟨?_, ?_, ?_⟩, ?_, hstop, hnul⟩ <;> dsimp only <;> push_cast <;> omega

theorem isDigitByte_ne_zero {b : UInt8} (h : isDigitByte b = true) : b ≠ 0 := by
  rintro rfl
  exact absurd h (by decide)

theorem srSLMGParseInt32Loop_scans (buf : ℕ → UInt8) {w : TsWindow} {nul : ℕ} (fuel : ℕ) (i : ℤ)
    {c : TsCursor} (h : w.Scans buf nul c) :
    w.Scans buf nul (srSLMGParseInt32Loop buf fuel i c).2 := by
  induction fuel generalizing i c with
  | zero => exact h
  | succ fuel ih =>
    unfold srSLMGParseInt32Loop
    split
    · next hdigit => exact ih _ (h.next (isDigitByte_ne_zero hdigit.2.1))
    · exact h

theorem srSLMGParseInt32_scans (buf : ℕ → UInt8) (w : TsWindow) (nul : ℕ) :
    ⦃fun c => ⌜w.Scans buf nul c⌝⦄ srSLMGParseInt32 buf ⦃⇓? _ c => ⌜w.Scans buf nul c⌝⦄ := by
  mvcgen [srSLMGParseInt32]
  exact srSLMGParseInt32Loop_scans buf _ _ ‹_›

/-- The separators the parser expects are not NUL. -/
theorem expectByte_scans (buf : ℕ → UInt8) (ch : Char) (hch : ch.toUInt8 ≠ 0)
    (w : TsWindow) (nul : ℕ) :
    ⦃fun c => ⌜w.Scans buf nul c⌝⦄ expectByte buf ch ⦃⇓? _ c => ⌜w.Scans buf nul c⌝⦄ := by
  mvcgen [expectByte, abortInvldTime]
  rename_i c hc hbyte
  have heq : buf c.pos = ch.toUInt8 := not_not.1 (not_or.1 hbyte).2
  exact hc.next (heq ▸ hch)

/-- The leading year moves the end of the window by one: its digits are counted, the space
after them is not. -/
theorem leadingYear_shift (buf : ℕ → UInt8) (w : TsWindow) (b : Bool) :
    ⦃fun c => ⌜w.Scans buf w.stop c ∧ isDigitByte (buf c.pos) = b⌝⦄ leadingYear buf
      ⦃⇓? _ c => ⌜(w.shift b).Scans buf w.stop c⌝⦄ := by
  mvcgen [leadingYear, abortInvldTime, srSLMGParseInt32_scans]
  case nul => exact w.stop
  case isTrue.pre c hc hdigit => exact hc.1
  case isTrue.post.success.isFalse c₀ hc₀ hdigit year c hc hyear =>
    -- the digits were counted; the space is passed without `--lenStr`
    have hspace : buf c.pos = ' '.toUInt8 := by grind
    have hlt := hc.lt_nul (by rw [hspace]; decide)
    obtain ⟨⟨hstart, hsum, hlen⟩, -, hstop, hnul⟩ := hc
    obtain rfl : b = true := hc₀.2.symm.trans hdigit
    refine ⟨⟨?_, ?_, ?_⟩, ?_, ?_, hnul⟩ <;> simp only [TsWindow.shift, if_true] <;> push_cast <;> omega
  case isFalse c hc hdigit =>
    obtain rfl : b = false := by simpa [hdigit] using hc.2.symm
    simpa [TsWindow.shift] using hc.1

theorem lookupLetter_mem {α : Type} {b : UInt8} {t : List (Char × α)} {a : α}
    (h : lookupLetter b t = some a) : ∃ ch, (ch, a) ∈ t := by
  induction t with
  | nil => exact nomatch h
  | cons e rest ih =>
    unfold lookupLetter at h
    split at h
    · exact ⟨e.1, by simp [← Option.some.inj h]⟩
    · obtain ⟨ch, hmem⟩ := ih h
      exact ⟨ch, List.mem_cons_of_mem _ hmem⟩

theorem lookupLetter_zero {α : Type} {t : List (Char × α)}
    (ht : ∀ e ∈ t, matchesLetter 0 e.1 = false) : lookupLetter 0 t = none := by
  induction t with
  | nil => rfl
  | cons e rest ih =>
    rw [lookupLetter, if_neg (by simp [ht e (by simp)])]
    exact ih fun e' he' => ht e' (List.mem_cons_of_mem _ he')

/-- No letter of a month name matches NUL, at any level of the `switch`. -/
theorem monthTrie_nul :
    ∀ e ∈ monthTrie, matchesLetter 0 e.1 = false ∧
      ∀ e' ∈ e.2, matchesLetter 0 e'.1 = false ∧ ∀ e'' ∈ e'.2, matchesLetter 0 e''.1 = false := by
  decide

/-- The three bytes of a month name are not NUL. -/
theorem monthBytes_ne_zero {b₀ b₁ b₂ : UInt8} {seconds : List (Char × List (Char × ℤ))}
    {thirds : List (Char × ℤ)} {month : ℤ} (h₀ : lookupLetter b₀ monthTrie = some seconds)
    (h₁ : lookupLetter b₁ seconds = some thirds) (h₂ : lookupLetter b₂ thirds = some month) :
    b₀ ≠ 0 ∧ b₁ ≠ 0 ∧ b₂ ≠ 0 := by
  obtain ⟨ch₀, hmem₀⟩ := lookupLetter_mem h₀
  obtain ⟨ch₁, hmem₁⟩ := lookupLetter_mem h₁
  have hlevel₀ := monthTrie_nul _ hmem₀
  have hlevel₁ := hlevel₀.2 _ hmem₁
  refine ⟨?_, ?_, ?_⟩ <;> rintro rfl
  · rw [lookupLetter_zero fun e he => (monthTrie_nul e he).1] at h₀
    exact nomatch h₀
  · rw [lookupLetter_zero fun e he => (hlevel₀.2 e he).1] at h₁
    exact nomatch h₁
  · rw [lookupLetter_zero hlevel₁.2] at h₂
    exact nomatch h₂

/-- Passing `k` bytes none of which is NUL. -/
theorem TsWindow.Scans.advance {buf : ℕ → UInt8} {w : TsWindow} {nul : ℕ} {c : TsCursor}
    (h : w.Scans buf nul c) (k : ℕ) (hk : ∀ i < k, buf (c.pos + i) ≠ 0) :
    w.Scans buf nul { pos := c.pos + k, lenStr := c.lenStr - k } := by
  induction k with
  | zero => simpa using h
  | succ k ih =>
    have hnext := (ih fun i hi => hk i (by omega)).next (by simpa using hk k (by omega))
    simpa [add_assoc, sub_sub] using hnext

theorem parseMonth_scans (buf : ℕ → UInt8) (w : TsWindow) (nul : ℕ) :
    ⦃fun c => ⌜w.Scans buf nul c⌝⦄ parseMonth buf ⦃⇓? _ c => ⌜w.Scans buf nul c⌝⦄ := by
  mvcgen [parseMonth, abortInvldTime]
  rename_i c hc seconds h₀ thirds h₁ month h₂
  obtain ⟨hb₀, hb₁, hb₂⟩ := monthBytes_ne_zero h₀ h₁ h₂
  refine hc.advance 3 fun i hi => ?_
  interval_cases i
  · exact hb₀
  · exact hb₁
  · exact hb₂

/-- The pad before a one-digit day is a space, so the length still counts it even where it
is not tested; from here on the tracking alone carries the count. -/
theorem skipDayPad_tracks (buf : ℕ → UInt8) (w : TsWindow) (nul : ℕ) :
    ⦃fun c => ⌜w.Scans buf nul c⌝⦄ skipDayPad buf ⦃⇓? _ c => ⌜w.Tracks c⌝⦄ := by
  mvcgen [skipDayPad]
  · rename_i c hc hspace
    exact (hc.next (by rw [hspace]; decide)).1
  · rename_i c hc _
    exact hc.1

theorem ciscoYear_tracks (buf : ℕ → UInt8) (year hour : ℤ) (w : TsWindow) :
    ⦃fun c => ⌜w.Tracks c⌝⦄ ciscoYear buf year hour ⦃⇓? _ c => ⌜w.Tracks c⌝⦄ := by
  mvcgen [ciscoYear, expectByte_tracks, srSLMGParseInt32_tracks]

theorem tzStringLoop_tracks (buf : ℕ → UInt8) {w : TsWindow} (fuel : ℕ) (tz : List UInt8)
    {c : TsCursor} (h : w.Tracks c) : w.Tracks (tzStringLoop buf fuel tz c).2 := by
  induction fuel generalizing tz c with
  | zero => exact h
  | succ fuel ih =>
    unfold tzStringLoop
    split
    · next hcopy => exact ih _ (h.next (by omega))
    · exact h

theorem parseTZString_tracks (buf : ℕ → UInt8) (glblFindTimezone : List UInt8 → Option TzInfo)
    (w : TsWindow) :
    ⦃fun c => ⌜w.Tracks c⌝⦄ parseTZString buf glblFindTimezone ⦃⇓? _ c => ⌜w.Tracks c⌝⦄ := by
  mvcgen [parseTZString]
  all_goals exact tzStringLoop_tracks buf 15 [] (TsWindow.Tracks.next ‹_› (by omega))

theorem detectYearAfterTime_tracks (buf : ℕ → UInt8) (year : ℤ) (w : TsWindow) :
    ⦃fun c => ⌜w.Tracks c⌝⦄ detectYearAfterTime buf year ⦃⇓? _ c => ⌜w.Tracks c⌝⦄ := by
  mvcgen [detectYearAfterTime]
  rename_i c hc hcond _ _ _
  -- the four digits are passed only when more than five bytes are left
  exact hc.advance 5 (by omega)

theorem skipColon_tracks (buf : ℕ → UInt8) (w : TsWindow) :
    ⦃fun c => ⌜w.Tracks c⌝⦄ skipColon buf ⦃⇓? _ c => ⌜w.Tracks c⌝⦄ := by
  mvcgen [skipColon]
  exact TsWindow.Tracks.next ‹_› (by omega)

/-- The date ends inside its window, moved by one byte when it starts with a digit. -/
theorem parse3164Date_tracks (buf : ℕ → UInt8) (w : TsWindow) (b : Bool) :
    ⦃fun c => ⌜w.Scans buf w.stop c ∧ isDigitByte (buf c.pos) = b⌝⦄ parse3164Date buf
      ⦃⇓? _ c => ⌜(w.shift b).Tracks c⌝⦄ := by
  have hyear := leadingYear_shift buf w b
  have hmonth := parseMonth_scans buf (w.shift b) w.stop
  have hspace := expectByte_scans buf ' ' (by decide) (w.shift b) w.stop
  have hpad := skipDayPad_tracks buf (w.shift b) w.stop
  have hday := srSLMGParseInt32_tracks buf (w.shift b)
  mvcgen [parse3164Date, checkRange, abortInvldTime, hyear, hmonth, hspace, hpad, hday]

/-- The body of `ParseTIMESTAMP3164` ends inside its window, moved by one byte when the
timestamp starts with a digit. -/
theorem parseTIMESTAMP3164Body_tracks (buf : ℕ → UInt8)
    (glblFindTimezone : List UInt8 → Option TzInfo) (pTime : SyslogTime)
    (bParseTZ bDetectYearAfterTime : Bool) (w : TsWindow) (b : Bool) :
    ⦃fun c => ⌜w.Scans buf w.stop c ∧ isDigitByte (buf c.pos) = b⌝⦄
      parseTIMESTAMP3164Body buf glblFindTimezone pTime bParseTZ bDetectYearAfterTime
      ⦃⇓? _ c => ⌜(w.shift b).Tracks c⌝⦄ := by
  have hdate := parse3164Date_tracks buf w b
  have hint := srSLMGParseInt32_tracks buf (w.shift b)
  have hexpect := fun ch => expectByte_tracks buf ch (w.shift b)
  have hcisco := fun year hour => ciscoYear_tracks buf year hour (w.shift b)
  have hfrac := parseSecfrac_tracks buf (w.shift b)
  have htz := parseTZString_tracks buf glblFindTimezone (w.shift b)
  have hdetect := fun year => detectYearAfterTime_tracks buf year (w.shift b)
  have hcolon := skipColon_tracks buf (w.shift b)
  have htrail := skipTrailingSpace_tracks buf (w.shift b)
  mvcgen [parseTIMESTAMP3164Body, checkRange, abortInvldTime, hdate, hint, hexpect, hcisco,
    hfrac, htz, hdetect, hcolon, htrail]

/-- `ParseTIMESTAMP3164` accounts for the bytes it passes except for the space after a
leading year: on success the pointer moved by `d` bytes and the length is `n - d`, plus one
when the timestamp starts with a digit; on failure the caller's pointer, length and timestamp
are unchanged. -/
theorem parseTIMESTAMP3164_accounts (buf : ℕ → UInt8)
    (glblFindTimezone : List UInt8 → Option TzInfo) (pTime : SyslogTime) (p : ℕ) (n : ℤ)
    (bParseTZ bDetectYearAfterTime : Bool) (hn : 0 ≤ n) (hnul : buf (p + n.toNat) = 0) :
    let r := parseTIMESTAMP3164 buf glblFindTimezone pTime p n bParseTZ bDetectYearAfterTime
    let e : ℤ := if isDigitByte (buf p) then 1 else 0
    (r.1 = .ok → ∃ d : ℕ, (d : ℤ) ≤ n + e ∧ r.2.2.1 = p + d ∧ r.2.2.2 = n + e - d) ∧
      (r.1 ≠ .ok → r.2 = (pTime, p, n)) := by
  unfold parseTIMESTAMP3164
  have hn' : (n.toNat : ℤ) = n := Int.toNat_of_nonneg hn
  have hpre : TsWindow.Scans buf ⟨p, p + n.toNat⟩ (p + n.toNat) ⟨p, n⟩ ∧
      isDigitByte (buf p) = isDigitByte (buf p) := by
    refine ⟨⟨⟨le_rfl, ?_, hn⟩, ?_, le_rfl, hnul⟩, rfl⟩ <;> dsimp only <;> push_cast <;> omega
  obtain ⟨hok, hfail⟩ := commitParse_tracks pTime
    (parseTIMESTAMP3164Body_tracks buf glblFindTimezone pTime bParseTZ bDetectYearAfterTime
      ⟨p, p + n.toNat⟩ (isDigitByte (buf p))) hpre
  refine ⟨fun h => ?_, hfail⟩
  -- the window's end is one byte further after a leading year
  obtain ⟨hstart, hsum, hlen⟩ := hok h
  dsimp only [TsWindow.shift] at hstart hsum hlen
  refine ⟨_ - p, ?_, (Nat.add_sub_cancel' hstart).symm, ?_⟩ <;>
    cases hb : isDigitByte (buf p) <;> simp only [hb, if_true, Bool.false_eq_true, if_false] at hsum ⊢ <;>
    push_cast [Nat.cast_sub hstart] at hsum ⊢ <;> omega

/-- After a leading year the length `ParseTIMESTAMP3164` returns counts one byte more than is
left. On `2020 Jan  1 00:00:00 host` (25 bytes) the pointer moves by 21 and the length becomes
5, where 4 bytes are left. With `bParseTZ` set, on `2020 Jan  1 00:00:00 X` (22 bytes) the
TZSTRING loop takes the terminating NUL as well, and the pointer ends at 23, past it. -/
theorem parseTIMESTAMP3164_leadingYear_miscounts :
    (let t := { SyslogTime.zero with timeType := 1, year := 2020, month := 1, day := 1 };
      parseTIMESTAMP3164 (bufferOf (asciiBytes "2020 Jan  1 00:00:00 host")) (fun _ => none)
          SyslogTime.zero 0 25 false false = (.ok, t, 21, 5) ∧
        parseTIMESTAMP3164 (bufferOf (asciiBytes "2020 Jan  1 00:00:00 X")) (fun _ => none)
          SyslogTime.zero 0 22 true false = (.ok, t, 23, 0)) := by
  decide

/-! ## The weekday -/

/-- `getWeekdayNbr(ts)`: `wday = (36525 g / 100 + 306 f / 10 + day - 621049) % 7` with the
March year `g` and shifted month `f`. `char` fields are read as signed, as on x86-64. C's `/`
and `%` truncate towards zero; for a `short` year no intermediate value leaves the `int`
range. -/
def getWeekdayNbr (ts : SyslogTime) : ℤ :=
  let month := ts.month.toInt8.toInt
  let g := if month < 3 then ts.year.toInt - 1 else ts.year.toInt
  let f := if month < 3 then month + 13 else month + 1
  ((36525 * g).tdiv 100 + (306 * f).tdiv 10 + ts.day.toInt8.toInt - 621049).tmod 7

/-- `wdayNames` (`runtime/msg.c`). -/
def wdayNames : List (List UInt8) :=
  ["Sun", "Mon", "Tue", "Wed", "Thu", "Fri", "Sat"].map asciiBytes

/-- `wdayNames[getWeekdayNbr(&pM->tTIMESTAMP)]`, the weekday name of the property accessors;
none where the index lies outside the array. -/
def wdayName (ts : SyslogTime) : Option (List UInt8) :=
  if 0 ≤ getWeekdayNbr ts then wdayNames[(getWeekdayNbr ts).toNat]? else none

theorem toInt_toInt8_of_lt {b : UInt8} (h : b.toNat < 128) : b.toInt8.toInt = b.toNat := by
  rw [Int8.toInt, UInt8.toBitVec_toInt8, BitVec.toInt_eq_toNat_of_lt]
  · simp
  · simp
    omega

/-- The formula of `getWeekdayNbr` on the March year `g` and shifted month `f` of a date: while
`g / 100 - g / 400` is 15, that is from 1900-03-01 to 2100-02-28, it is the Gregorian
weekday. -/
theorem weekdayFormula_eq_weekday {y m d : ℕ} (hdate : IsDate y m d)
    (hwin : 1900 ≤ marchYear y m ∧ marchYear y m ≤ 2099) :
    (36525 * (marchYear y m : ℤ) / 100 + 306 * (marchMonth m : ℤ) / 10 + d - 621049) % 7 =
      weekday y m d := by
  have hmarch := dayNumber_march hdate (by unfold marchYear at hwin; split at hwin <;> omega)
  unfold weekday
  generalize marchYear y m = g at hwin hmarch
  generalize marchMonth m = f at hmarch
  -- `36525 g / 100` is `365 g + g / 4`, and the century terms are 15 in the window
  have hyear : 36525 * (g : ℤ) / 100 = 365 * g + g / 4 := by omega
  have hcent : g / 100 = g / 400 + 15 := by omega
  have hnum : 36525 * (g : ℤ) / 100 + 306 * (f : ℤ) / 10 + d - 621049 =
      (dayNumber y m d : ℤ) - 620971 := by
    rw [hyear]
    omega
  rw [hnum]
  omega

/-- From 1900-03-01 to 2100-02-28 `getWeekdayNbr` is the Gregorian weekday. -/
theorem getWeekdayNbr_eq_weekday (ts : SyslogTime) {y m d : ℕ} (hy : ts.year.toInt = y)
    (hm : ts.month.toNat = m) (hd : ts.day.toNat = d) (hdate : IsDate y m d)
    (hwin : 1900 ≤ marchYear y m ∧ marchYear y m ≤ 2099) :
    getWeekdayNbr ts = weekday y m d := by
  have hformula := weekdayFormula_eq_weekday hdate hwin
  have hg1900 := hwin.1
  obtain ⟨hm1, hm12, hd1, hdm⟩ := hdate
  have hdays : d ≤ 31 := hdm.trans (by unfold daysInMonth; split <;> (try split) <;> omega)
  have hmonth : ts.month.toInt8.toInt = m := by rw [toInt_toInt8_of_lt (by omega), hm]
  have hday : ts.day.toInt8.toInt = d := by rw [toInt_toInt8_of_lt (by omega), hd]
  -- the code's `g` and `f` are the March year and month
  have hy1 : 1 ≤ y := by
    unfold marchYear at hg1900
    split at hg1900 <;> omega
  have hg : (if (m : ℤ) < 3 then (y : ℤ) - 1 else y) = marchYear y m := by
    unfold marchYear
    split <;> split <;> push_cast [Nat.cast_sub hy1] <;> omega
  have hf : (if (m : ℤ) < 3 then (m : ℤ) + 13 else m + 1) = marchMonth m := by
    unfold marchMonth
    split <;> split <;> push_cast <;> omega
  unfold getWeekdayNbr
  simp only [hmonth, hday, hy, hg, hf]
  rw [Int.tdiv_eq_ediv_of_nonneg (by positivity), Int.tdiv_eq_ediv_of_nonneg (by positivity),
    Int.tmod_eq_emod_of_nonneg (by omega), hformula]

/-- `ParseTIMESTAMP3339` accepts the years 0 to 2099, and before the window the formula's
remainder is negative: for `1700-01-01T00:00:00Z` `getWeekdayNbr` returns -5, outside
`wdayNames`. -/
theorem getWeekdayNbr_parse3339_negative :
    (let t := { SyslogTime.zero with
        timeType := 2, year := 1700, month := 1, day := 1, OffsetMode := 'Z'.toUInt8 };
      parseTIMESTAMP3339 (bufferOf (asciiBytes "1700-01-01T00:00:00Z")) SyslogTime.zero 0 20 =
          (.ok, t, 20, 0) ∧
        getWeekdayNbr t = -5 ∧ wdayName t = none) := by
  decide

/-- After the window the formula is a day ahead: `ParseTIMESTAMP3164` stores 2100-03-01 from a
leading year, a Monday, and `getWeekdayNbr` gives 2. -/
theorem getWeekdayNbr_2100_ahead :
    (let t := { SyslogTime.zero with timeType := 1, year := 2100, month := 3, day := 1 };
      parseTIMESTAMP3164 (bufferOf (asciiBytes "2100 Mar  1 00:00:00 h")) (fun _ => none)
          SyslogTime.zero 0 22 false false = (.ok, t, 21, 2) ∧
        getWeekdayNbr t = 2 ∧ weekday 2100 3 1 = 1) := by
  have hmarch := dayNumber_march (y := 2100) (m := 3) (d := 1) (by decide) (by decide)
  norm_num [marchYear, marchMonth] at hmarch
  refine ⟨by decide, by decide, ?_⟩
  unfold weekday
  omega

end Rsyslog
