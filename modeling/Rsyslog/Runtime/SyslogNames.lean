import Rsyslog.Script.Value

/-!
# Syslog facility and severity names

`decodeSyslogName` (`runtime/srutils.c`) reads a facility or a severity as a configuration
writes it. A name that starts with a decimal digit is read by `strtol` and must be all digits, of
a value that fits an `int`; any other name is copied into an 80-byte buffer (at most 79 of its
bytes), lowercased, and looked up in a name table. Either way -1 means the name was not
understood.

The tables are `syslogPriNames` and `syslogFacNames` of a Linux build: `rsyslog.h` defines
`LOG_FTP`, the C library defines no `LOG_AUDIT`, and the AIX entries are left out. A facility
code is the facility number shifted left by three bits, as `LOG_MAKEPRI` builds a PRI, and the
internal `mark` facility is number `LOG_NFACILITIES`, 25.
-/

namespace Rsyslog

open Rsyslog.Common Rsyslog.Script

/-- `syslogName_t`: a name and its code. -/
structure SyslogName where
  cName : List UInt8
  cVal : ℤ
deriving DecidableEq, Repr

/-- `INTERNAL_NOPRI`, the severity of the name `none`. -/
def internalNopri : ℤ := 0x10

/-- `TABLE_ALLPRI`, the severity of the name `*`: every bit of a mask byte. -/
def tableAllpri : ℤ := 0xFF

/-- `syslogPriNames`. -/
def syslogPriNames : List SyslogName :=
  [⟨asciiBytes "alert", 1⟩, ⟨asciiBytes "crit", 2⟩, ⟨asciiBytes "debug", 7⟩,
    ⟨asciiBytes "emerg", 0⟩, ⟨asciiBytes "err", 3⟩, ⟨asciiBytes "error", 3⟩,
    ⟨asciiBytes "info", 6⟩, ⟨asciiBytes "none", internalNopri⟩, ⟨asciiBytes "notice", 5⟩,
    ⟨asciiBytes "panic", 0⟩, ⟨asciiBytes "warn", 4⟩, ⟨asciiBytes "warning", 4⟩,
    ⟨asciiBytes "*", tableAllpri⟩]

/-- The code of facility number `n`, `n << 3` (`LOG_MAKEPRI(n, 0)`). -/
def facilityCode (n : ℕ) : ℤ :=
  ((n <<< 3 : ℕ) : ℤ)

/-- `syslogFacNames`. -/
def syslogFacNames : List SyslogName :=
  [⟨asciiBytes "auth", facilityCode 4⟩, ⟨asciiBytes "authpriv", facilityCode 10⟩,
    ⟨asciiBytes "cron", facilityCode 9⟩, ⟨asciiBytes "daemon", facilityCode 3⟩,
    ⟨asciiBytes "kern", facilityCode 0⟩, ⟨asciiBytes "lpr", facilityCode 6⟩,
    ⟨asciiBytes "mail", facilityCode 2⟩, ⟨asciiBytes "mark", facilityCode 25⟩,
    ⟨asciiBytes "news", facilityCode 7⟩, ⟨asciiBytes "ntp", facilityCode 12⟩,
    ⟨asciiBytes "security", facilityCode 4⟩, ⟨asciiBytes "bsd_security", facilityCode 13⟩,
    ⟨asciiBytes "syslog", facilityCode 5⟩, ⟨asciiBytes "user", facilityCode 1⟩,
    ⟨asciiBytes "uucp", facilityCode 8⟩, ⟨asciiBytes "ftp", facilityCode 11⟩,
    ⟨asciiBytes "console", facilityCode 14⟩, ⟨asciiBytes "local0", facilityCode 16⟩,
    ⟨asciiBytes "local1", facilityCode 17⟩, ⟨asciiBytes "local2", facilityCode 18⟩,
    ⟨asciiBytes "local3", facilityCode 19⟩, ⟨asciiBytes "local4", facilityCode 20⟩,
    ⟨asciiBytes "local5", facilityCode 21⟩, ⟨asciiBytes "local6", facilityCode 22⟩,
    ⟨asciiBytes "local7", facilityCode 23⟩, ⟨asciiBytes "invld", facilityCode 24⟩]

/-- `1 << sev` stored in a byte of a priority mask: the bits past the eighth are cut off, and a
shift by a negative count or by 32 or more bits is undefined. -/
def severityBit (sev : ℤ) : Option UInt8 :=
  if 0 ≤ sev ∧ sev < 32 then some ((1 : UInt32) <<< sev.toNat.toUInt32).toUInt8 else none

/-- `tolower` of the C locale. -/
def asciiLower (c : UInt8) : UInt8 :=
  if 65 ≤ c ∧ c ≤ 90 then c + 32 else c

/-- The value `strtol(s, &end, 10)` reads from a string of decimal digits. -/
def decimalValue (digits : List UInt8) : ℕ :=
  digits.foldl (fun v c => v * 10 + (c.toNat - 48)) 0

/-- `decodeSyslogName`: the value of a name of decimal digits that fits an `int`, or the code of
the table entry whose name is the name's first 79 bytes lowercased, or -1. -/
def decodeSyslogName (name : List UInt8) (codetab : List SyslogName) : ℤ :=
  if name.head?.any isdigit then
    -- strtol stops at the first non-digit, which must be the terminator
    if name.all isdigit ∧ decimalValue name ≤ 2147483647 then decimalValue name else -1
  else
    match codetab.find? (fun c => c.cName == (name.take 79).map asciiLower) with
    | some c => c.cVal
    | none => -1

section Decode

variable {name : List UInt8} {codetab : List SyslogName}

/-- A name of digits whose value fits an `int` reads as that value, whatever the table. -/
theorem decodeSyslogName_of_digits (hne : name ≠ []) (hd : name.all isdigit)
    (hv : decimalValue name ≤ 2147483647) : decodeSyslogName name codetab = decimalValue name := by
  obtain ⟨c, rest, rfl⟩ := List.exists_cons_of_ne_nil hne
  have hc : isdigit c = true := by
    rw [List.all_cons, Bool.and_eq_true] at hd
    exact hd.1
  simp [decodeSyslogName, hc, hd, hv]

end Decode

/-- Every facility code of the table is a facility number below 26 shifted left by three bits. -/
theorem syslogFacNames_cVal (c : SyslogName) (hc : c ∈ syslogFacNames) :
    ∃ n : ℕ, n ≤ 25 ∧ c.cVal = facilityCode n := by
  simp only [syslogFacNames, List.mem_cons, List.not_mem_nil, or_false] at hc
  rcases hc with rfl | rfl | rfl | rfl | rfl | rfl | rfl | rfl | rfl | rfl | rfl | rfl | rfl |
    rfl | rfl | rfl | rfl | rfl | rfl | rfl | rfl | rfl | rfl | rfl | rfl | rfl <;>
  exact ⟨_, by decide, rfl⟩

/-- Every severity code of the table is a severity, `none` (16) or `*` (255). -/
theorem syslogPriNames_cVal (c : SyslogName) (hc : c ∈ syslogPriNames) :
    (0 ≤ c.cVal ∧ c.cVal ≤ 7) ∨ c.cVal = internalNopri ∨ c.cVal = tableAllpri := by
  simp only [syslogPriNames, List.mem_cons, List.not_mem_nil, or_false] at hc
  rcases hc with rfl | rfl | rfl | rfl | rfl | rfl | rfl | rfl | rfl | rfl | rfl | rfl | rfl <;>
  decide

/-- The deprecated and upper-case spellings read as the canonical codes. -/
example : decodeSyslogName (asciiBytes "WARN") syslogPriNames = 4 ∧
    decodeSyslogName (asciiBytes "Error") syslogPriNames = 3 := by
  decide +kernel

end Rsyslog
