import Rsyslog.Common.ByteBuffer

/-!
# RainerScript values

A script value (struct svar) is a number (a C `long long`), a string (a libestr string, which
may hold any byte), or a json-c object. JSON objects enter the script through two json-c
accessors: their text (json_object_get_string, the string itself for a JSON string) and their
64-bit integer reading (json_object_get_int64). Those two readings are what the model keeps of a
JSON object; arrays of strings exist only while the configuration is read and are not values here.

Numbers are read from strings by `str2num`, which accumulates decimal digits in 64 bits; C leaves
an overflowing accumulation undefined, and the model wraps as the generated code does.
-/

namespace Rsyslog.Script

open Rsyslog.Common

/-- A json-c object, through the two readings the script makes of it. -/
structure JsonObj where
  text : List UInt8
  int64 : Int64
deriving DecidableEq, Repr

/-- struct svar: the datatypes 'N', 'S' and 'J'; a JSON value may be NULL. -/
inductive Svar
  | num (n : Int64)
  | str (s : List UInt8)
  | json (j : Option JsonObj)
deriving DecidableEq, Repr

/-- isdigit in the C locale. -/
def isdigit (c : UInt8) : Bool :=
  '0'.toUInt8 ≤ c && c ≤ '9'.toUInt8

/-- str2num: an optional '-', then the longest run of digits, accumulated as `num * 10 + c - '0'`;
the flag says whether the digits reach the end of the string. The empty string reads as 0. -/
def str2num (s : List UInt8) : Int64 × Bool :=
  if s = [] then (0, true) else
  let neg : Int64 := if s.head? = some '-'.toUInt8 then -1 else 1
  let rest := if s.head? = some '-'.toUInt8 then s.tail else s
  let digits := rest.takeWhile isdigit
  let num := digits.foldl (fun num c => num * 10 + Int64.ofNat c.toNat - Int64.ofNat '0'.toNat) 0
  (num * neg, digits.length = rest.length)

/-- var2Number: the number a value reads as, and whether all of it was read. -/
def var2Number : Svar → Int64 × Bool
  | .str s => str2num s
  | .json none => (0, true)
  | .json (some j) => (j.int64, true)
  | .num n => (n, true)

/-- es_newStrFromNumber: the decimal text of a number. -/
def numberText (n : Int64) : List UInt8 :=
  asciiBytes (toString n.toInt)

/-- var2String: the string a value reads as. -/
def var2String : Svar → List UInt8
  | .num n => numberText n
  | .json none => []
  | .json (some j) => j.text
  | .str s => s

/-- var2CString: the value as a C string, each NUL byte written as "#000" by es_str2cstr. -/
def var2CString (v : Svar) : List UInt8 :=
  (var2String v).flatMap fun b => if b = 0 then asciiBytes "#000" else [b]

theorem nul_not_mem_var2CString (v : Svar) : 0 ∉ var2CString v := by
  simp only [var2CString, List.mem_flatMap, not_exists, not_and]
  intro b _
  split
  · decide
  · simpa [eq_comm] using ‹¬b = 0›

/-- A string value without NUL bytes is its own C string. -/
theorem var2CString_str (s : List UInt8) (h : 0 ∉ s) : var2CString (.str s) = s := by
  induction s with
  | nil => rfl
  | cons b s ih =>
    have hb : b ≠ 0 := fun hb => h (hb ▸ List.mem_cons_self)
    have hs : 0 ∉ s := fun hs => h (List.mem_cons_of_mem b hs)
    simp only [var2CString, var2String, List.flatMap_cons, if_neg hb] at ih ⊢
    rw [ih hs]
    rfl

end Rsyslog.Script
