import Rsyslog.Common.ByteBuffer

/-!
# Field and substring extraction of the property replacer

`MsgGetProp` (`runtime/msg.c`) cuts a property value down as its template entry asks: first to
the `iFieldNr`-th field between `field_delim` bytes, then to the positions `iFromPos..iToPos`,
counted from the start (1-based) or from the end, with a negative `iToPos` counting back from
the end. The value is a C string in memory: the pointer walks stop at its terminating NUL, and
reading past that byte reads past the object. The substring is copied into a buffer of
`iLen + 1` bytes, padded with spaces where the value ends early.

The template side is `createPropertyTpe` (`runtime/template.c`), which fills in default positions
and rejects `position.to` below `position.from`; `createPropertyTpePos` is that check.
-/

namespace Rsyslog

open Rsyslog.Common

/-- How the extraction can go wrong. -/
inductive PropFault where
  /-- A read past the terminating NUL of the value. -/
  | readPastString
  /-- A write past the end of the substring buffer. -/
  | writePastBuffer
  /-- `RET_OUT_OF_MEMORY`: the buffer could not be allocated. -/
  | outOfMemory
  deriving DecidableEq, Repr

/-! ## Field extraction -/

/-- The loop that skips to field `iFieldNr`, over the value's bytes from `pFld` to its terminator
and nothing after it, with `iCurrFld` fields counted; `inField` is whether it is inside the inner
loop that runs to the next delimiter. The result is the field count and the bytes from where the
loop stopped. -/
def skipFields (delim : UInt8) (iFieldNr : ℕ) :
    Bool → ℕ → List UInt8 → Except PropFault (ℕ × List UInt8)
  | _, _, [] => .error .readPastString
  | false, iCurrFld, c :: rest =>
    if c = 0 ∨ iCurrFld ≥ iFieldNr then .ok (iCurrFld, c :: rest)
    else if c = delim then skipFields delim iFieldNr false (iCurrFld + 1) rest
    else skipFields delim iFieldNr true iCurrFld rest
  | true, iCurrFld, c :: rest =>
    if c ≠ 0 ∧ c ≠ delim then skipFields delim iFieldNr true iCurrFld rest
    -- the delimiter is eaten, even when it is the terminator
    else if c = delim then skipFields delim iFieldNr false (iCurrFld + 1) rest
    else .ok (iCurrFld, c :: rest)

/-- The field extraction of `MsgGetProp` on a value held as `pRes` followed by its terminating
NUL: the field, or `none` for `**FIELD NOT FOUND**`. -/
def msgGetPropField (delim : UInt8) (iFieldNr : ℕ) (pRes : List UInt8) :
    Except PropFault (Option (List UInt8)) := do
  let (iCurrFld, pFld) ← skipFields delim iFieldNr false 1 (pRes ++ [0])
  if iCurrFld = iFieldNr then
    -- the end of the field is the next delimiter or the terminator
    if pFld = [] then .error .readPastString
    else pure (some (pFld.takeWhile fun c => c ≠ 0 ∧ c ≠ delim))
  else pure none

/-! ## Substring extraction -/

/-- The copy loop of the substring: `n` bytes of `src`, then spaces once it reaches the
terminator. -/
def copyPadded : ℕ → List UInt8 → List UInt8
  | 0, _ => []
  | n + 1, [] => 0x20 :: copyPadded n []
  | n + 1, c :: rest => c :: copyPadded n rest

/-- `iFrom` and `iTo`, zero-based, from the template's positions and the value's length. -/
def substringBounds (bufLen iFromPos iToPos : ℤ) (bFromPosEndRelative : Bool) : ℤ × ℤ :=
  if bFromPosEndRelative then
    (if bufLen < iFromPos then 0 else bufLen - iFromPos,
      if bufLen < iToPos then 0 else bufLen - iToPos)
  else
    (if iFromPos > 0 then iFromPos - 1 else iFromPos,
      if iToPos > 0 then iToPos - 1
      -- a negative `iToPos` counts back from the last byte
      else if iToPos < 0 then max (bufLen - 1 + iToPos) 0
      else iToPos)

/-- The substring extraction of `MsgGetProp` on the value `pRes`, of length `bufLen` (`-1` for a
C string): the new value and its length. -/
def msgGetPropSubstring (pRes : List UInt8) (bufLen iFromPos iToPos : ℤ)
    (bFromPosEndRelative bFixedWidth : Bool) : Except PropFault (List UInt8 × ℤ) :=
  if iFromPos = 0 ∧ iToPos = 0 then .ok (pRes, bufLen)
  else
    let s := cString pRes
    let bufLen := if bufLen = -1 then (s.length : ℤ) else bufLen
    let (iFrom, iTo) := substringBounds bufLen iFromPos iToPos bFromPosEndRelative
    if iFrom ≥ bufLen then .ok ([], 0)
    else if iFrom = 0 ∧ iTo ≥ bufLen ∧ bFixedWidth = false then .ok (pRes, bufLen)
    else
      let iTo := if iTo ≥ bufLen ∧ bFixedWidth = false then bufLen - 1 else iTo
      let iLen := iTo - iFrom + 1
      -- `malloc(iLen + 1)` of a negative size asks for more than `SIZE_MAX / 2` bytes
      if iLen + 1 < 0 then .error .outOfMemory
      -- `while (iLen)` with `iLen` at -1 writes at once into a buffer of no byte
      else if iLen < 0 then .error .writePastBuffer
      else
        let start := if iFrom > 0 then min iFrom.toNat s.length
          else if iFrom < 0 then s.length else 0
        .ok (copyPadded iLen.toNat (s.drop start), iLen)

/-! ## The template entry -/

/-- The position check of `createPropertyTpe` on `position.from` (`-1` when not given),
`position.to`, whether that was given, and `position.relativeToEnd`: `none` where the entry is
rejected, else the `iFromPos` and `iToPos` it stores. -/
def createPropertyTpePos (frompos topos : ℤ) (toposSet relativeToEnd : Bool) : Option (ℤ × ℤ) :=
  let topos := if toposSet = false ∧ frompos ≠ -1 then 2000000000 else topos
  let frompos := if frompos = -1 ∧ toposSet = true then 0 else frompos
  let accepted := if relativeToEnd then ¬topos > frompos else ¬(topos ≥ 0 ∧ topos < frompos)
  if accepted then some (if frompos ≠ -1 then (frompos, topos) else (0, 0)) else none

/-! ## A substring that ends before it starts -/

theorem msgGetPropSubstring_writesPastBuffer {v : List UInt8} (hv : 0 ∉ v) (hL : 3 ≤ v.length)
    {t : ℤ} (ht : t ≤ 1 - v.length) {bufLen : ℤ} (hbuf : bufLen = -1 ∨ bufLen = v.length)
    (bFixedWidth : Bool) :
    createPropertyTpePos 3 t true false = some (3, t) ∧
      msgGetPropSubstring v bufLen 3 t false bFixedWidth = .error .writePastBuffer := by
  constructor
  · -- a negative `position.to` passes the check whatever `position.from` is
    have ht0 : ¬(t ≥ 0 ∧ t < 3) := by omega
    simp [createPropertyTpePos, ht0]
  · -- the value's length, whether passed or counted
    have hlen : (if bufLen = -1 then ((cString v).length : ℤ) else bufLen) = v.length := by
      rcases hbuf with rfl | rfl
      · simp [cString_of_nul_free hv]
      · simp
    -- `iFrom` is 2 and the negative `iTo` is clamped to 0: `iLen` is -1
    have hbounds : substringBounds v.length 3 t false = (2, 0) := by
      simp only [substringBounds, Bool.false_eq_true, if_false]
      split_ifs <;> simp only [Prod.mk.injEq] <;> omega
    unfold msgGetPropSubstring
    simp only [hlen, hbounds]
    split_ifs <;> first | rfl | omega

/-- `position.from` 3 and `position.to` -5 on the value `abc`. -/
theorem msgGetPropSubstring_writesPastBuffer_abc :
    createPropertyTpePos 3 (-5) true false = some (3, -5) ∧
      msgGetPropSubstring (asciiBytes "abc") (-1) 3 (-5) false false = .error .writePastBuffer :=
  msgGetPropSubstring_writesPastBuffer (by decide) (by decide) (by decide) (.inl rfl) false

end Rsyslog
