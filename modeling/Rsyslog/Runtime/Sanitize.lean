import Rsyslog.Common.ByteBuffer

/-!
# Sanitizing a received message

`SanitizeMsg` (`runtime/parser.c`) runs before the first parser that asks for it. It drops one
trailing NUL and, as configured, a trailing LF and then a trailing CR. A scan then looks for a byte
that needs sanitizing: a NUL, another control character when `escapeControlCharactersOnReceive`
is set, or a byte above 127 when `escape8BitCharactersOnReceive` is set; on the way it turns LFs
into spaces when `spaceLFOnReceive` is set, and without that option it stops at the first byte
found. If there is none, the message stays as the scan left it. Otherwise the message is copied
into a buffer of `maxDest` bytes, four times the message's length but at most the maximum
line length, restarting one byte before the first byte found and escaping byte by byte while
fewer than `maxDest - 3` bytes are written.

The options are read from the global configuration; `ParserOpts` holds them. The message is
the raw message's bytes, of which the C code asserts there is at least one.
-/

namespace Rsyslog

open Rsyslog.Common

/-- The parser options of the global configuration that `SanitizeMsg` reads. -/
structure ParserOpts where
  dropTrailingLFOnReception : Bool
  dropTrailingCROnReception : Bool
  spaceLFOnReceive : Bool
  escapeControlCharactersOnReceive : Bool
  escape8BitCharactersOnReceive : Bool
  escapeControlCharacterTab : Bool
  escapeControlCharactersCStyle : Bool
  controlCharacterEscapePrefix : UInt8
  /-- `GetMaxLine`, the configured maximum message size; the configuration keeps it at 128 or
  more. -/
  maxLine : ℕ
  deriving DecidableEq, Repr

/-- The parser options of a new configuration (`rsconf.c`): control characters and tabs escaped
with `#` and three octal digits, a trailing LF dropped, messages of up to 8192 bytes. -/
def ParserOpts.default : ParserOpts where
  dropTrailingLFOnReception := true
  dropTrailingCROnReception := false
  spaceLFOnReceive := false
  escapeControlCharactersOnReceive := true
  escape8BitCharactersOnReceive := false
  escapeControlCharacterTab := true
  escapeControlCharactersCStyle := false
  controlCharacterEscapePrefix := 0x23
  maxLine := 8192

/-- `a - b` in `size_t`, which wraps below zero. -/
def sizeTSub (a b : ℕ) : ℕ :=
  (a + 2 ^ 64 - b) % 2 ^ 64

/-- The two hex digits of a byte, high nibble first. -/
def hexPair (c : UInt8) : List UInt8 :=
  [hexdigit.getD ((c &&& 0xF0) >>> (4 : UInt8)).toNat 0, hexdigit.getD (c &&& 0xF).toNat 0]

/-- The C-style escape of a control character: `\0 \a \b \e \f \n \r \t \v`, or `\x` and its
two hex digits. -/
def cStyleEscape (c : UInt8) : List UInt8 :=
  0x5c :: match c with
    | 0x00 => [0x30]
    | 0x07 => [0x61]
    | 0x08 => [0x62]
    | 0x1b => [0x65]
    | 0x0c => [0x66]
    | 0x0a => [0x6e]
    | 0x0d => [0x72]
    | 0x09 => [0x74]
    | 0x0b => [0x76]
    | c => 0x78 :: hexPair c

/-- The escape of a byte by the configured prefix and its three octal digits
(`0300`, `0070` and `0007` are 192, 56 and 7). -/
def octalEscape (escapePrefix c : UInt8) : List UInt8 :=
  [escapePrefix, 0x30 + ((c &&& 192) >>> (6 : UInt8)), 0x30 + ((c &&& 56) >>> (3 : UInt8)),
    0x30 + (c &&& 7)]

/-- What one round of the copy loop writes for a byte. A control character that is neither an
LF to turn into a space, nor a NUL, nor to be escaped writes nothing. -/
def sanitizeCopyByte (opts : ParserOpts) (c : UInt8) : List UInt8 :=
  if c < 32 && (c != 0x09 || opts.escapeControlCharacterTab) then
    if opts.spaceLFOnReceive && c == 0x0a then [0x20]
    else if c == 0 || opts.escapeControlCharactersOnReceive then
      if opts.escapeControlCharactersCStyle then cStyleEscape c
      else octalEscape opts.controlCharacterEscapePrefix c
    else []
  else if c > 127 && opts.escape8BitCharactersOnReceive then
    if opts.escapeControlCharactersCStyle then 0x5c :: 0x78 :: hexPair c
    else octalEscape opts.controlCharacterEscapePrefix c
  else [c]

/-- The copy loop: while fewer than `limit` bytes are written, one more byte of the message is
copied as `sanitizeCopyByte` says. -/
def sanitizeCopy (opts : ParserOpts) (limit : ℕ) (dst : List UInt8) : List UInt8 → List UInt8
  | [] => dst
  | c :: rest =>
    if dst.length < limit then sanitizeCopy opts limit (dst ++ sanitizeCopyByte opts c) rest
    else dst

/-- The scan from index `i` for a byte that needs sanitizing: the message with the LFs it turned
into spaces, and the index of the first such byte. -/
def sanitizeScan (opts : ParserOpts) (i : ℕ) : List UInt8 → List UInt8 × Option ℕ
  | [] => ([], none)
  | c :: rest =>
    let r := sanitizeScan opts (i + 1) rest
    -- the scan goes on past the byte found only to replace the LFs after it
    let found := if opts.spaceLFOnReceive then (c :: r.1, some i) else (c :: rest, some i)
    if c < 32 then
      if opts.spaceLFOnReceive && c == 0x0a then (0x20 :: r.1, r.2)
      else if c == 0 || opts.escapeControlCharactersOnReceive then found
      else (c :: r.1, r.2)
    else if c > 127 && opts.escape8BitCharactersOnReceive then found
    else (c :: r.1, r.2)

/-- The trailing NUL, and the trailing LF and CR the options ask to drop. -/
def sanitizeTrim (opts : ParserOpts) (msg : List UInt8) : List UInt8 :=
  let msg := if msg.getLast? = some 0 then msg.dropLast else msg
  let msg := if opts.dropTrailingLFOnReception && msg.getLast? = some 0x0a then msg.dropLast
    else msg
  if opts.dropTrailingCROnReception && msg.getLast? = some 0x0d then msg.dropLast else msg

/-- `SanitizeMsg`: the raw message it leaves. -/
def sanitizeMsg (opts : ParserOpts) (raw : List UInt8) : List UInt8 :=
  let scan := sanitizeScan opts 0 (sanitizeTrim opts raw)
  match scan.2 with
  | none => scan.1
  | some iFirstSanitize =>
    let msg := scan.1
    let maxDest := min (msg.length * 4) opts.maxLine
    -- the copy restarts one byte before the first byte found
    let iSrc := if iFirstSanitize > 0 then min (iFirstSanitize - 1) maxDest else 0
    sanitizeCopy opts (sizeTSub maxDest 3) (msg.take iSrc) (msg.drop iSrc)

/-! ## A control character after a NUL -/

theorem sanitizeMsg_controlByte_dropped (opts : ParserOpts) (hesc : opts.escapeControlCharactersOnReceive = false)
    (hmax : 8 ≤ opts.maxLine) {c : UInt8} (hc0 : c ≠ 0) (hc : c < 32) (htab : c ≠ 0x09)
    (hlf : c ≠ 0x0a) :
    sanitizeMsg opts [c, 0x78] = [c, 0x78] ∧
      sanitizeMsg opts [c, 0, 0x78] = sanitizeCopyByte opts 0 ++ [0x78] := by
  have htrim : sanitizeTrim opts [c, 0x78] = [c, 0x78] := by simp [sanitizeTrim]
  have htrim0 : sanitizeTrim opts [c, 0, 0x78] = [c, 0, 0x78] := by simp [sanitizeTrim]
  constructor
  · -- no NUL: the scan finds nothing and the message stays
    simp [sanitizeMsg, htrim, sanitizeScan, hc, hc0, hlf, hesc]
  · -- the NUL starts the copy one byte early, at the control character, which writes nothing
    have hlim : sizeTSub (min 12 opts.maxLine) 3 = min 12 opts.maxLine - 3 := by
      unfold sizeTSub
      omega
    have hdrop : sanitizeCopyByte opts c = [] := by
      simp [sanitizeCopyByte, hc, htab, hlf, hc0, hesc]
    have hnul : (sanitizeCopyByte opts 0).length ≤ 4 := by
      unfold sanitizeCopyByte
      split_ifs <;> simp [cStyleEscape, octalEscape, hexPair]
    have hx : sanitizeCopyByte opts 0x78 = [0x78] := by
      simp [sanitizeCopyByte]
    simp only [sanitizeMsg, htrim0, sanitizeScan]
    simp [hc, hc0, hlf, hesc]
    rw [hlim]
    simp only [sanitizeCopy, List.length_nil, hdrop, List.nil_append]
    rw [if_pos (by omega), if_pos (by omega), if_pos (by omega), hx]

/-- The default options with `parser.escapeControlCharactersOnReceive` off: `^A` is kept in
`^Ax` and lost in `^A NUL x`. -/
theorem sanitizeMsg_controlByte_dropped_soh :
    let opts : ParserOpts := { ParserOpts.default with escapeControlCharactersOnReceive := false }
    opts.escapeControlCharactersOnReceive = false ∧ 8 ≤ opts.maxLine ∧ (1 : UInt8) ≠ 0 ∧
      (1 : UInt8) < 32 ∧ (1 : UInt8) ≠ 0x09 ∧ (1 : UInt8) ≠ 0x0a ∧
      sanitizeMsg opts [1, 0x78] = [1, 0x78] ∧
      sanitizeMsg opts [1, 0, 0x78] = sanitizeCopyByte opts 0 ++ [0x78] :=
  ⟨rfl, by decide, by decide, by decide, by decide, by decide,
    sanitizeMsg_controlByte_dropped _ rfl (by decide) (by decide) (by decide) (by decide)
      (by decide)⟩

end Rsyslog
