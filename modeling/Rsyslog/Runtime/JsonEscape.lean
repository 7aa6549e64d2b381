import Rsyslog.Common.ByteBuffer
import Rsyslog.Runtime.Basic

/-!
# JSON escaping of property values

`jsonAddVal` (`runtime/msg.c`, options `json` and `jsonf`) leaves a value without bytes to
escape as it is; otherwise `jsonAddVal_escaped` copies the clean head into a work buffer and
escapes the rest byte by byte, doubling the buffer when fewer than ten bytes are left. The model
keeps the buffer's size and contents; a write past it and the `SIZE_MAX / 2` growth check are
faults. Allocation succeeds, and `SIZE_MAX` is that of a 64-bit build. `jsonEscape` is what the
loop writes; `jsonChars` reads the characters of a JSON string (RFC 8259) back.
-/

namespace Rsyslog

open Rsyslog.Common

/-- How the escaping can fail: `RS_RET_OUT_OF_MEMORY` from the growth check, or a write past the
end of the output buffer. -/
inductive JsonFault where
  | outOfMemory
  | pastBuffer
  deriving DecidableEq, Repr

/-- `SIZE_MAX` of a 64-bit build. -/
def sizeMax : ℕ := 2 ^ 64 - 1

/-- The size of `wrkbuf`, the buffer on the stack that the escaping starts in. -/
def wrkbufSize : ℕ := 100000

/-- The bytes `jsonAddVal` and `jsonAddVal_escaped` copy as they are. -/
def jsonUnescaped (c : UInt8) : Bool :=
  (c ≥ 0x30 && c ≤ 0x5b) || (c ≥ 0x23 && c ≤ 0x2e) || c ≥ 0x5d || c == 0x20 || c == 0x21

/-- The four hex digits the `default` case writes into `numbuf`, most significant first. -/
def numbuf (c : UInt8) : List UInt8 :=
  [3, 2, 1, 0].map fun j => hexdigit.getD (c.toNat / 16 ^ j % 16) 0

/-- What the `switch` of `jsonAddVal_escaped` writes for a byte outside `jsonUnescaped`; for a
backslash, what it writes when it does not keep an escape already there. -/
def jsonEscapeSeq (c : UInt8) : List UInt8 :=
  match c with
  | 0 => asciiBytes "\\u0000"
  | 0x22 => [0x5c, 0x22]
  | 0x2f => [0x5c, 0x2f]
  | 0x5c => [0x5c, 0x5c]
  | 0x08 => [0x5c, 0x62]
  | 0x0c => [0x5c, 0x66]
  | 0x0a => [0x5c, 0x6e]
  | 0x0d => [0x5c, 0x72]
  | 0x09 => [0x5c, 0x74]
  | c => 0x5c :: 0x75 :: numbuf c

/-- The bytes after a backslash that `escapeAll` off takes for an escape already made. -/
def keptEscapes : List UInt8 :=
  asciiBytes "\"/\\bfnrtu"

/-- The loop's growth check: when the bytes written reach `dst_realloc_size`, ten short of the
buffer's size, the buffer doubles, unless its size passes `SIZE_MAX / 2`. -/
def growBuffer (size : ℕ) (written : List UInt8) : Except JsonFault ℕ :=
  if written.length ≥ size - 10 then
    if size > sizeMax / 2 then .error .outOfMemory else .ok (2 * size)
  else .ok size

/-- `*dst_w++ = b` for each byte of `chunk`, in a buffer of `size` bytes. -/
def emit (size : ℕ) (written chunk : List UInt8) : Except JsonFault (List UInt8) :=
  if written.length + chunk.length ≤ size then .ok (written ++ chunk) else .error .pastBuffer

/-- The escaping loop of `jsonAddVal_escaped`, over the bytes from `pSrc[i]` on, with a buffer of
`size` bytes holding `written`. -/
def jsonEscapeLoop (escapeAll : Bool) (size : ℕ) (written : List UInt8) :
    List UInt8 → Except JsonFault (List UInt8)
  | [] => .ok written
  | c :: rest => do
    let size ← growBuffer size written
    if jsonUnescaped c then
      let written ← emit size written [c]
      jsonEscapeLoop escapeAll size written rest
    else if c == 0x5c && !escapeAll then
      match rest with
      | nc :: rest' =>
        -- an escape already made is copied, and the loop goes on past its second byte
        if nc ∈ keptEscapes then
          let written ← emit size written [c, nc]
          jsonEscapeLoop escapeAll size written rest'
        else
          let written ← emit size written (jsonEscapeSeq c)
          jsonEscapeLoop escapeAll size written (nc :: rest')
      | [] =>
        let written ← emit size written (jsonEscapeSeq c)
        jsonEscapeLoop escapeAll size written []
    else
      let written ← emit size written (jsonEscapeSeq c)
      jsonEscapeLoop escapeAll size written rest

/-- `jsonAddVal_escaped`: the clean head of `len_none_escaped_head` bytes is copied into `wrkbuf`,
or into a heap buffer twice its length when it does not fit with ten bytes to spare, and the
rest is escaped. -/
def jsonAddValEscaped (src : List UInt8) (head : ℕ) (escapeAll : Bool) :
    Except JsonFault (List UInt8) := do
  let size := if head > wrkbufSize - 10 then head * 2 else wrkbufSize
  jsonEscapeLoop escapeAll size (← emit size [] (src.take head)) (src.drop head)

/-- `jsonAddVal` on the `buflen` bytes of `src`, with `dst` the string it appends to (`none` for
`NULL`): the result is the new `*dst`, still `none` when nothing needed escaping. -/
def jsonAddVal (src : List UInt8) (dst : Option (List UInt8)) (escapeAll : Bool) :
    Except JsonFault (Option (List UInt8)) :=
  match src.findIdx? (fun c => !jsonUnescaped c) with
  | some i => do
    let out ← jsonAddValEscaped src i escapeAll
    pure (some (dst.getD [] ++ out))
  | none => pure (dst.map (· ++ src))

/-- `jsonEncode` on a property value and its length (`-1` for a C string): the value and length
the property replacer goes on with. A new value is read back by `es_str2cstr`, which changes
nothing in a text without NUL (`nul_not_mem_jsonEscape`). -/
def jsonEncode (res : List UInt8) (bufLen : ℤ) (escapeAll : Bool) :
    Except JsonFault (List UInt8 × ℤ) := do
  let buflen := if bufLen = -1 then (cString res).length else bufLen.toNat
  match ← jsonAddVal (res.take buflen) none escapeAll with
  | none => pure (res, bufLen)
  | some dst => pure (dst, -1)

/-! ## What the loop writes -/

/-- What the escaping loop writes for the bytes left, without its buffer. -/
def jsonEscape (escapeAll : Bool) : List UInt8 → List UInt8
  | [] => []
  | c :: rest =>
    if jsonUnescaped c then c :: jsonEscape escapeAll rest
    else if c == 0x5c && !escapeAll then
      match rest with
      | nc :: rest' =>
        if nc ∈ keptEscapes then c :: nc :: jsonEscape escapeAll rest'
        else jsonEscapeSeq c ++ jsonEscape escapeAll (nc :: rest')
      | [] => jsonEscapeSeq c ++ jsonEscape escapeAll []
    else jsonEscapeSeq c ++ jsonEscape escapeAll rest

/-! ## The JSON side -/

/-- The byte a two-character escape of RFC 8259 stands for. -/
def jsonShortEscape (e : UInt8) : Option UInt8 :=
  [(0x22, 0x22), (0x5c, 0x5c), (0x2f, 0x2f), (0x62, 0x08), (0x66, 0x0c), (0x6e, 0x0a),
    (0x72, 0x0d), (0x74, 0x09)].lookup e

/-- The value of a hex digit of either case. -/
def jsonHexValue (c : UInt8) : Option ℕ :=
  if 0x30 ≤ c ∧ c ≤ 0x39 then some (c.toNat - 0x30)
  else if 0x41 ≤ c ∧ c ≤ 0x46 then some (c.toNat - 0x37)
  else if 0x61 ≤ c ∧ c ≤ 0x66 then some (c.toNat - 0x57)
  else none

/-- The byte a `\u` escape with the four hex digits `a b d f` stands for, below U+0080. -/
def jsonUnicodeByte (a b d f : UInt8) : Option UInt8 := do
  let v := 4096 * (← jsonHexValue a) + 256 * (← jsonHexValue b) + 16 * (← jsonHexValue d) +
    (← jsonHexValue f)
  if v < 0x80 then some v.toUInt8 else none

/-- The `*char quotation-mark` of a JSON string (RFC 8259 §7): the bytes the characters stand
for and the text after the closing quote; `none` off the grammar. -/
def jsonChars : List UInt8 → Option (List UInt8 × List UInt8)
  | [] => none
  | c :: rest =>
    if c = 0x22 then some ([], rest)
    else if c = 0x5c then
      match rest with
      | e :: r =>
        match jsonShortEscape e with
        | some b => (jsonChars r).map fun p => (b :: p.1, p.2)
        | none =>
          if e = 0x75 then
            match r with
            | a :: b :: d :: f :: r' =>
              match jsonUnicodeByte a b d f with
              | some v => (jsonChars r').map fun p => (v :: p.1, p.2)
              | none => none
            | _ => none
          else none
      | [] => none
    -- control characters must be escaped
    else if c < 0x20 then none
    else (jsonChars rest).map fun p => (c :: p.1, p.2)

/-- A JSON string at the start of a text: the bytes it stands for and the text after it. -/
def jsonString : List UInt8 → Option (List UInt8 × List UInt8)
  | c :: rest => if c = 0x22 then jsonChars rest else none
  | [] => none

/-! ## Byte classes -/

/-- The bytes copied as they are, by their value. -/
theorem jsonUnescaped_iff (c : UInt8) :
    jsonUnescaped c = true ↔ (48 ≤ c.toNat ∧ c.toNat ≤ 91) ∨ (35 ≤ c.toNat ∧ c.toNat ≤ 46) ∨
      93 ≤ c.toNat ∨ c.toNat = 32 ∨ c.toNat = 33 := by
  simp [jsonUnescaped, UInt8.le_iff_toNat_le, ← UInt8.toNat_inj, or_assoc]

/-- A byte the loop escapes is a control character, a quote, a slash or a backslash. -/
theorem lt_or_special_of_not_jsonUnescaped {c : UInt8} (h : jsonUnescaped c = false) :
    c.toNat < 0x20 ∨ c = 0x22 ∨ c = 0x2f ∨ c = 0x5c := by
  have h' : ¬(jsonUnescaped c = true) := by simp [h]
  rw [jsonUnescaped_iff] at h'
  simp only [← UInt8.toNat_inj, UInt8.toNat_ofNat]
  omega

/-- The hex digits `numbuf` writes for a byte: two zeros, then its two nibbles. -/
theorem numbuf_eq (c : UInt8) :
    numbuf c = [0x30, 0x30, hexdigit.getD (c.toNat / 16) 0, hexdigit.getD (c.toNat % 16) 0] := by
  have hc := c.toNat_lt
  have h3 : c.toNat / 16 ^ 3 % 16 = 0 := by omega
  have h2 : c.toNat / 16 ^ 2 % 16 = 0 := by omega
  have h1 : c.toNat / 16 ^ 1 % 16 = c.toNat / 16 := by omega
  simp only [numbuf, List.map_cons, List.map_nil, h3, h2, h1, pow_zero, Nat.div_one]
  rfl

/-- Each digit of `hexdigit` reads back as its value. -/
theorem jsonHexValue_hexdigit : ∀ k : Fin 16, jsonHexValue (hexdigit.getD k 0) = some k.val := by
  decide

/-- The `\u` escape of a byte below 0x80 reads back as the byte. -/
theorem jsonUnicodeByte_numbuf {c : UInt8} (hc : c.toNat < 0x80) :
    jsonUnicodeByte 0x30 0x30 (hexdigit.getD (c.toNat / 16) 0) (hexdigit.getD (c.toNat % 16) 0) =
      some c := by
  have hhi := jsonHexValue_hexdigit ⟨c.toNat / 16, by omega⟩
  have hlo := jsonHexValue_hexdigit ⟨c.toNat % 16, by omega⟩
  have h0 : jsonHexValue 0x30 = some 0 := rfl
  have hv : 4096 * 0 + 256 * 0 + 16 * (c.toNat / 16) + c.toNat % 16 = c.toNat := by omega
  unfold jsonUnicodeByte
  rw [h0, hhi, hlo]
  simp only [Option.bind_eq_bind, Option.bind_some]
  rw [hv, if_pos hc]
  simp

/-- Every escape sequence has two to six bytes. -/
theorem jsonEscapeSeq_length (c : UInt8) :
    2 ≤ (jsonEscapeSeq c).length ∧ (jsonEscapeSeq c).length ≤ 6 := by
  unfold jsonEscapeSeq
  split
  · decide
  all_goals simp [numbuf]

/-! ## The escaping with `escapeAll` on -/

/-- With `escapeAll` on, each byte is escaped by itself. -/
theorem jsonEscape_true_cons (c : UInt8) (rest : List UInt8) :
    jsonEscape true (c :: rest) =
      (if jsonUnescaped c then [c] else jsonEscapeSeq c) ++ jsonEscape true rest := by
  rw [jsonEscape.eq_def]
  by_cases hc : jsonUnescaped c <;> simp [hc]

/-- Bytes that need no escape come out as they are, whatever follows them. -/
theorem jsonEscape_unescaped_append (escapeAll : Bool) {xs : List UInt8} (ys : List UInt8)
    (h : ∀ c ∈ xs, jsonUnescaped c = true) :
    jsonEscape escapeAll (xs ++ ys) = xs ++ jsonEscape escapeAll ys := by
  induction xs with
  | nil => rfl
  | cons c rest ih =>
    have hc : jsonUnescaped c = true := h c (by simp)
    rw [List.cons_append, jsonEscape.eq_def]
    simp only [hc, if_true]
    rw [ih fun x hx => h x (by simp [hx]), List.cons_append]

/-- A text that needs no escape comes out as it is. -/
theorem jsonEscape_of_unescaped (escapeAll : Bool) {xs : List UInt8}
    (h : ∀ c ∈ xs, jsonUnescaped c = true) : jsonEscape escapeAll xs = xs := by
  simpa [jsonEscape] using jsonEscape_unescaped_append escapeAll [] h

/-- With `escapeAll` on, the escaped text is at least as long as the input, and longer when a
byte needed an escape. -/
theorem length_jsonEscape_true (xs : List UInt8) :
    xs.length ≤ (jsonEscape true xs).length ∧
      ((∃ c ∈ xs, jsonUnescaped c = false) → xs.length < (jsonEscape true xs).length) := by
  induction xs with
  | nil => simp
  | cons c rest ih =>
    rw [jsonEscape_true_cons, List.length_append]
    have hseq := jsonEscapeSeq_length c
    cases hc : jsonUnescaped c with
    | true =>
      simp only [if_true, List.length_cons, List.mem_cons]
      refine ⟨by omega, fun ⟨x, hx, hxu⟩ => ?_⟩
      rcases hx with rfl | hx
      · simp [hc] at hxu
      · have := ih.2 ⟨x, hx, hxu⟩
        omega
    | false =>
      simp only [Bool.false_eq_true, if_false, List.length_cons]
      omega

/-- With `escapeAll` on, escaping leaves a text as it is exactly when no byte needs an escape. -/
theorem jsonEscape_true_eq_self_iff (xs : List UInt8) :
    jsonEscape true xs = xs ↔ ∀ c ∈ xs, jsonUnescaped c = true := by
  refine ⟨fun h c hc => ?_, jsonEscape_of_unescaped true⟩
  by_contra hcu
  have hlt := (length_jsonEscape_true xs).2 ⟨c, hc, by simpa using hcu⟩
  rw [h] at hlt
  exact lt_irrefl _ hlt

/-- No escape sequence holds a NUL byte. -/
theorem nul_not_mem_jsonEscapeSeq (c : UInt8) : 0 ∉ jsonEscapeSeq c := by
  have hdigits : ∀ k : Fin 16, hexdigit.getD k 0 ≠ 0 := by decide
  unfold jsonEscapeSeq
  split
  case h_10 =>
    have hc := c.toNat_lt
    rw [numbuf_eq]
    have hhi := hdigits ⟨c.toNat / 16, by omega⟩
    have hlo := hdigits ⟨c.toNat % 16, by omega⟩
    simp only at hhi hlo
    simp only [List.mem_cons, List.not_mem_nil, or_false, not_or]
    exact ⟨by decide, by decide, by decide, by decide, hhi.symm, hlo.symm⟩
  all_goals decide

/-- The escaped text holds no NUL byte: it is a C string, which `es_str2cstr` copies whole. -/
theorem nul_not_mem_jsonEscape (escapeAll : Bool) (xs : List UInt8) :
    0 ∉ jsonEscape escapeAll xs := by
  induction xs using jsonEscape.induct escapeAll with
  | case1 => simp [jsonEscape]
  | case2 c rest hc ih =>
    have h0 : c ≠ 0 := by rintro rfl; simp [jsonUnescaped] at hc
    rw [jsonEscape.eq_def]
    simp [hc, ih, Ne.symm h0]
  | case3 c hc hbs nc rest' hnc ih =>
    have hc0 : c ≠ 0 := by rintro rfl; simp at hbs
    have hnc0 : nc ≠ 0 := by rintro rfl; revert hnc; decide
    rw [jsonEscape.eq_def]
    simp [hc, hbs, hnc, ih, Ne.symm hc0, Ne.symm hnc0]
  | case4 c hc hbs nc rest' hnc ih =>
    rw [jsonEscape.eq_def]
    simp [hc, hbs, hnc, ih, nul_not_mem_jsonEscapeSeq]
  | case5 c hc hbs ih =>
    rw [jsonEscape.eq_def]
    simp [hc, hbs, ih, nul_not_mem_jsonEscapeSeq]
  | case6 c rest hc hbs ih =>
    rw [jsonEscape.eq_def]
    simp [hc, hbs, ih, nul_not_mem_jsonEscapeSeq]

/-! ## Reading the escaped text back -/

/-- A byte of the grammar's unescaped range stands for itself. -/
theorem jsonChars_plain {c : UInt8} (rest : List UInt8) (h22 : c ≠ 0x22) (h5c : c ≠ 0x5c)
    (h20 : ¬c < 0x20) : jsonChars (c :: rest) = (jsonChars rest).map fun p => (c :: p.1, p.2) := by
  rw [jsonChars.eq_def]
  simp [h22, h5c, h20]

/-- A two-character escape stands for its byte. -/
theorem jsonChars_shortEscape {e b : UInt8} (r : List UInt8) (h : jsonShortEscape e = some b) :
    jsonChars (0x5c :: e :: r) = (jsonChars r).map fun p => (b :: p.1, p.2) := by
  rw [jsonChars.eq_def]
  simp [h]

/-- A `\u` escape below U+0080 stands for its byte. -/
theorem jsonChars_unicode {a b d f v : UInt8} (r : List UInt8)
    (h : jsonUnicodeByte a b d f = some v) :
    jsonChars (0x5c :: 0x75 :: a :: b :: d :: f :: r) =
      (jsonChars r).map fun p => (v :: p.1, p.2) := by
  have hu : jsonShortEscape 0x75 = none := rfl
  rw [jsonChars.eq_def]
  simp [h, hu]

/-- The escape of one byte reads back as the byte, whatever follows it. -/
theorem jsonChars_escapeByte (c : UInt8) (rest : List UInt8) :
    jsonChars ((if jsonUnescaped c then [c] else jsonEscapeSeq c) ++ rest) =
      (jsonChars rest).map fun p => (c :: p.1, p.2) := by
  cases hc : jsonUnescaped c with
  | true =>
    -- a byte copied as it is lies in the grammar's unescaped range
    have hn := (jsonUnescaped_iff c).mp hc
    have h22 : c ≠ 0x22 := fun h => by subst h; simp at hn
    have h5c : c ≠ 0x5c := fun h => by subst h; simp at hn
    have h20 : ¬c < 0x20 := by rw [UInt8.lt_iff_toNat_lt]; simp; omega
    exact jsonChars_plain rest h22 h5c h20
  | false =>
    simp only [Bool.false_eq_true, if_false]
    unfold jsonEscapeSeq
    split
    case h_1 =>
      rw [show asciiBytes "\\u0000" = [0x5c, 0x75, 0x30, 0x30, 0x30, 0x30] by decide]
      exact jsonChars_unicode rest rfl
    case h_10 _ h22 h2f h5c _ _ _ _ _ =>
      -- the other bytes left to escape are control characters, written as `\u00XX`
      have hlt : c.toNat < 0x20 := by
        rcases lt_or_special_of_not_jsonUnescaped hc with h | h | h | h
        · exact h
        · exact absurd h h22
        · exact absurd h h2f
        · exact absurd h h5c
      rw [numbuf_eq]
      exact jsonChars_unicode rest (jsonUnicodeByte_numbuf (by omega))
    -- the eight two-character escapes
    all_goals exact jsonChars_shortEscape rest rfl

/-- The escaped text, closed by a quote, reads back as the bytes escaped. -/
theorem jsonChars_jsonEscape_true (s rest : List UInt8) :
    jsonChars (jsonEscape true s ++ 0x22 :: rest) = some (s, rest) := by
  induction s with
  | nil =>
    rw [jsonChars.eq_def]
    rfl
  | cons c s ih =>
    rw [jsonEscape_true_cons, List.append_assoc, jsonChars_escapeByte, ih]
    rfl

/-! ## The buffer never overflows -/

/-- The loop's invariant on its buffer: at least ten bytes, four of them still free. -/
def EscapeRoom (size : ℕ) (written : List UInt8) : Prop :=
  10 ≤ size ∧ written.length + 4 ≤ size

/-- What a run of the loop ends in: the text `out`, or `RS_RET_OUT_OF_MEMORY` when the text
written may reach `bound` bytes, past `SIZE_MAX / 2`. -/
def LoopOutcome (r : Except JsonFault (List UInt8)) (out : List UInt8) (bound : ℕ) : Prop :=
  r = .ok out ∨ (r = .error .outOfMemory ∧ sizeMax / 2 < bound)

theorem LoopOutcome.mono {r : Except JsonFault (List UInt8)} {out : List UInt8} {b b' : ℕ}
    (h : LoopOutcome r out b) (hb : b ≤ b') : LoopOutcome r out b' := by
  rcases h with h | ⟨h, hlt⟩
  · exact .inl h
  · exact .inr ⟨h, by omega⟩

/-- A round that wrote `chunk` for `k` bytes of input passes the outcome of the rest of the run
on to the whole run. -/
theorem LoopOutcome.shift {r : Except JsonFault (List UInt8)} {written chunk tail : List UInt8}
    {n : ℕ} (k : ℕ) (hk : chunk.length ≤ 6 * k)
    (h : LoopOutcome r (written ++ chunk ++ tail) ((written ++ chunk).length + 6 * n + 10)) :
    LoopOutcome r (written ++ (chunk ++ tail)) (written.length + 6 * (n + k) + 10) := by
  rw [← List.append_assoc]
  exact h.mono (by simp; omega)

section Round

variable {size bound : ℕ} {written chunk out : List UInt8}

/-- The growth check on a buffer with room leaves at least ten bytes free, or fails with the
text written already near `SIZE_MAX / 2`. -/
theorem growBuffer_bind (hroom : EscapeRoom size written) (hb : written.length + 10 ≤ bound)
    {f : ℕ → Except JsonFault (List UInt8)}
    (hf : ∀ size', 10 ≤ size' → written.length + 10 ≤ size' → LoopOutcome (f size') out bound) :
    LoopOutcome (growBuffer size written >>= f) out bound := by
  obtain ⟨h10, h4⟩ := hroom
  unfold growBuffer
  split_ifs with hfull hbig
  · exact .inr ⟨rfl, by omega⟩
  · -- the doubled buffer has room for the ten bytes the check asks for
    exact hf _ (by omega) (by omega)
  · exact hf _ h10 (by omega)

/-- A write of at most six bytes after the growth check stays inside the buffer and leaves it with
room for the rest of the loop. -/
theorem emit_bind {escapeAll : Bool} {next : List UInt8} (hchunk : chunk.length ≤ 6)
    (hk : ∀ size', EscapeRoom size' (written ++ chunk) →
      LoopOutcome (jsonEscapeLoop escapeAll size' (written ++ chunk) next) out bound)
    {size' : ℕ} (h10 : 10 ≤ size') (hfree : written.length + 10 ≤ size') :
    LoopOutcome (emit size' written chunk >>= fun w => jsonEscapeLoop escapeAll size' w next)
      out bound := by
  have hfit : written.length + chunk.length ≤ size' := by omega
  simp only [emit, if_pos hfit]
  exact hk size' ⟨h10, by simp; omega⟩

end Round

/-- The escaping loop, from a buffer with room, writes `jsonEscape` of the bytes left after what
it holds, never past the buffer; it fails only with `RS_RET_OUT_OF_MEMORY`, and only when the text
may grow past `SIZE_MAX / 2`. -/
theorem jsonEscapeLoop_outcome (escapeAll : Bool) (xs : List UInt8) {size : ℕ}
    {written : List UInt8} (hroom : EscapeRoom size written) :
    LoopOutcome (jsonEscapeLoop escapeAll size written xs) (written ++ jsonEscape escapeAll xs)
      (written.length + 6 * xs.length + 10) := by
  -- one case for each branch of the loop body, as `jsonEscape` has them
  induction xs using jsonEscape.induct escapeAll generalizing size written with
  | case1 => exact .inl (by simp [jsonEscapeLoop, jsonEscape])
  | case2 c rest hc ih =>
    rw [jsonEscapeLoop.eq_def, jsonEscape.eq_def]
    dsimp only
    rw [if_pos hc]
    apply growBuffer_bind hroom (by omega)
    intro size' h10 hfree
    rw [if_pos hc]
    refine emit_bind (by simp) (fun size'' hroom' => ?_) h10 hfree
    exact (ih hroom').shift 1 (by simp)
  | case3 c hc hbs nc rest' hnc ih =>
    -- a backslash that starts an escape already made: two bytes in, two bytes out
    rw [jsonEscapeLoop.eq_def, jsonEscape.eq_def]
    dsimp only
    rw [if_neg hc, if_pos hbs, if_pos hnc]
    apply growBuffer_bind hroom (by omega)
    intro size' h10 hfree
    rw [if_neg hc, if_pos hbs, if_pos hnc]
    refine emit_bind (by simp) (fun size'' hroom' => ?_) h10 hfree
    exact (ih hroom').shift 2 (by simp)
  | case4 c hc hbs nc rest' hnc ih =>
    have hseq := jsonEscapeSeq_length c
    rw [jsonEscapeLoop.eq_def, jsonEscape.eq_def]
    dsimp only
    rw [if_neg hc, if_pos hbs, if_neg hnc]
    apply growBuffer_bind hroom (by omega)
    intro size' h10 hfree
    rw [if_neg hc, if_pos hbs, if_neg hnc]
    refine emit_bind hseq.2 (fun size'' hroom' => ?_) h10 hfree
    exact (ih hroom').shift 1 (by omega)
  | case5 c hc hbs ih =>
    have hseq := jsonEscapeSeq_length c
    rw [jsonEscapeLoop.eq_def, jsonEscape.eq_def]
    dsimp only
    rw [if_neg hc, if_pos hbs]
    apply growBuffer_bind hroom (by omega)
    intro size' h10 hfree
    rw [if_neg hc, if_pos hbs]
    refine emit_bind hseq.2 (fun size'' hroom' => ?_) h10 hfree
    exact (ih hroom').shift 1 (by omega)
  | case6 c rest hc hbs ih =>
    have hseq := jsonEscapeSeq_length c
    rw [jsonEscapeLoop.eq_def, jsonEscape.eq_def]
    dsimp only
    rw [if_neg hc, if_neg hbs]
    apply growBuffer_bind hroom (by omega)
    intro size' h10 hfree
    rw [if_neg hc, if_neg hbs]
    refine emit_bind hseq.2 (fun size'' hroom' => ?_) h10 hfree
    exact (ih hroom').shift 1 (by omega)

/-- `jsonAddVal_escaped` copies the head and escapes the rest, never past its buffer, whatever
the text's length; it fails only with `RS_RET_OUT_OF_MEMORY` for a text of more than
`SIZE_MAX / 12` bytes. -/
theorem jsonAddValEscaped_outcome (src : List UInt8) (head : ℕ) (escapeAll : Bool) :
    LoopOutcome (jsonAddValEscaped src head escapeAll)
      (src.take head ++ jsonEscape escapeAll (src.drop head)) (6 * src.length + 10) := by
  have htake : (src.take head).length ≤ head := by simp only [List.length_take]; omega
  -- the head fits in `wrkbuf` with ten bytes to spare, or in a heap buffer of twice its length
  have hroom : EscapeRoom (if head > wrkbufSize - 10 then head * 2 else wrkbufSize)
      (src.take head) := by
    unfold EscapeRoom wrkbufSize
    split_ifs <;> omega
  have hemit : emit (if head > wrkbufSize - 10 then head * 2 else wrkbufSize) [] (src.take head) =
      .ok (src.take head) := by
    simp only [emit, List.length_nil, Nat.zero_add, List.nil_append]
    rw [if_pos (by unfold EscapeRoom at hroom; omega)]
  unfold jsonAddValEscaped
  simp only [hemit]
  refine (jsonEscapeLoop_outcome escapeAll _ hroom).mono ?_
  simp only [List.length_take, List.length_drop]
  omega

/-- An outcome whose bound stays within `SIZE_MAX / 2` is the text. -/
theorem LoopOutcome.eq_ok {r : Except JsonFault (List UInt8)} {out : List UInt8} {b : ℕ}
    (h : LoopOutcome r out b) (hb : b ≤ sizeMax / 2) : r = .ok out := by
  rcases h with h | ⟨-, hlt⟩
  · exact h
  · omega

/-- The escaping of a text `jsonAddVal` is given, with its `unsigned` length below 2^32, is
`jsonEscape` of the whole text. -/
theorem jsonAddValEscaped_eq {src : List UInt8} (head : ℕ) (escapeAll : Bool)
    (hs : src.length < 2 ^ 32) :
    jsonAddValEscaped src head escapeAll =
      .ok (src.take head ++ jsonEscape escapeAll (src.drop head)) := by
  apply (jsonAddValEscaped_outcome src head escapeAll).eq_ok
  unfold sizeMax
  omega

/-- The bytes before the first one `jsonAddVal`'s scan stops at need no escape. -/
theorem unescaped_take_of_findIdx? {src : List UInt8} {i : ℕ}
    (h : src.findIdx? (fun c => !jsonUnescaped c) = some i) :
    ∀ c ∈ src.take i, jsonUnescaped c = true := by
  obtain ⟨hi, -, hbefore⟩ := List.findIdx?_eq_some_iff_getElem.mp h
  intro c hc
  obtain ⟨j, hj, rfl⟩ := List.getElem_of_mem hc
  have hji : j < i := by simp only [List.length_take] at hj; omega
  rw [List.getElem_take]
  simpa using hbefore j hji

theorem jsonAddVal_escapeAll_faithful (s : List UInt8) (hs : s.length < 2 ^ 32) :
    ∃ t, jsonAddValEscaped s 0 true = .ok t ∧
      jsonAddVal s none true = .ok (if t = s then none else some t) ∧
      jsonString (0x22 :: t ++ [0x22]) = some (s, []) := by
  refine ⟨jsonEscape true s, by simpa using jsonAddValEscaped_eq 0 true hs, ?_, ?_⟩
  · unfold jsonAddVal
    split
    · next i hi =>
      -- the scan found a byte to escape: the loop's text is the escaping of the whole text
      obtain ⟨hi_lt, hesc, -⟩ := List.findIdx?_eq_some_iff_getElem.mp hi
      have hne : jsonEscape true s ≠ s := by
        rw [Ne, jsonEscape_true_eq_self_iff]
        intro hall
        simp [hall _ (List.getElem_mem hi_lt)] at hesc
      have hsplit : s.take i ++ jsonEscape true (s.drop i) = jsonEscape true s := by
        rw [← jsonEscape_unescaped_append true _ (unescaped_take_of_findIdx? hi),
          List.take_append_drop]
      rw [jsonAddValEscaped_eq i true hs, hsplit, if_neg hne]
      rfl
    · next hnone =>
      -- no byte needs an escape, and the escaping would change nothing either
      have hall : ∀ c ∈ s, jsonUnescaped c = true := by
        intro c hc
        simpa using List.findIdx?_eq_none_iff.mp hnone c hc
      rw [if_pos (jsonEscape_of_unescaped true hall)]
      rfl
  · show jsonChars (jsonEscape true s ++ [0x22]) = some (s, [])
    exact jsonChars_jsonEscape_true s []

/-- Escaping a quote gives a new text. -/
theorem jsonAddVal_escapeAll_faithful_quote : [0x22].length < 2 ^ 32 ∧
    ∃ t, jsonAddValEscaped [0x22] 0 true = .ok t ∧
      jsonAddVal [0x22] none true = .ok (if t = [0x22] then none else some t) ∧
      jsonString (0x22 :: t ++ [0x22]) = some ([0x22], []) :=
  ⟨by decide, jsonAddVal_escapeAll_faithful [0x22] (by decide)⟩

end Rsyslog
