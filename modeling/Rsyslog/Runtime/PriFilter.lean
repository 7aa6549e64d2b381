import Rsyslog.Runtime.Basic
import Rsyslog.Runtime.SyslogNames

/-!
# Decoding a legacy PRI selector

`DecodePRIFilter` (`runtime/conf.c`) reads a selector such as `mail,news.=info;*.!debug` into a
mask of 26 bytes, one per facility, whose bit `s` says whether severity `s` is selected. For each
`;`-separated part it finds the priority after the first `.`, decodes it with `decodeSyslogName`
after an optional `!` (which removes instead of adding) and `=` (which takes one severity only,
not it and all above), and applies it to each facility named before the `.`, or to all of them
for `*`.

The selector is read from the C object holding it, a list of bytes that normally ends at the
string's terminator. A C pointer into it is an offset, and each scanning loop walks the rest of
the object from its pointer. Reading past the object, touching an entry the mask does not have
and shifting `1` by a count outside 0 to 31 are undefined behaviour; the model stops there with
the `PriFault` it met. The two loops over selectors and over facilities run on fuel, the
object's length and one more.
-/

namespace Rsyslog

open Rsyslog.Common Rsyslog.Script

/-- Where a run of `DecodePRIFilter` meets undefined behaviour, or runs out of fuel. -/
inductive PriFault
  /-- A read past the object holding the selector. -/
  | readPastObject
  /-- A read or write of a mask entry past `pmask`. -/
  | maskIndex
  /-- `1 << k` with `k` outside 0 to 31. -/
  | shiftWidth
  /-- A loop ran out of fuel. -/
  | fuel
deriving DecidableEq, Repr

/-- `*p`: the byte at offset `p` of the object. -/
def charAt (obj : List UInt8) (p : ℕ) : Except PriFault UInt8 :=
  match obj[p]? with
  | some c => .ok c
  | none => .error .readPastObject

/-! ## The scanning loops -/

/-- `for (q = p; *q && *q != '\t' && *q++ != '.';)` over the bytes from `q`: the offset just past
the first `.`, or that of the first NUL or tab. -/
def skipFacilityList : List UInt8 → ℕ → Except PriFault ℕ
  | [], _ => .error .readPastObject
  | c :: rest, q =>
    if c = 0 ∨ c = 9 then .ok q
    else if c = 46 then .ok (q + 1)
    else skipFacilityList rest (q + 1)

/-- The name-copying loops `for (bp = buf; *q && !strchr(stops, *q) && bp < buf + 2047;)` over
the bytes from `q`: the bytes up to the first NUL or byte of `stops`, at most `room` of them, and
the offset after them. The byte at the offset is read before the room is checked. -/
def copyName (stops : List UInt8) : List UInt8 → ℕ → ℕ → Except PriFault (List UInt8 × ℕ)
  | [], _, _ => .error .readPastObject
  | c :: rest, room, q =>
    if c = 0 ∨ c ∈ stops then .ok ([], q)
    else
      match room with
      | 0 => .ok ([], q)
      | room + 1 => (copyName stops rest room (q + 1)).map fun (name, q) => (c :: name, q)

/-- `while (strchr(",;", *q)) q++`: `strchr` also finds the terminator of `",;"`, so the loop steps
over NUL bytes as well as commas and semicolons. -/
def skipCruft : List UInt8 → ℕ → Except PriFault ℕ
  | [], _ => .error .readPastObject
  | c :: rest, q => if c = 0 ∨ c = 44 ∨ c = 59 then skipCruft rest (q + 1) else .ok q

/-- `while (*p == ',' || *p == ' ') p++`. -/
def skipSeparators : List UInt8 → ℕ → Except PriFault ℕ
  | [], _ => .error .readPastObject
  | c :: rest, p => if c = 44 ∨ c = 32 then skipSeparators rest (p + 1) else .ok p

/-! ## Applying a priority -/

/-- `1 << k` as the selector code stores it in a mask entry. -/
def priBit (k : ℤ) : Except PriFault UInt8 :=
  match severityBit k with
  | some b => .ok b
  | none => .error .shiftWidth

/-- `for (i2 = 0; i2 <= pri; ++i2) m = f(m, 1 << i2)`, with `n` rounds left from `i2`. -/
def priBitsLoop (f : UInt8 → UInt8 → UInt8) : ℕ → ℕ → UInt8 → Except PriFault UInt8
  | 0, _, m => .ok m
  | n + 1, i2, m => do
    let bit ← priBit i2
    priBitsLoop f n (i2 + 1) (f m bit)

/-- The new value of one mask entry for the priority `pri` and the `=` (`singlpri`) and `!`
(`ignorepri`) flags: `none` (16) clears the entry, or inverted selects every severity; `*` (255)
selects every severity, or inverted none; `=s` adds or removes bit `s`; `s` adds or removes bits
0 to `s`. An inverted priority starts from a full entry where the entry is empty. -/
def applyPri (pri : ℤ) (singlpri ignorepri : Bool) (m : UInt8) : Except PriFault UInt8 :=
  let full : UInt8 := if m = 0 then 0xFF else m
  if pri = internalNopri then .ok (if ignorepri then 0xFF else 0)
  else if singlpri then do
    let bit ← priBit pri
    pure (if ignorepri then full &&& ~~~bit else m ||| bit)
  else if pri = tableAllpri then .ok (if ignorepri then 0 else 0xFF)
  else if ignorepri then priBitsLoop (fun m bit => m &&& ~~~bit) (pri.toNat + 1) 0 full
  else priBitsLoop (· ||| ·) (pri.toNat + 1) 0 m

/-- `pmask[i]` updated by `applyPri`. Most branches read the entry before they write it; an entry
past the mask faults either way. -/
def updateEntry (pri : ℤ) (singlpri ignorepri : Bool) (pmask : List UInt8) (i : ℕ) :
    Except PriFault (List UInt8) :=
  match pmask[i]? with
  | none => .error .maskIndex
  | some m => (pmask.set i ·) <$> applyPri pri singlpri ignorepri m

/-- The mask after one facility name: every entry for `*`, the entry `pmask[i >> 3]` of the code
`i` that `decodeSyslogName` gives otherwise, and `none` for the `return RS_RET_ERR` of a name it
does not know. -/
def applyFacility (pri : ℤ) (singlpri ignorepri : Bool) (buf pmask : List UInt8) :
    Except PriFault (Option (List UInt8)) :=
  if buf.head? = some 42 then
    some <$> (List.range 26).foldlM (updateEntry pri singlpri ignorepri) pmask
  else
    let i := decodeSyslogName buf syslogFacNames
    if i < 0 then .ok none
    else some <$> updateEntry pri singlpri ignorepri pmask (i >>> (3 : ℕ)).toNat

/-- The priority after the facility list: the `!` and `=` flags and the code `decodeSyslogName`
gives for the rest of the name. -/
def decodePri (buf : List UInt8) : Bool × Bool × ℤ :=
  let (ignorepri, buf) := if buf.head? = some 33 then (true, buf.tail) else (false, buf)
  if buf.head? = some 61 then (ignorepri, true, decodeSyslogName buf.tail syslogPriNames)
  else (ignorepri, false, decodeSyslogName buf syslogPriNames)

/-! ## The selector loops -/

/-- The facility loop `while (*p && !strchr("\t .;", *p))` from offset `p`: it ends at the offset
where it stopped, or with `none` for the `return RS_RET_ERR` of an unknown facility. -/
def scanFacilities (obj : List UInt8) (pri : ℤ) (singlpri ignorepri : Bool) :
    ℕ → ℕ → List UInt8 → Except PriFault (Option ℕ × List UInt8)
  | 0, _, _ => .error .fuel
  | fuel + 1, p, pmask => do
    let c ← charAt obj p
    if c = 0 ∨ c = 9 ∨ c = 32 ∨ c = 46 ∨ c = 59 then pure (some p, pmask)
    else
      let (buf, p) ← copyName [9, 32, 44, 59, 46] (obj.drop p) 2047 p
      match ← applyFacility pri singlpri ignorepri buf pmask with
      | none => pure (none, pmask)
      | some pmask => do
        let p ← skipSeparators (obj.drop p) p
        scanFacilities obj pri singlpri ignorepri fuel p pmask

/-- The selector loop `for (p = pline; *p && *p != '\t' && *p != ' ';)` from offset `p`. -/
def decodeSelectors (obj : List UInt8) :
    ℕ → ℕ → List UInt8 → Except PriFault (RsRetVal × List UInt8)
  | 0, _, _ => .error .fuel
  | fuel + 1, p, pmask => do
    let c ← charAt obj p
    if c = 0 ∨ c = 9 ∨ c = 32 then pure (.ok, pmask)
    else
      let q ← skipFacilityList (obj.drop p) p
      let (buf, q) ← copyName [9, 32, 44, 59] (obj.drop q) 2047 q
      let c ← charAt obj q
      let q ← if c ≠ 0 then skipCruft (obj.drop q) q else pure q
      let (ignorepri, singlpri, pri) := decodePri buf
      if pri < 0 then pure (.err, pmask)
      else do
        let (stop, pmask) ← scanFacilities obj pri singlpri ignorepri (obj.length + 1) p pmask
        match stop with
        | none => pure (.err, pmask)
        | some _ => decodeSelectors obj fuel q pmask

/-- `for (i = 0; i <= LOG_NFACILITIES; i++) pmask[i] = TABLE_NOPRI`. -/
def clearPmask (pmask : List UInt8) : Except PriFault (List UInt8) :=
  (List.range 26).foldlM
    (fun pmask i => if i < pmask.length then .ok (pmask.set i 0) else .error .maskIndex) pmask

/-- `DecodePRIFilter(pline, pmask)`: the mask cleared, then each selector of the string applied. -/
def decodePRIFilter (obj pmask : List UInt8) : Except PriFault (RsRetVal × List UInt8) := do
  let pmask ← clearPmask pmask
  decodeSelectors obj (obj.length + 1) 0 pmask

/-! ## The loops on a known text -/

section Loops

variable {stops : List UInt8}

/-- A run of bytes that are neither NUL, tab nor `.`, then a `.`: the loop stops just past it. -/
theorem skipFacilityList_append {pre : List UInt8} (rest : List UInt8) (q : ℕ)
    (hpre : ∀ c ∈ pre, c ≠ 0 ∧ c ≠ 9 ∧ c ≠ 46) :
    skipFacilityList (pre ++ 46 :: rest) q = .ok (q + pre.length + 1) := by
  induction pre generalizing q with
  | nil => simp [skipFacilityList]
  | cons c pre ih =>
    obtain ⟨h0, h9, h46⟩ := hpre c List.mem_cons_self
    rw [List.cons_append, skipFacilityList, if_neg (not_or.mpr ⟨h0, h9⟩), if_neg h46,
      ih (q + 1) fun b hb => hpre b (List.mem_cons_of_mem c hb), List.length_cons]
    congr 1
    omega

/-- A name of at most `room` bytes, none of them NUL or a stop, and then a NUL or a stop: the loop
copies the name and stops at its end. -/
theorem copyName_append {pre : List UInt8} {c : UInt8} (rest : List UInt8) {room : ℕ} (q : ℕ)
    (hpre : ∀ b ∈ pre, b ≠ 0 ∧ b ∉ stops) (hc : c = 0 ∨ c ∈ stops) (hroom : pre.length ≤ room) :
    copyName stops (pre ++ c :: rest) room q = .ok (pre, q + pre.length) := by
  induction pre generalizing room q with
  | nil => simp [copyName, hc]
  | cons b pre ih =>
    obtain ⟨hb0, hbs⟩ := hpre b List.mem_cons_self
    rw [List.length_cons] at hroom
    cases room with
    | zero => omega
    | succ room =>
      have hrest := @ih room (q + 1) (fun a ha => hpre a (List.mem_cons_of_mem b ha))
        (by omega)
      rw [List.cons_append, copyName, if_neg (not_or.mpr ⟨hb0, hbs⟩), hrest, List.length_cons]
      simp only [Except.map, Except.ok.injEq, Prod.mk.injEq, true_and]
      omega

/-- The cruft loop does not stop inside a run of NULs, commas and semicolons: where the object
ends in one, it reads past its end. -/
theorem skipCruft_of_cruft : ∀ {l : List UInt8} (q : ℕ), (∀ c ∈ l, c = 0 ∨ c = 44 ∨ c = 59) →
    skipCruft l q = .error .readPastObject
  | [], _, _ => rfl
  | c :: rest, q, h => by
    rw [skipCruft, if_pos (h c List.mem_cons_self)]
    exact skipCruft_of_cruft (q + 1) fun b hb => h b (List.mem_cons_of_mem c hb)

/-- `mail.*;`: after the `;` the loop steps onto the terminator, which `strchr` also finds, and on
past the end of the string. -/
example : decodePRIFilter (asciiBytes "mail.*;" ++ [0]) (List.replicate 26 0) =
    .error .readPastObject := by
  decide +kernel

/-- Clearing the first `n` entries of a mask that has them. -/
theorem foldlM_clear (pmask : List UInt8) : ∀ n ≤ pmask.length,
    (List.range n).foldlM
        (fun pmask i => if i < pmask.length then .ok (pmask.set i 0) else .error .maskIndex) pmask =
      (.ok (List.replicate n 0 ++ pmask.drop n) : Except PriFault (List UInt8))
  | 0, _ => rfl
  | n + 1, hn => by
    have hlt : n < pmask.length := by omega
    rw [List.range_succ, List.foldlM_append, foldlM_clear pmask n (by omega)]
    have hset : (List.replicate n 0 ++ pmask.drop n).set n 0 =
        List.replicate (n + 1) 0 ++ pmask.drop (n + 1) := by
      rw [List.drop_eq_getElem_cons hlt, List.set_append_right _ _ (by simp),
        List.length_replicate, Nat.sub_self, List.set_cons_zero, List.replicate_succ',
        List.append_assoc, List.singleton_append]
    simp only [bind, Except.bind, List.foldlM_cons, List.foldlM_nil]
    rw [if_pos (by simp; omega), hset]
    rfl

/-- A mask of 26 entries is cleared to zeros. -/
theorem clearPmask_of_length {pmask : List UInt8} (h : pmask.length = 26) :
    clearPmask pmask = .ok (List.replicate 26 0) := by
  rw [clearPmask, foldlM_clear pmask 26 (by omega), List.drop_of_length_le (by omega),
    List.append_nil]

end Loops

/-! ## Numeric priorities and facilities -/

/-- The bit loop of a priority faults once it reaches the shift by 32. -/
theorem priBitsLoop_shiftWidth (f : UInt8 → UInt8 → UInt8) :
    ∀ (n i2 : ℕ) (m : UInt8), i2 ≤ 32 → 32 < i2 + n → priBitsLoop f n i2 m = .error .shiftWidth
  | 0, _, _, _, h => by omega
  | n + 1, i2, m, h1, _ => by
    rcases Nat.lt_or_eq_of_le h1 with hlt | rfl
    · have hbit : priBit i2 = .ok ((1 : UInt32) <<< (i2 : ℤ).toNat.toUInt32).toUInt8 := by
        rw [priBit, severityBit, if_pos ⟨by omega, by omega⟩]
      rw [priBitsLoop, hbit]
      exact priBitsLoop_shiftWidth f n (i2 + 1) _ (by omega) (by omega)
    · rfl

/-- A numeric priority from 32 up, other than `*`'s 255, makes the selector shift by 32 and more
(`*.40`, or `*.2000000000`, whose loop the C code runs two billion times per facility). -/
theorem applyPri_shiftWidth {pri : ℤ} (ignorepri : Bool) (m : UInt8) (h32 : 32 ≤ pri)
    (hall : pri ≠ tableAllpri) : applyPri pri false ignorepri m = .error .shiftWidth := by
  have hnopri : pri ≠ internalNopri := by unfold internalNopri; omega
  rw [applyPri, if_neg hnopri, if_neg Bool.false_ne_true, if_neg hall]
  split <;> exact priBitsLoop_shiftWidth _ _ 0 _ (by omega) (by omega)

/-- A byte `isdigit` accepts differs from every byte outside `'0'` to `'9'`. -/
theorem isdigit_ne {c b : UInt8} (h : isdigit c = true) (hb : b.toNat < 48 ∨ 57 < b.toNat) :
    c ≠ b := by
  rintro rfl
  simp only [isdigit, Bool.and_eq_true, decide_eq_true_eq, UInt8.le_iff_toNat_le] at h
  have h0 : '0'.toUInt8.toNat = 48 := rfl
  have h9 : '9'.toUInt8.toNat = 57 := rfl
  omega

/-- The name `*` is the priority of every severity. -/
theorem decodePri_star : decodePri [42] = (false, false, tableAllpri) := by
  decide +kernel

/-- A selector `n.*` whose facility `n` is a number from 208 up: `decodeSyslogName` accepts the
digits as the code `n`, and the entry `pmask[n >> 3]` it then writes lies past the 26 entries of
the mask. -/
theorem decodePRIFilter_numericFacility_writesPastMask {d pmask : List UInt8} (hd : d ≠ [])
    (hdigits : d.all isdigit) (hlen : d.length ≤ 2047) (h208 : 208 ≤ decimalValue d)
    (hmax : decimalValue d ≤ 2147483647) (hmask : pmask.length = 26) :
    decodePRIFilter (d ++ [46, 42, 0]) pmask = .error .maskIndex := by
  have hdig : ∀ c ∈ d, isdigit c = true := fun c hc => List.all_eq_true.mp hdigits c hc
  obtain ⟨c0, rest, hcons⟩ := List.exists_cons_of_ne_nil hd
  have hc0 : isdigit c0 = true := hdig c0 (hcons ▸ List.mem_cons_self)
  have hfirst : charAt (d ++ [46, 42, 0]) 0 = .ok c0 := by simp [charAt, hcons]
  have hc0stop : ¬(c0 = 0 ∨ c0 = 9 ∨ c0 = 32) := by
    simp only [not_or]
    exact ⟨isdigit_ne hc0 (by decide), isdigit_ne hc0 (by decide), isdigit_ne hc0 (by decide)⟩
  have hc0facstop : ¬(c0 = 0 ∨ c0 = 9 ∨ c0 = 32 ∨ c0 = 46 ∨ c0 = 59) := by
    simp only [not_or]
    exact ⟨isdigit_ne hc0 (by decide), isdigit_ne hc0 (by decide), isdigit_ne hc0 (by decide),
      isdigit_ne hc0 (by decide), isdigit_ne hc0 (by decide)⟩
  -- the facility list ends at the `.`, and the priority after it is `*`
  have hq : skipFacilityList (d ++ [46, 42, 0]) 0 = .ok (d.length + 1) := by
    simpa using skipFacilityList_append [42, 0] 0 fun c hc =>
      ⟨isdigit_ne (hdig c hc) (by decide), isdigit_ne (hdig c hc) (by decide),
        isdigit_ne (hdig c hc) (by decide)⟩
  have hdrop : (d ++ [46, 42, 0]).drop (d.length + 1) = [42, 0] := by simp
  have hstar : copyName [9, 32, 44, 59] [42, 0] 2047 (d.length + 1) = .ok ([42], d.length + 1 + 1) :=
    rfl
  have hterm : charAt (d ++ [46, 42, 0]) (d.length + 1 + 1) = .ok 0 := by
    rw [charAt, List.getElem?_append_right (by omega), show d.length + 1 + 1 - d.length = 2 by omega]
    rfl
  -- the facility name is the whole number, and its entry is past the mask
  have hname : copyName [9, 32, 44, 59, 46] (d ++ [46, 42, 0]) 2047 0 = .ok (d, d.length) := by
    simpa using copyName_append [42, 0] 0 (fun b hb => ⟨isdigit_ne (hdig b hb) (by decide),
      by simp only [List.mem_cons, List.not_mem_nil, or_false, not_or]
         exact ⟨isdigit_ne (hdig b hb) (by decide), isdigit_ne (hdig b hb) (by decide),
           isdigit_ne (hdig b hb) (by decide), isdigit_ne (hdig b hb) (by decide),
           isdigit_ne (hdig b hb) (by decide)⟩⟩) (.inr (by decide)) hlen
  have hentry : updateEntry tableAllpri false false (List.replicate 26 0)
      ((decimalValue d : ℤ) >>> (3 : ℕ)).toNat = .error .maskIndex := by
    rw [updateEntry, List.getElem?_eq_none (by rw [List.length_replicate, Int.shiftRight_eq_div_pow]; omega)]
  have hc42 : c0 ≠ 42 := isdigit_ne hc0 (by decide)
  have happly : applyFacility tableAllpri false false d (List.replicate 26 0) = .error .maskIndex := by
    rw [applyFacility, if_neg (by simp [hcons, hc42]), decodeSyslogName_of_digits hd hdigits hmax,
      if_neg (by omega), hentry]
    rfl
  have hscan : scanFacilities (d ++ [46, 42, 0]) tableAllpri false false
      ((d ++ [46, 42, 0]).length + 1) 0 (List.replicate 26 0) = .error .maskIndex := by
    rw [scanFacilities, hfirst]
    simp only [bind, Except.bind, if_neg hc0facstop, List.drop_zero, hname, happly]
  rw [decodePRIFilter, clearPmask_of_length hmask]
  simp only [bind, Except.bind, decodeSelectors, hfirst, if_neg hc0stop, List.drop_zero, hq, hdrop,
    hstar, hterm]
  simp only [ne_eq, not_true_eq_false, if_false, pure, Except.pure, decodePri_star]
  rw [if_neg (by decide), hscan]

/-- `208.*` writes `pmask[26]`. -/
theorem decodePRIFilter_numericFacility_writesPastMask_208 :
    decodePRIFilter ([50, 48, 56] ++ [46, 42, 0]) (List.replicate 26 0) = .error .maskIndex :=
  decodePRIFilter_numericFacility_writesPastMask (by decide) (by decide) (by decide) (by decide)
    (by decide) (by decide)

end Rsyslog
