import Rsyslog.Common.ByteBuffer

/-!
# mmanon: reading an IPv6 address

mmanon (`plugins/mmanon/mmanon.c`) finds an IPv6 literal in a message with `syntax_ipv6`, copies
the bytes it accepted, and turns them into a 128-bit number with `ipv62num`. The anonymization
modes change that number (`code_ipv6_int`) or look it up in the table of consistent replacements
(`findIPv6`, keyed by the number), and `num2ipv6` prints the result.

`syntax_ipv6` walks the hex groups of the literal, counting the groups and the `::`
abbreviation. `ipv62num` reads the groups before `::` from the left and, when text follows the
`::`, the groups after it from the right. Its test for that text is `i < iplen - 1`, where `i` is
the offset just past `::`.

Arrays are lists; reading or writing `num` outside its eight entries is undefined behaviour,
`none` here. The loop of `syntax_ipv6` runs on fuel, one more round than the buffer has bytes.
-/

namespace Rsyslog.Mmanon

/-- `getHexVal`: the value of a hex digit, -1 for any other byte. -/
def getHexVal (c : UInt8) : ℤ :=
  if 48 ≤ c ∧ c ≤ 57 then c.toNat - 48
  else if 97 ≤ c ∧ c ≤ 102 then c.toNat - 97 + 10
  else if 65 ≤ c ∧ c ≤ 70 then c.toNat - 65 + 10
  else -1

/-! ## Finding the literal -/

/-- `isValidHexNum` over the bytes left in the buffer, from `cyc` digits read and `n` bytes
consumed: the number of hex digits at the start (the fifth ends the scan), -1 for a `:` and -2
for a `.` (when dots are handled) at the very start, 0 for anything else; and the bytes consumed.
The cases of its `switch` are the bytes `getHexVal` reads. -/
def isValidHexNum (handleDot : Bool) : List UInt8 → ℤ → ℕ → ℤ × ℕ
  | [], cyc, n => (cyc, n)
  | c :: rest, cyc, n =>
    if getHexVal c ≠ -1 then
      if cyc + 1 = 5 then (5, n + 1) else isValidHexNum handleDot rest (cyc + 1) (n + 1)
    else if c = 46 then (if handleDot ∧ cyc = 0 then (-2, n + 1) else (cyc, n))
    else if c = 58 then (if cyc = 0 then (-1, n + 1) else (cyc, n))
    else (cyc, n)

/-- The state `syntax_ipv6` carries from one group or separator to the next. -/
structure Ipv6Scan where
  nprocessed : ℕ
  lastSep : Bool
  hadAbbrev : Bool
  lastAbbrev : Bool
  ipParts : ℕ

/-- The loop of `syntax_ipv6`: whether the buffer starts with an IPv6 address, and how many bytes
it takes. Five hex digits after a `::` are a port, cut back off with the `:` before them. -/
def syntaxIpv6Loop (buf : List UInt8) : ℕ → Ipv6Scan → Bool × ℕ
  | 0, s => (false, s.nprocessed)
  | fuel + 1, s =>
    if s.nprocessed < buf.length then
      let (numLen, n) := isValidHexNum false (buf.drop s.nprocessed) 0 0
      let s := { s with nprocessed := s.nprocessed + n }
      if 0 < numLen ∧ numLen < 5 then
        if (s.ipParts = 7 ∧ s.hadAbbrev) ∨ 7 < s.ipParts then (false, s.nprocessed)
        else if s.ipParts = 0 ∧ s.lastSep ∧ !s.hadAbbrev then (false, s.nprocessed)
        else
          let s := { s with lastSep := false, lastAbbrev := false, ipParts := s.ipParts + 1 }
          if s.ipParts = 8 ∧ !s.hadAbbrev then (true, s.nprocessed)
          else syntaxIpv6Loop buf fuel s
      else if numLen < 0 then
        -- a second `:` in a row is the abbreviation, which may appear once
        if s.lastSep ∧ s.hadAbbrev then (false, s.nprocessed)
        else
          let s := { s with
            hadAbbrev := s.hadAbbrev || s.lastSep
            lastAbbrev := s.lastAbbrev || s.lastSep
            lastSep := true }
          if s.ipParts = 8 ∧ !s.hadAbbrev then (true, s.nprocessed)
          else syntaxIpv6Loop buf fuel s
      else if numLen = 5 then
        if s.hadAbbrev ∧ 2 ≤ s.ipParts then (true, s.nprocessed - 6) else (false, s.nprocessed)
      else if s.lastSep then (s.lastAbbrev ∧ s.ipParts < 8, s.nprocessed)
      else ((s.ipParts = 8 ∧ !s.hadAbbrev) ∨ (s.ipParts < 8 ∧ s.hadAbbrev), s.nprocessed)
    else
      ((!s.lastSep ∧ s.ipParts = 8 ∧ !s.hadAbbrev) ∨ (s.ipParts < 8 ∧ s.hadAbbrev), s.nprocessed)

/-- `syntax_ipv6(buf, buflen, &iplen)` with `iplen` starting at 0. -/
def syntaxIpv6 (buf : List UInt8) : Bool × ℕ :=
  syntaxIpv6Loop buf (buf.length + 1) ⟨0, false, false, false, 0⟩

/-! ## Its value -/

/-- `struct ipv6_int`. -/
structure Ipv6Int where
  high : UInt64
  low : UInt64
deriving DecidableEq, Repr

/-- The first loop of `ipv62num`, `for (i = 0; i < iplen && dots < 2; i++)`: hex digits
accumulate into group `cyc`, a separator moves to the next group, and a second separator in a
row (`::`) ends the loop. It returns `num`, `cyc`, `dots` and `i`. -/
def headLoop : List UInt8 → List ℤ → ℕ → ℕ → ℕ → Option (List ℤ × ℕ × ℕ × ℕ)
  | [], num, cyc, dots, i => some (num, cyc, dots, i)
  | c :: rest, num, cyc, dots, i =>
    if dots < 2 then
      if getHexVal c = -1 then
        headLoop rest num (if dots + 1 < 2 then cyc + 1 else cyc) (dots + 1) (i + 1)
      else do
        let n ← num[cyc]?
        headLoop rest (num.set cyc (n * 16 + getHexVal c)) cyc 0 (i + 1)
    else some (num, cyc, dots, i)

/-- The second loop, `for (j = iplen - 1; j >= i; j--)`, over the bytes after `::` from the last
one back: each digit adds its value at the next four bits of group `cyc`, counted from 7 down. -/
def tailLoop : List UInt8 → List ℤ → ℤ → ℕ → Option (List ℤ)
  | [], num, _, _ => some num
  | c :: rest, num, cyc, shift =>
    if getHexVal c = -1 then tailLoop rest num (cyc - 1) 0
    else do
      let n ← if 0 ≤ cyc then num[cyc.toNat]? else none
      tailLoop rest (num.set cyc.toNat (n + getHexVal c * 2 ^ shift)) cyc (shift + 4)

/-- `while (cyc < 8) num[cyc] = 0`. -/
def zeroFrom (num : List ℤ) (cyc : ℕ) : List ℤ :=
  num.mapIdx fun j n => if cyc ≤ j then 0 else n

/-- `ip->high <<= 16; ip->high |= num[i]` over four groups, each `int` widened to 64 bits. -/
def packGroups (groups : List ℤ) : UInt64 :=
  groups.foldl (fun acc n => (acc <<< 16) ||| UInt64.ofNat (n % 2 ^ 64).toNat) 0

/-- `ipv62num(address, iplen, &ip)`. -/
def ipv62num (address : List UInt8) (iplen : ℕ) : Option Ipv6Int := do
  let (num, cyc, dots, i) ← headLoop (address.take iplen) (List.replicate 8 0) 0 0 0
  let num ← if dots = 2 then
      if i < iplen - 1 then tailLoop ((address.take iplen).drop i).reverse num 7 0
      else some (zeroFrom num cyc)
    else some num
  pure ⟨packGroups (num.take 4), packGroups (num.drop 4)⟩

/-- `%x`: lowercase hex without leading zeros. -/
def hexText (n : ℕ) : List UInt8 :=
  (Nat.toDigits 16 n).map Char.toUInt8

/-- `num2ipv6`: the eight groups in lowercase hex, separated by `:`. -/
def num2ipv6 (ip : Ipv6Int) : List UInt8 :=
  let groups := [ip.high >>> 48, ip.high >>> 32, ip.high >>> 16, ip.high,
    ip.low >>> 48, ip.low >>> 32, ip.low >>> 16, ip.low]
  [58].intercalate (groups.map fun g => hexText (g &&& 0xffff).toNat)

/-! ## A one-digit group after `::` -/

section Loops

theorem getHexVal_colon : getHexVal 58 = -1 := by decide

/-- A run of hex digits that keeps the count under five is read digit by digit. -/
theorem isValidHexNum_append {pre : List UInt8} (handleDot : Bool) (rest : List UInt8) (cyc : ℤ)
    (n : ℕ) (hpre : ∀ c ∈ pre, getHexVal c ≠ -1) (hcyc : cyc + pre.length < 5) :
    isValidHexNum handleDot (pre ++ rest) cyc n =
      isValidHexNum handleDot rest (cyc + pre.length) (n + pre.length) := by
  induction pre generalizing cyc n with
  | nil => simp
  | cons c pre ih =>
    rw [List.length_cons] at hcyc
    have hstep := ih (cyc + 1) (n + 1) (fun b hb => hpre b (List.mem_cons_of_mem c hb))
      (by push_cast at hcyc ⊢; omega)
    rw [List.cons_append, isValidHexNum, if_pos (hpre c List.mem_cons_self),
      if_neg (by push_cast at hcyc; omega), hstep, List.length_cons]
    congr 1 <;> push_cast <;> omega

/-- A `:` at the start of the rest is a separator. -/
theorem isValidHexNum_colon (handleDot : Bool) (rest : List UInt8) (n : ℕ) :
    isValidHexNum handleDot (58 :: rest) 0 n = (-1, n + 1) := by
  simp [isValidHexNum, getHexVal_colon]

/-- A byte that is neither a hex digit nor `:` ends the scan, with `.` too when dots are not
handled. -/
theorem isValidHexNum_stop {c : UInt8} (hc : getHexVal c = -1) (hcolon : c ≠ 58) (rest : List UInt8)
    (cyc : ℤ) (n : ℕ) : isValidHexNum false (c :: rest) cyc n = (cyc, n) := by
  simp [isValidHexNum, hc, hcolon]

/-- Hex digits before anything else accumulate into the current group. -/
theorem headLoop_append {pre : List UInt8} (rest : List UInt8) {num : List ℤ} {cyc : ℕ} {v : ℤ}
    (i : ℕ) (hpre : ∀ c ∈ pre, getHexVal c ≠ -1) (hv : num[cyc]? = some v) :
    headLoop (pre ++ rest) num cyc 0 i =
      headLoop rest (num.set cyc (pre.foldl (fun v c => v * 16 + getHexVal c) v)) cyc 0
        (i + pre.length) := by
  induction pre generalizing num v i with
  | nil =>
    obtain ⟨hlt, rfl⟩ := List.getElem?_eq_some_iff.mp hv
    simp
  | cons c pre ih =>
    have hlt : cyc < num.length := (List.getElem?_eq_some_iff.mp hv).1
    have hv' : (num.set cyc (v * 16 + getHexVal c))[cyc]? = some (v * 16 + getHexVal c) :=
      List.getElem?_set_self hlt
    rw [List.cons_append, headLoop, if_pos (by omega), if_neg (hpre c List.mem_cons_self)]
    simp only [hv, Option.bind_eq_bind, Option.bind_some]
    rw [ih (i + 1) (fun b hb => hpre b (List.mem_cons_of_mem c hb)) hv', List.set_set,
      List.foldl_cons, List.length_cons, Nat.add_assoc, Nat.add_comm 1]

/-- A group of one to four digits, where a group may stand, adds a part. -/
theorem syntaxIpv6Loop_group {buf : List UInt8} {fuel : ℕ} {s : Ipv6Scan} {numLen : ℤ} {n : ℕ}
    (hlt : s.nprocessed < buf.length)
    (hscan : isValidHexNum false (buf.drop s.nprocessed) 0 0 = (numLen, n))
    (hnum : 0 < numLen ∧ numLen < 5) (hparts : s.ipParts < 7)
    (hfirst : ¬(s.ipParts = 0 ∧ s.lastSep = true ∧ s.hadAbbrev = false)) :
    syntaxIpv6Loop buf (fuel + 1) s =
      syntaxIpv6Loop buf fuel ⟨s.nprocessed + n, false, s.hadAbbrev, false, s.ipParts + 1⟩ := by
  rw [syntaxIpv6Loop, if_pos hlt, hscan]
  simp only [if_pos hnum, Bool.not_eq_true']
  rw [if_neg (by omega), if_neg (by simpa using hfirst), if_neg (by omega)]

/-- A separator, where one may stand, is noted; a second one in a row is the abbreviation. -/
theorem syntaxIpv6Loop_sep {buf : List UInt8} {fuel : ℕ} {s : Ipv6Scan} {n : ℕ}
    (hlt : s.nprocessed < buf.length)
    (hscan : isValidHexNum false (buf.drop s.nprocessed) 0 0 = (-1, n))
    (hab : ¬(s.lastSep = true ∧ s.hadAbbrev = true)) (hparts : s.ipParts < 8) :
    syntaxIpv6Loop buf (fuel + 1) s =
      syntaxIpv6Loop buf fuel ⟨s.nprocessed + n, true, s.hadAbbrev || s.lastSep,
        s.lastAbbrev || s.lastSep, s.ipParts⟩ := by
  rw [syntaxIpv6Loop, if_pos hlt, hscan]
  simp only [Int.reduceLT, false_and, if_false, if_true]
  rw [if_neg hab, if_neg (by omega)]

/-- A byte that starts no group or separator ends the literal after a group: an address when it
was abbreviated and has fewer than eight parts. -/
theorem syntaxIpv6Loop_stop {buf : List UInt8} {fuel : ℕ} {s : Ipv6Scan}
    (hlt : s.nprocessed < buf.length)
    (hscan : isValidHexNum false (buf.drop s.nprocessed) 0 0 = (0, 0)) (hsep : s.lastSep = false) :
    syntaxIpv6Loop buf (fuel + 1) s =
      (decide ((s.ipParts = 8 ∧ !s.hadAbbrev) ∨ (s.ipParts < 8 ∧ s.hadAbbrev)), s.nprocessed) := by
  rw [syntaxIpv6Loop, if_pos hlt, hscan]
  simp [hsep]

/-- The end of the buffer ends the literal. -/
theorem syntaxIpv6Loop_end {buf : List UInt8} {fuel : ℕ} {s : Ipv6Scan}
    (hge : buf.length ≤ s.nprocessed) :
    syntaxIpv6Loop buf (fuel + 1) s =
      (decide ((!s.lastSep ∧ s.ipParts = 8 ∧ !s.hadAbbrev) ∨ (s.ipParts < 8 ∧ s.hadAbbrev)),
        s.nprocessed) := by
  rw [syntaxIpv6Loop, if_neg (by omega)]

end Loops

/-- A literal `g::h`, one group before `::` and one hex digit after it, at the end of the buffer
or before a byte that is neither a hex digit nor `:`: `syntax_ipv6` accepts its `|g| + 3` bytes,
and `ipv62num` reads them as it reads `g::`, since `i < iplen - 1` fails for the one byte after
`::`. The digit is lost: `fe80::1` and `fe80::` get one number, and with it one replacement in the
consistent modes. -/
theorem ipv62num_oneDigitTail_dropped {g rest : List UInt8} {h : UInt8} (hg : g ≠ [])
    (hlen : g.length ≤ 4) (hgroup : ∀ c ∈ g, getHexVal c ≠ -1) (hh : getHexVal h ≠ -1)
    (hrest : ∀ c ∈ rest.head?, getHexVal c = -1 ∧ c ≠ 58) :
    syntaxIpv6 (g ++ [58, 58, h] ++ rest) = (true, g.length + 3) ∧
      ∃ ip, ipv62num (g ++ [58, 58, h]) (g.length + 3) = some ip ∧
        ipv62num (g ++ [58, 58]) (g.length + 2) = some ip := by
  have hpos : 0 < g.length := List.length_pos_iff.mpr hg
  constructor
  · -- the scan: the group, two separators, the digit, and then the end of the literal
    have hgroupScan : isValidHexNum false (g ++ [58, 58, h] ++ rest) 0 0 =
        ((g.length : ℤ), g.length) := by
      rw [List.append_assoc, isValidHexNum_append false _ 0 0 hgroup (by omega), List.cons_append,
        isValidHexNum, if_neg (by simp [getHexVal_colon]), if_neg (by decide), if_pos rfl,
        if_neg (by omega)]
      simp
    have hdigit : isValidHexNum false (h :: rest) 0 0 = (1, 1) := by
      rw [isValidHexNum, if_pos hh, if_neg (by decide)]
      cases rest with
      | nil => rfl
      | cons c tl =>
        obtain ⟨hc, hc58⟩ := hrest c rfl
        exact isValidHexNum_stop hc hc58 tl (0 + 1) (0 + 1)
    have hd1 : (g ++ [58, 58, h] ++ rest).drop g.length = 58 :: 58 :: h :: rest := by simp
    have hd2 : (g ++ [58, 58, h] ++ rest).drop (g.length + 1) = 58 :: h :: rest := by
      rw [← List.drop_drop, hd1]; rfl
    have hd3 : (g ++ [58, 58, h] ++ rest).drop (g.length + 1 + 1) = h :: rest := by
      rw [← List.drop_drop, hd2]; rfl
    have hd4 : (g ++ [58, 58, h] ++ rest).drop (g.length + 1 + 1 + 1) = rest := by
      rw [← List.drop_drop, hd3]; rfl
    have hlen' : (g ++ [58, 58, h] ++ rest).length = g.length + 1 + 1 + 1 + rest.length := by
      simp; omega
    generalize g ++ [58, 58, h] ++ rest = buf at hgroupScan hd1 hd2 hd3 hd4 hlen'
    obtain ⟨k, hk⟩ : ∃ k, buf.length + 1 = k + 1 + 1 + 1 + 1 + 1 :=
      ⟨g.length + rest.length - 1, by omega⟩
    rw [syntaxIpv6, hk]
    calc syntaxIpv6Loop buf (k + 1 + 1 + 1 + 1 + 1) ⟨0, false, false, false, 0⟩
        = syntaxIpv6Loop buf (k + 1 + 1 + 1 + 1) ⟨0 + g.length, false, false, false, 1⟩ :=
          syntaxIpv6Loop_group (by dsimp only; omega) hgroupScan ⟨by omega, by omega⟩ (by simp)
            (by simp)
      _ = syntaxIpv6Loop buf (k + 1 + 1 + 1) ⟨0 + g.length + 1, true, false, false, 1⟩ :=
          syntaxIpv6Loop_sep (by dsimp only; omega)
            (by rw [Nat.zero_add, hd1]; exact isValidHexNum_colon false _ 0) (by simp) (by simp)
      _ = syntaxIpv6Loop buf (k + 1 + 1) ⟨0 + g.length + 1 + 1, true, true, true, 1⟩ :=
          syntaxIpv6Loop_sep (by dsimp only; omega)
            (by rw [Nat.zero_add, hd2]; exact isValidHexNum_colon false _ 0) (by simp) (by simp)
      _ = syntaxIpv6Loop buf (k + 1) ⟨0 + g.length + 1 + 1 + 1, false, true, false, 2⟩ :=
          syntaxIpv6Loop_group (by dsimp only; omega) (by rw [Nat.zero_add, hd3]; exact hdigit)
            ⟨by omega, by omega⟩ (by simp) (by simp)
      _ = (true, g.length + 3) := by
          cases rest with
          | nil =>
            rw [syntaxIpv6Loop_end (by simp only [List.length_nil] at hlen'; dsimp only; omega)]
            simp
          | cons c tl =>
            obtain ⟨hc, hc58⟩ := hrest c rfl
            rw [syntaxIpv6Loop_stop (by simp only [List.length_cons] at hlen'; dsimp only; omega)
              (by rw [Nat.zero_add, hd4]; exact isValidHexNum_stop hc hc58 tl 0 0) rfl]
            simp
  · -- both texts stop the first loop just past the `::`, with group 0 read, and zero the rest
    have hhead := headLoop_append [58, 58, h] 0 hgroup
      (show (List.replicate 8 (0 : ℤ))[0]? = some 0 from rfl)
    have hhead2 := headLoop_append [58, 58] 0 hgroup
      (show (List.replicate 8 (0 : ℤ))[0]? = some 0 from rfl)
    generalize (List.replicate 8 (0 : ℤ)).set 0 (g.foldl (fun v c => v * 16 + getHexVal c) 0) =
      num at hhead hhead2
    refine ⟨⟨packGroups ((zeroFrom num 1).take 4), packGroups ((zeroFrom num 1).drop 4)⟩, ?_, ?_⟩
    · rw [ipv62num, List.take_of_length_le (by simp), hhead]
      simp [headLoop, getHexVal_colon]
    · rw [ipv62num, List.take_of_length_le (by simp), hhead2]
      simp [headLoop, getHexVal_colon]

/-- `fe80::1` at the end of a message is accepted as seven bytes and read as `fe80::`. -/
theorem ipv62num_oneDigitTail_dropped_fe80 :
    syntaxIpv6 ([102, 101, 56, 48] ++ [58, 58, 49] ++ []) = (true, 4 + 3) ∧
      ∃ ip, ipv62num ([102, 101, 56, 48] ++ [58, 58, 49]) (4 + 3) = some ip ∧
        ipv62num ([102, 101, 56, 48] ++ [58, 58]) (4 + 2) = some ip :=
  ipv62num_oneDigitTail_dropped (by decide) (by decide) (by decide +kernel) (by decide +kernel)
    (by decide +kernel)

end Rsyslog.Mmanon
