import Rsyslog.Common.ByteBuffer

/-!
# mmanon: IPv4 addresses

`doAction` of mmanon (`plugins/mmanon/mmanon.c`) copies the MSG part of a message and, at every
offset `i` up to `lenMsg - 2`, lets `anonipv4` look for an IPv4 literal there (`syntax_ipv4`).
In the `zero` and `random` modes the literal is read as a number (`ipv42num`), its low `bits`
bits are cleared or randomized (`code_ipv4_int`), and the printed result (`num2ipv4`) is
spliced in. In the `simple` mode `simpleAnon` overwrites the digits of the last `bits / 8`
octets in place, walking back from the literal's last byte.

The model covers IPv4 alone: the IPv6 and embedded IPv4 passes and the consistent modes, which
look addresses up in a shared table, are left out. The MSG copy is a byte list; `simpleAnon`'s
walk back over it reads the bytes before the current one, nearest first, and reading before the
start of the copy is a fault, as is a shift by a negative count. `rand_r` is a parameter: the
low byte it draws from a seed, and the next seed. The loop of `doAction` runs on fuel.
-/

namespace Rsyslog.Mmanon

open Rsyslog.Common

/-- `enum mode` of the IPv4 settings. -/
inductive Ipv4Mode where
  | zero
  | randomint
  | simple
  deriving DecidableEq, Repr

/-- The IPv4 settings `doAction` reads. -/
structure Ipv4Config where
  mode : Ipv4Mode
  /-- `ipv4.bits`, an `int8_t`. -/
  bits : ℤ
  replaceChar : UInt8
  deriving DecidableEq, Repr

/-- `ipv4.bits` as `newActInst` stores it: the value cast to `int8_t`, and 32 when that is
larger. -/
def ipv4BitsParam (n : ℕ) : ℤ :=
  let bits := (Int8.ofNat n).toInt
  if bits ≤ 32 then bits else 32

/-- The correction `newActInst` makes to `ipv4.bits` in the simple mode: up to the next multiple
of 8, and 32 for a negative count. -/
def simpleModeBits (bits : ℤ) : ℤ :=
  if bits < 8 ∧ bits > -1 then 8
  else if bits < 16 ∧ bits > 8 then 16
  else if bits < 24 ∧ bits > 16 then 24
  else if (bits ≠ 32 ∧ bits > 24) ∨ bits < 0 then 32
  else bits

/-- How the IPv4 pass can go wrong. -/
inductive AnonFault where
  /-- A read before the start of the MSG copy. -/
  | readBeforeBuffer
  /-- A shift by a negative count. -/
  | shiftWidth
  /-- The loop ran out of fuel. -/
  | fuel
  deriving DecidableEq, Repr

/-- A decimal digit. -/
def isDigitByte (c : UInt8) : Bool :=
  0x30 ≤ c && c ≤ 0x39

/-! ## Finding a literal -/

/-- `isPosByte`: whether the buffer starts with one to three digits of a value up to 255, and the
count of its leading digits. -/
def isPosByte (buf : List UInt8) : Bool × ℕ :=
  let digits := buf.takeWhile isDigitByte
  -- only the first four digits enter the value
  let val := (digits.take 4).foldl (fun v c => v * 10 + (c.toNat - 0x30)) 0
  (0 < digits.length && digits.length < 4 && val ≤ 255, digits.length)

/-- A `.` at offset `i`, then a digit that starts a valid octet: the offset past that octet. -/
def dotOctet (buf : List UInt8) (i : ℕ) : Option ℕ :=
  match buf.drop i with
  | 0x2e :: c :: _ =>
    if isDigitByte c then
      let (ok, nproc) := isPosByte (buf.drop (i + 1))
      if ok then some (i + 1 + nproc) else none
    else none
  | _ => none

/-- `syntax_ipv4`: the length of the IPv4 literal the buffer starts with. -/
def syntaxIpv4 (buf : List UInt8) : Option ℕ := do
  let (ok, i) := isPosByte buf
  if ok then
    let i ← dotOctet buf i
    let i ← dotOctet buf i
    dotOctet buf i
  else none

/-- What `dotOctet` accepts: a dot, then a run of digits up to a byte that is not one. -/
theorem dotOctet_eq {buf : List UInt8} {i j : ℕ} (h : dotOctet buf i = some j) :
    ∃ o r, buf.drop i = 0x2e :: o ++ r ∧ o ≠ [] ∧ (∀ c ∈ o, isDigitByte c = true) ∧
      j = i + 1 + o.length := by
  unfold dotOctet at h
  split at h
  · next c tail hdrop =>
    have hnext : buf.drop (i + 1) = c :: tail := by
      rw [← List.drop_drop, hdrop]
      rfl
    split_ifs at h with hc
    · refine ⟨(c :: tail).takeWhile isDigitByte, (c :: tail).dropWhile isDigitByte, ?_, ?_, ?_, ?_⟩
      · rw [hdrop, List.cons_append, List.takeWhile_append_dropWhile]
      · simp [hc]
      · intro x hx
        exact List.mem_takeWhile_imp hx
      · simp only [isPosByte, hnext] at h
        simp at h
        omega
  · simp at h

/-- What `syntax_ipv4` accepts: four runs of digits with dots between them. -/
theorem syntaxIpv4_eq {buf : List UInt8} {n : ℕ} (h : syntaxIpv4 buf = some n) :
    ∃ o1 o2 o3 o4 rest, buf = o1 ++ 0x2e :: o2 ++ 0x2e :: o3 ++ 0x2e :: o4 ++ rest ∧
      n = o1.length + o2.length + o3.length + o4.length + 3 ∧
      ∀ o ∈ [o1, o2, o3, o4], o ≠ [] ∧ ∀ c ∈ o, isDigitByte c = true := by
  unfold syntaxIpv4 at h
  split at h
  next ok i hpos =>
  split_ifs at h with hok
  simp only [Option.bind_eq_bind, Option.bind_eq_some_iff] at h
  obtain ⟨i2, h2, i3, h3, h4⟩ := h
  obtain ⟨o2, r2, hd2, hne2, hdig2, rfl⟩ := dotOctet_eq h2
  obtain ⟨o3, r3, hd3, hne3, hdig3, rfl⟩ := dotOctet_eq h3
  obtain ⟨o4, r4, hd4, hne4, hdig4, rfl⟩ := dotOctet_eq h4
  subst hok
  simp only [isPosByte, Prod.mk.injEq] at hpos
  obtain ⟨hok', rfl⟩ := hpos
  -- the first octet is the run of digits the buffer starts with
  obtain ⟨o1, d, ho1, rfl⟩ : ∃ o1 d, o1 = buf.takeWhile isDigitByte ∧ buf = o1 ++ d :=
    ⟨_, _, rfl, (List.takeWhile_append_dropWhile ..).symm⟩
  rw [← ho1] at hd2 hd3 hd4 hok' ⊢
  -- each later octet starts where the one before it ends
  have hskip : ∀ o r : List UInt8, (0x2e :: o ++ r).drop (1 + o.length) = r := by
    intro o r
    rw [Nat.add_comm]
    simp
  have hr1 : d = 0x2e :: o2 ++ r2 := by simpa using hd2
  have hr2 : r2 = 0x2e :: o3 ++ r3 := by
    rw [show o1.length + 1 + o2.length = o1.length + (1 + o2.length) by omega,
      List.drop_length_add_append, hr1, hskip] at hd3
    exact hd3
  have hr3 : r3 = 0x2e :: o4 ++ r4 := by
    rw [show o1.length + 1 + o2.length + 1 + o3.length =
        o1.length + ((1 + o2.length) + (1 + o3.length)) by omega,
      List.drop_length_add_append, ← List.drop_drop, hr1, hskip, hr2, hskip] at hd4
    exact hd4
  refine ⟨o1, o2, o3, o4, r4, by simp [hr1, hr2, hr3], by omega, ?_⟩
  have hdig1 : ∀ c ∈ o1, isDigitByte c = true := fun c hc => by
    rw [ho1] at hc
    exact List.mem_takeWhile_imp hc
  have hne1 : o1 ≠ [] := by
    rintro rfl
    simp at hok'
  simp only [List.mem_cons, List.not_mem_nil, or_false, forall_eq_or_imp, forall_eq]
  exact ⟨⟨hne1, hdig1⟩, ⟨hne2, hdig2⟩, ⟨hne3, hdig3⟩, ⟨hne4, hdig4⟩⟩

/-! ## Anonymizing a number -/

/-- `ipv42num`: the octets of dotted text, as a 32-bit number. -/
def ipv42num (address : List UInt8) : UInt32 :=
  let num := address.foldl (fun (acc : List UInt32 × ℕ) c =>
    if isDigitByte c then (acc.1.modify acc.2 (fun n => n * 10 + (c - 0x30).toUInt32), acc.2)
    else if c = 0x2e then (acc.1, acc.2 + 1)
    else acc) ([0, 0, 0, 0], 0)
  num.1.getD 0 0 * 256 * 256 * 256 + num.1.getD 1 0 * 256 * 256 + num.1.getD 2 0 * 256 +
    num.1.getD 3 0

/-- `random_u32`: four bytes drawn with `rand_r`, and the next seed. -/
def randomU32 (randR : UInt32 → UInt32 × UInt32) (seed : UInt32) : UInt32 × UInt32 :=
  (List.range 4).foldl (fun (acc : UInt32 × UInt32) _ =>
    let (r, seed) := randR acc.2
    ((acc.1 <<< 8) ||| (r &&& 0xff), seed)) (0, seed)

/-- `code_ipv4_int` in the `zero` and `random` modes: the low `bits` bits cleared, then random
bits put in their place in the `random` mode. -/
def codeIpv4Int (randR : UInt32 → UInt32 × UInt32) (seed : UInt32) (ip : UInt32) (bits : ℤ)
    (mode : Ipv4Mode) : Except AnonFault (UInt32 × UInt32) :=
  if bits < 0 then .error .shiftWidth
  else
    let shifted := (((ip.toUInt64 >>> bits.toNat.toUInt64) <<< bits.toNat.toUInt64)).toUInt32
    match mode with
    | .zero => .ok (shifted, seed)
    | .randomint =>
      let mask : UInt32 := if bits = 32 then 0xFFFFFFFF else ((1 : UInt64) <<< bits.toNat.toUInt64 - 1).toUInt32
      let (random32, seed) := randomU32 randR seed
      .ok (shifted + (random32 &&& mask), seed)
    | .simple => .ok (0, seed)

/-- `num2ipv4`: the dotted decimal text of a number. -/
def num2ipv4 (num : UInt32) : List UInt8 :=
  let octet (k : ℕ) : List UInt8 := (Nat.toDigits 10 (num.toNat / 256 ^ k % 256)).map Char.toUInt8
  octet 3 ++ [0x2e] ++ octet 2 ++ [0x2e] ++ octet 1 ++ [0x2e] ++ octet 0

/-! ## Simple mode -/

/-- The inner loop of `simpleAnon`, over the bytes from the current one back (nearest first):
the run of digits it overwrites and the bytes from the first other byte on. Walking past the start
of the copy is a fault. -/
def replaceDigitRun : List UInt8 → Except AnonFault (List UInt8 × List UInt8)
  | [] => .error .readBeforeBuffer
  | c :: rest =>
    if isDigitByte c then do
      let (run, left) ← replaceDigitRun rest
      pure (c :: run, left)
    else .ok ([], c :: rest)

/-- The outer loop of `simpleAnon`, `n` more rounds, from the bytes already walked (nearest
first, overwritten) and the bytes from the current one back. Between rounds the walk steps over
the byte that stopped the last run. -/
def simpleAnonRounds (rc : UInt8) :
    ℕ → List UInt8 → List UInt8 → Bool → Except AnonFault (List UInt8 × List UInt8 × Bool)
  | 0, walked, cur, changed => .ok (walked, cur, changed)
  | n + 1, walked, cur, changed => do
    let (run, left) ← replaceDigitRun cur
    let walked := walked ++ run.map fun _ => rc
    let changed := changed || run.any (· != rc)
    match n, left with
    | 0, _ => .ok (walked, left, changed)
    | _ + 1, stop :: rest => simpleAnonRounds rc n (walked ++ [stop]) rest changed
    | _ + 1, [] => .error .readBeforeBuffer

/-- The walk steps over a run of digits up to the first other byte. -/
theorem replaceDigitRun_append {ds : List UInt8} (rest : List UInt8) {x : UInt8}
    (hds : ∀ c ∈ ds, isDigitByte c = true) (hx : isDigitByte x = false) :
    replaceDigitRun (ds ++ x :: rest) = .ok (ds, x :: rest) := by
  induction ds with
  | nil => simp [replaceDigitRun, hx]
  | cons c ds ih =>
    have hc := hds c (by simp)
    rw [List.cons_append, replaceDigitRun, if_pos hc, ih fun d hd => hds d (by simp [hd])]
    rfl

/-- A walk over digits alone runs off the start of the copy. -/
theorem replaceDigitRun_of_digits {ds : List UInt8} (hds : ∀ c ∈ ds, isDigitByte c = true) :
    replaceDigitRun ds = .error .readBeforeBuffer := by
  induction ds with
  | nil => rfl
  | cons c ds ih =>
    have hc := hds c (by simp)
    rw [replaceDigitRun, if_pos hc, ih fun d hd => hds d (by simp [hd])]
    rfl

/-- A round of the walk that stops at a byte that is not a digit steps over it. -/
theorem simpleAnonRounds_run {rc stop : UInt8} {n : ℕ} {walked run rest : List UInt8}
    {changed : Bool} (hrun : ∀ c ∈ run, isDigitByte c = true) (hstop : isDigitByte stop = false) :
    simpleAnonRounds rc (n + 2) walked (run ++ stop :: rest) changed =
      simpleAnonRounds rc (n + 1) (walked ++ run.map (fun _ => rc) ++ [stop]) rest
        (changed || run.any (· != rc)) := by
  rw [simpleAnonRounds, replaceDigitRun_append rest hrun hstop]
  rfl

/-- A round of the walk over digits alone runs off the start of the copy. -/
theorem simpleAnonRounds_digits {rc : UInt8} {n : ℕ} {walked ds : List UInt8} {changed : Bool}
    (hds : ∀ c ∈ ds, isDigitByte c = true) :
    simpleAnonRounds rc (n + 1) walked ds changed = .error .readBeforeBuffer := by
  rw [simpleAnonRounds, replaceDigitRun_of_digits hds]
  rfl

/-- `simpleAnon` on the literal of `iplen` bytes at `idx`: the copy with the digits of its last
`bits / 8` octets overwritten, and whether a byte changed. -/
def simpleAnon (cfg : Ipv4Config) (msg : List UInt8) (idx iplen : ℕ) :
    Except AnonFault (List UInt8 × Bool) := do
  let before := (msg.take (idx + iplen)).reverse
  let (walked, rest, changed) ← simpleAnonRounds cfg.replaceChar (cfg.bits / 8).toNat [] before false
  pure ((walked ++ rest).reverse ++ msg.drop (idx + iplen), changed)

/-! ## The pass over a message -/

/-- What `doAction` carries from one offset to the next: the MSG copy, the offset, whether the
copy changed, and the seed of `rand_r`. -/
structure AnonState where
  msg : List UInt8
  idx : ℕ
  hasChanged : Bool
  seed : UInt32
  deriving DecidableEq, Repr

/-- `anonipv4` at the state's offset. -/
def anonipv4 (cfg : Ipv4Config) (randR : UInt32 → UInt32 × UInt32) (st : AnonState) :
    Except AnonFault AnonState :=
  match syntaxIpv4 (st.msg.drop st.idx) with
  | none => .ok st
  | some iplen =>
    match cfg.mode with
    | .simple => do
      let (msg, changed) ← simpleAnon cfg st.msg st.idx iplen
      pure { st with msg, idx := st.idx + iplen, hasChanged := st.hasChanged || changed }
    | mode => do
      let address := (st.msg.drop st.idx).take iplen
      let (num, seed) ← codeIpv4Int randR st.seed (ipv42num address) cfg.bits mode
      let caddress := num2ipv4 num
      pure { msg := st.msg.take st.idx ++ caddress ++ st.msg.drop (st.idx + iplen),
             idx := st.idx + caddress.length, hasChanged := true, seed }

/-- The loop of `doAction` over the offsets `i <= lenMsg - 2`, with IPv4 alone enabled. -/
def doActionLoop (cfg : Ipv4Config) (randR : UInt32 → UInt32 × UInt32) :
    ℕ → AnonState → Except AnonFault AnonState
  | 0, _ => .error .fuel
  | fuel + 1, st =>
    if (st.idx : ℤ) ≤ st.msg.length - 2 then do
      let st ← anonipv4 cfg randR st
      doActionLoop cfg randR fuel { st with idx := st.idx + 1 }
    else .ok st

/-- `doAction` with IPv4 alone enabled, on the MSG of a message: the new MSG. -/
def doActionIpv4 (cfg : Ipv4Config) (randR : UInt32 → UInt32 × UInt32) (seed : UInt32)
    (msg : List UInt8) : Except AnonFault (List UInt8) := do
  let st ← doActionLoop cfg randR (4 * msg.length + 2) ⟨msg, 0, false, seed⟩
  pure (if st.hasChanged then st.msg else msg)

/-! ## Simple mode at 32 bits -/

theorem doActionIpv4_simple32_readsBeforeBuffer (randR : UInt32 → UInt32 × UInt32)
    (seed : UInt32) (rc : UInt8) {msg : List UInt8} {n : ℕ} (h : syntaxIpv4 msg = some n) :
    simpleModeBits (ipv4BitsParam 32) = 32 ∧
      doActionIpv4 ⟨.simple, 32, rc⟩ randR seed msg = .error .readBeforeBuffer := by
  refine ⟨by decide, ?_⟩
  obtain ⟨o1, o2, o3, o4, rest, hmsg, hn, hoct⟩ := syntaxIpv4_eq h
  simp only [List.mem_cons, List.not_mem_nil, or_false, forall_eq_or_imp, forall_eq] at hoct
  obtain ⟨⟨hne1, hd1⟩, ⟨-, hd2⟩, ⟨-, hd3⟩, ⟨-, hd4⟩⟩ := hoct
  have hdot : isDigitByte 0x2e = false := rfl
  -- walking back from the literal's last byte, the four rounds pass the four octets and the
  -- fourth runs off the start of the copy
  have hwalk : simpleAnonRounds rc 4 [] (msg.take n).reverse false = .error .readBeforeBuffer := by
    have htake : msg.take n = o1 ++ 0x2e :: o2 ++ 0x2e :: o3 ++ 0x2e :: o4 := by
      have hlen : n = (o1 ++ 0x2e :: o2 ++ 0x2e :: o3 ++ 0x2e :: o4).length := by
        simp only [List.length_append, List.length_cons]
        omega
      rw [hmsg, hlen, List.take_left]
    rw [htake]
    have hr : ∀ o : List UInt8, (∀ c ∈ o, isDigitByte c = true) →
        ∀ c ∈ o.reverse, isDigitByte c = true := fun o ho c hc => ho c (List.mem_reverse.mp hc)
    simp only [List.reverse_append, List.reverse_cons, List.append_assoc, List.cons_append,
      List.nil_append]
    rw [simpleAnonRounds_run (hr o4 hd4) hdot]
    rw [simpleAnonRounds_run (hr o3 hd3) hdot]
    rw [simpleAnonRounds_run (hr o2 hd2) hdot]
    rw [simpleAnonRounds_digits (hr o1 hd1)]
  have hanon : anonipv4 ⟨.simple, 32, rc⟩ randR ⟨msg, 0, false, seed⟩ = .error .readBeforeBuffer := by
    have h4 : ((32 : ℤ) / 8).toNat = 4 := by decide
    simp only [anonipv4, List.drop_zero, h, simpleAnon, Nat.zero_add, h4, hwalk]
    rfl
  -- the literal has at least four bytes, so the loop looks at offset 0
  have hlen : 4 ≤ msg.length := by
    have h1 := List.length_pos_iff.mpr hne1
    rw [hmsg]
    simp only [List.length_append, List.length_cons]
    omega
  unfold doActionIpv4
  rw [show 4 * msg.length + 2 = (4 * msg.length + 1) + 1 from rfl, doActionLoop,
    if_pos (by dsimp only; omega), hanon]
  rfl

/-- The message `10.1.2.3 ok`, whose literal starts the MSG part. -/
theorem doActionIpv4_simple32_readsBeforeBuffer_atStart :
    syntaxIpv4 (asciiBytes "10.1.2.3 ok") = some 8 ∧ simpleModeBits (ipv4BitsParam 32) = 32 ∧
      doActionIpv4 ⟨.simple, 32, 0x78⟩ (fun s => (s, s)) 0 (asciiBytes "10.1.2.3 ok") =
        .error .readBeforeBuffer :=
  ⟨by decide, doActionIpv4_simple32_readsBeforeBuffer (fun s => (s, s)) 0 0x78
    (show syntaxIpv4 _ = some 8 by decide)⟩

end Rsyslog.Mmanon
