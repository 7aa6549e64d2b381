import Rsyslog.Common.BitPrefix

/-!
# Allowed-sender lists

`AddAllowedSender` (`runtime/net.c`) turns one item of an `$AllowedSender` line into entries of an
allowed-sender list, and `isAllowedSenderList` checks a sender against such a list, entry by entry,
with `MaskCmp`. An IP entry holds its address masked to its significant bits (`MaskIP4`,
`MaskIP6`), and `MaskCmp` masks the sender's address the same way before it compares. A host-name
entry holds a wildcard, matched against the sender's host name when the caller has one.

An address is held as its bytes in memory. A 32-bit word is its four bytes, so that `&` on words
is bytewise and and `memcmp` is equality of bytes; `htonl(x)` is the word whose bytes are those of
`x` most significant first, which is what `htonl` is for on every host. What depends on the host's
byte order are the constants the code compares words with directly; the byte order is a parameter.
`fnmatch` is a parameter, and so is `getaddrinfo`, with which `AddAllowedSender` resolves a single
host name. A failed `malloc` is left out, as is the parsing of the line into items.
-/

namespace Rsyslog

open Rsyslog.Common

/-! ## Words and addresses in memory -/

/-- A 32-bit word of an address, held as its four bytes in memory. -/
@[ext]
structure Word where
  bytes : List UInt8
  length_bytes : bytes.length = 4
  deriving DecidableEq

namespace Word

/-- The word with every bit clear. -/
def zero : Word := ⟨[0, 0, 0, 0], rfl⟩

/-- `x & y`. -/
def and (x y : Word) : Word :=
  ⟨andBytes x.bytes y.bytes, by simp [x.length_bytes, y.length_bytes]⟩

/-- The word that keeps the first `b` bits of a word, in network order. -/
def prefixMask (b : ℕ) : Word :=
  ⟨Common.prefixMask 4 b, length_prefixMask 4 b⟩

theorem and_prefixMask_bytes (x : Word) (b : ℕ) :
    (x.and (prefixMask b)).bytes = andBytes x.bytes (Common.prefixMask 4 b) := rfl

/-- A prefix of a whole word keeps it. -/
theorem and_prefixMask_of_le {b : ℕ} (x : Word) (h : 32 ≤ b) : x.and (prefixMask b) = x := by
  ext1
  rw [and_prefixMask_bytes, prefixMask_of_le (by omega), andBytes_replicate_ff x.length_bytes]

/-- The empty prefix clears the word. -/
theorem and_prefixMask_zero (x : Word) : x.and (prefixMask 0) = zero := by
  ext1
  rw [and_prefixMask_bytes, prefixMask_zero_right, andBytes_replicate_zero x.length_bytes]
  rfl

end Word

/-- `BYTE_ORDER`, the order in which the host keeps the bytes of a word. -/
inductive ByteOrder where
  | littleEndian
  | bigEndian
  deriving DecidableEq, Repr

/-- The bytes of `x`, most significant first. -/
def bigEndianBytes (x : UInt32) : List UInt8 :=
  [(x >>> 24).toUInt8, (x >>> 16).toUInt8, (x >>> 8).toUInt8, x.toUInt8]

/-- `htonl(x)`: the word whose bytes are those of `x`, most significant first, on every host. -/
def htonl (x : UInt32) : Word :=
  ⟨bigEndianBytes x, rfl⟩

/-- A constant of the program as a word in memory, in the host's byte order. -/
def hostWord : ByteOrder → UInt32 → Word
  | .bigEndian, x => ⟨bigEndianBytes x, rfl⟩
  | .littleEndian, x => ⟨(bigEndianBytes x).reverse, by simp [bigEndianBytes]⟩

/-- `0xffffffff << n`, in `unsigned int`; the code shifts by less than 32. -/
def shiftedOnes (n : ℕ) : UInt32 :=
  0xffffffff <<< n.toUInt32

/-- The mask the code builds for the first `b` bits of a word is the word's prefix mask. -/
theorem htonl_shiftedOnes {b : ℕ} (h1 : 1 ≤ b) (h32 : b ≤ 32) :
    htonl (shiftedOnes (32 - b)) = Word.prefixMask b := by
  have key : ∀ b < 33, 1 ≤ b → bigEndianBytes (shiftedOnes (32 - b)) = Common.prefixMask 4 b := by
    decide
  ext1
  exact key b (by omega) h1

/-- `struct in6_addr`, as its four words `s6_addr32`. -/
@[ext]
structure In6Addr where
  s6Addr32 : List Word
  length_s6Addr32 : s6Addr32.length = 4
  deriving DecidableEq

namespace In6Addr

/-- `s6_addr32[i]`. -/
def word (a : In6Addr) (i : ℕ) : Word :=
  a.s6Addr32.getD i Word.zero

/-- `s6_addr32[i] = w`. -/
def set (a : In6Addr) (i : ℕ) (w : Word) : In6Addr :=
  ⟨a.s6Addr32.set i w, by simp [a.length_s6Addr32]⟩

/-- `s6_addr`, the sixteen bytes of the address. -/
def s6Addr (a : In6Addr) : List UInt8 :=
  a.s6Addr32.flatMap Word.bytes

theorem s6Addr32_eq (a : In6Addr) : a.s6Addr32 = [a.word 0, a.word 1, a.word 2, a.word 3] := by
  obtain ⟨ws, h⟩ := a
  match ws, h with
  | [w0, w1, w2, w3], _ => rfl

theorem s6Addr_eq (a : In6Addr) :
    a.s6Addr = (a.word 0).bytes ++ (a.word 1).bytes ++ (a.word 2).bytes ++ (a.word 3).bytes := by
  rw [s6Addr, s6Addr32_eq]
  simp

@[simp]
theorem length_s6Addr (a : In6Addr) : a.s6Addr.length = 16 := by
  simp [s6Addr_eq, Word.length_bytes]

/-- Two addresses are equal iff their words are. -/
theorem ext_word {a b : In6Addr} (h : ∀ k < 4, a.word k = b.word k) : a = b := by
  ext1
  rw [s6Addr32_eq a, s6Addr32_eq b, h 0 (by omega), h 1 (by omega), h 2 (by omega),
    h 3 (by omega)]

theorem word_set (a : In6Addr) {i k : ℕ} (w : Word) (hi : i < 4) :
    (a.set i w).word k = if i = k then w else a.word k := by
  simp only [word, set, List.getD_eq_getElem?_getD, List.getElem?_set, a.length_s6Addr32, hi,
    if_true]
  split_ifs <;> rfl

end In6Addr

/-- The IPv4-mapped IPv6 address `::ffff:x`. -/
def v4Mapped (x : Word) : In6Addr :=
  ⟨[Word.zero, Word.zero, ⟨[0, 0, 0xff, 0xff], rfl⟩, x], rfl⟩

/-! ## Masking -/

/-- `MaskIP4`: `addr->s_addr &= htonl(0xffffffff << (32 - bits))`. -/
def maskIP4 (addr : Word) (bits : ℕ) : Word :=
  addr.and (htonl (shiftedOnes (32 - bits)))

/-- `MaskIP6`: the word that holds the end of the prefix keeps its first bits, the words after
it are cleared. -/
def maskIP6 (addr : In6Addr) (bits : ℕ) : In6Addr :=
  let i := bits / 32
  let (addr, i) :=
    if bits % 32 ≠ 0 then
      (addr.set i ((addr.word i).and (htonl (shiftedOnes (32 - bits % 32)))), i + 1)
    else (addr, i)
  (List.range' i (4 - i)).foldl (fun a j => a.set j Word.zero) addr

theorem maskIP4_eq {addr : Word} {bits : ℕ} (h1 : 1 ≤ bits) (h32 : bits ≤ 32) :
    maskIP4 addr bits = addr.and (Word.prefixMask bits) := by
  rw [maskIP4, htonl_shiftedOnes h1 h32]

/-- The clearing loop of `MaskIP6` clears the words from `i` on. -/
theorem word_foldl_set_zero (a : In6Addr) {i n k : ℕ} (hin : i + n ≤ 4) :
    ((List.range' i n).foldl (fun a j => a.set j Word.zero) a).word k =
      if i ≤ k ∧ k < i + n then Word.zero else a.word k := by
  -- induction on the number of words left to clear, from the first of them
  induction n generalizing i a with
  | zero => simp
  | succ n ih =>
    rw [List.range'_succ, List.foldl_cons, ih _ (by omega), In6Addr.word_set _ _ (by omega)]
    split_ifs <;> first | rfl | omega

/-- `MaskIP6` masks each word with its share of the prefix. -/
theorem word_maskIP6 (a : In6Addr) {bits k : ℕ} (hbits : bits ≤ 128) (hk : k < 4) :
    (maskIP6 a bits).word k = (a.word k).and (Word.prefixMask (bits - 32 * k)) := by
  unfold maskIP6
  by_cases hr : bits % 32 ≠ 0
  · -- a partial word at `bits / 32`, then cleared words
    have hq : bits / 32 < 4 := by omega
    dsimp only
    rw [if_pos hr]
    rw [word_foldl_set_zero _ (by omega), In6Addr.word_set _ _ hq]
    by_cases hlt : bits / 32 < k
    · rw [if_pos ⟨by omega, by omega⟩, show bits - 32 * k = 0 by omega, Word.and_prefixMask_zero]
    · rw [if_neg (by omega)]
      by_cases heq : bits / 32 = k
      · rw [if_pos heq, htonl_shiftedOnes (by omega) (by omega), heq,
          show bits - 32 * k = bits % 32 by omega]
      · rw [if_neg heq, Word.and_prefixMask_of_le _ (by omega)]
  · -- whole words up to `bits / 32`, then cleared words
    dsimp only
    rw [if_neg hr]
    rw [word_foldl_set_zero _ (by omega)]
    by_cases hlt : bits / 32 ≤ k
    · rw [if_pos ⟨hlt, by omega⟩, show bits - 32 * k = 0 by omega, Word.and_prefixMask_zero]
    · rw [if_neg (by omega), Word.and_prefixMask_of_le _ (by omega)]

/-- `MaskIP6` is the mask of the first `bits` bits of the sixteen bytes. -/
theorem s6Addr_maskIP6 (a : In6Addr) {bits : ℕ} (hbits : bits ≤ 128) :
    (maskIP6 a bits).s6Addr = andBytes a.s6Addr (Common.prefixMask 16 bits) := by
  -- each word of the result is the word masked with its share of the prefix
  have hw : ∀ k < 4, ((maskIP6 a bits).word k).bytes =
      andBytes (a.word k).bytes (Common.prefixMask 4 (bits - 32 * k)) := fun k hk => by
    rw [word_maskIP6 a hbits hk, Word.and_prefixMask_bytes]
  have hmask : Common.prefixMask 16 bits = Common.prefixMask 4 bits ++
      Common.prefixMask 4 (bits - 32) ++ Common.prefixMask 4 (bits - 64) ++
      Common.prefixMask 4 (bits - 96) := by
    rw [show 16 = 4 + 4 + 4 + 4 from rfl, prefixMask_add, prefixMask_add, prefixMask_add]
  rw [In6Addr.s6Addr_eq, In6Addr.s6Addr_eq, hmask, hw 0 (by omega), hw 1 (by omega),
    hw 2 (by omega), hw 3 (by omega)]
  simp only [Nat.mul_zero, Nat.sub_zero, Nat.mul_one, Nat.reduceMul]
  rw [andBytes_append _ _ (by simp [Word.length_bytes]),
    andBytes_append _ _ (by simp [Word.length_bytes]),
    andBytes_append _ _ (by simp [Word.length_bytes])]

theorem In6Addr.ext_s6Addr {a b : In6Addr} (h : a.s6Addr = b.s6Addr) : a = b := by
  rw [In6Addr.s6Addr_eq, In6Addr.s6Addr_eq] at h
  -- the bytes split back into four words of four bytes
  obtain ⟨h012, h3⟩ := List.append_inj h (by simp [Word.length_bytes])
  obtain ⟨h01, h2⟩ := List.append_inj h012 (by simp [Word.length_bytes])
  obtain ⟨h0, h1⟩ := List.append_inj h01 (by simp [Word.length_bytes])
  ext1
  rw [In6Addr.s6Addr32_eq a, In6Addr.s6Addr32_eq b, Word.ext h0, Word.ext h1, Word.ext h2,
    Word.ext h3]

/-- A sender's word masked like a stored word, which is masked already, is equal to it iff the two
agree on the prefix. -/
theorem Word.and_prefixMask_eq_iff {s net : Word} {b : ℕ} (hnet : net.and (prefixMask b) = net) :
    s.and (prefixMask b) = net ↔ PrefixAgree b s.bytes net.bytes := by
  conv_lhs => rw [← hnet]
  rw [Word.ext_iff, and_prefixMask_bytes, and_prefixMask_bytes]
  exact andBytes_prefixMask_eq_iff s.length_bytes net.length_bytes

/-- The same for a whole IPv6 address. -/
theorem s6Addr_maskIP6_eq_iff {s net : In6Addr} {b : ℕ} (hb : b ≤ 128)
    (hnet : maskIP6 net b = net) :
    (maskIP6 s b).s6Addr = net.s6Addr ↔ PrefixAgree b s.s6Addr net.s6Addr := by
  conv_lhs => rw [← hnet]
  rw [s6Addr_maskIP6 s hb, s6Addr_maskIP6 net hb]
  exact andBytes_prefixMask_eq_iff (In6Addr.length_s6Addr s) (In6Addr.length_s6Addr net)

theorem maskIP4_idem {a : Word} {b : ℕ} (h1 : 1 ≤ b) (h32 : b ≤ 32) :
    maskIP4 (maskIP4 a b) b = maskIP4 a b := by
  rw [maskIP4_eq h1 h32, maskIP4_eq h1 h32, Word.ext_iff, Word.and_prefixMask_bytes,
    Word.and_prefixMask_bytes, andBytes_prefixMask_idem a.length_bytes]

theorem maskIP6_idem {a : In6Addr} {b : ℕ} (hb : b ≤ 128) :
    maskIP6 (maskIP6 a b) b = maskIP6 a b := by
  apply In6Addr.ext_s6Addr
  rw [s6Addr_maskIP6 _ hb, s6Addr_maskIP6 _ hb, andBytes_prefixMask_idem (In6Addr.length_s6Addr a)]

/-- A full-length IPv4 mask keeps the address. -/
theorem maskIP4_32 (a : Word) : maskIP4 a 32 = a := by
  rw [maskIP4_eq (by omega) le_rfl, Word.and_prefixMask_of_le _ le_rfl]

/-- A full-length IPv6 mask keeps the address. -/
theorem maskIP6_128 (a : In6Addr) : maskIP6 a 128 = a := by
  apply In6Addr.ext_word
  intro k hk
  rw [word_maskIP6 a le_rfl hk, Word.and_prefixMask_of_le _ (by omega)]

/-! ## Comparing a sender with an entry -/

/-- A socket address as the ACL code reads it. -/
inductive Sockaddr where
  /-- `AF_INET`, with `sin_addr`. -/
  | inet (sinAddr : Word)
  /-- `AF_INET6`, with `sin6_addr` and `sin6_scope_id`. -/
  | inet6 (sin6Addr : In6Addr) (sin6ScopeId : UInt32)
  /-- Any other address family. -/
  | other
  deriving DecidableEq

/-- `struct NetAddr`: a host-name wildcard when `ADDR_NAME` is set, else a socket address. -/
inductive NetAddr where
  | hostWildcard (pattern : List UInt8)
  | netAddr (sa : Sockaddr)
  deriving DecidableEq

/-- An entry of an allowed-sender list, `struct AllowedSenders` without its link. -/
structure AllowedSender where
  allowedSender : NetAddr
  /-- `SignificantBits`, a `uint8_t`. -/
  significantBits : ℕ
  deriving DecidableEq

/-- The constant `MaskCmp` compares word 2 of an IPv4-mapped address with, as the
`#if BYTE_ORDER` picks it. -/
def v4MappedWord2 : ByteOrder → UInt32
  | .littleEndian => 0xffff0000
  | .bigEndian => 0x0000ffff

/-- `MaskCmp`: 1 when the sender matches the entry, 0 when not, 2 when a host-name entry would
need the sender's name and DNS checks are off. `fnmatch` is whether the name matches the
pattern (`fnmatch` with `FNM_NOESCAPE | FNM_CASEFOLD` returning 0). -/
def maskCmp (bo : ByteOrder) (fnmatch : List UInt8 → List UInt8 → Bool) (pAllow : NetAddr)
    (bits : ℕ) (pFrom : Sockaddr) (pszFromHost : List UInt8) (bChkDNS : Bool) : ℕ :=
  match pAllow with
  | .hostWildcard pattern =>
    if bChkDNS = false then 2
    else if fnmatch pattern pszFromHost then 1 else 0
  | .netAddr allow =>
    match pFrom, allow with
    | .inet sinAddr, .inet net =>
      if sinAddr.and (htonl (shiftedOnes (32 - bits))) = net then 1 else 0
    | .inet6 ip scopeId, .inet6 net netScopeId =>
      -- the steps of `MaskIP6` on a copy of the sender's address, then `memcmp`
      if (maskIP6 ip bits).s6Addr = net.s6Addr ∧
          (if netScopeId ≠ 0 then scopeId = netScopeId else True) then 1
      else 0
    | .inet6 ip6 _, .inet net =>
      if (ip6.word 3).and (htonl (shiftedOnes (32 - bits))) = net ∧
          ip6.word 2 = hostWord bo (v4MappedWord2 bo) ∧ ip6.word 1 = hostWord bo 0 ∧
          ip6.word 0 = hostWord bo 0 then 1
      else 0
    | _, _ => 0

/-- The loop of `isAllowedSenderList` over the entries left, with `bNeededDNS`. -/
def isAllowedSenderLoop (bo : ByteOrder) (fnmatch : List UInt8 → List UInt8 → Bool)
    (pFrom : Sockaddr) (pszFromHost : List UInt8) (bChkDNS : Bool) :
    List AllowedSender → ℕ → ℕ
  | [], bNeededDNS => bNeededDNS
  | pAllow :: rest, bNeededDNS =>
    let ret := maskCmp bo fnmatch pAllow.allowedSender pAllow.significantBits pFrom pszFromHost
      bChkDNS
    if ret = 1 then 1
    else isAllowedSenderLoop bo fnmatch pFrom pszFromHost bChkDNS rest
      (if ret = 2 then 2 else bNeededDNS)

/-- `isAllowedSenderList`: 1 when the sender is allowed, 0 when not, 2 when only a host-name
entry could have allowed it. An empty list allows every sender. -/
def isAllowedSenderList (bo : ByteOrder) (fnmatch : List UInt8 → List UInt8 → Bool)
    (pAllowRoot : List AllowedSender) (pFrom : Sockaddr) (pszFromHost : List UInt8)
    (bChkDNS : Bool) : ℕ :=
  if pAllowRoot = [] then 1
  else isAllowedSenderLoop bo fnmatch pFrom pszFromHost bChkDNS pAllowRoot 0

/-! ## Building a list -/

/-- The global settings `AddAllowedSender` reads. -/
structure AclSettings where
  disableDNS : Bool
  aclDontResolve : Bool
  aclAddHostnameOnFail : Bool
  deriving DecidableEq, Repr

/-- How `AddAllowedSender` fails. -/
inductive AclFault where
  /-- `RS_RET_ERR`: an address of another family. -/
  | err
  /-- `RS_RET_NOENTRY`: a host name that did not resolve. -/
  | noEntry
  deriving DecidableEq, Repr

/-- The correction `AddAllowedSender` makes to a bit count outside `1..limit`: it becomes
`limit`, the whole address. -/
def adjustBits (limit bits : ℕ) : ℕ :=
  if bits < 1 ∨ bits > limit then limit else bits

theorem adjustBits_mem {limit : ℕ} (h : 1 ≤ limit) (bits : ℕ) :
    1 ≤ adjustBits limit bits ∧ adjustBits limit bits ≤ limit := by
  unfold adjustBits
  split_ifs <;> omega

/-- `IN6_IS_ADDR_V4MAPPED`. -/
def isV4Mapped (a : In6Addr) : Bool :=
  a.word 0 = Word.zero && a.word 1 = Word.zero && a.word 2 = htonl 0xffff

/-- The entry `AddAllowedSender` adds for one address `getaddrinfo` gives for a host name. -/
def resolvedEntry : Sockaddr → Option AllowedSender
  | .inet a => some ⟨.netAddr (.inet a), 32⟩
  | .inet6 a scopeId =>
    if isV4Mapped a then some ⟨.netAddr (.inet (a.word 3)), 32⟩
    else some ⟨.netAddr (.inet6 a scopeId), 128⟩
  | .other => none

/-- `AddAllowedSender`: the entries one item adds to the list. `getaddrinfo` gives the
addresses of a host name, or `none` when it cannot be resolved. -/
def addAllowedSender (settings : AclSettings) (getaddrinfo : List UInt8 → Option (List Sockaddr))
    (iAllow : NetAddr) (iSignificantBits : ℕ) : Except AclFault (List AllowedSender) :=
  match iAllow with
  | .netAddr (.inet a) =>
    let bits := adjustBits 32 iSignificantBits
    .ok [⟨.netAddr (.inet (maskIP4 a bits)), bits⟩]
  | .netAddr (.inet6 a scopeId) =>
    let bits := adjustBits 128 iSignificantBits
    .ok [⟨.netAddr (.inet6 (maskIP6 a bits) scopeId), bits⟩]
  | .netAddr .other => .error .err
  | .hostWildcard name =>
    if settings.disableDNS then .ok []
    -- a single host is resolved, and its addresses are added
    else if 0x2a ∉ name ∧ 0x3f ∉ name ∧ settings.aclDontResolve = false then
      match getaddrinfo name with
      | none =>
        if settings.aclAddHostnameOnFail then .ok [⟨iAllow, iSignificantBits⟩]
        else .error .noEntry
      | some res => .ok (res.filterMap resolvedEntry)
    else .ok [⟨iAllow, iSignificantBits⟩]

/-- The loop of `addAllowedSenderLine` over the items of a line: an item that did not resolve is
skipped, another failure ends the line with the entries added so far. The bit count is stored
into a `uint8_t`. -/
def addAllowedSenderLine (settings : AclSettings)
    (getaddrinfo : List UInt8 → Option (List Sockaddr)) :
    List (NetAddr × ℕ) → List AllowedSender → List AllowedSender
  | [], acl => acl
  | (uIP, iBits) :: rest, acl =>
    match addAllowedSender settings getaddrinfo uIP (iBits % 256) with
    | .ok entries => addAllowedSenderLine settings getaddrinfo rest (acl ++ entries)
    | .error .noEntry => addAllowedSenderLine settings getaddrinfo rest acl
    | .error .err => acl

/-! ## What an entry admits -/

namespace AllowedSender

/-- What `AddAllowedSender` leaves in an entry: the bits in range for the address family, and the
address masked to them. -/
def Valid (e : AllowedSender) : Prop :=
  match e.allowedSender with
  | .hostWildcard _ => True
  | .netAddr (.inet a) =>
    1 ≤ e.significantBits ∧ e.significantBits ≤ 32 ∧ maskIP4 a e.significantBits = a
  | .netAddr (.inet6 a _) =>
    1 ≤ e.significantBits ∧ e.significantBits ≤ 128 ∧ maskIP6 a e.significantBits = a
  | .netAddr .other => False

/-- The senders an entry stands for: an IPv4 entry `a/b` admits the IPv4 senders whose first `b`
bits are those of `a`, and their IPv4-mapped IPv6 forms; an IPv6 entry `a/b` with scope `z`
admits the IPv6 senders whose first `b` bits are those of `a`, in scope `z` unless `z` is 0; a
host-name entry admits the senders whose name matches it, when names are checked. -/
def Admits (fnmatch : List UInt8 → List UInt8 → Bool) (e : AllowedSender) (pFrom : Sockaddr)
    (pszFromHost : List UInt8) (bChkDNS : Bool) : Prop :=
  match e.allowedSender, pFrom with
  | .hostWildcard pattern, _ => bChkDNS = true ∧ fnmatch pattern pszFromHost = true
  | .netAddr (.inet a), .inet s => PrefixAgree e.significantBits s.bytes a.bytes
  | .netAddr (.inet a), .inet6 s _ =>
    ∃ x, s = v4Mapped x ∧ PrefixAgree e.significantBits x.bytes a.bytes
  | .netAddr (.inet6 a z), .inet6 s zs =>
    PrefixAgree e.significantBits s.s6Addr a.s6Addr ∧ (z ≠ 0 → zs = z)
  | _, _ => False

/-- Whether the entry is a host-name entry. -/
def isHostWildcard (e : AllowedSender) : Bool :=
  match e.allowedSender with
  | .hostWildcard _ => true
  | .netAddr _ => false

end AllowedSender

theorem eq_v4Mapped_iff {s : In6Addr} {x : Word} :
    s = v4Mapped x ↔ s.word 0 = Word.zero ∧ s.word 1 = Word.zero ∧
      s.word 2 = ⟨[0, 0, 0xff, 0xff], rfl⟩ ∧ s.word 3 = x := by
  constructor
  · rintro rfl
    exact ⟨rfl, rfl, rfl, rfl⟩
  · rintro ⟨h0, h1, h2, h3⟩
    ext1
    rw [In6Addr.s6Addr32_eq, h0, h1, h2, h3]
    rfl

/-- The only candidate for the IPv4 address inside a mapped address is its last word. -/
theorem exists_v4Mapped_iff {s : In6Addr} {P : Word → Prop} :
    (∃ x, s = v4Mapped x ∧ P x) ↔ s = v4Mapped (s.word 3) ∧ P (s.word 3) := by
  constructor
  · rintro ⟨x, rfl, hx⟩
    exact ⟨rfl, hx⟩
  · rintro ⟨h, hx⟩
    exact ⟨_, h, hx⟩

instance (fnmatch : List UInt8 → List UInt8 → Bool) (e : AllowedSender) (pFrom : Sockaddr)
    (pszFromHost : List UInt8) (bChkDNS : Bool) :
    Decidable (e.Admits fnmatch pFrom pszFromHost bChkDNS) :=
  match e, pFrom with
  | ⟨.hostWildcard _, _⟩, _ => inferInstanceAs (Decidable (_ ∧ _))
  | ⟨.netAddr (.inet _), _⟩, .inet _ => inferInstanceAs (Decidable (PrefixAgree _ _ _))
  | ⟨.netAddr (.inet _), _⟩, .inet6 _ _ => decidable_of_iff' _ exists_v4Mapped_iff
  | ⟨.netAddr (.inet _), _⟩, .other => isFalse id
  | ⟨.netAddr (.inet6 _ _), _⟩, .inet6 _ _ => inferInstanceAs (Decidable (_ ∧ _))
  | ⟨.netAddr (.inet6 _ _), _⟩, .inet _ => isFalse id
  | ⟨.netAddr (.inet6 _ _), _⟩, .other => isFalse id
  | ⟨.netAddr .other, _⟩, _ => isFalse id

/-! ## The entries `AddAllowedSender` builds -/

theorem valid_resolvedEntry {sa : Sockaddr} {e : AllowedSender} (h : resolvedEntry sa = some e) :
    e.Valid := by
  cases sa with
  | inet a =>
    cases h
    exact ⟨by dsimp only; omega, le_rfl, maskIP4_32 a⟩
  | inet6 a scopeId =>
    simp only [resolvedEntry] at h
    split_ifs at h
    · -- a mapped address is added as the IPv4 address in its last word
      cases h
      exact ⟨by dsimp only; omega, le_rfl, maskIP4_32 _⟩
    · cases h
      exact ⟨by dsimp only; omega, le_rfl, maskIP6_128 a⟩
  | other => cases h

theorem valid_of_addAllowedSender {settings : AclSettings}
    {getaddrinfo : List UInt8 → Option (List Sockaddr)} {iAllow : NetAddr} {bits : ℕ}
    {es : List AllowedSender} (h : addAllowedSender settings getaddrinfo iAllow bits = .ok es) :
    ∀ e ∈ es, e.Valid := by
  cases iAllow with
  | netAddr sa =>
    cases sa with
    | inet a =>
      cases h
      intro e he
      rw [List.mem_singleton] at he
      subst he
      have hb := adjustBits_mem (by omega : 1 ≤ 32) bits
      exact ⟨hb.1, hb.2, maskIP4_idem hb.1 hb.2⟩
    | inet6 a scopeId =>
      cases h
      intro e he
      rw [List.mem_singleton] at he
      subst he
      have hb := adjustBits_mem (by omega : 1 ≤ 128) bits
      exact ⟨hb.1, hb.2, maskIP6_idem hb.2⟩
    | other => cases h
  | hostWildcard name =>
    simp only [addAllowedSender] at h
    by_cases hdns : settings.disableDNS = true
    · -- nothing is added
      rw [if_pos hdns] at h
      cases h
      simp
    rw [if_neg hdns] at h
    by_cases hsingle : 0x2a ∉ name ∧ 0x3f ∉ name ∧ settings.aclDontResolve = false
    · rw [if_pos hsingle] at h
      cases hres : getaddrinfo name with
      | none =>
        -- the name itself, if it may be added when it does not resolve
        rw [hres] at h
        dsimp only at h
        split_ifs at h
        cases h
        simp [AllowedSender.Valid]
      | some res =>
        -- the addresses the name resolves to
        rw [hres] at h
        cases h
        intro e he
        obtain ⟨sa, -, hsa⟩ := List.mem_filterMap.mp he
        exact valid_resolvedEntry hsa
    · -- a wildcard
      rw [if_neg hsingle] at h
      cases h
      simp [AllowedSender.Valid]

theorem valid_addAllowedSenderLine (settings : AclSettings)
    (getaddrinfo : List UInt8 → Option (List Sockaddr)) (items : List (NetAddr × ℕ)) :
    ∀ acl : List AllowedSender, (∀ e ∈ acl, e.Valid) →
      ∀ e ∈ addAllowedSenderLine settings getaddrinfo items acl, e.Valid := by
  -- induction on the items of the line, over every list built so far
  induction items with
  | nil => exact fun acl hacl => hacl
  | cons item rest ih =>
    intro acl hacl
    obtain ⟨uIP, iBits⟩ := item
    simp only [addAllowedSenderLine]
    split
    · next es hes =>
      refine ih _ fun e he => ?_
      rcases List.mem_append.mp he with he | he
      · exact hacl e he
      · exact valid_of_addAllowedSender hes e he
    · exact ih acl hacl
    · exact hacl

/-! ## `MaskCmp` on a valid entry -/

theorem ite_one_zero_eq_one {p : Prop} [Decidable p] : (if p then 1 else 0 : ℕ) = 1 ↔ p := by
  split_ifs with h <;> simp [h]

theorem hostWord_v4MappedWord2 (bo : ByteOrder) :
    hostWord bo (v4MappedWord2 bo) = ⟨[0, 0, 0xff, 0xff], rfl⟩ := by
  cases bo <;> decide

theorem hostWord_zero (bo : ByteOrder) : hostWord bo 0 = Word.zero := by
  cases bo <;> decide

/-- `MaskCmp` answers 1 exactly for the senders the entry admits, on either byte order. -/
theorem maskCmp_eq_one_iff (bo : ByteOrder) (fnmatch : List UInt8 → List UInt8 → Bool)
    {e : AllowedSender} (he : e.Valid) (pFrom : Sockaddr) (pszFromHost : List UInt8)
    (bChkDNS : Bool) :
    maskCmp bo fnmatch e.allowedSender e.significantBits pFrom pszFromHost bChkDNS = 1 ↔
      e.Admits fnmatch pFrom pszFromHost bChkDNS := by
  obtain ⟨addr, b⟩ := e
  cases addr with
  | hostWildcard pattern =>
    cases bChkDNS <;> simp [maskCmp, AllowedSender.Admits]
  | netAddr sa =>
    cases sa with
    | inet net =>
      obtain ⟨h1, h32, hmask⟩ := he
      have hnet : net.and (Word.prefixMask b) = net := by rwa [maskIP4_eq h1 h32] at hmask
      cases pFrom with
      | inet s =>
        simp only [maskCmp, AllowedSender.Admits, ite_one_zero_eq_one]
        rw [htonl_shiftedOnes h1 h32, Word.and_prefixMask_eq_iff hnet]
      | inet6 s scopeId =>
        -- the sender must be `::ffff:x`, with `x` in the prefix
        simp only [maskCmp, AllowedSender.Admits, ite_one_zero_eq_one]
        rw [htonl_shiftedOnes h1 h32, Word.and_prefixMask_eq_iff hnet, hostWord_v4MappedWord2,
          hostWord_zero, exists_v4Mapped_iff, eq_v4Mapped_iff]
        tauto
      | other => simp [maskCmp, AllowedSender.Admits]
    | inet6 net netScopeId =>
      obtain ⟨-, h128, hmask⟩ := he
      cases pFrom with
      | inet6 s scopeId =>
        simp only [maskCmp, AllowedSender.Admits, ite_one_zero_eq_one]
        rw [s6Addr_maskIP6_eq_iff h128 hmask]
        by_cases hz : netScopeId = 0 <;> simp [hz]
      | inet s => simp [maskCmp, AllowedSender.Admits]
      | other => simp [maskCmp, AllowedSender.Admits]
    | other => exact he.elim

/-- `MaskCmp` answers 2 exactly for a host-name entry when names are not checked. -/
theorem maskCmp_eq_two_iff (bo : ByteOrder) (fnmatch : List UInt8 → List UInt8 → Bool)
    (e : AllowedSender) (pFrom : Sockaddr) (pszFromHost : List UInt8) (bChkDNS : Bool) :
    maskCmp bo fnmatch e.allowedSender e.significantBits pFrom pszFromHost bChkDNS = 2 ↔
      e.isHostWildcard = true ∧ bChkDNS = false := by
  obtain ⟨addr, b⟩ := e
  cases addr with
  | hostWildcard pattern =>
    cases bChkDNS <;> simp [maskCmp, AllowedSender.isHostWildcard]
    split_ifs <;> simp
  | netAddr sa =>
    -- an address entry answers 0 or 1
    simp only [maskCmp, AllowedSender.isHostWildcard, Bool.false_eq_true, false_and, iff_false]
    split <;> (try split_ifs) <;> simp

/-! ## The whole list -/

/-- The loop over the entries: 1 as soon as one admits the sender, else 2 if a host-name entry was
passed over for want of the name, else the flag it started with. -/
theorem isAllowedSenderLoop_eq (bo : ByteOrder) (fnmatch : List UInt8 → List UInt8 → Bool)
    (pFrom : Sockaddr) (pszFromHost : List UInt8) (bChkDNS : Bool) {acl : List AllowedSender}
    (hvalid : ∀ e ∈ acl, e.Valid) (bNeededDNS : ℕ) :
    isAllowedSenderLoop bo fnmatch pFrom pszFromHost bChkDNS acl bNeededDNS =
      if ∃ e ∈ acl, e.Admits fnmatch pFrom pszFromHost bChkDNS then 1
      else if bChkDNS = false ∧ ∃ e ∈ acl, e.isHostWildcard = true then 2
      else bNeededDNS := by
  -- induction on the entries left, with the flag carried along
  induction acl generalizing bNeededDNS with
  | nil => simp [isAllowedSenderLoop]
  | cons e rest ih =>
    have he := hvalid e List.mem_cons_self
    have hrest : ∀ e ∈ rest, e.Valid := fun e' h => hvalid e' (List.mem_cons_of_mem e h)
    simp only [isAllowedSenderLoop]
    by_cases h1 : maskCmp bo fnmatch e.allowedSender e.significantBits pFrom pszFromHost
        bChkDNS = 1
    · have hadm := (maskCmp_eq_one_iff bo fnmatch he pFrom pszFromHost bChkDNS).mp h1
      rw [if_pos h1, if_pos ⟨e, List.mem_cons_self, hadm⟩]
    · have hadm : ¬ e.Admits fnmatch pFrom pszFromHost bChkDNS :=
        fun h => h1 ((maskCmp_eq_one_iff bo fnmatch he pFrom pszFromHost bChkDNS).mpr h)
      rw [if_neg h1, ih hrest]
      simp only [List.mem_cons, exists_eq_or_imp, hadm, false_or]
      -- a host-name entry at the head only sets the flag
      by_cases h2 : maskCmp bo fnmatch e.allowedSender e.significantBits pFrom pszFromHost
          bChkDNS = 2
      · obtain ⟨hw, hc⟩ := (maskCmp_eq_two_iff bo fnmatch e pFrom pszFromHost bChkDNS).mp h2
        rw [if_pos h2]
        simp [hw, hc]
      · have hw : ¬ (e.isHostWildcard = true ∧ bChkDNS = false) :=
          fun h => h2 ((maskCmp_eq_two_iff bo fnmatch e pFrom pszFromHost bChkDNS).mpr h)
        rw [if_neg h2]
        by_cases hc : bChkDNS = false
        · have hw' : e.isHostWildcard = false := by simpa [hc] using hw
          simp [hc, hw']
        · simp [hc]

/-- `isAllowedSenderList` on every list the `$AllowedSender` lines build: an empty list allows
every sender; otherwise 1 when an entry admits the sender, else 2 when a host-name entry was
skipped because DNS checks are off, else 0. -/
theorem isAllowedSenderList_addAllowedSenderLines (bo : ByteOrder)
    (fnmatch : List UInt8 → List UInt8 → Bool) (settings : AclSettings)
    (getaddrinfo : List UInt8 → Option (List Sockaddr)) (lines : List (List (NetAddr × ℕ)))
    (pFrom : Sockaddr) (pszFromHost : List UInt8) (bChkDNS : Bool) :
    let acl := lines.foldl (fun acl items => addAllowedSenderLine settings getaddrinfo items acl) []
    isAllowedSenderList bo fnmatch acl pFrom pszFromHost bChkDNS =
      if acl = [] then 1
      else if ∃ e ∈ acl, e.Admits fnmatch pFrom pszFromHost bChkDNS then 1
      else if bChkDNS = false ∧ ∃ e ∈ acl, e.isHostWildcard = true then 2
      else 0 := by
  intro acl
  -- every line keeps every entry valid
  have hvalid : ∀ e ∈ acl, e.Valid := by
    suffices h : ∀ acl₀ : List AllowedSender, (∀ e ∈ acl₀, e.Valid) →
        ∀ e ∈ lines.foldl (fun acl items => addAllowedSenderLine settings getaddrinfo items acl)
          acl₀, e.Valid from h [] (by simp)
    induction lines with
    | nil => exact fun acl₀ h => h
    | cons items rest ih =>
      exact fun acl₀ h => ih _ (valid_addAllowedSenderLine settings getaddrinfo items acl₀ h)
  unfold isAllowedSenderList
  by_cases hnil : acl = []
  · rw [if_pos hnil, if_pos hnil]
  · rw [if_neg hnil, if_neg hnil, isAllowedSenderLoop_eq bo fnmatch pFrom pszFromHost bChkDNS hvalid 0]

end Rsyslog
