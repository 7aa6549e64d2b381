import Rsyslog.Common.Block
import Rsyslog.Runtime.Basic

/-!
# Replacing the MSG part of the raw message

`msgReplaceRawMsgSegment` (`runtime/msg_replace_helper.h`) replaces a range of the raw message
by new text, and `MsgReplaceMSG` (`runtime/msg.c`) calls it on the MSG part after clamping that
part to the raw message. The raw message lives in `szRawMsg`, an array of `CONF_RAWMSG_BUFSIZE`
bytes inside the message, while it fits there, and in a heap block otherwise; the message does
not record the size of that block. A longer text that no longer fits is built in a new heap
block (`malloc` and two copies) when it leaves the array, or in the `realloc`ed heap block with
its suffix moved up; in every other case the suffix is moved in place.

The `int` arithmetic of the helper is the machine's: `Int32`, whose sums wrap. Memory is the
array and the heap block as `Block`s, so that an access outside them is a fault (`none`). The
one allocation a call makes is a parameter: `none` when `malloc` or `realloc` returns `NULL`,
otherwise the bytes the new block holds where nothing is copied.
-/

namespace Rsyslog

open Rsyslog.Common

/-- `CONF_RAWMSG_BUFSIZE`, the size of `szRawMsg`. -/
def confRawmsgBufsize : Int32 := 101

/-- What `pszRawMsg` points to: the array `szRawMsg` of the message, or a heap block. -/
inductive RawMsgBuf where
  | szRawMsg
  | heap (h : Block)

/-- The fields of `smsg_t` that hold the raw message, with `pszRawMsg` not `NULL`. -/
structure RawMsg where
  szRawMsg : Block
  pszRawMsg : RawMsgBuf
  iLenRawMsg : Int32

namespace RawMsg

/-- The block `pszRawMsg` points to. -/
def buf (m : RawMsg) : Block :=
  match m.pszRawMsg with
  | .szRawMsg => m.szRawMsg
  | .heap h => h

/-- `pszRawMsg == szRawMsg`. -/
def onStack (m : RawMsg) : Bool :=
  m.pszRawMsg matches .szRawMsg

/-- The message with the block `pszRawMsg` points to replaced. -/
def setBuf (m : RawMsg) (b : Block) : RawMsg :=
  match m.pszRawMsg with
  | .szRawMsg => { m with szRawMsg := b }
  | .heap _ => { m with pszRawMsg := .heap b }

/-- The raw message: the first `iLenRawMsg` bytes of its buffer. -/
def rawBytes (m : RawMsg) : List UInt8 :=
  getBytes m.buf.data 0 m.iLenRawMsg.toInt.toNat

/-- `if (lenSuffix > 0)` the copy of the text after the replaced range to its new place:
`memcpy` out of `szRawMsg` into a new block, or `memmove` inside a `realloc`ed one, where `src`
is `dst`. -/
def copySuffix (dst src : Block) (offMSG lenOldMSG lenMSG lenSuffix : Int32) : Option Block :=
  if lenSuffix > 0 then
    dst.memcpy (offMSG.toInt + lenMSG.toInt) src (offMSG.toInt + lenOldMSG.toInt)
      (toSizeT lenSuffix.toInt)
  else some dst

/-- The growing branch once `malloc(lenNew + 1)` or `realloc(bufNew, lenNew + 1)` has returned a
block: out of `szRawMsg` the prefix and the suffix are copied into the new block, and in a
`realloc`ed block the suffix is moved up. -/
def grow (m : RawMsg) (fresh : ℕ → UInt8) (offMSG lenOldMSG lenMSG lenNew lenSuffix : Int32) :
    Option RawMsg :=
  let size := toSizeT (lenNew + 1).toInt
  match m.pszRawMsg with
  | .szRawMsg => do
    let h ← (Block.malloc size fresh).memcpy 0 m.szRawMsg 0 (toSizeT offMSG.toInt)
    let h ← copySuffix h m.szRawMsg offMSG lenOldMSG lenMSG lenSuffix
    pure { m with pszRawMsg := .heap h }
  | .heap b => do
    let h := b.realloc size fresh
    let h ← copySuffix h h offMSG lenOldMSG lenMSG lenSuffix
    pure { m with pszRawMsg := .heap h }

/-- The branch that keeps the buffer: the suffix moved to its new place. -/
def moveInPlace (m : RawMsg) (offMSG lenOldMSG lenMSG lenSuffix : Int32) : Option RawMsg :=
  if lenSuffix > 0 ∧ lenMSG ≠ lenOldMSG then
    (m.buf.memmove (offMSG.toInt + lenMSG.toInt) (offMSG.toInt + lenOldMSG.toInt)
      (toSizeT lenSuffix.toInt)).map m.setBuf
  else some m

/-- The end of the helper, common to its branches: the replacement copied in, the NUL written
after the new text and the new length stored. -/
def storeReplacement (m : RawMsg) (offMSG : Int32) (pszMSG : List UInt8) (lenMSG lenNew : Int32) :
    Option RawMsg := do
  let b ← if lenMSG > 0 then
      m.buf.memcpy offMSG.toInt (Block.ofList pszMSG) 0 (toSizeT lenMSG.toInt)
    else pure m.buf
  let b ← b.write lenNew.toInt [0]
  pure { m.setBuf b with iLenRawMsg := lenNew }

end RawMsg

/-- `msgReplaceRawMsgSegment(&pszRawMsg, szRawMsg, stackBufSize, offMSG, lenOldMSG, &iLenRawMsg,
pszMSG, lenMSG)`, where `pszMSG` points to the bytes of the list. -/
def msgReplaceRawMsgSegment (alloc : Option (ℕ → UInt8)) (m : RawMsg)
    (stackBufSize offMSG lenOldMSG : Int32) (pszMSG : List UInt8) (lenMSG : Int32) :
    Option (RsRetVal × RawMsg) :=
  let lenNew := m.iLenRawMsg + lenMSG - lenOldMSG
  let lenSuffix := m.iLenRawMsg - offMSG - lenOldMSG
  if lenMSG > lenOldMSG ∧
      (m.onStack ∧ lenNew ≥ stackBufSize ∨ !m.onStack ∧ lenNew > m.iLenRawMsg) then
    match alloc with
    | none => some (.outOfMemory, m)
    | some fresh => do
      let m ← m.grow fresh offMSG lenOldMSG lenMSG lenNew lenSuffix
      let m ← m.storeReplacement offMSG pszMSG lenMSG lenNew
      pure (.ok, m)
  else do
    let m ← m.moveInPlace offMSG lenOldMSG lenMSG lenSuffix
    let m ← m.storeReplacement offMSG pszMSG lenMSG lenNew
    pure (.ok, m)

/-- The fields of `smsg_t` that `MsgReplaceMSG` reads and writes; `none` is a `NULL`
`pszRawMsg`. -/
structure SmsgRawMsg where
  szRawMsg : Block
  pszRawMsg : Option RawMsgBuf
  iLenRawMsg : Int32
  offMSG : Int32
  iLenMSG : Int32

/-- The raw message `MsgReplaceMSG` works on: a `NULL` `pszRawMsg` is pointed at `szRawMsg`,
whose first byte is cleared. -/
def SmsgRawMsg.rawMsg (pThis : SmsgRawMsg) : Option RawMsg :=
  match pThis.pszRawMsg with
  | some p => some ⟨pThis.szRawMsg, p, pThis.iLenRawMsg⟩
  | none => (pThis.szRawMsg.write 0 [0]).map fun b => ⟨b, .szRawMsg, pThis.iLenRawMsg⟩

/-- The MSG part clamped to a raw message of `iLenRawMsg` bytes: an offset outside it becomes
the end with an empty part, and a length that is negative or runs past the end becomes the rest
of the message. -/
def clampMSG (iLenRawMsg offMSG iLenMSG : Int32) : Int32 × Int32 :=
  if offMSG < 0 ∨ offMSG > iLenRawMsg then (iLenRawMsg, 0)
  else if iLenMSG < 0 ∨ iLenMSG > iLenRawMsg - offMSG then (offMSG, iLenRawMsg - offMSG)
  else (offMSG, iLenMSG)

/-- `MsgReplaceMSG(pThis, pszMSG, lenMSG)`: the clamped MSG part replaced through the helper;
`iLenMSG` takes the new length only when the helper succeeds. -/
def msgReplaceMSG (alloc : Option (ℕ → UInt8)) (pThis : SmsgRawMsg) (pszMSG : List UInt8)
    (lenMSG : Int32) : Option (RsRetVal × SmsgRawMsg) := do
  let raw ← pThis.rawMsg
  let part := clampMSG raw.iLenRawMsg pThis.offMSG pThis.iLenMSG
  let r ← msgReplaceRawMsgSegment alloc raw confRawmsgBufsize part.1 part.2 pszMSG lenMSG
  pure (r.1, ⟨r.2.szRawMsg, some r.2.pszRawMsg, r.2.iLenRawMsg, part.1,
    if r.1 = .ok then lenMSG else part.2⟩)

namespace RawMsg

/-- The buffer invariant of the raw message: the text and its NUL fit in the block `pszRawMsg`
points to, and `szRawMsg` is an array of `stackBufSize` bytes. -/
structure Inv (stackBufSize : Int32) (m : RawMsg) : Prop where
  stack_cap : (m.szRawMsg.cap : ℤ) = stackBufSize.toInt
  len_nonneg : 0 ≤ m.iLenRawMsg.toInt
  len_lt_cap : m.iLenRawMsg.toInt < m.buf.cap

@[simp] theorem buf_setBuf (m : RawMsg) (b : Block) : (m.setBuf b).buf = b := by
  rcases m with ⟨S, _ | H, len⟩ <;> rfl

@[simp] theorem onStack_setBuf (m : RawMsg) (b : Block) : (m.setBuf b).onStack = m.onStack := by
  rcases m with ⟨S, _ | H, len⟩ <;> rfl

@[simp] theorem iLenRawMsg_setBuf (m : RawMsg) (b : Block) :
    (m.setBuf b).iLenRawMsg = m.iLenRawMsg := by
  rcases m with ⟨S, _ | H, len⟩ <;> rfl

@[simp] theorem buf_setLen (m : RawMsg) (l : Int32) : { m with iLenRawMsg := l }.buf = m.buf :=
  rfl

@[simp] theorem onStack_setLen (m : RawMsg) (l : Int32) :
    { m with iLenRawMsg := l }.onStack = m.onStack :=
  rfl

theorem buf_of_onStack {m : RawMsg} (h : m.onStack = true) : m.buf = m.szRawMsg := by
  rcases m with ⟨S, _ | H, len⟩
  · rfl
  · simp [onStack] at h

theorem setBuf_buf (m : RawMsg) : m.setBuf m.buf = m := by
  rcases m with ⟨S, _ | H, len⟩ <;> rfl

/-- Writing through a heap `pszRawMsg` leaves `szRawMsg` alone. -/
theorem szRawMsg_setBuf_of_heap {m : RawMsg} (h : m.onStack = false) (b : Block) :
    (m.setBuf b).szRawMsg = m.szRawMsg := by
  rcases m with ⟨S, _ | H, len⟩
  · simp [onStack] at h
  · rfl

theorem rawBytes_length (m : RawMsg) : m.rawBytes.length = m.iLenRawMsg.toInt.toNat :=
  getBytes_length _ _ _

/-- Writes keep the size of the buffer, hence of `szRawMsg`. -/
theorem szRawMsg_cap_setBuf (m : RawMsg) (data : ℕ → UInt8) :
    (m.setBuf ⟨m.buf.cap, data⟩).szRawMsg.cap = m.szRawMsg.cap := by
  rcases m with ⟨S, _ | H, len⟩ <;> rfl

end RawMsg

/-- The buffer invariant of a message, with an empty raw message while `pszRawMsg` is `NULL`. -/
def SmsgRawMsg.Inv (pThis : SmsgRawMsg) : Prop :=
  match pThis.pszRawMsg with
  | some p => RawMsg.Inv confRawmsgBufsize ⟨pThis.szRawMsg, p, pThis.iLenRawMsg⟩
  | none => (pThis.szRawMsg.cap : ℤ) = confRawmsgBufsize.toInt ∧ pThis.iLenRawMsg = 0

namespace RawMsg

/-- `m'` holds the raw message of `m` with the `lenOld` bytes at `off` replaced by `rep`: the new
text and its length, a NUL after it, and `szRawMsg` as it was unless it holds the new text. -/
structure Replaced (m m' : RawMsg) (off lenOld : ℕ) (rep : List UInt8) : Prop where
  rawBytes : m'.rawBytes = m.rawBytes.take off ++ rep ++ m.rawBytes.drop (off + lenOld)
  len : m'.iLenRawMsg.toInt = m.iLenRawMsg.toInt + rep.length - lenOld
  nul : m'.buf.data m'.iLenRawMsg.toInt.toNat = 0
  frame : m'.onStack = false → m'.szRawMsg = m.szRawMsg

/-- What a branch of the helper leaves for its end, for a splice of the old raw message of `m`
at `o` that drops `d` bytes, inserts `r` and gives a text of `N` bytes: room for the new text and
its NUL, the old prefix in front of `o`, the old suffix already at `o + r`, and `szRawMsg` as it
was unless it is the buffer. -/
structure Prepared (m m1 : RawMsg) (o d r N : ℕ) : Prop where
  cap : N < m1.buf.cap
  pre : getBytes m1.buf.data 0 o = m.rawBytes.take o
  suf : getBytes m1.buf.data (o + r) (m.rawBytes.drop (o + d)).length = m.rawBytes.drop (o + d)
  stack_cap : m1.szRawMsg.cap = m.szRawMsg.cap
  frame : m1.onStack = false → m1.szRawMsg = m.szRawMsg

section Store

variable {m m1 : RawMsg} {offMSG lenMSG lenNew : Int32} {pszMSG : List UInt8} {o N : ℕ}

/-- The end of the helper when the replacement and the NUL fit in the buffer. -/
theorem storeReplacement_eq (ho : offMSG.toInt = o) (hr : lenMSG.toInt = pszMSG.length)
    (hN : lenNew.toInt = N) (hor : o + pszMSG.length ≤ m1.buf.cap) (hcap : N < m1.buf.cap) :
    m1.storeReplacement offMSG pszMSG lenMSG lenNew =
      some { m1.setBuf ⟨m1.buf.cap, putBytes (putBytes m1.buf.data o pszMSG) N [0]⟩ with
        iLenRawMsg := lenNew } := by
  have hnul : (⟨m1.buf.cap, putBytes m1.buf.data o pszMSG⟩ : Block).write lenNew.toInt [0] =
      some ⟨m1.buf.cap, putBytes (putBytes m1.buf.data o pszMSG) N [0]⟩ := by
    rw [hN]
    exact Block.write_natCast (by simp; omega)
  rw [storeReplacement]
  split_ifs with hpos
  · have hcopy : m1.buf.memcpy offMSG.toInt (Block.ofList pszMSG) 0 (toSizeT lenMSG.toInt) =
        some ⟨m1.buf.cap, putBytes m1.buf.data o pszMSG⟩ := by
      rw [ho, toSizeT_int32 hr]
      refine (Block.memcpy_natCast o 0 (by simp [Block.ofList]) hor).trans ?_
      simp [Block.ofList]
    simp only [hcopy, Option.bind_eq_bind, Option.bind_some, hnul]
    rfl
  · -- a replacement of no bytes is not copied
    have hnil : pszMSG = [] := by
      rw [gt_iff_lt, Int32.lt_iff_toInt_lt, Int32.toInt_zero, hr] at hpos
      exact List.eq_nil_of_length_eq_zero (by omega)
    subst hnil
    rw [putBytes_nil] at hnul ⊢
    simp only [Option.bind_eq_bind, Option.pure_def, Option.bind_some, hnul]

/-- On a prepared buffer the end of the helper stores the splice, ends it with a NUL and keeps
the buffer invariant. -/
theorem storeReplacement_spec {stackBufSize : Int32} {d : ℕ} (hinv : m.Inv stackBufSize)
    (hp : Prepared m m1 o d pszMSG.length N) (ho : offMSG.toInt = o)
    (hr : lenMSG.toInt = pszMSG.length) (hN : lenNew.toInt = N) (hod : o + d ≤ m.rawBytes.length)
    (hNlen : N = o + pszMSG.length + (m.rawBytes.length - (o + d))) :
    ∃ m2, m1.storeReplacement offMSG pszMSG lenMSG lenNew = some m2 ∧ m2.Inv stackBufSize ∧
      Replaced m m2 o d pszMSG := by
  have hcap := hp.cap
  have hL : (m.rawBytes.length : ℤ) = m.iLenRawMsg.toInt := by
    rw [rawBytes_length, Int.toNat_of_nonneg hinv.len_nonneg]
  refine ⟨_, storeReplacement_eq ho hr hN (by omega) hcap, ⟨?_, ?_, ?_⟩, ⟨?_, ?_, ?_, ?_⟩⟩
  · change ((m1.setBuf _).szRawMsg.cap : ℤ) = _
    rw [szRawMsg_cap_setBuf, hp.stack_cap, hinv.stack_cap]
  · simp [hN]
  · simpa [hN] using hp.cap
  · -- the NUL lies past the new text, and the replacement between the prefix and the suffix
    have hsplice := getBytes_putBytes_between
      (by simp; omega : (m.rawBytes.take o).length = o) hp.pre hp.suf
    rw [show o + pszMSG.length + (m.rawBytes.drop (o + d)).length = N by simp; omega] at hsplice
    rw [rawBytes]
    simp only [buf_setLen, buf_setBuf, hN, Int.toNat_natCast]
    rw [getBytes_putBytes_of_disjoint _ _ (.inl (by omega)), hsplice]
  · change lenNew.toInt = _
    omega
  · simp [hN, putBytes]
  · intro hheap
    simp only [onStack_setLen, onStack_setBuf] at hheap
    exact (szRawMsg_setBuf_of_heap hheap _).trans (hp.frame hheap)

end Store

section Branches

variable {offMSG lenOldMSG lenMSG lenSuffix : Int32} {o d r s : ℕ}

/-- The suffix copy of either growing branch, which the C code skips for an empty suffix: either
way the `s` bytes at `o + d` in `src` land at `o + r`. -/
theorem copySuffix_eq {dst src : Block} (ho : offMSG.toInt = o) (hd : lenOldMSG.toInt = d)
    (hr : lenMSG.toInt = r) (hs : lenSuffix.toInt = s) (hsrc : o + d + s ≤ src.cap)
    (hdst : o + r + s ≤ dst.cap) :
    copySuffix dst src offMSG lenOldMSG lenMSG lenSuffix =
      some ⟨dst.cap, putBytes dst.data (o + r) (getBytes src.data (o + d) s)⟩ := by
  rw [copySuffix]
  split_ifs with hpos
  · rw [ho, hd, hr, toSizeT_int32 hs, ← Int.natCast_add, ← Int.natCast_add]
    exact Block.memcpy_natCast _ _ hsrc hdst
  · have hs0 : s = 0 := by
      rw [gt_iff_lt, Int32.lt_iff_toInt_lt, Int32.toInt_zero, hs] at hpos
      omega
    subst hs0
    rw [getBytes_zero, putBytes_nil]

/-- A branch prepares the buffer when it leaves the old prefix in place and stores the old
suffix at `o + r`, read from a block that still holds the old text. -/
theorem prepared_of_suffixCopy {m m1 : RawMsg} {L N : ℕ} {D src : ℕ → UInt8}
    (hL : m.rawBytes.length = L) (hcap : N < m1.buf.cap)
    (hbuf : m1.buf.data = putBytes D (o + r) (getBytes src (o + d) (L - (o + d))))
    (hsrc : getBytes src 0 L = m.rawBytes) (hpre : getBytes D 0 o = getBytes src 0 o)
    (hod : o + d ≤ L) (hstack : m1.szRawMsg.cap = m.szRawMsg.cap)
    (hframe : m1.onStack = false → m1.szRawMsg = m.szRawMsg) :
    Prepared m m1 o d r N := by
  refine ⟨hcap, ?_, ?_, hstack, hframe⟩
  · rw [hbuf, getBytes_putBytes_of_disjoint _ _ (.inl (by omega)), hpre, ← hsrc,
      take_getBytes _ _ (by omega)]
  · -- the suffix read back where it was stored is the old text past `o + d`
    have hback := getBytes_putBytes D (o + r) (getBytes src (o + d) (L - (o + d)))
    rw [getBytes_length] at hback
    rw [hbuf, List.length_drop, hL, hback, ← hsrc, drop_getBytes _ _ hod, Nat.zero_add]

variable {S H : Block} {len lenNew : Int32} {L N : ℕ}

/-- Out of `szRawMsg`: a new block of `lenNew + 1` bytes, the old prefix and suffix copied into
it around the room for the replacement. -/
theorem grow_szRawMsg (fresh : ℕ → UInt8) (hL : len.toInt = L) (hLcap : L < S.cap)
    (ho : offMSG.toInt = o) (hd : lenOldMSG.toInt = d) (hr : lenMSG.toInt = r)
    (hod : o + d ≤ L) (hN : (lenNew + 1).toInt = N + 1) (hNeq : N = o + r + (L - (o + d)))
    (hs : lenSuffix.toInt = (L - (o + d) : ℕ)) :
    ∃ m1, (⟨S, .szRawMsg, len⟩ : RawMsg).grow fresh offMSG lenOldMSG lenMSG lenNew lenSuffix =
      some m1 ∧ Prepared ⟨S, .szRawMsg, len⟩ m1 o d r N := by
  have hlen : (⟨S, .szRawMsg, len⟩ : RawMsg).rawBytes.length = L := by
    rw [rawBytes_length, hL, Int.toNat_natCast]
  have hprefix : (Block.malloc (toSizeT (lenNew + 1).toInt) fresh).memcpy 0 S 0
      (toSizeT offMSG.toInt) = some ⟨N + 1, putBytes fresh 0 (getBytes S.data 0 o)⟩ := by
    rw [toSizeT_int32 (n := N + 1) (by omega), toSizeT_int32 ho]
    exact Block.memcpy_natCast 0 0 (by omega) (by simp [Block.malloc]; omega)
  have hsuffix : copySuffix ⟨N + 1, putBytes fresh 0 (getBytes S.data 0 o)⟩ S offMSG lenOldMSG
      lenMSG lenSuffix = some ⟨N + 1, putBytes (putBytes fresh 0 (getBytes S.data 0 o)) (o + r)
        (getBytes S.data (o + d) (L - (o + d)))⟩ :=
    copySuffix_eq ho hd hr hs (by omega) (by simp only; omega)
  refine ⟨_, by simp only [grow, hprefix, Option.bind_eq_bind, Option.bind_some, hsuffix]; rfl, ?_⟩
  refine prepared_of_suffixCopy hlen (by show N < N + 1; omega) rfl ?_ ?_ hod rfl (fun _ => rfl)
  · simp [rawBytes, buf, hL]
  · simpa using getBytes_putBytes fresh 0 (getBytes S.data 0 o)

/-- A `realloc`ed heap block of `lenNew + 1` bytes, the old suffix moved up inside it. -/
theorem grow_heap (fresh : ℕ → UInt8) (hL : len.toInt = L) (hLcap : L < H.cap)
    (ho : offMSG.toInt = o) (hd : lenOldMSG.toInt = d) (hr : lenMSG.toInt = r)
    (hod : o + d ≤ L) (hdr : d ≤ r) (hN : (lenNew + 1).toInt = N + 1)
    (hNeq : N = o + r + (L - (o + d))) (hs : lenSuffix.toInt = (L - (o + d) : ℕ)) :
    ∃ m1, (⟨S, .heap H, len⟩ : RawMsg).grow fresh offMSG lenOldMSG lenMSG lenNew lenSuffix =
      some m1 ∧ Prepared ⟨S, .heap H, len⟩ m1 o d r N := by
  have hlen : (⟨S, .heap H, len⟩ : RawMsg).rawBytes.length = L := by
    rw [rawBytes_length, hL, Int.toNat_natCast]
  have hsize : toSizeT (lenNew + 1).toInt = N + 1 := toSizeT_int32 (by omega)
  have hsuffix : copySuffix (H.realloc (N + 1) fresh) (H.realloc (N + 1) fresh) offMSG lenOldMSG
      lenMSG lenSuffix = some ⟨N + 1, putBytes (H.realloc (N + 1) fresh).data (o + r)
        (getBytes (H.realloc (N + 1) fresh).data (o + d) (L - (o + d)))⟩ :=
    copySuffix_eq ho hd hr hs (by simp only [Block.realloc]; omega)
      (by simp only [Block.realloc]; omega)
  refine ⟨_, by simp only [grow, hsize, Option.bind_eq_bind, Option.bind_some, hsuffix]; rfl, ?_⟩
  refine prepared_of_suffixCopy hlen (by show N < N + 1; omega) rfl ?_ rfl hod rfl (fun _ => rfl)
  -- `realloc` to a block no smaller keeps the old text
  rw [Block.getBytes_realloc fresh (by omega) (by omega)]
  simp [rawBytes, buf, hL]

/-- In place: the suffix moved inside the buffer, or left where it is when it is empty or the
replacement has the old length. -/
theorem moveInPlace_prepared {m : RawMsg} (hL : m.iLenRawMsg.toInt = L) (hLcap : L < m.buf.cap)
    (ho : offMSG.toInt = o) (hd : lenOldMSG.toInt = d) (hr : lenMSG.toInt = r)
    (hod : o + d ≤ L) (hcap : N < m.buf.cap) (hNeq : N = o + r + (L - (o + d)))
    (hs : lenSuffix.toInt = (L - (o + d) : ℕ)) :
    ∃ m1, m.moveInPlace offMSG lenOldMSG lenMSG lenSuffix = some m1 ∧ Prepared m m1 o d r N := by
  have hlen : m.rawBytes.length = L := by rw [rawBytes_length, hL, Int.toNat_natCast]
  have hmove : m.moveInPlace offMSG lenOldMSG lenMSG lenSuffix = some (m.setBuf ⟨m.buf.cap,
      putBytes m.buf.data (o + r) (getBytes m.buf.data (o + d) (L - (o + d)))⟩) := by
    rw [moveInPlace]
    split_ifs with hmv
    · rw [Block.memmove, ho, hd, hr, toSizeT_int32 hs, ← Int.natCast_add, ← Int.natCast_add,
        Block.memcpy_natCast _ _ (by omega) (by omega)]
      rfl
    · -- nothing moves: the suffix is empty or stays where it is
      have hstay : L - (o + d) = 0 ∨ r = d := by
        by_contra hne
        apply hmv
        refine ⟨?_, fun heq => hne (.inr ?_)⟩
        · rw [gt_iff_lt, Int32.lt_iff_toInt_lt, Int32.toInt_zero, hs]
          omega
        · have := congrArg Int32.toInt heq
          omega
      rcases hstay with hempty | hsame
      · rw [hempty, getBytes_zero, putBytes_nil]
        exact congrArg some (setBuf_buf m).symm
      · rw [hsame, putBytes_getBytes_self]
        exact congrArg some (setBuf_buf m).symm
  have hsrc : getBytes m.buf.data 0 L = m.rawBytes := by
    simp only [rawBytes, hL, Int.toNat_natCast]
  exact ⟨_, hmove, prepared_of_suffixCopy hlen (by simpa using hcap) (by simp) hsrc rfl hod
    (szRawMsg_cap_setBuf _ _) (fun h => szRawMsg_setBuf_of_heap (by simpa using h) _)⟩

end Branches

end RawMsg

open RawMsg

/-- What a call of the helper may end in, for a replacement of the `lenOld` bytes at `off` by
`rep`: out of memory with the message unchanged, or success with the splice stored and the
buffer invariant kept. A fault, or any other return value, is not among them. -/
def ReplaceOutcome (alloc : Option (ℕ → UInt8)) (m : RawMsg) (off lenOld : ℕ) (rep : List UInt8)
    (r : Option (RsRetVal × RawMsg)) : Prop :=
  alloc = none ∧ r = some (.outOfMemory, m) ∨
    ∃ m', r = some (.ok, m') ∧ m'.Inv confRawmsgBufsize ∧ Replaced m m' off lenOld rep

/-- What `MsgReplaceMSG` may end in, for the raw message `raw` it works on and the clamped MSG
part at `offMSG` of `iLenMSG` bytes: out of memory with the raw message unchanged, or the part
replaced by `rep`, with the MSG part set to the replacement. -/
def ReplaceMSGOutcome (alloc : Option (ℕ → UInt8)) (raw : RawMsg) (offMSG iLenMSG : Int32)
    (rep : List UInt8) (lenMSG : Int32) (r : Option (RsRetVal × SmsgRawMsg)) : Prop :=
  alloc = none ∧
      r = some (.outOfMemory, ⟨raw.szRawMsg, some raw.pszRawMsg, raw.iLenRawMsg, offMSG, iLenMSG⟩) ∨
    ∃ m', r = some (.ok, ⟨m'.szRawMsg, some m'.pszRawMsg, m'.iLenRawMsg, offMSG, lenMSG⟩) ∧
      m'.Inv confRawmsgBufsize ∧ Replaced raw m' offMSG.toInt.toNat iLenMSG.toInt.toNat rep

/-- The `int` locals of the helper do not wrap while the raw message and the replacement together
stay below `INT_MAX`. -/
theorem replaceLocals_toInt {len offMSG lenOldMSG lenMSG : Int32} (hoff : 0 ≤ offMSG.toInt)
    (hold : 0 ≤ lenOldMSG.toInt) (hle : offMSG.toInt + lenOldMSG.toInt ≤ len.toInt)
    (hr : 0 ≤ lenMSG.toInt) (hmax : len.toInt + lenMSG.toInt < Int32.maxValue.toInt) :
    (len + lenMSG - lenOldMSG).toInt = len.toInt + lenMSG.toInt - lenOldMSG.toInt ∧
      (len + lenMSG - lenOldMSG + 1).toInt = len.toInt + lenMSG.toInt - lenOldMSG.toInt + 1 ∧
      (len - offMSG - lenOldMSG).toInt = len.toInt - offMSG.toInt - lenOldMSG.toInt := by
  rw [Int32.toInt_maxValue] at hmax
  have hsum : (len + lenMSG).toInt = len.toInt + lenMSG.toInt :=
    int32_toInt_add (by omega) (by omega)
  have hnew : (len + lenMSG - lenOldMSG).toInt = len.toInt + lenMSG.toInt - lenOldMSG.toInt := by
    rw [int32_toInt_sub (by omega) (by omega), hsum]
  have hrest : (len - offMSG).toInt = len.toInt - offMSG.toInt :=
    int32_toInt_sub (by omega) (by omega)
  have hone : (1 : Int32).toInt = 1 := rfl
  refine ⟨hnew, ?_, ?_⟩
  · rw [int32_toInt_add (by omega) (by omega), hnew, hone]
  · rw [int32_toInt_sub (by omega) (by omega), hrest]

theorem confRawmsgBufsize_toInt : confRawmsgBufsize.toInt = 101 := rfl

/-- Raw-message segment replacement is an exact splice. From a raw message that keeps the buffer
invariant, with `offMSG` and `lenOldMSG` naming a range inside it and a replacement of `lenMSG`
bytes that leaves the new length an `int`, the helper either fails for want of memory and changes
nothing, or stores the spliced text with its NUL, keeps the invariant and leaves `szRawMsg` alone
unless it holds the new text; every access lies inside the blocks it was given. -/
theorem msgReplaceRawMsgSegment_splice (alloc : Option (ℕ → UInt8)) {m : RawMsg}
    {offMSG lenOldMSG lenMSG : Int32} {pszMSG : List UInt8} (hinv : m.Inv confRawmsgBufsize)
    (hoff : 0 ≤ offMSG.toInt) (hold : 0 ≤ lenOldMSG.toInt)
    (hle : offMSG.toInt + lenOldMSG.toInt ≤ m.iLenRawMsg.toInt)
    (hlen : (pszMSG.length : ℤ) = lenMSG.toInt)
    (hmax : m.iLenRawMsg.toInt + lenMSG.toInt < Int32.maxValue.toInt) :
    ReplaceOutcome alloc m offMSG.toInt.toNat lenOldMSG.toInt.toNat pszMSG
      (msgReplaceRawMsgSegment alloc m confRawmsgBufsize offMSG lenOldMSG pszMSG lenMSG) := by
  -- the offsets and lengths as natural numbers
  obtain ⟨L, hL⟩ : ∃ L : ℕ, m.iLenRawMsg.toInt = L :=
    ⟨_, (Int.toNat_of_nonneg hinv.len_nonneg).symm⟩
  obtain ⟨o, ho⟩ : ∃ o : ℕ, offMSG.toInt = o := ⟨_, (Int.toNat_of_nonneg hoff).symm⟩
  obtain ⟨d, hd⟩ : ∃ d : ℕ, lenOldMSG.toInt = d := ⟨_, (Int.toNat_of_nonneg hold).symm⟩
  have hr : lenMSG.toInt = pszMSG.length := hlen.symm
  obtain ⟨hnew, hnew1, hsuf⟩ := replaceLocals_toInt hoff hold hle (by omega) hmax
  have hod : o + d ≤ L := by omega
  have hLcap : L < m.buf.cap := by
    have := hinv.len_lt_cap
    omega
  have hrawlen : m.rawBytes.length = L := by rw [rawBytes_length, hL, Int.toNat_natCast]
  rw [ReplaceOutcome, ho, hd, Int.toNat_natCast, Int.toNat_natCast]
  -- the new length and the length of the suffix
  set N := o + pszMSG.length + (L - (o + d)) with hN
  have hN0 : (m.iLenRawMsg + lenMSG - lenOldMSG).toInt = N := by omega
  have hN1 : (m.iLenRawMsg + lenMSG - lenOldMSG + 1).toInt = N + 1 := by omega
  have hs : (m.iLenRawMsg - offMSG - lenOldMSG).toInt = (L - (o + d) : ℕ) := by omega
  -- every branch ends in the same copy of the replacement
  have hend : ∀ m1, Prepared m m1 o d pszMSG.length N → ∃ m2,
      m1.storeReplacement offMSG pszMSG lenMSG (m.iLenRawMsg + lenMSG - lenOldMSG) = some m2 ∧
        m2.Inv confRawmsgBufsize ∧ Replaced m m2 o d pszMSG :=
    fun m1 hp => storeReplacement_spec hinv hp ho hr hN0 (by omega) (by omega)
  dsimp only [msgReplaceRawMsgSegment]
  split_ifs with hgrow
  · cases alloc with
    | none => exact .inl ⟨rfl, rfl⟩
    | some fresh =>
      have hdr : d ≤ pszMSG.length := by
        have hlt := hgrow.1
        rw [gt_iff_lt, Int32.lt_iff_toInt_lt] at hlt
        omega
      obtain ⟨m1, hm1, hp⟩ : ∃ m1, m.grow fresh offMSG lenOldMSG lenMSG
          (m.iLenRawMsg + lenMSG - lenOldMSG) (m.iLenRawMsg - offMSG - lenOldMSG) = some m1 ∧
          Prepared m m1 o d pszMSG.length N := by
        rcases m with ⟨S, _ | H, len⟩
        · exact grow_szRawMsg fresh hL hLcap ho hd hr hod hN1 rfl hs
        · exact grow_heap fresh hL hLcap ho hd hr hod hdr hN1 rfl hs
      obtain ⟨m2, hm2, hinv2, hrep⟩ := hend m1 hp
      exact .inr ⟨m2, by simp [hm1, hm2], hinv2, hrep⟩
  · -- without an allocation the new text and its NUL fit in the buffer
    have hcap : N < m.buf.cap := by
      simp only [gt_iff_lt, ge_iff_le, Int32.lt_iff_toInt_lt, Int32.le_iff_toInt_le, hN0, hL, hr,
        hd, confRawmsgBufsize_toInt] at hgrow
      cases hon : m.onStack
      · simp only [hon, Bool.false_eq_true, false_and, false_or, Bool.not_false, true_and]
          at hgrow
        omega
      · have hstack := hinv.stack_cap
        rw [confRawmsgBufsize_toInt, ← buf_of_onStack hon] at hstack
        simp only [hon, true_and, Bool.not_true, Bool.false_eq_true, false_and, or_false] at hgrow
        omega
    obtain ⟨m1, hm1, hp⟩ := moveInPlace_prepared hL hLcap ho hd hr hod hcap rfl hs
    obtain ⟨m2, hm2, hinv2, hrep⟩ := hend m1 hp
    exact .inr ⟨m2, by simp [hm1, hm2], hinv2, hrep⟩

/-- The raw message `MsgReplaceMSG` hands to the helper keeps the buffer invariant. -/
theorem SmsgRawMsg.rawMsg_spec {pThis : SmsgRawMsg} (hinv : pThis.Inv) :
    ∃ raw, pThis.rawMsg = some raw ∧ raw.Inv confRawmsgBufsize ∧
      raw.iLenRawMsg = pThis.iLenRawMsg := by
  rcases pThis with ⟨S, _ | p, len, off, l⟩
  · -- `NULL`: the empty string in `szRawMsg`
    obtain ⟨hcap, rfl⟩ := hinv
    simp only [confRawmsgBufsize_toInt] at hcap
    refine ⟨⟨⟨S.cap, putBytes S.data 0 [0]⟩, .szRawMsg, 0⟩, ?_,
      ⟨by simpa [confRawmsgBufsize_toInt] using hcap, by simp, by simp [buf]; omega⟩, rfl⟩
    rw [SmsgRawMsg.rawMsg, Block.write_of_inBounds ⟨Int.le_refl 0, by simp; omega⟩]
    rfl
  · exact ⟨_, rfl, hinv, rfl⟩

/-- The clamped MSG part lies inside the raw message. -/
theorem clampMSG_inside {len : Int32} (offMSG iLenMSG : Int32) (h : 0 ≤ len.toInt) :
    0 ≤ (clampMSG len offMSG iLenMSG).1.toInt ∧ 0 ≤ (clampMSG len offMSG iLenMSG).2.toInt ∧
      (clampMSG len offMSG iLenMSG).1.toInt + (clampMSG len offMSG iLenMSG).2.toInt ≤
        len.toInt := by
  have hlo := Int32.le_toInt offMSG
  unfold clampMSG
  simp only [gt_iff_lt, Int32.lt_iff_toInt_lt, Int32.toInt_zero]
  split_ifs with hout hlong
  · simp only [Int32.toInt_zero]
    omega
  all_goals
    -- `offMSG` lies inside the message, so `iLenRawMsg - offMSG` does not wrap
    have hrest : (len - offMSG).toInt = len.toInt - offMSG.toInt :=
      int32_toInt_sub (by omega) (by have := Int32.toInt_lt len; omega)
    dsimp only
    omega

/-- A MSG part that lies inside the raw message is not clamped. -/
theorem clampMSG_of_inside {len offMSG iLenMSG : Int32} (hoff : 0 ≤ offMSG.toInt)
    (hlen : 0 ≤ iLenMSG.toInt) (hin : offMSG.toInt + iLenMSG.toInt ≤ len.toInt) :
    clampMSG len offMSG iLenMSG = (offMSG, iLenMSG) := by
  have hrest : (len - offMSG).toInt = len.toInt - offMSG.toInt :=
    int32_toInt_sub (by have := Int32.le_toInt len; omega) (by have := Int32.toInt_lt len; omega)
  rw [clampMSG, if_neg, if_neg]
  · simp only [gt_iff_lt, Int32.lt_iff_toInt_lt, Int32.toInt_zero, hrest]
    omega
  · simp only [gt_iff_lt, Int32.lt_iff_toInt_lt, Int32.toInt_zero]
    omega

/-- `MsgReplaceMSG` replaces exactly the clamped MSG part: from a message that keeps the buffer
invariant and a replacement that leaves the new length an `int`, it fails for want of memory
with the raw message unchanged, or splices the replacement in for the clamped part and makes it
the MSG part. -/
theorem msgReplaceMSG_splice (alloc : Option (ℕ → UInt8)) {pThis : SmsgRawMsg}
    {pszMSG : List UInt8} {lenMSG : Int32} (hinv : pThis.Inv)
    (hlen : (pszMSG.length : ℤ) = lenMSG.toInt)
    (hmax : pThis.iLenRawMsg.toInt + lenMSG.toInt < Int32.maxValue.toInt) :
    ∃ raw, pThis.rawMsg = some raw ∧
      ReplaceMSGOutcome alloc raw (clampMSG pThis.iLenRawMsg pThis.offMSG pThis.iLenMSG).1
        (clampMSG pThis.iLenRawMsg pThis.offMSG pThis.iLenMSG).2 pszMSG lenMSG
        (msgReplaceMSG alloc pThis pszMSG lenMSG) := by
  obtain ⟨raw, hraw, hrinv, hrlen⟩ := pThis.rawMsg_spec hinv
  rw [← hrlen] at hmax ⊢
  obtain ⟨hoff, hold, hin⟩ := clampMSG_inside pThis.offMSG pThis.iLenMSG hrinv.len_nonneg
  refine ⟨raw, hraw, ?_⟩
  rcases msgReplaceRawMsgSegment_splice alloc hrinv hoff hold hin hlen hmax with
    ⟨rfl, hres⟩ | ⟨m', hres, hinv', hrep⟩
  · refine .inl ⟨rfl, ?_⟩
    simp [msgReplaceMSG, hraw, hres]
  · refine .inr ⟨m', ?_, hinv', hrep⟩
    simp [msgReplaceMSG, hraw, hres]

/-- Raw-message segment replacement is an exact in-bounds splice, and `MsgReplaceMSG` replaces
exactly the clamped MSG part, as long as the raw message and the replacement together stay below
`INT_MAX`. -/
theorem msgReplace_exactSplice :
    (∀ (alloc : Option (ℕ → UInt8)) (m : RawMsg) (offMSG lenOldMSG lenMSG : Int32)
        (pszMSG : List UInt8), m.Inv confRawmsgBufsize → 0 ≤ offMSG.toInt →
        0 ≤ lenOldMSG.toInt → offMSG.toInt + lenOldMSG.toInt ≤ m.iLenRawMsg.toInt →
        (pszMSG.length : ℤ) = lenMSG.toInt →
        m.iLenRawMsg.toInt + lenMSG.toInt < Int32.maxValue.toInt →
        ReplaceOutcome alloc m offMSG.toInt.toNat lenOldMSG.toInt.toNat pszMSG
          (msgReplaceRawMsgSegment alloc m confRawmsgBufsize offMSG lenOldMSG pszMSG lenMSG)) ∧
      (∀ (alloc : Option (ℕ → UInt8)) (pThis : SmsgRawMsg) (pszMSG : List UInt8) (lenMSG : Int32),
        pThis.Inv → (pszMSG.length : ℤ) = lenMSG.toInt →
        pThis.iLenRawMsg.toInt + lenMSG.toInt < Int32.maxValue.toInt →
        ∃ raw, pThis.rawMsg = some raw ∧
          ReplaceMSGOutcome alloc raw (clampMSG pThis.iLenRawMsg pThis.offMSG pThis.iLenMSG).1
            (clampMSG pThis.iLenRawMsg pThis.offMSG pThis.iLenMSG).2 pszMSG lenMSG
            (msgReplaceMSG alloc pThis pszMSG lenMSG)) :=
  ⟨fun alloc _ _ _ _ _ => msgReplaceRawMsgSegment_splice alloc,
    fun alloc _ _ _ => msgReplaceMSG_splice alloc⟩

/-- Bytes 2..4 of a 10-byte raw message in `szRawMsg` replaced by two bytes, and the MSG part of a
message without a raw message replaced by the same two bytes. -/
theorem msgReplace_exactSplice_shrink :
    ReplaceOutcome none ⟨⟨101, fun _ => 0⟩, .szRawMsg, 10⟩ 2 3 [65, 66]
        (msgReplaceRawMsgSegment none ⟨⟨101, fun _ => 0⟩, .szRawMsg, 10⟩ confRawmsgBufsize 2 3
          [65, 66] 2) ∧
      ∃ raw, (⟨⟨101, fun _ => 0⟩, none, 0, 0, 0⟩ : SmsgRawMsg).rawMsg = some raw ∧
        ReplaceMSGOutcome none raw (clampMSG 0 0 0).1 (clampMSG 0 0 0).2 [65, 66] 2
          (msgReplaceMSG none ⟨⟨101, fun _ => 0⟩, none, 0, 0, 0⟩ [65, 66] 2) :=
  ⟨msgReplace_exactSplice.1 none _ 2 3 2 [65, 66] ⟨rfl, by decide, by decide⟩ (by decide)
      (by decide) (by decide) (by decide) (by decide),
    msgReplace_exactSplice.2 none _ [65, 66] 2 ⟨rfl, rfl⟩ (by decide) (by decide)⟩

/-- Past `INT_MAX` the new length wraps negative. Replacing the first 5 bytes of a 10-byte raw
message in `szRawMsg` by `2^31 - 3` bytes computes `lenNew = -2^31 + 2`, below the array size,
so the helper keeps the buffer and its `memmove` writes the 5-byte suffix `2^31 - 3` bytes past
the start of the 101-byte array, whatever the bytes, the replacement and the allocator. -/
theorem msgReplaceRawMsgSegment_wraps (data : ℕ → UInt8) (alloc : Option (ℕ → UInt8))
    (pszMSG : List UInt8) :
    RawMsg.Inv confRawmsgBufsize ⟨⟨101, data⟩, .szRawMsg, 10⟩ ∧
      msgReplaceRawMsgSegment alloc ⟨⟨101, data⟩, .szRawMsg, 10⟩ confRawmsgBufsize 0 5 pszMSG
        2147483645 = none := by
  refine ⟨⟨rfl, by dsimp only; decide, by dsimp only [buf]; decide⟩, ?_⟩
  -- the `memmove` reads the suffix at 5 inside the array and writes it at `2^31 - 3`
  have hmove : (⟨⟨101, data⟩, .szRawMsg, 10⟩ : RawMsg).moveInPlace 0 5 2147483645 (10 - 0 - 5) =
      none := by
    rw [moveInPlace, if_pos (by decide), Block.memmove,
      Block.memcpy_of_not_inBounds (by dsimp only [buf, Block.InBounds]; decide)
        (by dsimp only [buf, Block.InBounds]; decide)]
    rfl
  dsimp only [msgReplaceRawMsgSegment]
  rw [if_neg (by dsimp only [onStack]; decide)]
  simp only [hmove, Option.bind_eq_bind, Option.bind_none]

/-- The wrap on a zeroed array, with a replacement of `2^31 - 3` zero bytes, as many as
`lenMSG` says, and no memory to allocate. -/
theorem msgReplaceRawMsgSegment_overflow :
    RawMsg.Inv confRawmsgBufsize ⟨⟨101, fun _ => 0⟩, .szRawMsg, 10⟩ ∧
      msgReplaceRawMsgSegment none ⟨⟨101, fun _ => 0⟩, .szRawMsg, 10⟩ confRawmsgBufsize 0 5
        (List.replicate 2147483645 0) 2147483645 = none :=
  msgReplaceRawMsgSegment_wraps (fun _ => 0) none (List.replicate 2147483645 0)

end Rsyslog
