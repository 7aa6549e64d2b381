import Rsyslog.Script.Expr

/-!
# The RainerScript expression optimizer

`cnfexprOptimize` (`grammar/rainerscript.c`) folds constant arithmetic, concatenation and
`==`/`!=`, moves a string array on the left of `==`/`!=` to the right and sorts it, turns a
comparison of `syslogfacility(-text)` or `syslogseverity(-text)` with a constant into a
`prifilt()` mask, and merges `NOT`, `AND` and `OR` of masks. `Optimized` records whether it
returned the node it was given or a new one. Reading a freed node, a `NULL` from
`cnffuncNew_prifilt`, a shift by 32 or more bits and the `idiv` trap are `none`. Allocations
succeed; libestr's `es_str2num` and `es_str2cstr` are parameters.
-/

namespace Rsyslog.Script

open Rsyslog.Common Rsyslog

/-- The libestr conversions the optimizer calls. -/
structure Libestr where
  /-- `es_str2num`: the number a string constant folds to. -/
  str2num : List UInt8 → Int64
  /-- `es_str2cstr(s, NULL)`: the C string of a string constant. -/
  str2cstr : List UInt8 → List UInt8

/-- What `cnfexprOptimize` returns: the node it was given, changed in place, or a new node, the
one it was given having been freed. -/
inductive Optimized
  | same (e : Cnfexpr)
  | other (e : Cnfexpr)

namespace Optimized

/-- The node returned. -/
def tree : Optimized → Cnfexpr
  | same e | other e => e

/-- The node a caller that drops the result still points to, `none` once it is freed. -/
def kept : Optimized → Option Cnfexpr
  | same e => some e
  | other _ => none

end Optimized

/-! ## `prifilt()` masks -/

/-- `LOG_NFACILITIES + 1` as `rainerscript.h` spells it, `24 + 1 + 1`: the entries of a mask. -/
def pmaskLen : ℕ := 24 + 1 + 1

/-- `prifiltInvert`. -/
def prifiltInvert (pmask : List UInt8) : List UInt8 :=
  pmask.map (~~~ ·)

/-- `prifiltCombine`: the masks of `AND` (`isAnd`) or `OR`, entry by entry. -/
def prifiltCombine (isAnd : Bool) (pmask pmask2 : List UInt8) : List UInt8 :=
  List.zipWith (if isAnd then (· &&& ·) else (· ||| ·)) pmask pmask2

/-- `cnffuncNew_prifilt`: the mask with every severity of the facility whose code (its number
shifted left by three bits) is `fac`, `NULL` for a number past the mask. -/
def cnffuncNewPrifilt (fac : ℤ) : Option (List UInt8) :=
  let fac := fac >>> (3 : ℕ)
  if fac ≥ pmaskLen ∨ fac < 0 then none
  else some ((List.range pmaskLen).map fun i => if (i : ℤ) = fac then 0xFF else 0)

/-- `lessthanmasks` of `prifiltSetSeverity`. -/
def lessthanmasks : List UInt8 :=
  [0x00, 0x01, 0x03, 0x07, 0x0f, 0x1f, 0x3f, 0x7f, 0xff]

/-- An entry of `lessthanmasks`; reading outside the array is undefined. -/
def lessthanmask (k : ℤ) : Option UInt8 :=
  if 0 ≤ k then lessthanmasks[k.toNat]? else none

/-- `prifiltSetSeverity`: every entry of the mask selects the severities that compare with `sev`
as the operator says; another operator is reported and changes nothing. -/
def prifiltSetSeverity (pmask : List UInt8) (sev : ℤ) (op : CmpOp) : Option (List UInt8) :=
  let fill (b : UInt8) := pmask.map fun _ => b
  match op with
  | .eq => fill <$> severityBit sev
  | .ne => (fun b => prifiltInvert (fill b)) <$> severityBit sev
  | .lt => fill <$> lessthanmask sev
  | .le => fill <$> lessthanmask (sev + 1)
  | .gt => (fun b => fill (~~~b)) <$> lessthanmask (sev + 1)
  | .ge => (fun b => fill (~~~b)) <$> lessthanmask sev
  | _ => some pmask

/-- `prifiltSetFacility`: the mask with every severity of the facilities that compare with the
facility number `fac` (0 to 24) as the operator says. -/
def prifiltSetFacility (fac : ℕ) (op : CmpOp) : List UInt8 :=
  let sel (i : ℕ) : Bool :=
    match op with
    | .eq | .ne => i = fac
    | .lt => i < fac
    | .le => i < fac + 1
    | .ge => fac ≤ i
    | .gt => fac + 1 ≤ i
    | _ => false
  let pmask := (List.range pmaskLen).map fun i => if sel i then (0xFF : UInt8) else 0
  if op = .ne then prifiltInvert pmask else pmask

/-! ## Constant folding -/

/-- `getConstNumber` once both operands are optimized: the numbers of two constant operands, a
string read by `es_str2num`. -/
def getConstNumber (lib : Libestr) : Cnfexpr → Cnfexpr → Option (Int64 × Int64)
  | .num a, .num b => some (a, b)
  | .num a, .str t => some (a, lib.str2num t)
  | .str s, .num b => some (lib.str2num s, b)
  | .str s, .str t => some (lib.str2num s, lib.str2num t)
  | _, _ => none

/-- `constFoldConcat` once both operands are optimized: two constants make one string. -/
def constFoldConcat : Cnfexpr → Cnfexpr → Cnfexpr
  | .str s, .str t => .str (s ++ t)
  | .str s, .num b => .str (s ++ numberText b)
  | .num a, .str t => .str (numberText a ++ t)
  | .num a, .num b => .str (numberText a ++ numberText b)
  | l, r => .concat l r

/-- The 0 or 1 that `constFoldCmp` stores for `==` (`ne = false`) or `!=` of two constants. -/
def eqNeFold (ne eq : Bool) : Int64 :=
  boolNum (if ne then !eq else eq)

/-- `constFoldCmp`: `==` or `!=` of two constants. A string and a number compare as numbers when
the string reads as one (`str2num`), and as strings otherwise. -/
def constFoldCmp (ne : Bool) : Cnfexpr → Cnfexpr → Option Int64
  | .str s, .str t => some (eqNeFold ne (ustrcmp s t = .eq))
  | .num a, .num b => some (eqNeFold ne (a = b))
  | .str s, .num b =>
    let (a, ok) := str2num s
    some (eqNeFold ne (if ok then a = b else ustrcmp s (numberText b) = .eq))
  | .num a, .str t =>
    let (b, ok) := str2num t
    some (eqNeFold ne (if ok then a = b else ustrcmp t (numberText a) = .eq))
  | _, _ => none

/-! ## Comparisons -/

/-- `qsort` with `qs_arrcmp`, which is `es_strcmp`. -/
def sortArray (ar : List (List UInt8)) : List (List UInt8) :=
  ar.insertionSort fun a b => ustrcmp a b ≠ .gt

theorem sortArray_sorted (ar : List (List UInt8)) :
    (sortArray ar).Pairwise fun a b => strKey a ≤ strKey b :=
  pairwise_insertionSort_ustrcmp id ar

theorem mem_sortArray {s : List UInt8} {ar : List (List UInt8)} : s ∈ sortArray ar ↔ s ∈ ar :=
  (List.perm_insertionSort _ ar).mem_iff

/-- The operands of `==` and `!=` once an array on the left is swapped to the right (two arrays
only draw a warning) and an array on the right is sorted (`cnfexprOptimize_CMPEQ_arr`). -/
def arrangeArrays (l r : Cnfexpr) : Cnfexpr × Cnfexpr :=
  let (l, r) : Cnfexpr × Cnfexpr :=
    match l, r with
    | .arr a, .arr b => (.arr a, .arr b)
    | .arr a, r => (r, .arr a)
    | l, r => (l, r)
  match r with
  | .arr b => (l, .arr (sortArray b))
  | r => (l, r)

/-- `cnfexprOptimize_CMP_severity_facility`: a comparison of `syslogseverity` with a number from
0 to 7, or of `syslogfacility` with one from 0 to 24, becomes a `prifilt()` mask; another number
only draws a warning. -/
def cnfexprOptimizeCmpSeverityFacility (op : CmpOp) (l r : Cnfexpr) : Option Optimized :=
  match l, r with
  | .var name, .num n =>
    -- the number is cast to int
    let v := n.toInt32.toInt
    if name = asciiBytes "syslogseverity" then
      if 0 ≤ v ∧ v ≤ 7 then do
        let pmask ← cnffuncNewPrifilt 0
        let pmask ← prifiltSetSeverity pmask v op
        pure (.other (.prifilt pmask))
      else pure (.same (.cmp op l r))
    else if name = asciiBytes "syslogfacility" then
      -- prifiltSetFacility clears the mask cnffuncNew_prifilt(0) built
      if 0 ≤ v ∧ v ≤ 24 then pure (.other (.prifilt (prifiltSetFacility v.toNat op)))
      else pure (.same (.cmp op l r))
    else pure (.same (.cmp op l r))
  | l, r => pure (.same (.cmp op l r))

/-- `cnfexprOptimize_CMP_var` for `==` and `!=` with a variable on the left: the facility or
severity text compared with a string constant becomes a `prifilt()` mask, the string read by
`decodeSyslogName`; a string it does not decode only draws a warning. -/
def cnfexprOptimizeCmpVar (lib : Libestr) (op : CmpOp) (name : List UInt8) (r : Cnfexpr) :
    Option Optimized :=
  if name = asciiBytes "syslogfacility-text" then
    match r with
    | .str s =>
      let fac := decodeSyslogName (lib.str2cstr s) syslogFacNames
      if fac = -1 then pure (.same (.cmp op (.var name) r))
      else do
        -- a NULL function is dereferenced by prifiltInvert, or by whoever reads the node returned
        let pmask ← cnffuncNewPrifilt fac
        pure (.other (.prifilt (if op = .ne then prifiltInvert pmask else pmask)))
    | r => pure (.same (.cmp op (.var name) r))
  else if name = asciiBytes "syslogseverity-text" then
    match r with
    | .str s =>
      let sev := decodeSyslogName (lib.str2cstr s) syslogPriNames
      if sev = -1 then pure (.same (.cmp op (.var name) r))
      else do
        let pmask ← cnffuncNewPrifilt 0
        let pmask ← prifiltSetSeverity pmask sev op
        pure (.other (.prifilt pmask))
    | r => pure (.same (.cmp op (.var name) r))
  else cnfexprOptimizeCmpSeverityFacility op (.var name) r

/-- A variable compared with anything but a string or a number constant stays as it is. -/
theorem cnfexprOptimizeCmpVar_arr (lib : Libestr) (op : CmpOp) (name : List UInt8)
    (ar : List (List UInt8)) :
    cnfexprOptimizeCmpVar lib op name (.arr ar) = some (.same (.cmp op (.var name) (.arr ar))) := by
  unfold cnfexprOptimizeCmpVar cnfexprOptimizeCmpSeverityFacility
  split_ifs <;> rfl

/-- `cnfexprOptimize_AND_OR`: `AND` (`isAnd`) or `OR` of two masks is one mask. -/
def cnfexprOptimizeAndOr (isAnd : Bool) (l r : Cnfexpr) : Optimized :=
  match l, r with
  | .prifilt pmask, .prifilt pmask2 => .other (.prifilt (prifiltCombine isAnd pmask pmask2))
  | l, r => .same (if isAnd then .and l r else .or l r)

/-- `cnfexprOptimize_NOT`: `NOT` of a mask is the inverted mask. -/
def cnfexprOptimizeNot : Cnfexpr → Optimized
  | .prifilt pmask => .other (.prifilt (prifiltInvert pmask))
  | r => .same (.not r)

/-- `cnfexprOptimize`. -/
def cnfexprOptimize (lib : Libestr) : Cnfexpr → Option Optimized
  | .concat l r => do
    -- constFoldConcat drops the nodes the calls return
    let l ← (← cnfexprOptimize lib l).kept
    let r ← (← cnfexprOptimize lib r).kept
    pure (.same (constFoldConcat l r))
  | .arith op l r => do
    -- so does getConstNumber
    let l ← (← cnfexprOptimize lib l).kept
    let r ← (← cnfexprOptimize lib r).kept
    match getConstNumber lib l r with
    | some (ln, rn) => (arithNum op ln rn).map fun v => .same (.num v)
    | none => pure (.same (.arith op l r))
  | .cmp op l r => do
    let l := (← cnfexprOptimize lib l).tree
    let r := (← cnfexprOptimize lib r).tree
    match op with
    | .eq | .ne =>
      match constFoldCmp (op = .ne) l r with
      | some v => pure (.same (.num v))
      | none =>
        match arrangeArrays l r with
        | (.var name, r) => cnfexprOptimizeCmpVar lib op name r
        | (l, r) => pure (.same (.cmp op l r))
    | .le | .ge | .lt | .gt => cnfexprOptimizeCmpSeverityFacility op l r
    | op => pure (.same (.cmp op l r))
  | .and l r => do
    let l := (← cnfexprOptimize lib l).tree
    let r := (← cnfexprOptimize lib r).tree
    pure (cnfexprOptimizeAndOr true l r)
  | .or l r => do
    let l := (← cnfexprOptimize lib l).tree
    let r := (← cnfexprOptimize lib r).tree
    pure (cnfexprOptimizeAndOr false l r)
  | .not r => do
    let r := (← cnfexprOptimize lib r).tree
    pure (cnfexprOptimizeNot r)
  | e => pure (.same e)

/-! ## What the optimizer changes -/

section Results

variable (lib : Libestr) (env : ScriptEnv)

/-- `getConstNumber` drops the node the optimizer returns for an operand: when the operand was
replaced (a comparison that became a `prifilt()` mask), the arithmetic node reads freed memory. -/
theorem cnfexprOptimize_arith_of_replaced {l e : Cnfexpr} (op : ArithOp) (r : Cnfexpr)
    (hl : cnfexprOptimize lib l = some (.other e)) : cnfexprOptimize lib (.arith op l r) = none := by
  simp [cnfexprOptimize, hl, Optimized.kept]

/-- At the top of an expression, `==` of a variable with a string array is an exact membership
test: the optimizer sorts the array, and `bsearch` then finds a string variable exactly when it
is a member. -/
theorem cnfexprOptimize_eqArray_exact (x : List UInt8) (ar : List (List UInt8)) {s : List UInt8}
    (hx : env.evalVar x = .str s) :
    ∃ o, cnfexprOptimize lib (.cmp .eq (.var x) (.arr ar)) = some o ∧
      cnfexprEval env o.tree = some (.num (boolNum (decide (s ∈ ar)))) := by
  refine ⟨.same (.cmp .eq (.var x) (.arr (sortArray ar))), ?_, ?_⟩
  · exact cnfexprOptimizeCmpVar_arr lib .eq x (sortArray ar)
  · have hfound := (evalStrArrayCmp_of_sorted (sortArray_sorted ar) s).1
    simp [Optimized.tree, cnfexprEval, evalEqNe, hx, var2String, hfound, mem_sortArray]

/-- An array on the left of `==` evaluates to its first element before optimization and to a
membership test after it: the optimizer swaps it to the right, where `evalStrArrayCmp` searches
the whole sorted array. A member other than the first compares unequal before and equal after. -/
theorem cnfexprOptimize_arrayLeft_changesResult {b s : List UInt8} {rest : List (List UInt8)}
    (hs : s ∈ rest) (hne : s ≠ b) :
    cnfexprEvalBool env (.cmp .eq (.arr (b :: rest)) (.str s)) = some false ∧
      ∃ o, cnfexprOptimize lib (.cmp .eq (.arr (b :: rest)) (.str s)) = some o ∧
        cnfexprEvalBool env o.tree = some true := by
  have hmem : s ∈ sortArray (b :: rest) := mem_sortArray.mpr (List.mem_cons_of_mem b hs)
  have hfound := (evalStrArrayCmp_of_sorted (sortArray_sorted (b :: rest)) s).1
  have hcmp : ustrcmp b s ≠ .eq := fun h => hne ((ustrcmp_eq_eq_iff b s).mp h).symm
  constructor
  · simp [cnfexprEvalBool, cnfexprEval, evalEqNe, var2String, hcmp, boolNum, var2Number]
  · refine ⟨.same (.cmp .eq (.str s) (.arr (sortArray (b :: rest)))), rfl, ?_⟩
    simp [cnfexprEvalBool, Optimized.tree, cnfexprEval, evalEqNe, var2String, hfound, hmem,
      boolNum, var2Number]

/-- `["b", "a"] == "a"`: false as written, true once optimized. -/
theorem cnfexprOptimize_arrayLeft_changesResult_ba :
    cnfexprEvalBool ⟨0, 0, fun _ => .num 0, fun _ => false, fun _ => none⟩
        (.cmp .eq (.arr [[98], [97]]) (.str [97])) = some false ∧
      ∃ o, cnfexprOptimize ⟨fun _ => 0, id⟩ (.cmp .eq (.arr [[98], [97]]) (.str [97])) = some o ∧
        cnfexprEvalBool ⟨0, 0, fun _ => .num 0, fun _ => false, fun _ => none⟩ o.tree = some true :=
  cnfexprOptimize_arrayLeft_changesResult ⟨fun _ => 0, id⟩ _ (by decide) (by decide)

/-- `bsearch` over `[b, a]` with `a` before `b` probes `a` only, and misses `b`. -/
theorem bsearch_ustrcmp_unsorted_pair {a b : List UInt8} (hab : ustrcmp a b = .lt) :
    bsearch (fun e => ustrcmp b e) [b, a] = none := by
  simp [bsearch, bisect, ustrcmp_gt_of_lt hab]

/-- The optimizer does not enter the parameters of a function call, so an array there keeps its
written order: with `a` before `b`, the function receives 0 for `x == [b, a]` although the
variable holds the member `b`. -/
theorem cnfexprOptimize_funcParam_missesMember {fname x a b : List UInt8} {f : List Svar → Svar}
    (hf : env.funcs fname = some f) (hx : env.evalVar x = .str b) (hab : ustrcmp a b = .lt) :
    ∃ o, cnfexprOptimize lib (.func fname [.cmp .eq (.var x) (.arr [b, a])]) = some o ∧
      cnfexprEval env o.tree = some (f [.num 0]) := by
  refine ⟨.same (.func fname [.cmp .eq (.var x) (.arr [b, a])]), rfl, ?_⟩
  simp [Optimized.tree, cnfexprEval, cnfexprEvalParams, hf, hx, evalEqNe, var2String,
    evalStrArrayCmp, bsearch_ustrcmp_unsorted_pair hab, boolNum]

/-- `cnum($msg == ["z", "a"])` with the message `z`: `cnum` receives 0. -/
theorem cnfexprOptimize_funcParam_missesMember_cnum :
    ∃ o, cnfexprOptimize ⟨fun _ => 0, id⟩
        (.func (asciiBytes "cnum") [.cmp .eq (.var (asciiBytes "msg")) (.arr [[122], [97]])]) = some o ∧
      cnfexprEval ⟨0, 0, fun _ => .str [122], fun _ => false, fun _ => some fun vs => vs.headD (.num 0)⟩
        o.tree = some (.num 0) :=
  cnfexprOptimize_funcParam_missesMember ⟨fun _ => 0, id⟩ _ (a := [97]) (b := [122])
    (f := fun vs => vs.headD (.num 0)) rfl rfl (by decide)

end Results

end Rsyslog.Script
