import Rsyslog.Runtime.Lookup
import Rsyslog.Runtime.SyslogNames

/-!
# RainerScript expressions and their evaluation

An expression tree (`struct cnfexpr`, `grammar/rainerscript.h`) and `cnfexprEval`
(`grammar/rainerscript.c`), which evaluates it against a message with the case analysis of the C
code for each node type. Arithmetic is that of `long long` on the machine: `+`, `-`, `*` and
negation wrap, and `/` and `%` trap (`none`) when the quotient does not fit. What the tree reads
from outside is the parameter `ScriptEnv`: the facility and severity, the variables, `exists()`
and the other script functions. `es_strcmp` is taken as the lexicographic byte order `ustrcmp`.
-/

namespace Rsyslog.Script

open Rsyslog.Common Rsyslog

/-- The comparison operators (`CMP_EQ` to `CMP_CONTAINSI`). -/
inductive CmpOp
  | eq | ne | le | ge | lt | gt | startswith | startswithi | endswith | contains | containsi
deriving DecidableEq, Repr

/-- The arithmetic operators `+`, `-`, `*`, `/` and `%`. -/
inductive ArithOp
  | add | sub | mul | div | mod
deriving DecidableEq, Repr

/-- The node types of an expression tree: constants (`'N'`, `'S'`, `'A'`), variables (`'V'`),
function calls (`'F'`, with `prifilt()` apart since the optimizer builds and combines it), the
`exists()` test, the comparisons, `AND`, `OR`, `NOT`, the arithmetic operators, unary minus
(`'M'`) and string concatenation (`'&'`). -/
inductive Cnfexpr
  | num (val : Int64)
  | str (estr : List UInt8)
  | arr (arr : List (List UInt8))
  | var (name : List UInt8)
  | prifilt (pmask : List UInt8)
  | func (fname : List UInt8) (params : List Cnfexpr)
  | funcExists (varname : List UInt8)
  | cmp (op : CmpOp) (l r : Cnfexpr)
  | and (l r : Cnfexpr)
  | or (l r : Cnfexpr)
  | not (r : Cnfexpr)
  | arith (op : ArithOp) (l r : Cnfexpr)
  | uminus (r : Cnfexpr)
  | concat (l r : Cnfexpr)

/-- What an expression reads outside its tree. -/
structure ScriptEnv where
  iFacility : UInt16
  iSeverity : UInt16
  evalVar : List UInt8 → Svar
  varExists : List UInt8 → Bool
  funcs : List UInt8 → Option (List Svar → Svar)

/-- The sign of an `es_strcmp` result. -/
def cmpInt : Ordering → Int64
  | .lt => -1
  | .eq => 0
  | .gt => 1

/-- A C truth value. -/
def boolNum (b : Bool) : Int64 :=
  if b then 1 else 0

/-- `idiv` on `long long`: the quotient, or a trap when it does not fit. -/
def cDiv (a b : Int64) : Option Int64 :=
  if b = 0 ∨ (a = Int64.minValue ∧ b = -1) then none else some (a / b)

/-- `idiv` on `long long`: the remainder, or a trap when the quotient does not fit. -/
def cMod (a b : Int64) : Option Int64 :=
  if b = 0 ∨ (a = Int64.minValue ∧ b = -1) then none else some (a % b)

/-- `es_strContains(s, e) != -1`: `e` occurs in `s`. -/
def containsBytes (s e : List UInt8) : Bool :=
  s.tails.any e.isPrefixOf

/-- The test of a string operator other than `==` and `!=` on a string and a right operand or
array element `e`. -/
def strOpTest (op : CmpOp) (s e : List UInt8) : Bool :=
  match op with
  | .startswith => e.isPrefixOf s
  | .startswithi => (e.map asciiLower).isPrefixOf (s.map asciiLower)
  | .endswith => e.isSuffixOf s
  | .contains => containsBytes s e
  | .containsi => containsBytes (s.map asciiLower) (e.map asciiLower)
  | _ => false

/-- `evalStrArrayCmp`: `==` and `!=` look the string up by `bsearch` with `es_strcmp`, which
presumes the array sorted; the other operators test the elements in order until one holds. -/
def evalStrArrayCmp (s : List UInt8) (ar : List (List UInt8)) (op : CmpOp) : Int64 :=
  match op with
  | .eq => boolNum (bsearch (fun e => ustrcmp s e) ar).isSome
  | .ne => boolNum (bsearch (fun e => ustrcmp s e) ar).isNone
  | op => boolNum (ar.any (strOpTest op s))

/-- es_strcmp answers equal exactly for equal strings. -/
theorem ustrcmp_eq_eq_iff (a b : List UInt8) : ustrcmp a b = .eq ↔ a = b := by
  rw [ustrcmp_eq_compare, compare_eq_iff_eq]
  exact strKey_injective.eq_iff

theorem ustrcmp_gt_of_lt {a b : List UInt8} (h : ustrcmp a b = .lt) : ustrcmp b a = .gt := by
  rw [ustrcmp_eq_compare] at h ⊢
  exact compare_gt_iff_gt.mpr (compare_lt_iff_lt.mp h)

/-- Over an array sorted by `es_strcmp`, `bsearch` finds exactly the members. -/
theorem bsearch_ustrcmp_isSome_iff {ar : List (List UInt8)}
    (hs : ar.Pairwise fun a b => strKey a ≤ strKey b) (s : List UInt8) :
    (bsearch (fun e => ustrcmp s e) ar).isSome ↔ s ∈ ar := by
  have hcmp : (fun e => ustrcmp s e) =
      fun e => @compare (List ℕ) LinearOrder.toOrd (strKey s) (strKey e) :=
    funext fun e => ustrcmp_eq_compare s e
  rw [hcmp, bsearch_isSome_iff hs, List.mem_iff_getElem]
  constructor
  · rintro ⟨j, hj, hkey⟩
    exact ⟨j, hj, strKey_injective hkey⟩
  · rintro ⟨j, hj, rfl⟩
    exact ⟨j, hj, rfl⟩

/-- `==` and `!=` against an array sorted by `es_strcmp` test membership exactly. -/
theorem evalStrArrayCmp_of_sorted {ar : List (List UInt8)}
    (hs : ar.Pairwise fun a b => strKey a ≤ strKey b) (s : List UInt8) :
    evalStrArrayCmp s ar .eq = boolNum (decide (s ∈ ar)) ∧
      evalStrArrayCmp s ar .ne = boolNum (decide (s ∉ ar)) := by
  have h := bsearch_ustrcmp_isSome_iff hs s
  constructor
  · rw [evalStrArrayCmp, Bool.eq_iff_iff.mpr (h.trans decide_eq_true_iff.symm)]
  · rw [evalStrArrayCmp, ← Option.not_isSome, Bool.eq_iff_iff.mpr (h.trans decide_eq_true_iff.symm),
      decide_not]

/-- `==` (`ne = false`) and `!=` (`ne = true`) once the left value is known: a number on the
left compares numerically unless the right side is a string that is not a number; a string or
JSON value on the left compares with a string literal or array as a string, and with a computed
value numerically when the left side reads as a number and as a string otherwise. `evalR`
evaluates the right operand, which is done only where the C code does it. -/
def evalEqNe (ne : Bool) (l : Svar) (rNode : Cnfexpr) (evalR : Option Svar) : Option Int64 :=
  let strRes (o : Ordering) : Int64 := if ne then cmpInt o else boolNum (o = .eq)
  let numRes (a b : Int64) : Int64 := boolNum (if ne then a ≠ b else a = b)
  match l with
  | .num nl => do
    let r ← evalR
    match r with
    | .str sr =>
      let (nr, ok) := var2Number r
      pure (if ok then numRes nl nr else strRes (ustrcmp sr (var2String l)))
    | _ => pure (numRes nl (var2Number r).1)
  | _ =>
    let sl := var2String l
    match rNode with
    | .str sr => pure (strRes (ustrcmp sl sr))
    | .arr ar => pure (evalStrArrayCmp sl ar (if ne then .ne else .eq))
    | _ => do
      let r ← evalR
      match r with
      | .str sr => pure (strRes (ustrcmp sl sr))
      | _ =>
        let (nl, ok) := var2Number l
        pure (if ok then numRes nl (var2Number r).1 else strRes (ustrcmp sl (var2String r)))

/-- `eval_strcmp_like`: the difference of the two numbers, truncated to `int`, when both sides
read as numbers, and the sign of `es_strcmp` of their strings otherwise. -/
def evalStrcmpLike (l r : Svar) : Int32 :=
  let (nl, okl) := var2Number l
  let (nr, okr) := var2Number r
  if okl ∧ okr then (nl - nr).toInt32 else (cmpInt (ustrcmp (var2String l) (var2String r))).toInt32

/-- The ordering comparisons on the result of `eval_strcmp_like`. -/
def ordTest (op : CmpOp) (c : Int32) : Bool :=
  match op with
  | .le => c ≤ 0
  | .ge => c ≥ 0
  | .lt => c < 0
  | .gt => c > 0
  | _ => false

/-- `doFunct_Prifilt`: whether the mask of the message's facility has its severity's bit. -/
def prifiltTest (pmask : List UInt8) (env : ScriptEnv) : Option Int64 := do
  let m ← pmask[env.iFacility.toNat]?
  if env.iSeverity.toNat < 32 then
    pure (boolNum (m ≠ 0 ∧ m.toNat.testBit env.iSeverity.toNat))
  else none

/-- The arithmetic operators on the two numbers: `COMP_NUM_BINOP` for `+`, `-` and `*`, and
`COMP_NUM_BINOP_DIV` for `/` and `%`, whose guard answers 0 for a zero divisor. -/
def arithNum (op : ArithOp) (nl nr : Int64) : Option Int64 :=
  match op with
  | .add => some (nl + nr)
  | .sub => some (nl - nr)
  | .mul => some (nl * nr)
  | .div => if nr = 0 then some 0 else cDiv nl nr
  | .mod => if nr = 0 then some 0 else cMod nl nr

mutual

/-- `cnfexprEval`: the value of an expression for a message, `none` when the machine traps. -/
def cnfexprEval (env : ScriptEnv) : Cnfexpr → Option Svar
  | .num n => some (.num n)
  | .str s => some (.str s)
  | .arr ar => ar.head?.map .str
  | .var name => some (env.evalVar name)
  | .prifilt pmask => (prifiltTest pmask env).map .num
  | .func fname params =>
    match env.funcs fname with
    | none => some (.num 0)
    | some f => (cnfexprEvalParams env params).map f
  | .funcExists varname => some (.num (boolNum (env.varExists varname)))
  | .cmp op l r => do
    let lv ← cnfexprEval env l
    match op with
    | .eq => (evalEqNe false lv r (cnfexprEval env r)).map .num
    | .ne => (evalEqNe true lv r (cnfexprEval env r)).map .num
    | .le | .ge | .lt | .gt => do
      let rv ← cnfexprEval env r
      pure (.num (boolNum (ordTest op (evalStrcmpLike lv rv))))
    | op =>
      -- PREP_TWO_STRINGS: a string literal or an array on the right is not evaluated
      let sl := var2String lv
      match r with
      | .str sr => pure (.num (boolNum (strOpTest op sl sr)))
      | .arr ar => pure (.num (evalStrArrayCmp sl ar op))
      | r => do
        let rv ← cnfexprEval env r
        pure (.num (boolNum (strOpTest op sl (var2String rv))))
  | .and l r => do
    let lv ← cnfexprEval env l
    if (var2Number lv).1 ≠ 0 then do
      let rv ← cnfexprEval env r
      pure (.num (boolNum ((var2Number rv).1 ≠ 0)))
    else pure (.num 0)
  | .or l r => do
    let lv ← cnfexprEval env l
    if (var2Number lv).1 ≠ 0 then pure (.num 1)
    else do
      let rv ← cnfexprEval env r
      pure (.num (boolNum ((var2Number rv).1 ≠ 0)))
  | .not r => do
    let rv ← cnfexprEval env r
    pure (.num (boolNum ((var2Number rv).1 = 0)))
  | .arith op l r => do
    let lv ← cnfexprEval env l
    let rv ← cnfexprEval env r
    (arithNum op (var2Number lv).1 (var2Number rv).1).map .num
  | .uminus r => do
    let rv ← cnfexprEval env r
    pure (.num (-(var2Number rv).1))
  | .concat l r => do
    let lv ← cnfexprEval env l
    let sr ← match r with
      | .str sr => some sr
      | .arr ar => ar.head?
      | r => (cnfexprEval env r).map var2String
    pure (.str (var2String lv ++ sr))

/-- The parameters of a function call, evaluated in order. -/
def cnfexprEvalParams (env : ScriptEnv) : List Cnfexpr → Option (List Svar)
  | [] => some []
  | e :: es => do
    let v ← cnfexprEval env e
    let vs ← cnfexprEvalParams env es
    pure (v :: vs)

end

/-- `cnfexprEvalBool`: the truth value of an expression, its number read as an `int`. -/
def cnfexprEvalBool (env : ScriptEnv) (e : Cnfexpr) : Option Bool :=
  (cnfexprEval env e).map fun v => (var2Number v).1.toInt32 ≠ 0

/-- The arithmetic of two numbers fails exactly on the quotient that does not fit: `/` or `%` of
`LLONG_MIN` by `-1`. -/
theorem arithNum_eq_none_iff (op : ArithOp) (a b : Int64) :
    arithNum op a b = none ↔ (op = .div ∨ op = .mod) ∧ a = Int64.minValue ∧ b = -1 := by
  cases op with
  | add | sub | mul => simp [arithNum]
  | div | mod =>
    by_cases hb : b = 0
    · subst hb
      simp [arithNum]
    · simp [arithNum, cDiv, cMod, hb]

/-- An arithmetic node whose operands evaluate traps exactly when it divides `LLONG_MIN` by `-1`:
the guard of `COMP_NUM_BINOP_DIV` tests the divisor for 0 only. -/
theorem cnfexprEval_arith_eq_none_iff {env : ScriptEnv} {l r : Cnfexpr} {lv rv : Svar}
    (op : ArithOp) (hl : cnfexprEval env l = some lv) (hr : cnfexprEval env r = some rv) :
    cnfexprEval env (.arith op l r) = none ↔
      (op = .div ∨ op = .mod) ∧ (var2Number lv).1 = Int64.minValue ∧ (var2Number rv).1 = -1 := by
  rw [← arithNum_eq_none_iff]
  simp [cnfexprEval, hl, hr]

/-- `$!a / $!b` with `$!a` the JSON integer `-9223372036854775808` and `$!b` the JSON integer
`-1`: `idiv` traps (SIGFPE on x86-64). -/
theorem cnfexprEval_arith_eq_none_iff_minDiv :
    cnfexprEval ⟨0, 0, fun n => if n = [33, 97] then .json (some ⟨[45], Int64.minValue⟩)
        else .json (some ⟨[45, 49], -1⟩), fun _ => true, fun _ => none⟩
      (.arith .div (.var [33, 97]) (.var [33, 98])) = none :=
  (cnfexprEval_arith_eq_none_iff .div rfl rfl).mpr ⟨.inl rfl, rfl, rfl⟩

end Rsyslog.Script
