import Mathlib.Data.List.Lex
import Rsyslog.Common.BinarySearch
import Rsyslog.Common.ExceptList
import Rsyslog.Runtime.Basic
import Rsyslog.Script.Value

/-!
# Lookup tables

A lookup table (lookup.c) maps keys to values read from a version-1 JSON file: a `string` table
by a string index, an `array` table by contiguous numbers, a `sparseArray` table by the greatest
number at or below the key, and a `regex` table by its first matching row; other keys get the
`nomatch` value. `lookupBuildTable_v1` interns the values and sorts the rows for bisection.
qsort is modelled by insertion sort under the same comparison, and the results hold for every
sorted arrangement. JSON values enter through `JsonObj`; `regcomp` and `regexec` are parameters.
-/

namespace Rsyslog

open Rsyslog.Common Rsyslog.Script

/-- ustrcmp: strcmp on unsigned bytes, which decides at the first byte that differs, a proper
prefix coming first. -/
def ustrcmp : List UInt8 → List UInt8 → Ordering
  | [], [] => .eq
  | [], _ :: _ => .lt
  | _ :: _, [] => .gt
  | a :: as, b :: bs => if a < b then .lt else if b < a then .gt else ustrcmp as bs

/-- The numbers ustrcmp compares a C string by: its bytes as unsigned values. -/
def strKey (s : List UInt8) : List ℕ :=
  s.map UInt8.toNat

/-- A row of a table file: its fields "index", "value", "regex" and "tag", each absent or a JSON
value (json-c reads a JSON null as no object). -/
structure LookupRow where
  index : Option JsonObj
  value : Option JsonObj
  regex : Option JsonObj
  tag : Option JsonObj

/-- The fields of a version 1 table file that lookupBuildTable_v1 reads; `table` is absent when
the file has none or it is not an array. -/
structure LookupFile where
  noMatch : Option JsonObj
  type : Option JsonObj
  table : Option (List LookupRow)

/-- lookup_string_tab_entry_t: a key and the interned value it maps to. -/
structure LookupStrEntry where
  key : List UInt8
  valRef : ℕ
deriving DecidableEq, Repr

/-- lookup_sparseArray_tab_entry_t. -/
structure LookupSprsEntry where
  key : UInt32
  valRef : ℕ
deriving DecidableEq, Repr

/-- lookup_regex_tab_entry_t: the pattern text and the interned tag. -/
structure LookupRegexEntry where
  regexStr : List UInt8
  valRef : ℕ
deriving DecidableEq, Repr

/-- The table of each type: the rows of an array table are the values of the keys from
`firstKey` on. -/
inductive LookupTab
  | str (entries : List LookupStrEntry)
  | arr (firstKey : UInt32) (valRefs : List ℕ)
  | sprsArr (entries : List LookupSprsEntry)
  | regex (entries : List LookupRegexEntry)
deriving DecidableEq, Repr

/-- lookup_t: the nomatch value, the interned values and the table. -/
structure Lookup where
  noMatch : Option (List UInt8)
  internedVals : List (List UInt8)
  tab : LookupTab
deriving DecidableEq, Repr

/-! ## Building a table -/

/-- The distinct values of a sorted list: the first, and each one that differs from the one
before it. -/
def uniqSorted : List (List UInt8) → List (List UInt8)
  | [] => []
  | a :: rest => a :: uniqAfter a rest
where
  /-- The values after `prev` that differ from their predecessor. -/
  uniqAfter (prev : List UInt8) : List (List UInt8) → List (List UInt8)
    | [] => []
    | b :: rest => if ustrcmp prev b ≠ .eq then b :: uniqAfter b rest else uniqAfter b rest

/-- The reference to the interned copy of a value (a bsearch over the interned values). -/
def internedRef (internedVals : List (List UInt8)) (value : List UInt8) : Option ℕ :=
  bsearch (fun v => ustrcmp value v) internedVals

/-- The text of a row's "value" field, which lookupBuildTable_v1 has checked to be present. -/
def LookupRow.valueText (row : LookupRow) : List UInt8 :=
  cString ((row.value.map JsonObj.text).getD [])

/-- One row of build_StringTable. -/
def stringTableEntry (internedVals : List (List UInt8)) (row : LookupRow) :
    Except RsRetVal LookupStrEntry :=
  match row.index with
  | none => throw .invalidValue
  | some index =>
    match internedRef internedVals row.valueText with
    | none => throw .internalError
    | some r => pure ⟨cString index.text, r⟩

/-- build_StringTable: the rows keyed by their index text, sorted by ustrcmp. -/
def buildStringTable (internedVals : List (List UInt8)) (rows : List LookupRow) :
    Except RsRetVal LookupTab := do
  let entries ← rows.mapM (stringTableEntry internedVals)
  pure (.str (entries.insertionSort fun a b => ustrcmp a.key b.key ≠ .gt))

/-- The index of a row of a numeric table, which must lie in the range of uint32_t. -/
def numericIndex (row : LookupRow) : Except RsRetVal UInt32 :=
  match row.index with
  | none => throw .invalidValue
  | some index =>
    if index.int64.toInt < 0 ∨ index.int64.toInt > 4294967295 then throw .invalidValue
    else pure (UInt32.ofInt index.int64.toInt)

/-- The references of the sorted rows of an array table, each index one above the one before. -/
def arrayRefs (internedVals : List (List UInt8)) : Option UInt32 → List (UInt32 × List UInt8) →
    Except RsRetVal (List ℕ)
  | _, [] => pure []
  | prev, (index, value) :: rest => do
    if let some p := prev then
      if index ≠ p + 1 then throw .invalidValue
    match internedRef internedVals value with
    | none => throw .err
    | some r => return r :: (← arrayRefs internedVals (some index) rest)

/-- One row of build_ArrayTable: its index and value. -/
def arrayTableIndex (row : LookupRow) : Except RsRetVal (UInt32 × List UInt8) := do
  let index ← numericIndex row
  pure (index, row.valueText)

/-- build_ArrayTable: the rows sorted by index, which must be contiguous from the first. -/
def buildArrayTable (internedVals : List (List UInt8)) (rows : List LookupRow) :
    Except RsRetVal LookupTab := do
  let indexes ← rows.mapM arrayTableIndex
  let sorted := indexes.insertionSort fun a b => a.1 ≤ b.1
  let refs ← arrayRefs internedVals none sorted
  pure (.arr ((sorted.head?.map Prod.fst).getD 0) refs)

/-- One row of build_SparseArrayTable. -/
def sparseArrayTableEntry (internedVals : List (List UInt8)) (row : LookupRow) :
    Except RsRetVal LookupSprsEntry := do
  let index ← numericIndex row
  match internedRef internedVals row.valueText with
  | none => throw .err
  | some r => pure ⟨index, r⟩

/-- build_SparseArrayTable: the rows sorted by index. -/
def buildSparseArrayTable (internedVals : List (List UInt8)) (rows : List LookupRow) :
    Except RsRetVal LookupTab := do
  let entries ← rows.mapM (sparseArrayTableEntry internedVals)
  pure (.sprsArr (entries.insertionSort fun a b => a.key ≤ b.key))

/-- One row of build_RegexTable: the pattern must compile. -/
def regexTableEntry (regcomp : List UInt8 → Bool) (internedVals : List (List UInt8))
    (row : LookupRow) : Except RsRetVal LookupRegexEntry :=
  match row.regex, row.tag with
  | some regex, some tag =>
    match internedRef internedVals (cString tag.text) with
    | none => throw .err
    | some r =>
      if regcomp (cString regex.text) then pure ⟨cString regex.text, r⟩ else throw .invalidValue
  | _, _ => throw .invalidValue

/-- build_RegexTable: the rows in file order. -/
def buildRegexTable (regcomp : List UInt8 → Bool) (internedVals : List (List UInt8))
    (rows : List LookupRow) : Except RsRetVal LookupTab := do
  let entries ← rows.mapM (regexTableEntry regcomp internedVals)
  pure (.regex entries)

/-- The type a table file names, "string" when it names none. -/
def LookupFile.tableType (file : LookupFile) : List UInt8 :=
  match file.type with
  | none => asciiBytes "string"
  | some t => cString t.text

/-- The value of a row: its "tag" in a regex table, its "value" otherwise, which must be present. -/
def lookupRowValue (isRegex : Bool) (row : LookupRow) : Except RsRetVal (List UInt8) :=
  match if isRegex then row.tag else row.value with
  | none => throw .invalidValue
  | some v => pure (cString v.text)

/-- The builder of each table type; any other type is refused. -/
def buildTable (regcomp : List UInt8 → Bool) (tableType : List UInt8)
    (internedVals : List (List UInt8)) (rows : List LookupRow) : Except RsRetVal LookupTab :=
  if tableType = asciiBytes "array" then buildArrayTable internedVals rows
  else if tableType = asciiBytes "sparseArray" then buildSparseArrayTable internedVals rows
  else if tableType = asciiBytes "regex" then buildRegexTable regcomp internedVals rows
  else if tableType = asciiBytes "string" then buildStringTable internedVals rows
  else throw .invalidValue

/-- lookupBuildTable_v1: checks that the file has a table, interns the values of its rows (each
must have one before anything is built), and builds the table of the file's type. -/
def lookupBuildTable_v1 (regcomp : List UInt8 → Bool) (file : LookupFile) :
    Except RsRetVal Lookup :=
  match file.table with
  | none => throw .invalidValue
  | some rows => do
    let allValues ← rows.mapM (lookupRowValue (file.tableType = asciiBytes "regex"))
    let internedVals := uniqSorted (allValues.insertionSort fun a b => ustrcmp a b ≠ .gt)
    let tab ← buildTable regcomp file.tableType internedVals rows
    pure ⟨file.noMatch.map fun v => cString v.text, internedVals, tab⟩

/-! ## Looking a key up -/

/-- defaultVal: the nomatch value, or the empty string. -/
def Lookup.defaultVal (t : Lookup) : List UInt8 :=
  t.noMatch.getD []

/-- The interned value a reference points to. -/
def Lookup.internedVal (t : Lookup) (r : ℕ) : List UInt8 :=
  t.internedVals.getD r []

/-- lookupKey_str: bisects the rows for the key. -/
def lookupKey_str (t : Lookup) (entries : List LookupStrEntry) (key : List UInt8) : List UInt8 :=
  match (bsearch (fun e => ustrcmp key e.key) entries).bind (entries[·]?) with
  | none => t.defaultVal
  | some e => t.internedVal e.valRef

/-- lookupKey_arr: the row at the key's offset from the first key. -/
def lookupKey_arr (t : Lookup) (firstKey : UInt32) (valRefs : List ℕ) (key : UInt32) : List UInt8 :=
  if valRefs.length = 0 ∨ key < firstKey then t.defaultVal
  else
    let idx := key - firstKey
    if valRefs.length ≤ idx.toNat then t.defaultVal
    else t.internedVal (valRefs.getD idx.toNat 0)

/-- lookupKey_sprsArr: the row with the greatest index at or below the key (bsearch_lte). -/
def lookupKey_sprsArr (t : Lookup) (entries : List LookupSprsEntry) (key : UInt32) : List UInt8 :=
  match (bsearchLte (fun e => compare key.toNat e.key.toNat) entries).bind (entries[·]?) with
  | none => t.defaultVal
  | some e => t.internedVal e.valRef

/-- lookupKey_regex: the tag of the first row whose pattern matches. -/
def lookupKey_regex (regexec : List UInt8 → List UInt8 → Bool) (t : Lookup)
    (entries : List LookupRegexEntry) (key : List UInt8) : List UInt8 :=
  match entries.find? fun e => regexec e.regexStr key with
  | none => t.defaultVal
  | some e => t.internedVal e.valRef

/-- lookup_key_t: a C string for string and regex tables, an unsigned 32-bit number for the
numeric ones. -/
inductive LookupKey
  | kStr (s : List UInt8)
  | kUint (n : UInt32)
deriving DecidableEq, Repr

/-- The table's lookup function applied to a key. doFunct_Lookup makes the key of the kind the
table reads, so the last case, which would read the other member of the union, does not occur. -/
def lookupKeyLocked (regexec : List UInt8 → List UInt8 → Bool) (t : Lookup) : LookupKey → List UInt8
  | .kStr s =>
    match t.tab with
    | .str entries => lookupKey_str t entries s
    | .regex entries => lookupKey_regex regexec t entries s
    | _ => t.defaultVal
  | .kUint n =>
    match t.tab with
    | .arr firstKey valRefs => lookupKey_arr t firstKey valRefs n
    | .sprsArr entries => lookupKey_sprsArr t entries n
    | _ => t.defaultVal

/-- The key doFunct_Lookup makes of the argument: var2CString for a string key type, and for a
numeric one var2Number stored into uint32_t. -/
def doFunctLookupKey (t : Lookup) (v : Svar) : LookupKey :=
  match t.tab with
  | .str _ | .regex _ => .kStr (var2CString v)
  | .arr _ _ | .sprsArr _ => .kUint (UInt32.ofInt (var2Number v).1.toInt)

/-- doFunct_Lookup: the value of `lookup(table, key)`; a table that was not found answers
"TABLE-NOT-FOUND", and one that is being reloaded the one-byte string es_newStrFromCStr("", 1)
makes. -/
def doFunctLookup (regexec : List UInt8 → List UInt8 → Bool) (ref : Option (Option Lookup))
    (v : Svar) : List UInt8 :=
  match ref with
  | none => asciiBytes "TABLE-NOT-FOUND"
  | some none => [0]
  | some (some t) => lookupKeyLocked regexec t (doFunctLookupKey t v)

/-! ## What a table should answer -/

/-- What a string table should answer for a key: the value of a row whose index is the key, or
the default when no row has it. -/
def StringAnswer (rows : List LookupRow) (key : List UInt8) (answer default : List UInt8) : Prop :=
  (∃ row ∈ rows, ∃ index, row.index = some index ∧ cString index.text = key ∧
      answer = row.valueText) ∨
    ((∀ row ∈ rows, ∀ index, row.index = some index → cString index.text ≠ key) ∧ answer = default)

/-- What an array table should answer for a key: the value of the row with the key as its index,
or the default when no row has it. -/
def ArrayAnswer (rows : List LookupRow) (key : UInt32) (answer default : List UInt8) : Prop :=
  (∃ row ∈ rows, numericIndex row = .ok key ∧ answer = row.valueText) ∨
    ((∀ row ∈ rows, numericIndex row ≠ .ok key) ∧ answer = default)

/-- What a sparse array table should answer for a key: the value of a row with the greatest index
at or below the key, or the default when every index is above it. -/
def SparseAnswer (rows : List LookupRow) (key : UInt32) (answer default : List UInt8) : Prop :=
  (∃ row ∈ rows, ∃ index, numericIndex row = .ok index ∧ index ≤ key ∧
      (∀ row' ∈ rows, ∀ index', numericIndex row' = .ok index' → index' ≤ key → index' ≤ index) ∧
      answer = row.valueText) ∨
    ((∀ row ∈ rows, ∀ index, numericIndex row = .ok index → key < index) ∧ answer = default)

/-! ## What a built table answers -/

section Answers

variable {ε α β : Type*} {iv : List (List UInt8)}

theorem strKey_injective : Function.Injective strKey := by
  intro a b h
  induction a generalizing b with
  | nil => cases b <;> simp_all [strKey]
  | cons x a ih =>
    cases b with
    | nil => simp [strKey] at h
    | cons y b =>
      simp only [strKey, List.map_cons, List.cons.injEq] at h
      rw [UInt8.toNat_inj.mp h.1, ih h.2]

/-- Mathlib's lexicographic comparison of lists (core's `Ord (List ℕ)` is another instance). -/
theorem compare_cons_cons (a : ℕ) (l m : List ℕ) :
    @compare (List ℕ) LinearOrder.toOrd (a :: l) (a :: m) = @compare (List ℕ) LinearOrder.toOrd l m := by
  rcases lt_trichotomy l m with h | rfl | h
  · rw [compare_lt_iff_lt.mpr h, compare_lt_iff_lt]
    exact List.Lex.cons h
  · rw [compare_eq_iff_eq.mpr rfl]
    exact (compare_eq_iff_eq.mpr rfl).symm
  · rw [compare_gt_iff_gt.mpr h, compare_gt_iff_gt]
    exact List.Lex.cons h

/-- ustrcmp is the lexicographic comparison of the byte values. -/
theorem ustrcmp_eq_compare : ∀ a b : List UInt8,
    ustrcmp a b = @compare (List ℕ) LinearOrder.toOrd (strKey a) (strKey b)
  | [], [] => (compare_eq_iff_eq.mpr rfl).symm
  | [], _ :: _ => (compare_lt_iff_lt.mpr List.Lex.nil).symm
  | _ :: _, [] => (compare_gt_iff_gt.mpr List.Lex.nil).symm
  | a :: as, b :: bs => by
    simp only [ustrcmp, strKey, List.map_cons]
    by_cases hab : a < b
    · rw [if_pos hab]
      exact (compare_lt_iff_lt.mpr (List.Lex.rel (UInt8.lt_iff_toNat_lt.mp hab))).symm
    · rw [if_neg hab]
      by_cases hba : b < a
      · rw [if_pos hba]
        exact (compare_gt_iff_gt.mpr (List.Lex.rel (UInt8.lt_iff_toNat_lt.mp hba))).symm
      · have heq : a = b := UInt8.le_antisymm (UInt8.not_lt.mp hba) (UInt8.not_lt.mp hab)
        rw [if_neg hba, heq, compare_cons_cons]
        exact ustrcmp_eq_compare as bs

theorem ustrcmp_ne_gt_iff (a b : List UInt8) : ustrcmp a b ≠ .gt ↔ strKey a ≤ strKey b := by
  rw [ustrcmp_eq_compare, Ne, compare_gt_iff_gt, not_lt]

/-- Sorting by ustrcmp sorts by `strKey`. -/
theorem pairwise_insertionSort_ustrcmp (key : α → List UInt8) (xs : List α) :
    (xs.insertionSort fun a b => ustrcmp (key a) (key b) ≠ .gt).Pairwise
      fun a b => strKey (key a) ≤ strKey (key b) :=
  pairwise_insertionSort_key (f := fun a => strKey (key a)) (fun a b => ustrcmp_ne_gt_iff (key a) (key b)) xs

theorem uniqSorted_sublist : ∀ xs : List (List UInt8), (uniqSorted xs).Sublist xs
  | [] => .slnil
  | a :: rest => (uniqAfter_sublist a rest).cons_cons a
where
  uniqAfter_sublist (prev : List UInt8) : ∀ xs, (uniqSorted.uniqAfter prev xs).Sublist xs
    | [] => .slnil
    | b :: rest => by
      unfold uniqSorted.uniqAfter
      split
      · exact (uniqAfter_sublist b rest).cons_cons b
      · exact (uniqAfter_sublist b rest).cons b

/-- The interned values are sorted by ustrcmp. -/
theorem internedVals_sorted (xs : List (List UInt8)) :
    (uniqSorted (xs.insertionSort fun a b => ustrcmp a b ≠ .gt)).Pairwise
      fun a b => strKey a ≤ strKey b :=
  (pairwise_insertionSort_ustrcmp id xs).sublist (uniqSorted_sublist _)

/-- A reference found in the interned values points to a copy of the value. -/
theorem internedRef_eq_some (hiv : iv.Pairwise fun a b => strKey a ≤ strKey b) {value : List UInt8}
    {r : ℕ} (h : internedRef iv value = some r) : iv[r]? = some value := by
  have hcmp : (fun v => ustrcmp value v) =
      fun v => @compare (List ℕ) LinearOrder.toOrd (strKey value) (strKey v) :=
    funext fun v => ustrcmp_eq_compare value v
  rw [internedRef, hcmp] at h
  obtain ⟨hr, hkey⟩ := bsearch_eq_some hiv h
  rw [List.getElem?_eq_getElem hr, strKey_injective hkey]

theorem stringTableEntry_eq_ok (hiv : iv.Pairwise fun a b => strKey a ≤ strKey b) {row : LookupRow}
    {e : LookupStrEntry} (h : stringTableEntry iv row = .ok e) :
    ∃ index, row.index = some index ∧ e.key = cString index.text ∧
      iv[e.valRef]? = some row.valueText := by
  unfold stringTableEntry at h
  split at h
  · cases h
  · next index hindex =>
    split at h
    · cases h
    · next r hr =>
      cases h
      exact ⟨index, hindex, rfl, internedRef_eq_some hiv hr⟩

/-- A string table answers the value of a row whose index is the key, and nomatch only when no
row has the key as its index. -/
theorem lookupKey_str_of_build (hiv : iv.Pairwise fun a b => strKey a ≤ strKey b)
    {rows : List LookupRow} {entries : List LookupStrEntry}
    (hbuild : buildStringTable iv rows = .ok (.str entries)) (t : Lookup) (ht : t.internedVals = iv)
    (key : List UInt8) : StringAnswer rows key (lookupKey_str t entries key) t.defaultVal := by
  unfold buildStringTable at hbuild
  cases hes : rows.mapM (stringTableEntry iv) with
  | error e => simp [hes] at hbuild
  | ok es =>
    simp only [hes] at hbuild
    cases hbuild
    obtain ⟨hfrom, hto⟩ := mapM_eq_ok_mem hes
    have hperm := List.perm_insertionSort (fun a b : LookupStrEntry => ustrcmp a.key b.key ≠ .gt) es
    have hsorted := pairwise_insertionSort_ustrcmp LookupStrEntry.key es
    have hcmp : (fun e : LookupStrEntry => ustrcmp key e.key) =
        fun e => @compare (List ℕ) LinearOrder.toOrd (strKey key) (strKey e.key) :=
      funext fun e => ustrcmp_eq_compare key e.key
    unfold lookupKey_str
    rw [hcmp]
    cases hb : bsearch (fun e : LookupStrEntry =>
        @compare (List ℕ) LinearOrder.toOrd (strKey key) (strKey e.key)) _ with
    | some i =>
      -- the probe that found the key is the entry of some row
      obtain ⟨hi, hkey⟩ := bsearch_eq_some hsorted hb
      obtain ⟨row, hrow, hentry⟩ := hfrom _ (hperm.mem_iff.mp (List.getElem_mem hi))
      obtain ⟨index, hindex, hekey, hval⟩ := stringTableEntry_eq_ok hiv hentry
      refine .inl ⟨row, hrow, index, hindex, hekey ▸ strKey_injective hkey, ?_⟩
      simp only [Option.bind_some, List.getElem?_eq_getElem hi, Lookup.internedVal, ht,
        List.getD_eq_getElem?_getD, hval, Option.getD_some]
    | none =>
      refine .inr ⟨fun row hrow index hindex hkey => ?_, by simp⟩
      obtain ⟨e, he, hentry⟩ := hto row hrow
      obtain ⟨index', hindex', hekey, -⟩ := stringTableEntry_eq_ok hiv hentry
      obtain ⟨j, hj, rfl⟩ := List.mem_iff_getElem.mp (hperm.mem_iff.mpr he)
      rw [hindex, Option.some_inj] at hindex'
      exact bsearch_eq_none hsorted hb j hj (by rw [hekey, ← hindex', hkey])

theorem sparseArrayTableEntry_eq_ok (hiv : iv.Pairwise fun a b => strKey a ≤ strKey b)
    {row : LookupRow} {e : LookupSprsEntry} (h : sparseArrayTableEntry iv row = .ok e) :
    numericIndex row = .ok e.key ∧ iv[e.valRef]? = some row.valueText := by
  unfold sparseArrayTableEntry at h
  cases hindex : numericIndex row with
  | error code =>
    rw [hindex] at h
    cases h
  | ok index =>
    simp only [hindex] at h
    split at h
    · cases h
    · next r hr =>
      cases h
      exact ⟨rfl, internedRef_eq_some hiv hr⟩

/-- A sparse array table answers the value of a row with the greatest index at or below the key,
and nomatch only when every index is above the key. -/
theorem lookupKey_sprsArr_of_build (hiv : iv.Pairwise fun a b => strKey a ≤ strKey b)
    {rows : List LookupRow} {entries : List LookupSprsEntry}
    (hbuild : buildSparseArrayTable iv rows = .ok (.sprsArr entries)) (t : Lookup)
    (ht : t.internedVals = iv) (key : UInt32) :
    SparseAnswer rows key (lookupKey_sprsArr t entries key) t.defaultVal := by
  unfold buildSparseArrayTable at hbuild
  cases hes : rows.mapM (sparseArrayTableEntry iv) with
  | error e => simp [hes] at hbuild
  | ok es =>
    simp only [hes] at hbuild
    cases hbuild
    obtain ⟨hfrom, hto⟩ := mapM_eq_ok_mem hes
    have hperm := List.perm_insertionSort (fun a b : LookupSprsEntry => a.key ≤ b.key) es
    have hsorted := pairwise_insertionSort_key (f := fun e : LookupSprsEntry => e.key.toNat)
      (fun a b => UInt32.le_iff_toNat_le) es
    unfold lookupKey_sprsArr
    cases hb : bsearchLte (fun e : LookupSprsEntry => compare key.toNat e.key.toNat) _ with
    | some i =>
      -- the answer is the entry of a row, with the greatest index not above the key
      obtain ⟨hi, hkey, hgreatest⟩ := bsearchLte_eq_some hsorted hb
      obtain ⟨row, hrow, hentry⟩ := hfrom _ (hperm.mem_iff.mp (List.getElem_mem hi))
      obtain ⟨hindex, hval⟩ := sparseArrayTableEntry_eq_ok hiv hentry
      refine .inl ⟨row, hrow, _, hindex, UInt32.le_iff_toNat_le.mpr hkey,
        fun row' hrow' index' hindex' hle' => ?_, ?_⟩
      · obtain ⟨e', he', hentry'⟩ := hto row' hrow'
        obtain ⟨j, hj, rfl⟩ := List.mem_iff_getElem.mp (hperm.mem_iff.mpr he')
        have hkey' := (sparseArrayTableEntry_eq_ok hiv hentry').1
        rw [hindex', Except.ok.injEq] at hkey'
        rw [UInt32.le_iff_toNat_le] at hle' ⊢
        rw [hkey'] at hle' ⊢
        exact hgreatest j hj hle'
      · simp only [Option.bind_some, List.getElem?_eq_getElem hi, Lookup.internedVal, ht,
          List.getD_eq_getElem?_getD, hval, Option.getD_some]
    | none =>
      refine .inr ⟨fun row hrow index hindex => ?_, by simp⟩
      obtain ⟨e, he, hentry⟩ := hto row hrow
      obtain ⟨j, hj, rfl⟩ := List.mem_iff_getElem.mp (hperm.mem_iff.mpr he)
      have hkey := (sparseArrayTableEntry_eq_ok hiv hentry).1
      rw [hindex, Except.ok.injEq] at hkey
      rw [UInt32.lt_iff_toNat_lt, hkey]
      exact bsearchLte_eq_none hsorted hb j hj

theorem arrayTableIndex_eq_ok {row : LookupRow} {x : UInt32 × List UInt8}
    (h : arrayTableIndex row = .ok x) : numericIndex row = .ok x.1 ∧ x.2 = row.valueText := by
  unfold arrayTableIndex at h
  cases hindex : numericIndex row with
  | error code =>
    rw [hindex] at h
    cases h
  | ok index =>
    rw [hindex] at h
    cases h
    exact ⟨rfl, rfl⟩

/-- An index one above `p` that is not below it is one above it without wrapping. -/
theorem toNat_of_eq_add_one {p index : UInt32} (heq : index = p + 1) (hle : p.toNat ≤ index.toNat) :
    index.toNat = p.toNat + 1 := by
  have hp := p.toNat_lt
  rw [heq, UInt32.toNat_add, UInt32.toNat_one] at hle ⊢
  by_cases hwrap : p.toNat + 1 < 2 ^ 32
  · exact Nat.mod_eq_of_lt hwrap
  · -- p is the largest value, and p + 1 wraps to 0, below it
    have hmax : p.toNat + 1 = 2 ^ 32 := by omega
    rw [hmax, Nat.mod_self] at hle
    omega

/-- The contiguity check after the first row: the `i`-th row has index `p + 1 + i`, and each
reference points to a copy of its row's value. -/
theorem arrayRefs_some_eq_ok (hiv : iv.Pairwise fun a b => strKey a ≤ strKey b) :
    ∀ {p : UInt32} {xs : List (UInt32 × List UInt8)} {refs : List ℕ},
      xs.Pairwise (fun a b => a.1.toNat ≤ b.1.toNat) → (∀ x ∈ xs, p.toNat ≤ x.1.toNat) →
      arrayRefs iv (some p) xs = .ok refs →
      refs.length = xs.length ∧ ∀ i (hi : i < xs.length) (hr : i < refs.length),
        xs[i].1.toNat = p.toNat + 1 + i ∧ iv[refs[i]]? = some xs[i].2
  | p, [], refs, _, _, h => by
    simp only [arrayRefs, pure, Except.pure, Except.ok.injEq] at h
    subst h
    exact ⟨rfl, fun i hi => absurd hi (Nat.not_lt_zero i)⟩
  | p, (index, value) :: rest, refs, hs, hp, h => by
    simp only [arrayRefs] at h
    by_cases hnext : index = p + 1
    · rw [if_neg (not_not.mpr hnext)] at h
      cases href : internedRef iv value with
      | none =>
        rw [href] at h
        cases h
      | some r =>
        cases hrest : arrayRefs iv (some index) rest with
        | error code =>
          rw [href, hrest] at h
          cases h
        | ok refs' =>
          rw [href, hrest] at h
          cases h
          -- the first row sits right above `p`, the others follow it
          have hindex : index.toNat = p.toNat + 1 :=
            toNat_of_eq_add_one hnext (hp _ List.mem_cons_self)
          obtain ⟨hafter, hsorted⟩ := List.pairwise_cons.mp hs
          obtain ⟨hlen, hrows⟩ := arrayRefs_some_eq_ok hiv hsorted (fun x hx => hafter x hx) hrest
          refine ⟨by simp [hlen], fun i hi hr => ?_⟩
          cases i with
          | zero => exact ⟨by simp [hindex], by simpa using internedRef_eq_some hiv href⟩
          | succ k =>
            obtain ⟨hk, hval⟩ := hrows k (by simpa using hi) (by simpa using hr)
            refine ⟨?_, by simpa using hval⟩
            simp only [List.getElem_cons_succ, hk, hindex]
            omega
    · rw [if_pos hnext] at h
      cases h

/-- The contiguity check of build_ArrayTable: the `i`-th sorted row has index `firstKey + i`. -/
theorem arrayRefs_none_eq_ok (hiv : iv.Pairwise fun a b => strKey a ≤ strKey b)
    {xs : List (UInt32 × List UInt8)} {refs : List ℕ}
    (hs : xs.Pairwise fun a b => a.1.toNat ≤ b.1.toNat) (h : arrayRefs iv none xs = .ok refs) :
    refs.length = xs.length ∧ ∀ i (hi : i < xs.length) (hr : i < refs.length),
      xs[i].1.toNat = ((xs.head?.map Prod.fst).getD 0).toNat + i ∧ iv[refs[i]]? = some xs[i].2 := by
  cases xs with
  | nil =>
    simp only [arrayRefs, pure, Except.pure, Except.ok.injEq] at h
    subst h
    exact ⟨rfl, fun i hi => absurd hi (Nat.not_lt_zero i)⟩
  | cons x rest =>
    obtain ⟨index, value⟩ := x
    simp only [arrayRefs] at h
    cases href : internedRef iv value with
    | none =>
      rw [href] at h
      cases h
    | some r =>
      cases hrest : arrayRefs iv (some index) rest with
      | error code =>
        rw [href, hrest] at h
        cases h
      | ok refs' =>
        rw [href, hrest] at h
        cases h
        obtain ⟨hafter, hsorted⟩ := List.pairwise_cons.mp hs
        obtain ⟨hlen, hrows⟩ := arrayRefs_some_eq_ok hiv hsorted (fun x hx => hafter x hx) hrest
        refine ⟨by simp [hlen], fun i hi hr => ?_⟩
        cases i with
        | zero => exact ⟨by simp, by simpa using internedRef_eq_some hiv href⟩
        | succ k =>
          obtain ⟨hk, hval⟩ := hrows k (by simpa using hi) (by simpa using hr)
          refine ⟨?_, by simpa using hval⟩
          simp only [List.getElem_cons_succ, hk, List.head?_cons, Option.map_some, Option.getD_some]
          omega

/-- An array table answers the value of the row whose index is the key, and nomatch only when no
row has it. -/
theorem lookupKey_arr_of_build (hiv : iv.Pairwise fun a b => strKey a ≤ strKey b)
    {rows : List LookupRow} {firstKey : UInt32} {valRefs : List ℕ}
    (hbuild : buildArrayTable iv rows = .ok (.arr firstKey valRefs)) (t : Lookup)
    (ht : t.internedVals = iv) (key : UInt32) :
    ArrayAnswer rows key (lookupKey_arr t firstKey valRefs key) t.defaultVal := by
  unfold buildArrayTable at hbuild
  obtain ⟨indexes, hidx, hbuild⟩ := bind_eq_ok hbuild
  obtain ⟨refs, href, hbuild⟩ := map_eq_ok hbuild
  cases hbuild
  obtain ⟨hfrom, hto⟩ := mapM_eq_ok_mem hidx
  have hperm := List.perm_insertionSort (fun a b : UInt32 × List UInt8 => a.1 ≤ b.1) indexes
  have hsorted := pairwise_insertionSort_key (f := fun x : UInt32 × List UInt8 => x.1.toNat)
    (fun a b => UInt32.le_iff_toNat_le) indexes
  generalize indexes.insertionSort (fun a b => a.1 ≤ b.1) = sorted at href hperm hsorted ⊢
  obtain ⟨hlen, hrows⟩ := arrayRefs_none_eq_ok hiv hsorted href
  set first := (sorted.head?.map Prod.fst).getD 0
  -- a row with the key sits at the key's offset from the first key
  have hrow_of : ∀ row ∈ rows, numericIndex row = .ok key →
      first ≤ key ∧ (key - first).toNat < valRefs.length := by
    intro row hrow hindex
    obtain ⟨x, hx, hentry⟩ := hto row hrow
    obtain ⟨hxindex, -⟩ := arrayTableIndex_eq_ok hentry
    rw [hindex, Except.ok.injEq] at hxindex
    obtain ⟨j, hj, rfl⟩ := List.mem_iff_getElem.mp (hperm.mem_iff.mpr hx)
    have hpos := (hrows j hj (hlen ▸ hj)).1
    rw [← hxindex] at hpos
    have hfirst : first ≤ key := UInt32.le_iff_toNat_le.mpr (by omega)
    refine ⟨hfirst, ?_⟩
    rw [UInt32.toNat_sub_of_le _ _ hfirst]
    omega
  unfold lookupKey_arr
  by_cases hout : valRefs.length = 0 ∨ key < first
  · rw [if_pos hout]
    refine .inr ⟨fun row hrow hindex => ?_, rfl⟩
    obtain ⟨hfirst, hoff⟩ := hrow_of row hrow hindex
    rcases hout with hzero | hlt
    · omega
    · exact absurd hfirst (UInt32.not_le.mpr hlt)
  · rw [if_neg hout]
    have hfirst : first ≤ key := UInt32.not_lt.mp fun hlt => hout (.inr hlt)
    by_cases hfar : valRefs.length ≤ (key - first).toNat
    · rw [if_pos hfar]
      refine .inr ⟨fun row hrow hindex => ?_, rfl⟩
      have := (hrow_of row hrow hindex).2
      omega
    · -- the row at the offset has the key as its index
      rw [if_neg hfar]
      have hi : (key - first).toNat < sorted.length := by omega
      obtain ⟨hpos, hval⟩ := hrows _ hi (by omega)
      have hoff : (key - first).toNat = key.toNat - first.toNat := UInt32.toNat_sub_of_le _ _ hfirst
      have hfirst' := UInt32.le_iff_toNat_le.mp hfirst
      have hkey : sorted[(key - first).toNat].1 = key := UInt32.toNat_inj.mp (by omega)
      obtain ⟨row, hrow, hentry⟩ := hfrom _ (hperm.mem_iff.mp (List.getElem_mem hi))
      obtain ⟨hindex, htext⟩ := arrayTableIndex_eq_ok hentry
      refine .inl ⟨row, hrow, hkey ▸ hindex, ?_⟩
      simp only [Lookup.internedVal, ht, List.getD_eq_getElem?_getD,
        List.getElem?_eq_getElem (show (key - first).toNat < valRefs.length by omega),
        Option.getD_some, hval, htext]

/-- What lookupBuildTable_v1 builds: a table of one of the four types from the file's rows, over
interned values sorted by ustrcmp. -/
theorem lookupBuildTable_v1_eq_ok {regcomp : List UInt8 → Bool} {file : LookupFile} {t : Lookup}
    (h : lookupBuildTable_v1 regcomp file = .ok t) :
    ∃ rows, file.table = some rows ∧ t.internedVals.Pairwise (fun a b => strKey a ≤ strKey b) ∧
      t.noMatch = file.noMatch.map (fun v => cString v.text) ∧
      (buildArrayTable t.internedVals rows = .ok t.tab ∨
        buildSparseArrayTable t.internedVals rows = .ok t.tab ∨
        buildRegexTable regcomp t.internedVals rows = .ok t.tab ∨
        buildStringTable t.internedVals rows = .ok t.tab) := by
  unfold lookupBuildTable_v1 at h
  split at h
  · cases h
  · next rows htable =>
    obtain ⟨allValues, -, h⟩ := bind_eq_ok h
    obtain ⟨tab, htab, h⟩ := bind_eq_ok h
    cases h
    refine ⟨rows, htable, internedVals_sorted allValues, rfl, ?_⟩
    -- the table type selects the builder
    unfold buildTable at htab
    split at htab
    · exact .inl htab
    · split at htab
      · exact .inr (.inl htab)
      · split at htab
        · exact .inr (.inr (.inl htab))
        · split at htab
          · exact .inr (.inr (.inr htab))
          · cases htab

theorem buildArrayTable_eq_ok {rows : List LookupRow} {tab : LookupTab}
    (h : buildArrayTable iv rows = .ok tab) : ∃ firstKey valRefs, tab = .arr firstKey valRefs := by
  unfold buildArrayTable at h
  obtain ⟨indexes, -, h⟩ := bind_eq_ok h
  obtain ⟨refs, -, h⟩ := map_eq_ok h
  exact ⟨_, _, h.symm⟩

theorem buildSparseArrayTable_eq_ok {rows : List LookupRow} {tab : LookupTab}
    (h : buildSparseArrayTable iv rows = .ok tab) : ∃ entries, tab = .sprsArr entries := by
  unfold buildSparseArrayTable at h
  obtain ⟨es, -, h⟩ := bind_eq_ok h
  cases h
  exact ⟨_, rfl⟩

theorem buildRegexTable_eq_ok {regcomp : List UInt8 → Bool} {rows : List LookupRow}
    {tab : LookupTab} (h : buildRegexTable regcomp iv rows = .ok tab) : ∃ entries, tab = .regex entries := by
  unfold buildRegexTable at h
  obtain ⟨es, -, h⟩ := bind_eq_ok h
  cases h
  exact ⟨_, rfl⟩

theorem buildStringTable_eq_ok {rows : List LookupRow} {tab : LookupTab}
    (h : buildStringTable iv rows = .ok tab) : ∃ entries, tab = .str entries := by
  unfold buildStringTable at h
  obtain ⟨es, -, h⟩ := bind_eq_ok h
  cases h
  exact ⟨_, rfl⟩

section Function

variable {regcomp : List UInt8 → Bool} (regexec : List UInt8 → List UInt8 → Bool) {file : LookupFile}
  {t : Lookup}

/-- lookup() on a table built from a file with a string index answers the value of a row whose
index is the argument read as a C string. -/
theorem doFunctLookup_str (hbuild : lookupBuildTable_v1 regcomp file = .ok t)
    {entries : List LookupStrEntry} (htab : t.tab = .str entries) (v : Svar) :
    ∃ rows, file.table = some rows ∧
      StringAnswer rows (var2CString v) (doFunctLookup regexec (some (some t)) v) t.defaultVal := by
  obtain ⟨rows, hrows, hiv, -, hb⟩ := lookupBuildTable_v1_eq_ok hbuild
  refine ⟨rows, hrows, ?_⟩
  have hlookup : doFunctLookup regexec (some (some t)) v = lookupKey_str t entries (var2CString v) := by
    simp [doFunctLookup, doFunctLookupKey, lookupKeyLocked, htab]
  rw [hlookup]
  rw [htab] at hb
  rcases hb with hb | hb | hb | hb
  · obtain ⟨_, _, h⟩ := buildArrayTable_eq_ok hb; cases h
  · obtain ⟨_, h⟩ := buildSparseArrayTable_eq_ok hb; cases h
  · obtain ⟨_, h⟩ := buildRegexTable_eq_ok hb; cases h
  · exact lookupKey_str_of_build hiv hb t rfl _

/-- lookup() on an array table answers for the argument's number reduced modulo 2^32: the value
of the row with that index. -/
theorem doFunctLookup_arr (hbuild : lookupBuildTable_v1 regcomp file = .ok t)
    {firstKey : UInt32} {valRefs : List ℕ} (htab : t.tab = .arr firstKey valRefs) (v : Svar) :
    ∃ rows, file.table = some rows ∧
      ArrayAnswer rows (UInt32.ofInt (var2Number v).1.toInt)
        (doFunctLookup regexec (some (some t)) v) t.defaultVal := by
  obtain ⟨rows, hrows, hiv, -, hb⟩ := lookupBuildTable_v1_eq_ok hbuild
  refine ⟨rows, hrows, ?_⟩
  have hlookup : doFunctLookup regexec (some (some t)) v =
      lookupKey_arr t firstKey valRefs (UInt32.ofInt (var2Number v).1.toInt) := by
    simp [doFunctLookup, doFunctLookupKey, lookupKeyLocked, htab]
  rw [hlookup]
  rw [htab] at hb
  rcases hb with hb | hb | hb | hb
  · exact lookupKey_arr_of_build hiv hb t rfl _
  · obtain ⟨_, h⟩ := buildSparseArrayTable_eq_ok hb; cases h
  · obtain ⟨_, h⟩ := buildRegexTable_eq_ok hb; cases h
  · obtain ⟨_, h⟩ := buildStringTable_eq_ok hb; cases h

/-- lookup() on a sparse array table answers for the argument's number reduced modulo 2^32: the
value of a row with the greatest index at or below it. -/
theorem doFunctLookup_sprsArr (hbuild : lookupBuildTable_v1 regcomp file = .ok t)
    {entries : List LookupSprsEntry} (htab : t.tab = .sprsArr entries) (v : Svar) :
    ∃ rows, file.table = some rows ∧
      SparseAnswer rows (UInt32.ofInt (var2Number v).1.toInt)
        (doFunctLookup regexec (some (some t)) v) t.defaultVal := by
  obtain ⟨rows, hrows, hiv, -, hb⟩ := lookupBuildTable_v1_eq_ok hbuild
  refine ⟨rows, hrows, ?_⟩
  have hlookup : doFunctLookup regexec (some (some t)) v =
      lookupKey_sprsArr t entries (UInt32.ofInt (var2Number v).1.toInt) := by
    simp [doFunctLookup, doFunctLookupKey, lookupKeyLocked, htab]
  rw [hlookup]
  rw [htab] at hb
  rcases hb with hb | hb | hb | hb
  · obtain ⟨_, _, h⟩ := buildArrayTable_eq_ok hb; cases h
  · exact lookupKey_sprsArr_of_build hiv hb t rfl _
  · obtain ⟨_, h⟩ := buildRegexTable_eq_ok hb; cases h
  · obtain ⟨_, h⟩ := buildStringTable_eq_ok hb; cases h

end Function

end Answers

theorem lookup_numericKey_wraps :
    (let file : LookupFile := ⟨some ⟨asciiBytes "none", 0⟩, some ⟨asciiBytes "sparseArray", 0⟩,
        some [⟨some ⟨asciiBytes "0", 0⟩, some ⟨asciiBytes "low", 0⟩, none, none⟩,
          ⟨some ⟨asciiBytes "10", 10⟩, some ⟨asciiBytes "high", 0⟩, none, none⟩]⟩;
      (lookupBuildTable_v1 (fun _ => true) file).toOption.map
          (fun t => doFunctLookup (fun _ _ => true) (some (some t)) (.num (-1))) =
        some (asciiBytes "high")) ∧
    (let file : LookupFile := ⟨some ⟨asciiBytes "none", 0⟩, some ⟨asciiBytes "array", 0⟩,
        some [⟨some ⟨asciiBytes "0", 0⟩, some ⟨asciiBytes "zero", 0⟩, none, none⟩]⟩;
      (lookupBuildTable_v1 (fun _ => true) file).toOption.map
          (fun t => doFunctLookup (fun _ _ => true) (some (some t)) (.num 4294967296)) =
        some (asciiBytes "zero")) := by
  decide +kernel

end Rsyslog
