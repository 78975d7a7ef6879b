/-
Srrdb.Server.IndexLookup — when an index changes the answer of a SELECT.

A SELECT takes its rows from an index only when its WHERE clause compares a
column with a literal: `extract_eq_conditions` also looks below an AND, but
`eval_where` rejects every row there, so both paths keep nothing. For a
comparison the index offers the rows whose key is the literal itself, and the
scan keeps the rows whose value equals it after coercion. The answers agree
exactly when no row is equal by coercion alone.
-/
import Srrdb.Server.RegisteredIndexes

namespace Srrdb.Server

open Srrdb.Engine Srrdb.Sql Srrdb.Lib

section Theory

variable [Host] [ExprDebug]

/-! ## Conditions -/

omit [Host] [ExprDebug] in
/-- A column reference on one side and a literal on the other. -/
def columnLiteral (e e' : Expr) : Option (String × Value) :=
  (extractColumnRef e).bind fun col => (evalConstExpr e').map fun v => (col, v)

omit [Host] [ExprDebug] in
/-- A comparison of a column with a literal, either way round. -/
def comparison? : Expr → Option (String × Value)
  | .binaryOp left .eq right => (columnLiteral left right).or (columnLiteral right left)
  | _ => none

omit [ExprDebug] in
theorem extractEqConditions_eq (left right : Expr) :
    extractEqConditions (.binaryOp left .eq right) =
      match comparison? (.binaryOp left .eq right) with
      | some (col, v) => (∅ : Std.ExtTreeMap String Value).insert (toLowercase col) v
      | none => ∅ := by
  have hadd : ∀ key v, addCondition ∅ key v = (∅ : Std.ExtTreeMap String Value).insert key v := by
    intro key v
    refine Std.ExtTreeMap.ext_getElem? fun k => ?_
    simp [addCondition, Std.ExtTreeMap.getElem?_insertIfNew, Std.ExtTreeMap.getElem?_insert]
  rw [extractEqConditions, extractEqConditionsRecursive, comparison?, columnLiteral, columnLiteral]
  cases extractColumnRef left <;> cases evalConstExpr right <;>
    cases extractColumnRef right <;> cases evalConstExpr left <;> simp [hadd]

omit [ExprDebug] in
/-- Only binary operators have conditions to extract. -/
theorem extractEqConditionsRecursive_atom (expr : Expr) :
    (∃ left op right, expr = .binaryOp left op right) ∨
      ∀ acc, extractEqConditionsRecursive acc expr = acc := by
  cases expr with
  | binaryOp left op right => exact .inl ⟨left, op, right, rfl⟩
  | _ => exact .inr fun acc => by rw [extractEqConditionsRecursive] <;> simp

/-- An operand that is a binary operator makes the whole an error. -/
theorem evalWhere_operand {columns : List Column} {values : List Value} {left right : Expr}
    {op : BinaryOperator} (h : (∃ a o b, left = .binaryOp a o b) ∨ ∃ a o b, right = .binaryOp a o b) :
    ∃ msg, evalWhere columns values (.binaryOp left op right) = .error (.err msg) := by
  rcases h with ⟨a, o, b, rfl⟩ | ⟨a, o, b, rfl⟩
  · rw [evalWhere]
    exact ⟨_, rfl⟩
  · rw [evalWhere]
    cases evalExpr columns values left with
    | error msg => exact ⟨msg, rfl⟩
    | ok lv => exact ⟨_, rfl⟩

/-- A WHERE clause gives no conditions, or is a comparison, or fails on every
row. -/
theorem extractEqConditions_cases (expr : Expr) :
    (comparison? expr = none ∧ extractEqConditions expr = ∅) ∨
      (∃ col v, comparison? expr = some (col, v) ∧
        extractEqConditions expr = (∅ : Std.ExtTreeMap String Value).insert (toLowercase col) v) ∨
      (comparison? expr = none ∧
        ∀ columns values, ∃ msg, evalWhere columns values expr = .error (.err msg)) := by
  cases expr with
  | binaryOp left op right =>
    cases op with
    | eq =>
      have hconds := extractEqConditions_eq left right
      cases hcmp : comparison? (.binaryOp left .eq right) with
      | none => exact .inl ⟨rfl, by rw [hconds, hcmp]⟩
      | some p => exact .inr (.inl ⟨p.1, p.2, rfl, by rw [hconds, hcmp]⟩)
    | and =>
      rcases extractEqConditionsRecursive_atom left with hl | hl
      · exact .inr (.inr ⟨rfl, fun _ _ => evalWhere_operand (.inl hl)⟩)
      · rcases extractEqConditionsRecursive_atom right with hr | hr
        · exact .inr (.inr ⟨rfl, fun _ _ => evalWhere_operand (.inr hr)⟩)
        · refine .inl ⟨rfl, ?_⟩
          rw [extractEqConditions, extractEqConditionsRecursive, hl, hr]
    | _ =>
      refine .inl ⟨rfl, ?_⟩
      rw [extractEqConditions, extractEqConditionsRecursive] <;> simp
  | _ =>
    refine .inl ⟨rfl, ?_⟩
    rw [extractEqConditions, extractEqConditionsRecursive] <;> simp

/-- A comparison is true or false of every row. -/
theorem evalWhere_comparison {expr : Expr} {col : String} {v : Value}
    (h : comparison? expr = some (col, v)) (columns : List Column) (values : List Value) :
    ∃ b, evalWhere columns values expr = .ok b := by
  -- both operands can be evaluated, whichever side the column is on
  have hoperands : ∀ e e', columnLiteral e e' = some (col, v) →
      (∃ w, evalExpr columns values e = .ok w) ∧ ∃ w, evalExpr columns values e' = .ok w := by
    intro e e' he
    obtain ⟨c, hc, hlit⟩ := Option.bind_eq_some_iff.mp he
    obtain ⟨w, hw, -⟩ := Option.map_eq_some_iff.mp hlit
    constructor
    · cases e with
      | identifier _ => exact ⟨_, rfl⟩
      | _ => cases hc
    · cases e' with
      | value _ => exact ⟨_, rfl⟩
      | _ => cases hw
  cases expr with
  | binaryOp left op right =>
    cases op with
    | eq =>
      have hsides : (∃ w, evalExpr columns values left = .ok w) ∧
          ∃ w, evalExpr columns values right = .ok w := by
        rcases Option.or_eq_some_iff.mp h with hl | ⟨-, hr⟩
        · exact hoperands left right hl
        · exact (hoperands right left hr).symm
      obtain ⟨⟨lv, hlv⟩, rv, hrv⟩ := hsides
      refine ⟨valuesEqual lv rv, ?_⟩
      rw [evalWhere, hlv, hrv]
      rfl
    | _ => cases h
  | _ => cases h

/-! ## The index of a comparison -/

omit [ExprDebug] in
/-- The index that answers comparisons of a column: the first over that column
alone. -/
def lookupIndex (indexes : List IndexDef) (col : String) : Option IndexDef :=
  indexes.find? fun idx =>
    !idx.columns.isEmpty && idx.columns.all fun cname => toLowercase cname = toLowercase col

omit [ExprDebug] in
theorem conditionKey_single (idx : IndexDef) (col : String) (v : Value) :
    conditionKey ((∅ : Std.ExtTreeMap String Value).insert (toLowercase col) v) idx =
      if (!idx.columns.isEmpty &&
          idx.columns.all fun cname => toLowercase cname = toLowercase col) = true then
        some (List.replicate idx.columns.length v)
      else none := by
  have hmap : ∀ cnames : List String,
      (cnames.mapM fun cname =>
        ((∅ : Std.ExtTreeMap String Value).insert (toLowercase col) v)[toLowercase cname]?) =
      if (cnames.all fun cname => toLowercase cname = toLowercase col) = true then
        some (List.replicate cnames.length v)
      else none := by
    intro cnames
    induction cnames with
    | nil => rfl
    | cons cname rest ih =>
      rw [List.mapM_cons, ih, Std.ExtTreeMap.getElem?_insert]
      by_cases hc : toLowercase cname = toLowercase col
      · rw [if_pos (Std.LawfulEqCmp.compare_eq_iff_eq.mpr hc.symm)]
        simp only [List.all_cons, hc, decide_true, Bool.true_and]
        split <;> rfl
      · rw [if_neg (fun h => hc (Std.LawfulEqCmp.compare_eq_iff_eq.mp h).symm)]
        simp [hc]
  rw [conditionKey, hmap]
  cases hcols : idx.columns with
  | nil => rfl
  | cons cname rest =>
    simp only [List.isEmpty_cons, Bool.not_false, Bool.true_and]
    split <;> rfl

omit [ExprDebug] in
/-- With the data of all indexes there, a comparison of an indexed column is
answered from its index. -/
theorem tryIndexLookup_comparison {s : Storage} {name : String} {indexes : List IndexDef}
    (hall : ∀ idx ∈ indexes, ∃ data, s.indexData[storageKey name idx.name]? = some data)
    {expr : Expr} {col : String} {v : Value}
    (hconds : extractEqConditions expr =
      (∅ : Std.ExtTreeMap String Value).insert (toLowercase col) v) :
    tryIndexLookup s name expr indexes = (lookupIndex indexes col).bind fun idx =>
      (s.indexData[storageKey name idx.name]?).map fun data =>
        data.lookupEq (List.replicate idx.columns.length v) := by
  have hne : ((∅ : Std.ExtTreeMap String Value).insert (toLowercase col) v).isEmpty = false := by
    simp
  rw [tryIndexLookup, hconds]
  simp only [hne, Bool.or_false]
  unfold lookupIndex
  induction indexes with
  | nil => rfl
  | cons idx rest ih =>
    have hrest := ih fun idx' h' => hall idx' (List.mem_cons_of_mem _ h')
    obtain ⟨data, hdata⟩ := hall idx List.mem_cons_self
    rw [if_neg (by simp), List.findSome?_cons, conditionKey_single, List.find?_cons]
    cases hcols : !idx.columns.isEmpty &&
        idx.columns.all fun cname => toLowercase cname = toLowercase col with
    | true => simp [hdata]
    | false =>
      rw [if_neg (by simp)]
      simp only
      rw [← hrest]
      cases rest <;> rfl

omit [ExprDebug] in
/-- The rows an exact index offers for a key are the rows with that key. -/
theorem candidates_perm {s : Storage} {name : String} {columns : List Column} {idx : IndexDef}
    {data : IndexData}
    (hexact : Exact data (fun row => getIndexKey row idx columns) (s.table name)) (key : Key) :
    ((data.lookupEq key).filterMap fun id => (s.getTable? name).bind fun t => t[id]?).Perm
      ((s.getRows name).filter fun row => getIndexKey row idx columns = key) := by
  simp only [Storage.getElem?_getTable?]
  refine (((exact_iff_holds.mp hexact).1 key).filterMap _).trans (.of_eq ?_)
  rw [Storage.getRows_eq, Table.keyEntries, Table.rows, List.filter_map, List.map_map,
    List.filterMap_map, List.filter_map]
  -- each id of the table leads back to its row
  have hrows : ∀ l : List (Nat × Row), (∀ p ∈ l, (s.table name)[p.1]? = some p.2) →
      l.filterMap (fun p => (s.table name)[p.1]?) = l.map (·.2) := by
    intro l hl
    rw [← List.filterMap_eq_map]
    exact List.filterMap_congr fun p hp => hl p hp
  exact hrows _ fun p hp => OrdMap.mem_toList.mp (List.mem_filter.mp hp).1

/-! ## The answers of the two paths -/

omit [Host] [ExprDebug] in
/-- The same rows, in any order, or the same error. -/
def SameAnswer : Outcome (List Row) → Outcome (List Row) → Prop
  | .ok rows, .ok rows' => rows.Perm rows'
  | .error x, .error y => x = y
  | _, _ => False

omit [Host] [ExprDebug] in
theorem SameAnswer.refl (a : Outcome (List Row)) : SameAnswer a a := by
  cases a with
  | ok rows => exact List.Perm.refl rows
  | error x => rfl

/-- A WHERE clause that is true or false of every row filters. -/
theorem selectRows_of_total {columns : List Column} (selection : Option Expr) {rows : List Row}
    (h : ∀ row ∈ rows, ∃ b, rowSelected columns selection row = .ok b) :
    selectRows columns selection rows = .ok (rows.filter (selects columns selection)) := by
  induction rows with
  | nil => rfl
  | cons row rest ih =>
    obtain ⟨b, hrow⟩ := h row List.mem_cons_self
    have hsel : selects columns selection row = b := by rw [selects, hrow]
    rw [selectRows, hrow, ih fun r hr => h r (List.mem_cons_of_mem _ hr), List.filter_cons, hsel]
    cases b <;> rfl

/-- The path of a SELECT through the indexes. -/
def indexAnswer (s : Storage) (name : String) (columns : List Column) (indexes : List IndexDef)
    (expr : Expr) : Outcome (List Row) :=
  selectRows columns (some expr) (candidateRows s name (some expr) indexes)

/-- The path of a SELECT over all rows. -/
def scanAnswer (s : Storage) (name : String) (columns : List Column) (expr : Expr) :
    Outcome (List Row) :=
  selectRows columns (some expr) (s.getRows name)

/-- The comparison holds of a stored row whose value in the indexed column is
not the literal but equals it by coercion: the index does not offer the row. -/
def LookupMisses (s : Storage) (name : String) (columns : List Column)
    (indexes : List IndexDef) (expr : Expr) : Prop :=
  ∃ col v idx, comparison? expr = some (col, v) ∧ lookupIndex indexes col = some idx ∧
    ∃ row ∈ s.getRows name, evalWhere columns row.values expr = .ok true ∧
      getIndexKey row idx columns ≠ List.replicate idx.columns.length v

theorem whereHolds_comparison {expr : Expr} {col : String} {v : Value}
    (h : comparison? expr = some (col, v)) (columns : List Column) (values : List Value) :
    ∃ b, whereHolds columns values expr = .ok b := by
  obtain ⟨b, hb⟩ := evalWhere_comparison h columns values
  exact ⟨b, by rw [whereHolds, hb]⟩

theorem scanAnswer_of_comparison {s : Storage} {name : String} {columns : List Column}
    {expr : Expr} {col : String} {v : Value} (h : comparison? expr = some (col, v)) :
    scanAnswer s name columns expr =
      .ok ((s.getRows name).filter (selects columns (some expr))) :=
  selectRows_of_total (some expr) fun row _ => whereHolds_comparison h columns row.values

omit [Host] [ExprDebug] in
/-- A filter before another loses nothing when the second implies the first. -/
theorem filter_filter_perm_iff {α : Type} {p q : α → Bool} {l : List α} {l' : List α}
    (hl' : l'.Perm (l.filter q)) :
    (l'.filter p).Perm (l.filter p) ↔ ∀ a ∈ l, p a = true → q a = true := by
  have hperm : (l'.filter p).Perm ((l.filter q).filter p) := hl'.filter p
  constructor
  · intro h a ha hp
    have hmem : a ∈ (l.filter q).filter p :=
      hperm.mem_iff.mp (h.mem_iff.mpr (List.mem_filter.mpr ⟨ha, hp⟩))
    exact (List.mem_filter.mp (List.mem_filter.mp hmem).1).2
  · intro h
    refine hperm.trans (.of_eq ?_)
    rw [List.filter_filter]
    refine List.filter_congr fun a ha => ?_
    cases hp : p a with
    | false => rfl
    | true => rw [h a ha hp]; rfl

/-- With exact indexes, the index path and the scan keep the same rows exactly
when the index misses none. -/
theorem indexAnswer_eq_scan_iff {s : Storage} {name : String} {columns : List Column}
    {indexes : List IndexDef} (hexact : ∀ idx ∈ indexes, IndexExact s name columns idx)
    (expr : Expr) :
    SameAnswer (indexAnswer s name columns indexes expr) (scanAnswer s name columns expr) ↔
      ¬ LookupMisses s name columns indexes expr := by
  have hall : ∀ idx ∈ indexes, ∃ data, s.indexData[storageKey name idx.name]? = some data :=
    fun idx hidx => (hexact idx hidx).imp fun _ h => h.1
  have hscan : tryIndexLookup s name expr indexes = none →
      SameAnswer (indexAnswer s name columns indexes expr) (scanAnswer s name columns expr) := by
    intro hnone
    have hrows : candidateRows s name (some expr) indexes = s.getRows name := by
      rw [candidateRows, Option.bind_some, hnone]
    rw [indexAnswer, hrows]
    exact SameAnswer.refl _
  have hnone : comparison? expr = none → ¬ LookupMisses s name columns indexes expr := by
    intro hcmp hmiss
    obtain ⟨col, v, idx, hcmp', -⟩ := hmiss
    rw [hcmp] at hcmp'
    cases hcmp'
  rcases extractEqConditions_cases expr with ⟨hcmp, hempty⟩ | ⟨col, v, hcmp, hconds⟩ | ⟨hcmp, herr⟩
  · -- no condition, no index
    refine iff_of_true (hscan ?_) (hnone hcmp)
    simp [tryIndexLookup, hempty]
  · cases hidx : lookupIndex indexes col with
    | none =>
      -- no index over the column
      refine iff_of_true (hscan ?_) ?_
      · rw [tryIndexLookup_comparison hall hconds, hidx, Option.bind_none]
      · intro hmiss
        obtain ⟨col', v', idx, hcmp', hidx', -⟩ := hmiss
        rw [hcmp] at hcmp'
        cases hcmp'
        rw [hidx] at hidx'
        cases hidx'
    | some idx =>
      obtain ⟨data, hdata, hex⟩ := hexact idx (List.mem_of_find?_eq_some hidx)
      have hids : tryIndexLookup s name expr indexes =
          some (data.lookupEq (List.replicate idx.columns.length v)) := by
        rw [tryIndexLookup_comparison hall hconds, hidx, Option.bind_some, hdata,
          Option.map_some]
      rw [indexAnswer, candidateRows, Option.bind_some, hids, scanAnswer_of_comparison hcmp,
        selectRows_of_total (some expr) fun row _ => whereHolds_comparison hcmp columns row.values]
      refine (filter_filter_perm_iff (candidates_perm hex _)).trans ?_
      constructor
      · intro hall hmiss
        obtain ⟨col', v', idx', hcmp', hidx', row, hrow, hholds, hkey⟩ := hmiss
        rw [hcmp] at hcmp'
        cases hcmp'
        rw [hidx] at hidx'
        cases hidx'
        exact hkey (of_decide_eq_true (hall row hrow (selects_iff.mpr hholds)))
      · intro hno row hrow hsel
        by_contra hkey
        exact hno ⟨col, v, idx, hcmp, hidx, row, hrow, selects_iff.mp hsel, by simpa using hkey⟩
  · -- the clause fails on every row, on either path
    refine iff_of_true ?_ (hnone hcmp)
    have hfalse : ∀ row : Row, whereHolds columns row.values expr = .ok false := by
      intro row
      obtain ⟨msg, hmsg⟩ := herr columns row.values
      rw [whereHolds, hmsg]
    have hsel : ∀ row, selects columns (some expr) row = false := by
      intro row
      rw [selects, rowSelected, hfalse]
    have hnil : ∀ rows, selectRows columns (some expr) rows = .ok [] := by
      intro rows
      rw [selectRows_of_total (some expr) fun row _ => ⟨false, hfalse row⟩]
      simp [hsel]
    rw [indexAnswer, scanAnswer, hnil, hnil]
    exact SameAnswer.refl _

end Theory

section Concrete

attribute [local instance] asciiHost plainDebug bincode1

instance (a b : Outcome (List Row)) : Decidable (SameAnswer a b) := by
  unfold SameAnswer
  split <;> infer_instance

/-- `SELECT * FROM name WHERE selection`. -/
def selectFrom (name : String) (selection : Option Expr) : Statement :=
  .query ⟨.select ⟨[.wildcard], [.table [name]], selection⟩, none, none, none⟩

/-- A text column with the text `1` in it. -/
def textTable : Executor :=
  ((Executor.ofMemory .new none).after
    (callIn "srrdb" (.createTable ⟨["t"], [⟨"a", .varchar, []⟩], false⟩))).after
      (callIn "srrdb" (.insert ⟨.tableName ["t"], [],
        some ⟨.values [[.value (.singleQuotedString "1")]], none, none, none⟩⟩))

def textIndexed : Executor := textTable.after (callIn "srrdb" (indexOn false "i" "t" ["a"]))

def textColumns : List Column := [.new "a" "t" .varChar]

def textIndex : IndexDef := ⟨"i", .bTree, "t", ["a"], false⟩

theorem textIndexed_exact :
    ∀ idx ∈ [textIndex], IndexExact textIndexed.storage.value "t" textColumns idx := by
  have hmaint : Maintainable textTable :=
    Reachable.maintainable (((Reachable.fresh none).after _).after _) (by decide +kernel)
      (by decide +kernel) (by decide +kernel)
  have hresult : (callIn "srrdb" (indexOn false "i" "t" ["a"])).result textTable = .ok .ok := by
    decide +kernel
  have heffect := (callIn "srrdb" (indexOn false "i" "t" ["a"])).effect textTable
  rw [hresult] at heffect
  obtain ⟨tableDef, hreg, hexact⟩ := createIndex_exact hmaint heffect
  have htable : textIndexed.catalog.value.findTable "srrdb" "t" = some ⟨"t", textColumns⟩ := by
    decide +kernel
  obtain rfl : tableDef = ⟨"t", textColumns⟩ := Option.some.inj (hreg.table.symm.trans htable)
  intro idx hidx
  obtain rfl := List.mem_singleton.mp hidx
  exact hexact

/-- The row is equal to the number 1 by coercion, so the scan keeps it; its key
is the text, so the index does not offer it. A SELECT loses the row when the
index is created. -/
theorem textIndexed_loses_row :
    (∀ idx ∈ [textIndex], IndexExact textIndexed.storage.value "t" textColumns idx) ∧
      ¬ SameAnswer (indexAnswer textIndexed.storage.value "t" textColumns [textIndex]
          (columnIs "a" "1"))
        (scanAnswer textIndexed.storage.value "t" textColumns (columnIs "a" "1")) ∧
      (callIn "srrdb" (selectFrom "t" (some (columnIs "a" "1")))).result textTable =
        .ok (.rows textColumns [⟨0, [.text "1"]⟩]) ∧
      (callIn "srrdb" (selectFrom "t" (some (columnIs "a" "1")))).result textIndexed =
        .ok (.rows textColumns []) :=
  ⟨textIndexed_exact, by decide +kernel, by decide +kernel, by decide +kernel⟩

theorem textIndexed_answers :
    SameAnswer (indexAnswer textIndexed.storage.value "t" textColumns [textIndex]
        (columnIs "a" "1"))
      (scanAnswer textIndexed.storage.value "t" textColumns (columnIs "a" "1")) ↔
      ¬ LookupMisses textIndexed.storage.value "t" textColumns [textIndex] (columnIs "a" "1") :=
  indexAnswer_eq_scan_iff textIndexed_exact _

end Concrete

end Srrdb.Server
