/-
Srrdb.Server.RowWidth — when rows have one value for each column.

An INSERT with a column list builds its rows to the width of the table. One
without takes the values as they come: a row that is too short panics, one that
is too long is stored. Rows are stored by table name alone and DROP DATABASE
leaves them, so another table definition may meet them later. `KeepsWidth` says
which statements keep `RowsFit`; `selectFits` is what the readers get from it.
-/
import Srrdb.Engine.Projection
import Srrdb.Server.Contents
import Srrdb.Server.LogOrder

namespace Srrdb.Server

open Srrdb.Engine Srrdb.Sql Srrdb.Lib

section Theory

variable [Host]

/-! ## The invariant -/

/-- Every row stored under the name of a table is as wide as the table. -/
def FitIn (c : Catalog) (table : String → Table) : Prop :=
  ∀ db name tableDef, c.findTable db name = some tableDef →
    ∀ values ∈ tableValues (table name), values.length = tableDef.columns.length

/-- The rows of every table of the catalog fit it. -/
def RowsFit (e : Executor) : Prop := FitIn e.catalog.value e.storage.value.table

/-- Every result of a SELECT has rows as wide as its columns. -/
def SelectsFit [ExprDebug] (e : Executor) : Prop :=
  ∀ db query columns rows, ((executeQuery db query).run e).1 = .ok (.rows columns rows) →
    ∀ row ∈ rows, row.values.length = columns.length

/-- The statement, in this state, stores no row, and defines no table over rows,
of another width. -/
def KeepsWidth [ExprDebug] (e : Executor) (call : Call) : Prop :=
  e.catalog.poisoned = false →
  match call.stmt with
  | .createTable ct => NameFree e.catalog.value call.db (nameToString ct.name) →
      ∀ values ∈ tableValues (e.storage.value.table (nameToString ct.name)),
        values.length = ct.columns.length
  | .insert ins => e.storage.poisoned = false → ∀ tableDef rows,
      e.catalog.value.getTable call.db (tableObjectName ins.table) = .ok tableDef →
      sourceRows tableDef.columns ins.columns ins.source = .ok rows →
      Wide tableDef.columns rows → ∀ db tableDef',
        e.catalog.value.findTable db (tableObjectName ins.table) = some tableDef' →
        ∀ row ∈ rows, row.values.length = tableDef'.columns.length
  | _ => True

/-! ## One statement -/

theorem FitIn.of_tables {c c' : Catalog} {table : String → Table} (h : FitIn c table)
    (hwithin : TablesWithin c c') : FitIn c' table :=
  fun db name tableDef ht => h db name tableDef (hwithin db name tableDef ht)

/-- It is enough to look at the tables listed. -/
theorem FitIn.of_listing {c : Catalog} {s : Storage} (h : ∀ t ∈ c.listing,
    ∀ values ∈ tableValues (s.table t.1), values.length = t.2.1.columns.length) :
    FitIn c s.table := by
  intro db name tableDef ht values hv
  rw [← Storage.table_sameName s (normalize_normalize name)] at hv
  exact h _ (Catalog.mem_listing ht) values hv

/-- The rows of one table replaced by rows that fit. -/
theorem FitIn.replace {c : Catalog} {s : Storage} {tableName : String} {t : Table}
    (h : FitIn c s.table) (hnew : ∀ db tableDef, c.findTable db tableName = some tableDef →
      ∀ values ∈ tableValues t, values.length = tableDef.columns.length) :
    FitIn c (replaceTable s tableName t) := by
  intro db name tableDef ht
  unfold replaceTable
  split
  · next hname =>
    rw [← Catalog.findTable_sameName rfl hname] at ht
    exact hnew db tableDef ht
  · exact h db name tableDef ht

variable [ExprDebug]

omit [Host] in
theorem length_createColumns (tableName : String) (columns : List ColumnDef) :
    (createColumns tableName columns).length = columns.length :=
  List.length_map _

omit [Host] [ExprDebug] in
/-- The rows that were filled in are as wide as before. -/
theorem length_of_mem_filled {columns : List Column} {rows filled : List Row}
    (h : SuppliedRows columns rows filled) {row : Row} (hrow : row ∈ filled) :
    ∃ row' ∈ rows, row.values.length = row'.values.length := by
  induction h with
  | nil => cases hrow
  | @cons row₀ row₁ rows₀ rows₁ hab _ ih =>
    rcases List.mem_cons.mp hrow with rfl | hrow
    · exact ⟨row₀, List.mem_cons_self, hab.2.1⟩
    · obtain ⟨row', hmem, hlen⟩ := ih hrow
      exact ⟨row', List.mem_cons_of_mem _ hmem, hlen⟩

theorem FitIn.after {e : Executor} (hcons : e.storage.value.Consistent) {call : Call}
    {c : Catalog} {table : String → Table} (h : RowsFit e) (hkeeps : KeepsWidth e call)
    (halters : Alters e call c table) : FitIn c table := by
  have h : FitIn e.catalog.value e.storage.value.table := h
  cases halters with
  | nothing => exact h
  | @createTable env db ct c hc hcreated =>
    intro db' name tableDef ht
    rw [Catalog.findTable_createTable hcreated] at ht
    split at ht
    · next hsame =>
      cases ht
      rw [← Storage.table_sameName _ hsame.2, length_createColumns]
      exact hkeeps hc (Catalog.createTable_isOk.mp ⟨c, hcreated⟩)
    · exact h db' name tableDef ht
  | dropTable hc hdropped hst =>
    refine (h.of_tables (tablesWithin_dropTable hdropped)).replace fun db' tableDef ht values hv => ?_
    rw [tableValues_empty] at hv
    cases hv
  | dropTableOnly hc hdropped hst => exact h.of_tables (tablesWithin_dropTable hdropped)
  | insert hc ht hs hf hst =>
    obtain ⟨hwide, rfl, hsup⟩ := fillRows_eq_ok hf
    refine FitIn.of_tables (h.replace fun db' tableDef' ht' values hv => ?_)
      (tablesWithin_congr (Catalog.draw_databases _))
    rcases List.mem_append.mp ((tableValues_insert hcons hs hf).mem_iff.mp hv) with hv | hv
    · obtain ⟨row, hrow, rfl⟩ := List.mem_map.mp hv
      obtain ⟨row', hrow', hlen⟩ := length_of_mem_filled hsup hrow
      rw [hlen]
      exact hkeeps hc hst _ _ ht hs hwide db' tableDef' ht' row' hrow'
    · exact h db' _ tableDef' ht' values hv
  | insertFails hc ht hs =>
    exact h.of_tables (tablesWithin_congr (fillRows_databases _ _ _ _ _ _ _))
  | delete hc ht hget hsel hst =>
    refine h.replace fun db' tableDef' ht' values hv => ?_
    have hv := (tableValues_delete (hcons.keyed hget) hsel).mem_iff.mp hv
    refine h db' _ tableDef' ht' values ?_
    rw [Storage.table_of_getTable? hget]
    exact (List.filter_sublist.map _).mem hv
  | @update env db tf assignments selection tableDef assigns t rows hc ht ha hget hsel hst =>
    refine h.replace fun db' tableDef' ht' values hv => ?_
    have hkeyed := hcons.keyed hget
    have hold := h db' _ tableDef' ht'
    rw [Storage.table_of_getTable? hget] at hold
    rcases List.mem_append.mp ((tableValues_update _ hkeyed hsel).mem_iff.mp hv) with hv | hv
    · obtain ⟨row, hrow, rfl⟩ := List.mem_map.mp hv
      rw [length_assignValues]
      refine hold row.values (List.mem_map_of_mem ?_)
      exact hkeyed.mem_rows.mpr (getElem?_of_selected hkeyed hsel hrow)
    · exact hold values ((List.filter_sublist.map _).mem hv)
  | createIndex hc hcols hcreated => exact h.of_tables (tablesWithin_createIndex hcreated)
  | dropIndex hc hdropped => exact h.of_tables (tablesWithin_dropIndex hdropped)
  | createDatabase hc => exact h.of_tables (tablesWithin_createDatabase _)
  | dropDatabase hc hremoved => exact h.of_tables (tablesWithin_removeDatabase hremoved)

/-! ## SELECT -/

omit [Host] [ExprDebug] in
/-- A projected row is as wide as the projected columns if the row it comes
from is as wide as the table. -/
theorem length_projectRow (projection : List SelectItem) {columns : List Column}
    {values : List Value} (tableName : String) (h : values.length = columns.length) :
    (projectRow projection columns values).length =
      (projection.flatMap (projectColumns columns tableName)).length :=
  (projection_lines_up h tableName projection).2.1.trans
    (projection_lines_up h tableName projection).1.symm

omit [Host] [ExprDebug] in
theorem mem_sortRows {rows : List Row} {orderBy : List OrderByExpr} {columns : List Column}
    {row : Row} (h : row ∈ sortRows rows orderBy columns) : row ∈ rows := by
  have hperm : (sortRows rows orderBy columns).Perm rows := by
    unfold sortRows
    refine foldl_keeps (I := fun sorted => List.Perm sorted rows) (fun sorted ob _ hs => ?_) (.refl _)
    split
    · split
      · exact (List.mergeSort_perm _ _).trans hs
      · exact hs
    · exact hs
  exact hperm.mem_iff.mp h

omit [ExprDebug] in
/-- An index offers stored rows only. -/
theorem mem_candidateRows {s : Storage} {name : String} {selection : Option Expr}
    {indexes : List IndexDef} {row : Row} (h : row ∈ candidateRows s name selection indexes) :
    row ∈ (s.table name).rows := by
  unfold candidateRows at h
  split at h
  · obtain ⟨id, -, hget⟩ := List.mem_filterMap.mp h
    obtain ⟨t, ht, hrow⟩ := Option.bind_eq_some_iff.mp hget
    rw [Storage.table_of_getTable? ht]
    exact List.mem_map.mpr ⟨(id, row), OrdMap.mem_toList.mpr hrow, rfl⟩
  · rwa [Storage.getRows_eq] at h

omit [Host] [ExprDebug] in
/-- A row of the result is the projection of a row that was selected. -/
theorem mem_finishQuery {query : Query} {select : Select} {columns : List Column}
    {rows : List Row} {row : Row} (h : row ∈ finishQuery query select columns rows) :
    ∃ found ∈ rows, row.values = projectRow select.projection columns found.values := by
  obtain ⟨sorted, hrow, hsorted⟩ : ∃ sorted : List Row,
      (row ∈ sorted.map fun row : Row =>
        (⟨0, projectRow select.projection columns row.values⟩ : Row)) ∧
      ∀ found ∈ sorted, found ∈ rows := by
    unfold finishQuery at h
    simp only at h
    apply Exists.intro
    constructor
    -- LIMIT and OFFSET
    · split at h
      · exact List.mem_of_mem_drop (List.mem_of_mem_take h)
      · exact List.mem_of_mem_drop h
    · intro found hfound
      split at hfound
      · exact mem_sortRows hfound
      · exact hfound
  obtain ⟨found, hfound, rfl⟩ := List.mem_map.mp hrow
  exact ⟨found, hsorted found hfound, rfl⟩

/-- Where the rows fit their tables, so do the results of SELECT. -/
theorem RowsFit.selects {e : Executor} (h : RowsFit e) : SelectsFit e := by
  intro db query columns rows hrun row hrow
  cases hbody : query.body with
  | select select =>
    cases hfrom : select.fromTables with
    | nil =>
      have hnone : ((executeQuery db query).run e).1 = .ok (.rows [] []) := by
        unfold executeQuery
        simp only [hbody, hfrom]
        rfl
      rw [hnone] at hrun
      cases hrun
      cases hrow
    | cons table rest =>
      rw [run_select hbody hfrom] at hrun
      simp only at hrun
      split at hrun
      · cases hrun
      · split at hrun
        · cases hrun
        · next tableDef ht =>
          split at hrun
          · cases hrun
          · cases hsel : selectRows tableDef.columns select.selection
              (candidateRows e.storage.value (tableFactorName table) select.selection
                (e.catalog.value.getTableIndexes db (tableFactorName table))) with
            | error x => rw [hsel] at hrun; cases hrun
            | ok found =>
              rw [hsel] at hrun
              cases hrun
              obtain ⟨found', hfound, hvalues⟩ := mem_finishQuery hrow
              rw [selectRows_eq_filter hsel] at hfound
              have hstored := mem_candidateRows (List.mem_filter.mp hfound).1
              rw [hvalues]
              exact length_projectRow _ _ (h db _ tableDef (Catalog.getTable_ok_iff.mp ht)
                found'.values (List.mem_map_of_mem hstored))
  | values rows =>
    unfold executeQuery at hrun
    simp only [hbody] at hrun
    cases hrun
  | other =>
    unfold executeQuery at hrun
    simp only [hbody] at hrun
    cases hrun

/-! ## Runs -/

variable [Bincode]

/-- In a run whose statements keep the width, rows fit their tables in every
state, and so do the results of SELECT. -/
theorem rows_fit {e : Executor} (he : Reachable e) (hfit : RowsFit e) {calls : List Call}
    (hrun : Every Executor.after KeepsWidth e calls) :
    Every Executor.after (fun e call => RowsFit (e.after call) ∧ SelectsFit (e.after call)) e
      calls := by
  have hstep : ∀ e call, Reachable e ∧ RowsFit e → KeepsWidth e call →
      Reachable (e.after call) ∧ RowsFit (e.after call) := by
    intro e call ⟨he, hfit⟩ hkeeps
    exact ⟨he.after call, FitIn.after he.consistent hfit hkeeps (after_alters e call)⟩
  refine Every.of_invariant hstep (fun e call hinv hkeeps => ?_) ⟨he, hfit⟩ hrun
  have hafter := (hstep e call hinv hkeeps).2
  exact ⟨hafter, hafter.selects⟩

end Theory

/-! ## A row that is too long, and a run without one -/

section Concrete

attribute [local instance] asciiHost plainDebug bincode1

/-- `SELECT * FROM name`. -/
def selectAll (name : String) : Query :=
  ⟨.select ⟨[.wildcard], [.table [name]], none⟩, none, none, none⟩

/-- The table `t` of the database `d` had a row when `d` was dropped, and now
there is a wider table `t` in `srrdb`. -/
def leftoverRow : Executor :=
  [callIn "srrdb" (.createDatabase ["d"] false), callIn "d" (intTable "t" ["a"]),
    callIn "d" (insertNumbers "t" [["1"]]), callIn "srrdb" (.drop .database [["d"]] false),
    callIn "srrdb" (intTable "t" ["a", "b"])].foldl Executor.after (.ofMemory .new none)

theorem leftoverRow_reachable : Reachable leftoverRow :=
  (((((Reachable.fresh none).after _).after _).after _).after _).after _

/-- INSERT stores a value too many, and DROP DATABASE leaves rows to a table of
another width: SELECT returns rows that do not have its columns. -/
theorem longRow_stored :
    Reachable (oneRow.after (callIn "srrdb" (insertNumbers "t" [["2", "3"]]))) ∧
      (callIn "srrdb" (insertNumbers "t" [["2", "3"]])).result oneRow = .ok (.affected 1 0) ∧
      ¬ RowsFit (oneRow.after (callIn "srrdb" (insertNumbers "t" [["2", "3"]]))) ∧
      ((executeQuery "srrdb" (selectAll "t")).run
        (oneRow.after (callIn "srrdb" (insertNumbers "t" [["2", "3"]])))).1 =
          .ok (.rows [.new "a" "t" .long] [⟨0, [.int 1]⟩, ⟨0, [.int 2, .int 3]⟩]) ∧
      Reachable leftoverRow ∧ ¬ RowsFit leftoverRow ∧
      ((executeQuery "srrdb" (selectAll "t")).run leftoverRow).1 =
        .ok (.rows [.new "a" "t" .long, .new "b" "t" .long] [⟨0, [.int 1]⟩]) := by
  refine ⟨oneRow_reachable.after _, by decide +kernel, fun h => ?_, by decide +kernel,
    leftoverRow_reachable, fun h => ?_, by decide +kernel⟩
  · have hwidth := h "srrdb" "t" ⟨"t", [.new "a" "t" .long]⟩ (by decide +kernel)
    revert hwidth
    decide +kernel
  · have hwidth := h "srrdb" "t" ⟨"t", [.new "a" "t" .long, .new "b" "t" .long]⟩
      (by decide +kernel)
    revert hwidth
    decide +kernel

/-- The statements of a run whose rows fit. -/
def fittingRun : List Call :=
  [callIn "srrdb" (insertNumbers "t" [["2"]]), callIn "srrdb" (updateSet "t" "a" "3" none)]

theorem fittingRun_keepsWidth : Every Executor.after KeepsWidth oneRow fittingRun := by
  refine ⟨fun _ _ tableDef rows ht hs _ db tableDef' ht' row hrow => ?_, fun _ => trivial, trivial⟩
  have hdef : oneRow.catalog.value.getTable "srrdb" "t" = .ok ⟨"t", [.new "a" "t" .long]⟩ := by
    decide +kernel
  obtain rfl := Except.ok.inj (ht.symm.trans hdef)
  have hrows : sourceRows [.new "a" "t" .long] [] (some ⟨.values [[numberExpr "2"]], none, none,
      none⟩) = .ok [⟨0, [.int 2]⟩] := by decide +kernel
  obtain rfl := Except.ok.inj (hs.symm.trans hrows)
  obtain rfl := List.mem_singleton.mp hrow
  have hlisted : ∀ t ∈ oneRow.catalog.value.listing, 1 = t.2.1.columns.length := by decide +kernel
  exact hlisted _ (Catalog.mem_listing ht')

theorem fittingRun_fits :
    Every Executor.after (fun e call => RowsFit (e.after call) ∧ SelectsFit (e.after call)) oneRow
      fittingRun :=
  rows_fit oneRow_reachable (FitIn.of_listing (by decide +kernel)) fittingRun_keepsWidth

end Concrete

end Srrdb.Server
