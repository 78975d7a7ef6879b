/-
Srrdb.Engine.ErrorPaths — what a statement that returns an error leaves behind.

A handler that fails before its first change leaves no trace. Four handlers
can fail after it: CREATE INDEX finds a duplicate key, or meets a poisoned
storage, when the index is already registered; DROP INDEX, DROP TABLE and an
INSERT that drew a sequence value meet a poisoned storage when the catalog is
already changed. `FailsLate` names these statements in terms of the state
before them, and `failsCleanly_iff` says they are the only ones.
-/
import Srrdb.Engine.Defaults
import Srrdb.Engine.IndexTheorems
import Srrdb.Lib.Run

namespace Srrdb.Engine

open Srrdb.Sql Srrdb.Lib

section Theory

variable [Host] [ExprDebug] [Bincode]

/-! ## Memory after an error -/

/-- If the statement returns an error, catalog and storage are as before it. -/
def FailsCleanly (e : Executor) (call : Call) : Prop :=
  ∀ msg, call.result e = failed msg → (e.after call).memory = e.memory

/-- The INSERT draws a sequence value and would be stored. -/
def DrawsSequence (e : Executor) (db : String) (ins : Insert) : Prop :=
  ∃ tableDef rows, e.catalog.value.getTable db (tableObjectName ins.table) = .ok tableDef ∧
    sourceRows tableDef.columns ins.columns ins.source = .ok rows ∧
    Wide tableDef.columns rows ∧ drawnRows tableDef.columns rows ≠ 0

/-- The index of a CREATE INDEX would be registered on this table: it has a
column and no index of the table has its name. -/
def RegistersIndex (e : Executor) (db : String) (ci : CreateIndex) (tableDef : TableDef) : Prop :=
  let tableName := nameToString ci.tableName
  indexColumns ci ≠ [] ∧ e.catalog.value.getTable db tableName = .ok tableDef ∧
    hasIndex (e.catalog.value.getTableIndexes db tableName) (indexName tableName ci) = false

/-- Two rows of the table share a key of the unique index. -/
def FindsDuplicate (e : Executor) (ci : CreateIndex) (tableDef : TableDef) : Prop :=
  let tableName := nameToString ci.tableName
  ci.unique = true ∧ DuplicateKeys (newIndexDef tableName ci) tableDef.columns
    (e.storage.value.getRows tableName)

/-- The DROP INDEX would remove an index of this table from the catalog. -/
def UnregistersIndex (e : Executor) (call : Call) (names : List ObjectName) (tableName : String) :
    Prop :=
  findIndexTable call.env call.db (firstName names) e.catalog.value = some tableName ∧
    hasIndex (e.catalog.value.getTableIndexes call.db tableName) (firstName names) = true

/-- The statement changes the catalog and only then meets its error. -/
def FailsLate (e : Executor) (call : Call) : Prop :=
  e.catalog.poisoned = false ∧
  match call.stmt with
  | .insert ins => e.storage.poisoned = true ∧ DrawsSequence e call.db ins
  | .createIndex ci => ∃ tableDef, RegistersIndex e call.db ci tableDef ∧
      (e.storage.poisoned = true ∨ FindsDuplicate e ci tableDef)
  | .drop .index names _ => e.storage.poisoned = true ∧
      ∃ tableName, UnregistersIndex e call names tableName
  | .drop .table names _ =>
      e.storage.poisoned = true ∧ e.catalog.value.tableExists call.db (firstName names) = true
  | _ => False

omit [ExprDebug] [Bincode] in
theorem registersIndex_iff {e : Executor} {db : String} {ci : CreateIndex} {tableDef : TableDef} :
    RegistersIndex e db ci tableDef ↔ indexColumns ci ≠ [] ∧
      e.catalog.value.getTable db (nameToString ci.tableName) = .ok tableDef ∧
      ∃ c, e.catalog.value.createIndex db (newIndexDef (nameToString ci.tableName) ci) = .ok c := by
  unfold RegistersIndex
  rw [Catalog.createIndex_isOk]
  refine and_congr_right fun _ => and_congr_right fun ht => ?_
  exact (and_iff_right (Catalog.tableExists_of_getTable ht)).symm

/-! ### Changes to the catalog are visible -/

omit [ExprDebug] [Bincode] in
theorem createIndex_ne_self {c c' : Catalog} {db : String} {indexDef : IndexDef}
    (h : c.createIndex db indexDef = .ok c') : c' ≠ c := by
  intro heq
  have hidx := Catalog.getTableIndexes_createIndex h db indexDef.tableName
  rw [if_pos ⟨rfl, rfl⟩, heq] at hidx
  simp at hidx

omit [ExprDebug] [Bincode] in
theorem dropIndex_ne_self {c c' : Catalog} {db indexName tableName : String}
    (h : c.dropIndex db indexName tableName = .ok c') : c' ≠ c := by
  intro heq
  obtain ⟨d, pos, -, hpos, -⟩ := Catalog.dropIndex_ok h
  have hidx := Catalog.getTableIndexes_dropIndex h db tableName
  rw [if_pos ⟨rfl, rfl⟩, heq] at hidx
  obtain ⟨hlt, -⟩ := List.findIdx?_eq_some_iff_getElem.mp hpos
  have hfind : ((c.getTableIndexes db tableName).findIdx fun i =>
      eqIgnoreAsciiCase i.name indexName) = _ := List.findIdx_eq_getD_findIdx?
  rw [hpos, Option.getD_some] at hfind
  have hlen := congrArg List.length hidx
  rw [hfind, List.length_eraseIdx_of_lt hlt] at hlen
  omega

omit [ExprDebug] [Bincode] in
theorem dropTable_ne_self {c c' : Catalog} {db tableName : String}
    (h : c.dropTable db tableName = .ok c') : c' ≠ c := by
  intro heq
  obtain ⟨d, t, hd, ht, -⟩ := Catalog.dropTable_ok h
  have hfind := Catalog.findTable_dropTable h db tableName
  rw [if_pos ⟨rfl, rfl⟩, heq, Catalog.findTable, hd, Option.bind_some, ht] at hfind
  cases hfind

omit [Host] [ExprDebug] [Bincode] in
/-- Two memories that differ in the catalog. -/
theorem memory_ne {c : Catalog} {s : Storage} {m : Memory} (h : c ≠ m.catalog) :
    (⟨c, s⟩ : Memory) ≠ m := by
  rintro rfl
  exact h rfl

omit [ExprDebug] [Bincode] in
theorem tableExists_toLowercase {c : Catalog} {db tableName : String} :
    c.tableExists db (toLowercase tableName) = c.tableExists db tableName := by
  simp only [Catalog.tableExists, normalize_toLowercase]

omit [ExprDebug] [Bincode] in
/-- DROP TABLE folds the name before it asks for the table. -/
theorem tableExists_of_dropTable {c c' : Catalog} {db tableName : String}
    (h : c.dropTable db (toLowercase tableName) = .ok c') : c.tableExists db tableName = true := by
  rw [← tableExists_toLowercase]
  exact Catalog.dropTable_isOk.mp ⟨c', h⟩

/-! ### Statement by statement -/

/-- The property of the result and the server a statement leaves. -/
def CleanAfter (e : Executor) (r : Outcome ExecuteResult) (e' : Executor) : Prop :=
  ∀ msg, r = failed msg → e'.memory = e.memory

omit [Host] [ExprDebug] [Bincode] in
theorem cleanAfter_of_eq {e e' : Executor} {r : Outcome ExecuteResult}
    (h : e'.memory = e.memory) : CleanAfter e r e' :=
  fun _ _ => h

omit [Host] [ExprDebug] [Bincode] in
theorem cleanAfter_of_ok {e e' : Executor} {a : ExecuteResult} : CleanAfter e (.ok a) e' :=
  fun _ h => by cases h

omit [Host] [ExprDebug] [Bincode] in
theorem cleanAfter_of_panic {e e' : Executor} : CleanAfter e (.error .panic) e' :=
  fun _ h => by cases h

omit [Host] [ExprDebug] [Bincode] in
theorem not_cleanAfter {e e' : Executor} {msg : String} (h : e'.memory ≠ e.memory) :
    ¬ CleanAfter e (failed msg) e' :=
  fun hclean => h (hclean msg rfl)

omit [Bincode] in
/-- A locked catalog stops every statement before it does anything. -/
theorem cleanAfter_of_locked {e : Executor} {call : Call} {r : Outcome ExecuteResult}
    (hc : e.catalog.poisoned = true) : CleanAfter e r e ↔ ¬ FailsLate e call :=
  iff_of_true (cleanAfter_of_eq rfl) fun hl => absurd (hc.symm.trans hl.1) (by decide)

theorem insert_cleanAfter {env : Env} {db : String} {ins : Insert} {e e' : Executor}
    {r : Outcome ExecuteResult}
    (h : InsertOutcome env db (tableObjectName ins.table) ins.columns ins.source e r e') :
    CleanAfter e r e' ↔ ¬ FailsLate e ⟨env, db, .insert ins⟩ := by
  cases h with
  | locked hc => exact cleanAfter_of_locked hc
  | noTable hc h =>
    refine iff_of_true (cleanAfter_of_eq rfl) ?_
    intro hl
    obtain ⟨-, -, t, rows, ht, -⟩ := hl
    rw [h] at ht
    cases ht
  | badSource hc h hs =>
    refine iff_of_true (cleanAfter_of_eq rfl) ?_
    intro hl
    obtain ⟨-, -, t, rows, ht, hrows, -⟩ := hl
    rw [h] at ht
    cases ht
    rw [hs] at hrows
    cases hrows
  | panicked hc h hs hf =>
    refine iff_of_true cleanAfter_of_panic ?_
    intro hl
    obtain ⟨-, -, t, rows, ht, hrows, hwide, -⟩ := hl
    rw [h] at ht
    cases ht
    rw [hs] at hrows
    cases hrows
    exact not_wide_of_fillRows hf hwide
  | @unstored tableDef rows filled last c hc h hs hf hst =>
    obtain ⟨hwide, rfl, -⟩ := fillRows_eq_ok hf
    by_cases hdraw : drawnRows tableDef.columns rows = 0
    · refine iff_of_true (cleanAfter_of_eq ?_) ?_
      · rw [hdraw, Catalog.draw_zero]
        rfl
      · rintro ⟨-, -, t, rows, ht, hrows, -, hne⟩
        rw [h] at ht
        cases ht
        rw [hs] at hrows
        cases hrows
        exact hne hdraw
    · exact iff_of_false (not_cleanAfter (memory_ne (Catalog.draw_ne_self hdraw)))
        (not_not.mpr ⟨hc, hst, _, _, h, hs, hwide, hdraw⟩)
  | stored hc h hs hf hst =>
    exact iff_of_true cleanAfter_of_ok fun hl => by simp [FailsLate, hst] at hl

theorem createIndex_cleanAfter {env : Env} {db : String} {ci : CreateIndex} {e e' : Executor}
    {r : Outcome ExecuteResult} (hcols : indexColumns ci ≠ [])
    (h : CreateIndexOutcome env db (nameToString ci.tableName)
      (newIndexDef (nameToString ci.tableName) ci) e r e') :
    CleanAfter e r e' ↔ ¬ FailsLate e ⟨env, db, .createIndex ci⟩ := by
  cases h with
  | locked hc => exact cleanAfter_of_locked hc
  | rejected hc h =>
    refine iff_of_true (cleanAfter_of_eq rfl) ?_
    intro hl
    obtain ⟨-, t, hreg, -⟩ := hl
    obtain ⟨-, -, c, hok⟩ := registersIndex_iff.mp hreg
    rw [h] at hok
    cases hok
  | unbuilt hc h ht hst =>
    exact iff_of_false (not_cleanAfter (memory_ne (createIndex_ne_self h)))
      (not_not.mpr ⟨hc, _, registersIndex_iff.mpr ⟨hcols, ht, _, h⟩, .inl hst⟩)
  | duplicate hc h ht hst hb =>
    have hdup := buildIndex_error_iff.mp ⟨_, hb⟩
    exact iff_of_false (not_cleanAfter (memory_ne (createIndex_ne_self h)))
      (not_not.mpr ⟨hc, _, registersIndex_iff.mpr ⟨hcols, ht, _, h⟩, .inr hdup⟩)
  | built hc h ht hst hb =>
    refine iff_of_true cleanAfter_of_ok ?_
    intro hl
    obtain ⟨-, t, ⟨-, ht', -⟩, hp | hdup⟩ := hl
    · simp [hst] at hp
    · rw [ht] at ht'
      cases ht'
      have hu : (newIndexDef (nameToString ci.tableName) ci).unique = true := hdup.1
      obtain ⟨dup, hdup⟩ := buildIndex_error_iff.mpr ⟨hu, hdup.2⟩
      rw [hb] at hdup
      cases hdup

omit [Bincode] in
theorem dropIndex_cleanAfter {env : Env} {db tableName : String} {names : List ObjectName}
    {ifExists : Bool} {e e' : Executor} {r : Outcome ExecuteResult}
    (hfind : findIndexTable env db (firstName names) e.catalog.value = some tableName)
    (h : DropIndexOutcome env db (firstName names) tableName e r e') :
    CleanAfter e r e' ↔ ¬ FailsLate e ⟨env, db, .drop .index names ifExists⟩ := by
  cases h with
  | locked hc => exact cleanAfter_of_locked hc
  | rejected hc h =>
    refine iff_of_true (cleanAfter_of_eq rfl) ?_
    intro hl
    obtain ⟨-, -, t, ht, hany⟩ := hl
    simp only [hfind, Option.some.injEq] at ht
    subst ht
    exact Catalog.dropIndex_rejected h hany
  | undropped hc h hst =>
    exact iff_of_false (not_cleanAfter (memory_ne (dropIndex_ne_self h)))
      (not_not.mpr ⟨hc, hst, _, hfind, Catalog.dropIndex_isOk.mp ⟨_, h⟩⟩)
  | dropped hc h hst =>
    exact iff_of_true cleanAfter_of_ok fun hl => by simp [FailsLate, hst] at hl

theorem dropTable_cleanAfter {env : Env} {db : String} {names : List ObjectName}
    {ifExists : Bool} {e e' : Executor} {r : Outcome ExecuteResult}
    (h : DropTableOutcome env db (toLowercase (firstName names)) e r e') :
    CleanAfter e r e' ↔ ¬ FailsLate e ⟨env, db, .drop .table names ifExists⟩ := by
  cases h with
  | locked hc => exact cleanAfter_of_locked hc
  | rejected hc h =>
    refine iff_of_true (cleanAfter_of_eq rfl) ?_
    intro hl
    obtain ⟨-, -, hexists⟩ := hl
    rw [← tableExists_toLowercase, Catalog.dropTable_rejected h] at hexists
    cases hexists
  | uncleared hc h hst =>
    exact iff_of_false (not_cleanAfter (memory_ne (dropTable_ne_self h)))
      (not_not.mpr ⟨hc, hst, tableExists_of_dropTable h⟩)
  | dropped hc h hst =>
    exact iff_of_true cleanAfter_of_ok fun hl => by simp [FailsLate, hst] at hl

/-- DELETE and UPDATE fail, if they do, before they change anything. -/
theorem change_cleanAfter {env : Env} {tableName : String} {columns : List Column}
    {selection : Option Expr} {change : Storage → List Row → Storage} {e e' : Executor}
    {r : Outcome ExecuteResult}
    (h : ChangeOutcome env tableName columns selection change e r e') : CleanAfter e r e' := by
  cases h with
  | locked hst => exact cleanAfter_of_eq rfl
  | noEntry hst ht => exact cleanAfter_of_eq rfl
  | panicked hst ht hsel => exact cleanAfter_of_panic
  | changed hst ht hsel => exact cleanAfter_of_ok

theorem delete_cleanAfter {env : Env} {db tableName : String} {selection : Option Expr}
    {e e' : Executor} {r : Outcome ExecuteResult}
    (h : DeleteOutcome env db tableName selection e r e') : CleanAfter e r e' := by
  cases h with
  | locked hc => exact cleanAfter_of_eq rfl
  | noTable hc h => exact cleanAfter_of_eq rfl
  | ran hc h hch => exact change_cleanAfter hch

theorem update_cleanAfter {env : Env} {db tableName : String} {assignments : List Assignment}
    {selection : Option Expr} {e e' : Executor} {r : Outcome ExecuteResult}
    (h : UpdateOutcome env db tableName assignments selection e r e') : CleanAfter e r e' := by
  cases h with
  | locked hc => exact cleanAfter_of_eq rfl
  | noTable hc h => exact cleanAfter_of_eq rfl
  | badAssignment hc h ha => exact cleanAfter_of_eq rfl
  | ran hc h ha hch => exact change_cleanAfter hch

omit [Host] [ExprDebug] in
theorem database_cleanAfter {change : Catalog → Except String Catalog} {e e' : Executor}
    {r : Outcome ExecuteResult} (h : DatabaseOutcome change e r e') : CleanAfter e r e' := by
  cases h with
  | locked hc => exact cleanAfter_of_eq rfl
  | rejected hc h => exact cleanAfter_of_eq rfl
  | changed hc h => exact cleanAfter_of_ok

omit [ExprDebug] in
theorem createTable_cleanAfter {env : Env} {db tableName : String} {columns : List Column}
    {e e' : Executor} {r : Outcome ExecuteResult}
    (h : CreateTableOutcome env db tableName columns e r e') : CleanAfter e r e' := by
  cases h with
  | locked hc => exact cleanAfter_of_eq rfl
  | rejected hc h => exact cleanAfter_of_eq rfl
  | created hc h => exact cleanAfter_of_ok

/-- A statement fails without effect exactly when it does not fail late. -/
theorem failsCleanly_iff (e : Executor) (call : Call) :
    FailsCleanly e call ↔ ¬ FailsLate e call := by
  obtain ⟨env, db, stmt⟩ := call
  show CleanAfter e ((execute env db stmt).run e).1 ((execute env db stmt).run e).2 ↔ _
  cases stmt with
  | createTable ct =>
    refine iff_of_true ?_ fun hl => hl.2
    rw [execute_createTable]
    split
    · exact cleanAfter_of_eq rfl
    · exact createTable_cleanAfter (executeCreateTable_outcome env db ct e)
  | insert ins =>
    exact insert_cleanAfter (executeInsert_outcome env db _ ins.columns ins.source e)
  | delete del =>
    exact iff_of_true (delete_cleanAfter (executeDelete_outcome env db _ del.selection e))
      fun hl => hl.2
  | update table assignments selection =>
    exact iff_of_true (update_cleanAfter (executeUpdate_outcome env db _ assignments selection e))
      fun hl => hl.2
  | drop objectType names ifExists =>
    cases objectType with
    | table =>
      rw [execute_dropTable]
      split
      · next hskip =>
        refine iff_of_true (cleanAfter_of_eq rfl) ?_
        intro hl
        obtain ⟨hc, -, hexists⟩ := hl
        simp only at hexists
        simp [hc, hexists] at hskip
      · exact dropTable_cleanAfter (executeDropTable_outcome env db (firstName names) e)
    | database =>
      refine iff_of_true ?_ fun hl => hl.2
      rw [execute_dropDatabase]
      split
      · exact cleanAfter_of_eq rfl
      · exact database_cleanAfter (databaseChange_outcome _ e)
    | index =>
      rw [execute_dropIndex]
      split
      · next hc => exact cleanAfter_of_locked hc
      · split
        · next hfind =>
          refine iff_of_true (cleanAfter_of_eq rfl) ?_
          intro hl
          obtain ⟨-, -, tableName, ht, -⟩ := hl
          simp [hfind] at ht
        · next tableName hfind =>
          split
          · next hskip =>
            refine iff_of_true (cleanAfter_of_eq rfl) ?_
            intro hl
            obtain ⟨-, -, t, ht, hany⟩ := hl
            simp only [hfind, Option.some.injEq] at ht
            subst ht
            simp [hany] at hskip
          · exact dropIndex_cleanAfter hfind
              (executeDropIndex_outcome env db (firstName names) tableName e)
    | other => exact iff_of_true (cleanAfter_of_eq (by rw [execute_readOnly rfl])) fun hl => hl.2
  | createDatabase dbName ifNotExists =>
    refine iff_of_true ?_ fun hl => hl.2
    rw [execute_createDatabase]
    split
    · exact cleanAfter_of_eq rfl
    · exact database_cleanAfter (databaseChange_outcome _ e)
  | createIndex ci =>
    rw [execute_createIndex]
    split
    · by_cases hcols : indexColumns ci = []
      · rw [run_executeCreateIndex_nil hcols]
        refine iff_of_true (cleanAfter_of_eq rfl) ?_
        intro hl
        obtain ⟨-, t, ⟨hne, -⟩, -⟩ := hl
        exact hne hcols
      · exact createIndex_cleanAfter hcols
          (executeCreateIndex_outcome env db (nameToString ci.tableName) ci hcols e)
    · next hno =>
      refine iff_of_true (cleanAfter_of_eq rfl) ?_
      intro hl
      obtain ⟨hc, t, ⟨-, ht, -⟩, -⟩ := hl
      rw [Catalog.getTable_ok_iff] at ht
      simp [hc, Catalog.tableExists_eq, ht] at hno
  | query _ | showDatabases | showTables | use _ | explainTable _ | other =>
    exact iff_of_true (cleanAfter_of_eq (by rw [execute_readOnly rfl])) fun hl => hl.2

/-! ### Runs -/

/-- In a run, the failed statements are without effect exactly as long as
none of them fails late. -/
theorem run_failsCleanly_iff (e : Executor) (calls : List Call) :
    Every Executor.after FailsCleanly e calls ↔
      Every Executor.after (fun e call => ¬ FailsLate e call) e calls :=
  Every.congr failsCleanly_iff

end Theory

section Concrete

attribute [local instance] asciiHost plainDebug bincode1

/-- A table with two equal rows, on which a unique index cannot be built. -/
def duplicateRows : Executor :=
  ([intTable "t" ["a"], insertNumbers "t" [["1"]], insertNumbers "t" [["1"]]].map
    (callIn "srrdb")).foldl Executor.after (Executor.ofMemory .new none)

/-- The index is refused and stays registered. -/
theorem duplicateRows_not_clean :
    ¬ FailsCleanly duplicateRows (callIn "srrdb" (indexOn true "u" "t" ["a"])) := by
  intro h
  have hresult : (callIn "srrdb" (indexOn true "u" "t" ["a"])).result duplicateRows =
      failed "Duplicate entry '1' for key 'u'" := by decide +kernel
  have hbefore : duplicateRows.memory.catalog.getTableIndexes "srrdb" "t" = [] := by
    decide +kernel
  have hafter : (duplicateRows.after (callIn "srrdb" (indexOn true "u" "t" ["a"]))
      ).memory.catalog.getTableIndexes "srrdb" "t" ≠ [] := by decide +kernel
  exact hafter (by rw [h _ hresult, hbefore])

end Concrete

end Srrdb.Engine
