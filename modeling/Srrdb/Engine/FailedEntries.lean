/-
Srrdb.Engine.FailedEntries — what the log keeps of a statement that failed.

A failed statement leaves no trace in recovery when the entries it appended
change nothing as they are replayed on the memory before it. CREATE TABLE and
DROP TABLE append before they check, and are replayed in the database `srrdb`
wherever they ran; CREATE INDEX, DROP INDEX and INSERT append before they
reach the storage, which may be poisoned, and CREATE INDEX before it finds a
duplicate key. `LeavesTrace` names the failing statements whose entry does
something, in terms of the state before them.
-/
import Srrdb.Engine.ErrorPaths
import Srrdb.Engine.StorageTheorems

namespace Srrdb.Engine

open Srrdb.Sql Srrdb.Lib

section Theory

variable [Host] [ExprDebug] [Bincode]

/-! ## Traces of a failed statement -/

/-- If the statement returns an error, its entries change nothing on replay. -/
def FailsUntraced (e : Executor) (call : Call) : Prop :=
  ∀ msg, call.result e = failed msg → e.memory.applyAll (call.logged e) = e.memory

/-- A table of this name can be created in the database. -/
def NameFree (c : Catalog) (db tableName : String) : Prop :=
  c.databaseExists db = true ∧ c.tableExists db tableName = false

/-- Both maps of the storage have an entry for the table. -/
def HasEntries (s : Storage) (tableName : String) : Prop :=
  (s.tables[normalize tableName]?).isSome = true ∧ (s.nextIds[normalize tableName]?).isSome = true

/-- The INSERT is logged and its entry changes the storage. -/
def LogsRows (e : Executor) (db : String) (ins : Insert) : Prop :=
  ∃ tableDef rows, e.catalog.value.getTable db (tableObjectName ins.table) = .ok tableDef ∧
    sourceRows tableDef.columns ins.columns ins.source = .ok rows ∧
    Wide tableDef.columns rows ∧
    ¬ (rows = [] ∧ HasEntries e.storage.value (tableObjectName ins.table))

/-- The statement fails and what it logged would be carried out by a replay. -/
def LeavesTrace (e : Executor) (call : Call) : Prop :=
  call.env.appendOk = true ∧
  match call.stmt with
  | .createTable ct =>
      let tableName := nameToString ct.name
      e.catalog.poisoned = false ∧
      ¬ (ct.ifNotExists = true ∧ e.catalog.value.tableExists call.db tableName = true) ∧
      ¬ NameFree e.catalog.value call.db tableName ∧ NameFree e.catalog.value "srrdb" tableName
  | .drop .table names ifExists =>
      let found := e.catalog.value.tableExists call.db (firstName names)
      (ifExists = true → e.catalog.poisoned = false ∧ found = true) ∧
      (e.catalog.poisoned = true ∨ found = false ∨ e.storage.poisoned = true) ∧
      e.catalog.value.tableExists "srrdb" (firstName names) = true
  | .insert ins =>
      e.catalog.poisoned = false ∧ e.storage.poisoned = true ∧ LogsRows e call.db ins
  | .createIndex ci => e.catalog.poisoned = false ∧
      ∃ tableDef, RegistersIndex e call.db ci tableDef ∧
        (e.storage.poisoned = true ∨ FindsDuplicate e ci tableDef)
  | .drop .index names _ => e.catalog.poisoned = false ∧ e.storage.poisoned = true ∧
      ∃ tableName, UnregistersIndex e call names tableName
  | _ => False

/-! ## Replaying one entry -/

/-- The property of the result and the server a statement leaves. -/
def UntracedAfter (e : Executor) (r : Outcome ExecuteResult) (e' : Executor) : Prop :=
  ∀ msg, r = failed msg → e.memory.applyAll (e'.wal.drop e.wal.length) = e.memory

omit [ExprDebug] [Bincode] in
theorem untracedAfter_of_ok {e e' : Executor} {a : ExecuteResult} : UntracedAfter e (.ok a) e' :=
  fun _ h => by cases h

omit [ExprDebug] [Bincode] in
theorem untracedAfter_of_panic {e e' : Executor} : UntracedAfter e (.error .panic) e' :=
  fun _ h => by cases h

omit [ExprDebug] [Bincode] in
theorem untracedAfter_of_wal {e e' : Executor} {r : Outcome ExecuteResult} (h : e'.wal = e.wal) :
    UntracedAfter e r e' := by
  intro _ _
  rw [h, List.drop_length]
  rfl

omit [ExprDebug] [Bincode] in
/-- A statement that failed with one entry logged. -/
theorem untracedAfter_logged (env : Env) {e e' : Executor} {entry : WalEntry} {msg : String}
    (h : e'.wal = e.wal ++ env.logged entry) :
    UntracedAfter e (failed msg) e' ↔
      ¬ (env.appendOk = true ∧ (e.memory.applyEntry entry).2 ≠ e.memory) := by
  have hdrop : e'.wal.drop e.wal.length = env.logged entry := by
    rw [h, List.drop_left]
  constructor
  · rintro hu ⟨hok, hne⟩
    have := hu msg rfl
    rw [hdrop, Env.logged, if_pos hok] at this
    exact hne this
  · intro hno _ _
    rw [hdrop, Env.logged]
    split
    · next hok => exact not_not.mp fun hne => hno ⟨hok, hne⟩
    · rfl

omit [Host] [ExprDebug] [Bincode] in
theorem tryCatalog_ne_self_iff {m : Memory} {r : Except String Catalog}
    (hne : ∀ c, r = .ok c → c ≠ m.catalog) :
    (m.tryCatalog r).2 ≠ m ↔ ∃ c, r = .ok c := by
  cases r with
  | error msg => simp [Memory.tryCatalog]
  | ok c => exact iff_of_true (memory_ne (hne c rfl)) ⟨c, rfl⟩

omit [ExprDebug] [Bincode] in
theorem createTable_ne_self {c c' : Catalog} {db tableName : String} {columns : List Column}
    (h : c.createTable db tableName columns = .ok c') : c' ≠ c := by
  intro heq
  obtain ⟨-, hfree⟩ := Catalog.createTable_isOk.mp ⟨c', h⟩
  have hfind := Catalog.findTable_createTable h db tableName
  rw [if_pos ⟨rfl, rfl⟩, heq] at hfind
  rw [Catalog.tableExists_eq, hfind] at hfree
  cases hfree

omit [ExprDebug] [Bincode] in
theorem applyEntry_createTable_ne_iff {m : Memory} {tableName : String} {columns : List Column} :
    (m.applyEntry (.createTable tableName columns)).2 ≠ m ↔
      NameFree m.catalog "srrdb" tableName :=
  (tryCatalog_ne_self_iff fun _ h => createTable_ne_self h).trans Catalog.createTable_isOk

omit [ExprDebug] [Bincode] in
theorem applyEntry_dropTable_ne_iff {m : Memory} {tableName : String} :
    (m.applyEntry (.dropTable tableName)).2 ≠ m ↔
      m.catalog.tableExists "srrdb" tableName = true := by
  rw [← Catalog.dropTable_isOk, Memory.applyEntry]
  cases h : m.catalog.dropTable "srrdb" tableName with
  | error msg => simp
  | ok c => exact iff_of_true (memory_ne (dropTable_ne_self h)) ⟨c, rfl⟩

omit [ExprDebug] [Bincode] in
theorem applyEntry_createIndex_ne {m : Memory} {db : String} {indexDef : IndexDef} {c : Catalog}
    (h : m.catalog.createIndex db indexDef = .ok c) :
    (m.applyEntry (.createIndex db indexDef)).2 ≠ m :=
  (tryCatalog_ne_self_iff fun _ h => createIndex_ne_self h).mpr ⟨c, h⟩

omit [ExprDebug] [Bincode] in
theorem applyEntry_dropIndex_ne {m : Memory} {db indexName tableName : String} {c : Catalog}
    (h : m.catalog.dropIndex db indexName tableName = .ok c) :
    (m.applyEntry (.dropIndex db indexName tableName)).2 ≠ m :=
  (tryCatalog_ne_self_iff fun _ h => dropIndex_ne_self h).mpr ⟨c, h⟩

omit [ExprDebug] [Bincode] in
theorem applyEntry_insertRows_ne_iff {m : Memory} {tableName : String} {rows : List Row}
    (hz : ∀ row ∈ rows, row.id = 0) :
    (m.applyEntry (.insertRows tableName rows)).2 ≠ m ↔
      ¬ (rows = [] ∧ HasEntries m.storage tableName) := by
  rw [HasEntries, ← Storage.insertRows_eq_self_iff hz]
  exact not_congr ⟨congrArg Memory.storage, fun h => by
    rw [Memory.applyEntry]
    simp only [h]⟩

/-! ## Statement by statement -/

theorem createTable_untracedAfter {env : Env} {db : String} {ct : CreateTable} {e e' : Executor}
    {r : Outcome ExecuteResult}
    (hrun : ¬ (ct.ifNotExists && !e.catalog.poisoned &&
      e.catalog.value.tableExists db (nameToString ct.name)) = true)
    (h : CreateTableOutcome env db (nameToString ct.name)
      (createColumns (nameToString ct.name) ct.columns) e r e') :
    UntracedAfter e r e' ↔ ¬ LeavesTrace e ⟨env, db, .createTable ct⟩ := by
  cases h with
  | locked hc =>
    exact iff_of_true (untracedAfter_of_wal rfl) fun hl => by simp [LeavesTrace, hc] at hl
  | rejected hc h =>
    rw [untracedAfter_logged env rfl, applyEntry_createTable_ne_iff]
    have hnot : ¬ NameFree e.catalog.value db (nameToString ct.name) :=
      Catalog.createTable_rejected h
    have hskip : ¬ (ct.ifNotExists = true ∧
        e.catalog.value.tableExists db (nameToString ct.name) = true) := by
      simpa [hc] using hrun
    simp only [LeavesTrace, hc, hnot, hskip, not_false_eq_true, true_and]
    rfl
  | created hc h =>
    refine iff_of_true untracedAfter_of_ok ?_
    intro hl
    obtain ⟨-, -, -, hnot, -⟩ := hl
    exact hnot (Catalog.createTable_isOk.mp ⟨_, h⟩)

theorem dropTable_untracedAfter {env : Env} {db : String} {names : List ObjectName}
    {ifExists : Bool} {e e' : Executor} {r : Outcome ExecuteResult}
    (hrun : ifExists = true → e.catalog.poisoned = false ∧
      e.catalog.value.tableExists db (firstName names) = true)
    (h : DropTableOutcome env db (toLowercase (firstName names)) e r e') :
    UntracedAfter e r e' ↔ ¬ LeavesTrace e ⟨env, db, .drop .table names ifExists⟩ := by
  have hreplay : (e.memory.applyEntry (.dropTable (toLowercase (firstName names)))).2 ≠ e.memory ↔
      e.catalog.value.tableExists "srrdb" (firstName names) = true := by
    rw [applyEntry_dropTable_ne_iff, tableExists_toLowercase]
    rfl
  -- the three ways to fail leave the same entry
  have hfail : ∀ {msg e'}, e'.wal = e.wal ++ env.logged (.dropTable (toLowercase (firstName names))) →
      (e.catalog.poisoned = true ∨ e.catalog.value.tableExists db (firstName names) = false ∨
        e.storage.poisoned = true) →
      (UntracedAfter e (failed msg) e' ↔
        ¬ LeavesTrace e ⟨env, db, .drop .table names ifExists⟩) := by
    intro msg e' hwal hwhy
    rw [untracedAfter_logged env hwal, hreplay]
    exact not_congr (and_congr_right fun _ =>
      ⟨fun hs => ⟨hrun, hwhy, hs⟩, fun hl => hl.2.2⟩)
  cases h with
  | locked hc => exact hfail rfl (.inl hc)
  | rejected hc h =>
    refine hfail rfl (.inr (.inl ?_))
    rw [← tableExists_toLowercase, ← Bool.not_eq_true, ← Catalog.dropTable_isOk]
    intro hl
    obtain ⟨c, hok⟩ := hl
    rw [h] at hok
    cases hok
  | uncleared hc h hst => exact hfail rfl (.inr (.inr hst))
  | dropped hc h hst =>
    refine iff_of_true untracedAfter_of_ok ?_
    intro hl
    obtain ⟨-, -, hp | hnone | hp, -⟩ := hl
    · simp [hc] at hp
    · have hsome := Catalog.dropTable_isOk.mp ⟨_, h⟩
      rw [tableExists_toLowercase] at hsome
      simp [hsome] at hnone
    · simp [hst] at hp

theorem insert_untracedAfter {env : Env} {db : String} {ins : Insert} {e e' : Executor}
    {r : Outcome ExecuteResult}
    (h : InsertOutcome env db (tableObjectName ins.table) ins.columns ins.source e r e') :
    UntracedAfter e r e' ↔ ¬ LeavesTrace e ⟨env, db, .insert ins⟩ := by
  cases h with
  | locked hc =>
    exact iff_of_true (untracedAfter_of_wal rfl) fun hl => by simp [LeavesTrace, hc] at hl
  | noTable hc h =>
    refine iff_of_true (untracedAfter_of_wal rfl) ?_
    intro hl
    obtain ⟨-, -, -, t, rows, ht, -⟩ := hl
    rw [h] at ht
    cases ht
  | badSource hc h hs =>
    refine iff_of_true (untracedAfter_of_wal rfl) ?_
    intro hl
    obtain ⟨-, -, -, t, rows, ht, hrows, -⟩ := hl
    rw [h] at ht
    cases ht
    rw [hs] at hrows
    cases hrows
  | panicked hc h hs hf => 
    refine iff_of_true untracedAfter_of_panic ?_
    intro hl
    obtain ⟨-, -, -, t, rows, ht, hrows, hwide, -⟩ := hl
    rw [h] at ht
    cases ht
    rw [hs] at hrows
    cases hrows
    exact not_wide_of_fillRows hf hwide
  | @unstored tableDef rows filled last c hc h hs hf hst =>
    obtain ⟨hwide, -, hsup⟩ := fillRows_eq_ok hf
    have hz := hsup.id_eq_zero (sourceRows_id_eq_zero hs)
    have hnil : filled = [] ↔ rows = [] := by
      rw [← List.length_eq_zero_iff, hsup.length_eq, List.length_eq_zero_iff]
    rw [untracedAfter_logged env rfl, applyEntry_insertRows_ne_iff hz, hnil]
    refine not_congr (and_congr_right fun _ => ⟨fun hne => ⟨hc, hst, tableDef, rows, h, hs, hwide, hne⟩, ?_⟩)
    intro hl
    obtain ⟨-, -, t, rows', ht, hrows, -, hne⟩ := hl
    rw [h] at ht
    cases ht
    rw [hs] at hrows
    cases hrows
    exact hne
  | stored hc h hs hf hst =>
    exact iff_of_true untracedAfter_of_ok fun hl => by simp [LeavesTrace, hst] at hl

theorem createIndex_untracedAfter {env : Env} {db : String} {ci : CreateIndex} {e e' : Executor}
    {r : Outcome ExecuteResult} (hcols : indexColumns ci ≠ [])
    (h : CreateIndexOutcome env db (nameToString ci.tableName)
      (newIndexDef (nameToString ci.tableName) ci) e r e') :
    UntracedAfter e r e' ↔ ¬ LeavesTrace e ⟨env, db, .createIndex ci⟩ := by
  cases h with
  | locked hc =>
    exact iff_of_true (untracedAfter_of_wal rfl) fun hl => by simp [LeavesTrace, hc] at hl
  | rejected hc h =>
    refine iff_of_true (untracedAfter_of_wal rfl) ?_
    intro hl
    obtain ⟨-, -, t, hreg, -⟩ := hl
    obtain ⟨-, -, c, hok⟩ := registersIndex_iff.mp hreg
    rw [h] at hok
    cases hok
  | unbuilt hc h ht hst =>
    rw [untracedAfter_logged env rfl]
    exact not_congr (and_congr_right fun _ => iff_of_true (applyEntry_createIndex_ne h)
      ⟨hc, _, registersIndex_iff.mpr ⟨hcols, ht, _, h⟩, .inl hst⟩)
  | duplicate hc h ht hst hb =>
    have hdup := buildIndex_error_iff.mp ⟨_, hb⟩
    rw [untracedAfter_logged env rfl]
    exact not_congr (and_congr_right fun _ => iff_of_true (applyEntry_createIndex_ne h)
      ⟨hc, _, registersIndex_iff.mpr ⟨hcols, ht, _, h⟩, .inr hdup⟩)
  | built hc h ht hst hb =>
    refine iff_of_true untracedAfter_of_ok ?_
    intro hl
    obtain ⟨-, -, t, ⟨-, ht', -⟩, hp | hdup⟩ := hl
    · simp [hst] at hp
    · rw [ht] at ht'
      cases ht'
      have hu : (newIndexDef (nameToString ci.tableName) ci).unique = true := hdup.1
      obtain ⟨dup, hdup⟩ := buildIndex_error_iff.mpr ⟨hu, hdup.2⟩
      rw [hb] at hdup
      cases hdup

omit [Bincode] in
theorem dropIndex_untracedAfter {env : Env} {db tableName : String} {names : List ObjectName}
    {ifExists : Bool} {e e' : Executor} {r : Outcome ExecuteResult}
    (hfind : findIndexTable env db (firstName names) e.catalog.value = some tableName)
    (h : DropIndexOutcome env db (firstName names) tableName e r e') :
    UntracedAfter e r e' ↔ ¬ LeavesTrace e ⟨env, db, .drop .index names ifExists⟩ := by
  cases h with
  | locked hc =>
    exact iff_of_true (untracedAfter_of_wal rfl) fun hl => by simp [LeavesTrace, hc] at hl
  | rejected hc h =>
    refine iff_of_true (untracedAfter_of_wal rfl) ?_
    intro hl
    obtain ⟨-, -, -, t, ht, hany⟩ := hl
    simp only [hfind, Option.some.injEq] at ht
    subst ht
    exact Catalog.dropIndex_rejected h hany
  | undropped hc h hst =>
    rw [untracedAfter_logged env rfl]
    exact not_congr (and_congr_right fun _ => iff_of_true (applyEntry_dropIndex_ne h)
      ⟨hc, hst, _, hfind, Catalog.dropIndex_isOk.mp ⟨_, h⟩⟩)
  | dropped hc h hst =>
    exact iff_of_true untracedAfter_of_ok fun hl => by simp [LeavesTrace, hst] at hl

/-- DELETE and UPDATE log nothing before they are sure to succeed. -/
theorem change_untracedAfter {env : Env} {tableName : String} {columns : List Column}
    {selection : Option Expr} {change : Storage → List Row → Storage} {e e' : Executor}
    {r : Outcome ExecuteResult}
    (h : ChangeOutcome env tableName columns selection change e r e') : UntracedAfter e r e' := by
  cases h with
  | locked hst => exact untracedAfter_of_wal rfl
  | noEntry hst ht => exact untracedAfter_of_wal rfl
  | panicked hst ht hsel => exact untracedAfter_of_panic
  | changed hst ht hsel => exact untracedAfter_of_ok

theorem delete_untracedAfter {env : Env} {db tableName : String} {selection : Option Expr}
    {e e' : Executor} {r : Outcome ExecuteResult}
    (h : DeleteOutcome env db tableName selection e r e') : UntracedAfter e r e' := by
  cases h with
  | locked hc => exact untracedAfter_of_wal rfl
  | noTable hc h => exact untracedAfter_of_wal rfl
  | ran hc h hch => exact change_untracedAfter hch

theorem update_untracedAfter {env : Env} {db tableName : String} {assignments : List Assignment}
    {selection : Option Expr} {e e' : Executor} {r : Outcome ExecuteResult}
    (h : UpdateOutcome env db tableName assignments selection e r e') : UntracedAfter e r e' := by
  cases h with
  | locked hc => exact untracedAfter_of_wal rfl
  | noTable hc h => exact untracedAfter_of_wal rfl
  | badAssignment hc h ha => exact untracedAfter_of_wal rfl
  | ran hc h ha hch => exact change_untracedAfter hch

omit [ExprDebug] in
/-- CREATE DATABASE and DROP DATABASE log nothing. -/
theorem database_untracedAfter {change : Catalog → Except String Catalog} {e e' : Executor}
    {r : Outcome ExecuteResult} (h : DatabaseOutcome change e r e') : UntracedAfter e r e' := by
  cases h with
  | locked hc => exact untracedAfter_of_wal rfl
  | rejected hc h => exact untracedAfter_of_wal rfl
  | changed hc h => exact untracedAfter_of_wal rfl

/-- A failed statement is without trace exactly when it is not one of those
`LeavesTrace` names. -/
theorem failsUntraced_iff (e : Executor) (call : Call) :
    FailsUntraced e call ↔ ¬ LeavesTrace e call := by
  obtain ⟨env, db, stmt⟩ := call
  show UntracedAfter e ((execute env db stmt).run e).1 ((execute env db stmt).run e).2 ↔ _
  cases stmt with
  | createTable ct =>
    rw [execute_createTable]
    split
    · next hskip =>
      refine iff_of_true untracedAfter_of_ok ?_
      intro hl
      obtain ⟨-, -, hrun, -⟩ := hl
      simp only [Bool.and_eq_true] at hskip
      exact hrun ⟨hskip.1.1, hskip.2⟩
    · next hrun => exact createTable_untracedAfter hrun (executeCreateTable_outcome env db ct e)
  | insert ins =>
    exact insert_untracedAfter (executeInsert_outcome env db _ ins.columns ins.source e)
  | delete del =>
    exact iff_of_true (delete_untracedAfter (executeDelete_outcome env db _ del.selection e))
      fun hl => hl.2
  | update table assignments selection =>
    exact iff_of_true (update_untracedAfter (executeUpdate_outcome env db _ assignments selection e))
      fun hl => hl.2
  | drop objectType names ifExists =>
    cases objectType with
    | table =>
      rw [execute_dropTable]
      split
      · next hskip =>
        refine iff_of_true untracedAfter_of_ok ?_
        intro hl
        obtain ⟨-, hrun, -⟩ := hl
        simp only [Bool.and_eq_true] at hskip
        simp [hrun hskip.1] at hskip
      · next hrun =>
        refine dropTable_untracedAfter (fun hif => ?_)
          (executeDropTable_outcome env db (firstName names) e)
        simpa [hif] using hrun
    | database =>
      refine iff_of_true ?_ fun hl => hl.2
      rw [execute_dropDatabase]
      split
      · exact untracedAfter_of_wal rfl
      · exact database_untracedAfter (databaseChange_outcome _ e)
    | index =>
      rw [execute_dropIndex]
      split
      · next hc =>
        exact iff_of_true (untracedAfter_of_wal rfl) fun hl => by simp [LeavesTrace, hc] at hl
      · split
        · next hfind =>
          refine iff_of_true (untracedAfter_of_wal rfl) ?_
          intro hl
          obtain ⟨-, -, -, tableName, ht, -⟩ := hl
          simp [hfind] at ht
        · next tableName hfind =>
          split
          · next hskip =>
            refine iff_of_true (untracedAfter_of_wal rfl) ?_
            intro hl
            obtain ⟨-, -, -, t, ht, hany⟩ := hl
            simp only [hfind, Option.some.injEq] at ht
            subst ht
            simp [hany] at hskip
          · exact dropIndex_untracedAfter hfind
              (executeDropIndex_outcome env db (firstName names) tableName e)
    | other => exact iff_of_true (untracedAfter_of_wal (by rw [execute_readOnly rfl])) fun hl => hl.2
  | createDatabase dbName ifNotExists =>
    refine iff_of_true ?_ fun hl => hl.2
    rw [execute_createDatabase]
    split
    · exact untracedAfter_of_wal rfl
    · exact database_untracedAfter (databaseChange_outcome _ e)
  | createIndex ci =>
    rw [execute_createIndex]
    split
    · by_cases hcols : indexColumns ci = []
      · rw [run_executeCreateIndex_nil hcols]
        refine iff_of_true (untracedAfter_of_wal rfl) ?_
        intro hl
        obtain ⟨-, -, t, ⟨hne, -⟩, -⟩ := hl
        exact hne hcols
      · exact createIndex_untracedAfter hcols
          (executeCreateIndex_outcome env db (nameToString ci.tableName) ci hcols e)
    · next hno =>
      refine iff_of_true (untracedAfter_of_wal rfl) ?_
      intro hl
      obtain ⟨-, hc, t, ⟨-, ht, -⟩, -⟩ := hl
      rw [Catalog.getTable_ok_iff] at ht
      simp [hc, Catalog.tableExists_eq, ht] at hno
  | query _ | showDatabases | showTables | use _ | explainTable _ | other =>
    exact iff_of_true (untracedAfter_of_wal (by rw [execute_readOnly rfl])) fun hl => hl.2

/-- In a run, the failed statements leave no trace exactly as long as none of
them is one of those `LeavesTrace` names. -/
theorem run_failsUntraced_iff (e : Executor) (calls : List Call) :
    Every Executor.after FailsUntraced e calls ↔
      Every Executor.after (fun e call => ¬ LeavesTrace e call) e calls :=
  Every.congr failsUntraced_iff

end Theory

section Concrete

attribute [local instance] asciiHost plainDebug bincode1

/-- A server with the table `t` in the database `srrdb` and an empty database
`d`. -/
def tableElsewhere : Executor :=
  ([callIn "srrdb" (intTable "t" ["a"]), callIn "srrdb" (.createDatabase ["d"] false)]).foldl
    Executor.after (Executor.ofMemory .new none)

/-- DROP TABLE in `d` fails, and its entry drops the table of `srrdb`. -/
theorem tableElsewhere_traced :
    ¬ FailsUntraced tableElsewhere (callIn "d" (dropTableNamed "t")) := by
  intro h
  have hresult : (callIn "d" (dropTableNamed "t")).result tableElsewhere =
      failed "Unknown table: t" := by decide +kernel
  have hbefore : tableElsewhere.memory.catalog.tableExists "srrdb" "t" = true := by
    decide +kernel
  have hafter : (tableElsewhere.memory.applyAll ((callIn "d" (dropTableNamed "t")).logged
      tableElsewhere)).catalog.tableExists "srrdb" "t" ≠ true := by decide +kernel
  exact hafter (by rw [h _ hresult, hbefore])

end Concrete

end Srrdb.Engine
