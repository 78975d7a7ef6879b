/-
Srrdb.Server.Contents — what a statement makes of the catalog and the rows.

Properties of the stored rows do not depend on the log, the data directory or
the index data. `Alters` lists what remains of a statement without these: the
catalog and the rows of every table after it, with the conditions under which
they come about. `after_alters` is the inversion that invariants over runs are
proved from.
-/
import Srrdb.Engine.CatalogSteps
import Srrdb.Engine.Defaults
import Srrdb.Engine.LogReplay
import Srrdb.Server.EntryDatabase

namespace Srrdb.Server

open Srrdb.Engine Srrdb.Sql Srrdb.Lib

section Theory

variable [Host] [ExprDebug] [Bincode]

/-- The rows of all tables, by name, after those of one were replaced. -/
def replaceTable (s : Storage) (tableName : String) (t : Table) (name : String) : Table :=
  if SameName tableName name then t else s.table name

/-- The values of the rows of a table. -/
def tableValues (t : Table) : List (List Value) := t.rows.map (·.values)

omit [Host] [ExprDebug] [Bincode] in
@[simp] theorem tableValues_empty : tableValues ∅ = [] := by
  rw [tableValues, Table.rows_empty]
  rfl

/-- The catalog and the rows that a statement may leave. A statement that
fails late, in a panic or at a poisoned storage, has changed the catalog only. -/
inductive Alters (e : Executor) : Call → Catalog → (String → Table) → Prop
  | nothing {call : Call} : Alters e call e.catalog.value e.storage.value.table
  | createTable {env : Env} {db : String} {ct : CreateTable} {c : Catalog}
      (hc : e.catalog.poisoned = false)
      (h : e.catalog.value.createTable db (nameToString ct.name)
        (createColumns (nameToString ct.name) ct.columns) = .ok c) :
      Alters e ⟨env, db, .createTable ct⟩ c e.storage.value.table
  | dropTable {env : Env} {db : String} {names : List ObjectName} {ifExists : Bool} {c : Catalog}
      (hc : e.catalog.poisoned = false)
      (h : e.catalog.value.dropTable db (toLowercase (firstName names)) = .ok c)
      (hst : e.storage.poisoned = false) :
      Alters e ⟨env, db, .drop .table names ifExists⟩ c
        (replaceTable e.storage.value (firstName names) ∅)
  | dropTableOnly {env : Env} {db : String} {names : List ObjectName} {ifExists : Bool}
      {c : Catalog} (hc : e.catalog.poisoned = false)
      (h : e.catalog.value.dropTable db (toLowercase (firstName names)) = .ok c)
      (hst : e.storage.poisoned = true) :
      Alters e ⟨env, db, .drop .table names ifExists⟩ c e.storage.value.table
  | insert {env : Env} {db : String} {ins : Insert} {tableDef : TableDef}
      {rows filled : List Row} {last : Nat} {c : Catalog} (hc : e.catalog.poisoned = false)
      (h : e.catalog.value.getTable db (tableObjectName ins.table) = .ok tableDef)
      (hs : sourceRows tableDef.columns ins.columns ins.source = .ok rows)
      (hf : fillRows env.now (tableObjectName ins.table) tableDef.columns 0 rows 0
        e.catalog.value = (.ok (filled, last), c))
      (hst : e.storage.poisoned = false) :
      Alters e ⟨env, db, .insert ins⟩ c (replaceTable e.storage.value (tableObjectName ins.table)
        (Storage.insertLoop (e.storage.value.table (tableObjectName ins.table))
          (e.storage.value.nextId (tableObjectName ins.table)) filled).1)
  | insertFails {env : Env} {db : String} {ins : Insert} {tableDef : TableDef} {rows : List Row}
      (hc : e.catalog.poisoned = false)
      (h : e.catalog.value.getTable db (tableObjectName ins.table) = .ok tableDef)
      (hs : sourceRows tableDef.columns ins.columns ins.source = .ok rows) :
      Alters e ⟨env, db, .insert ins⟩
        (fillRows env.now (tableObjectName ins.table) tableDef.columns 0 rows 0
          e.catalog.value).2 e.storage.value.table
  | delete {env : Env} {db : String} {del : Delete} {tableDef : TableDef} {t : Table}
      {rows : List Row} (hc : e.catalog.poisoned = false)
      (h : e.catalog.value.getTable db (deleteTable del) = .ok tableDef)
      (ht : e.storage.value.getTable? (deleteTable del) = some t)
      (hsel : selectRows tableDef.columns del.selection t.entries = .ok rows)
      (hst : e.storage.poisoned = false) :
      Alters e ⟨env, db, .delete del⟩ e.catalog.value
        (replaceTable e.storage.value (deleteTable del) (eraseRows rows t))
  | update {env : Env} {db : String} {table : TableFactor} {assignments : List Assignment}
      {selection : Option Expr} {tableDef : TableDef} {assigns : List (Nat × Expr)} {t : Table}
      {rows : List Row} (hc : e.catalog.poisoned = false)
      (h : e.catalog.value.getTable db (tableFactorName table) = .ok tableDef)
      (ha : assignments.mapM (assignIndex tableDef.columns) = .ok assigns)
      (ht : e.storage.value.getTable? (tableFactorName table) = some t)
      (hsel : selectRows tableDef.columns selection t.entries = .ok rows)
      (hst : e.storage.poisoned = false) :
      Alters e ⟨env, db, .update table assignments selection⟩ e.catalog.value
        (replaceTable e.storage.value (tableFactorName table) (assignRows assigns rows t))
  | createIndex {env : Env} {db : String} {ci : CreateIndex} {c : Catalog}
      (hc : e.catalog.poisoned = false) (hcols : indexColumns ci ≠ [])
      (h : e.catalog.value.createIndex db (newIndexDef (nameToString ci.tableName) ci) = .ok c) :
      Alters e ⟨env, db, .createIndex ci⟩ c e.storage.value.table
  | dropIndex {env : Env} {db : String} {names : List ObjectName} {ifExists : Bool}
      {tableName : String} {c : Catalog} (hc : e.catalog.poisoned = false)
      (h : e.catalog.value.dropIndex db (firstName names) tableName = .ok c) :
      Alters e ⟨env, db, .drop .index names ifExists⟩ c e.storage.value.table
  | createDatabase {env : Env} {db : String} {dbName : ObjectName} {ifNotExists : Bool}
      (hc : e.catalog.poisoned = false) :
      Alters e ⟨env, db, .createDatabase dbName ifNotExists⟩
        (e.catalog.value.createDatabase (nameToString dbName)) e.storage.value.table
  | dropDatabase {env : Env} {db : String} {names : List ObjectName} {ifExists : Bool}
      {c : Catalog} (hc : e.catalog.poisoned = false)
      (h : e.catalog.value.removeDatabase (firstName names) = some c) :
      Alters e ⟨env, db, .drop .database names ifExists⟩ c e.storage.value.table

/-! ## Every statement is one of them -/

omit [Bincode] in
theorem Alters.congr {e : Executor} {call : Call} {c c' : Catalog} {table table' : String → Table}
    (h : Alters e call c table) (hc : c' = c) (htable : ∀ name, table' name = table name) :
    Alters e call c' table' := by
  obtain rfl := hc
  obtain rfl : table' = table := funext htable
  exact h

/-- A statement altered the catalog and the rows in one of these ways. -/
theorem after_alters (e : Executor) (call : Call) :
    Alters e call (e.after call).catalog.value (e.after call).storage.value.table := by
  obtain ⟨env, db, stmt⟩ := call
  have heff := Call.effect ⟨env, db, stmt⟩ e
  generalize e.after ⟨env, db, stmt⟩ = e' at heff ⊢
  generalize Call.result ⟨env, db, stmt⟩ e = r at heff
  cases heff with
  | none r hskip => exact .nothing
  | createTable h =>
    cases h with
    | locked hc => exact .nothing
    | rejected hc h => exact .nothing
    | created hc h => exact .createTable hc h
  | dropTable h =>
    cases h with
    | locked hc => exact .nothing
    | rejected hc h => exact .nothing
    | uncleared hc h hst => exact .dropTableOnly hc h hst
    | dropped hc h hst =>
      refine (Alters.dropTable hc h hst).congr rfl fun name => ?_
      refine (Storage.table_clearTable _ _ name).trans ?_
      simp only [replaceTable, SameName, normalize_toLowercase]
  | insert h =>
    cases h with
    | locked hc => exact .nothing
    | noTable hc h => exact .nothing
    | badSource hc h hs => exact .nothing
    | panicked hc h hs hf =>
      exact (Alters.insertFails hc h hs).congr (by rw [hf]; rfl) fun _ => rfl
    | unstored hc h hs hf hst =>
      exact (Alters.insertFails hc h hs).congr (by rw [hf]; rfl) fun _ => rfl
    | stored hc h hs hf hst =>
      refine (Alters.insert hc h hs hf hst).congr (by rw [insertDone_catalog]; rfl) fun name => ?_
      rw [← Storage.table_congr (insertDone_sameRows _ _ _ _ _).tables]
      exact Storage.table_insertRows _ _ _ name
  | delete h =>
    cases h with
    | locked hc => exact .nothing
    | noTable hc h => exact .nothing
    | ran hc h hch =>
      cases hch with
      | locked hst => exact .nothing
      | noEntry hst ht => exact .nothing
      | panicked hst ht hsel => exact .nothing
      | changed hst ht hsel =>
        refine (Alters.delete hc h ht hsel hst).congr (by simp) fun name => ?_
        rw [Executor.saveTable_storage, logSnapshot_storage]
        exact table_change (deleteRows_rewrites _ _ _) ht _ name
  | update h =>
    cases h with
    | locked hc => exact .nothing
    | noTable hc h => exact .nothing
    | badAssignment hc h ha => exact .nothing
    | ran hc h ha hch =>
      cases hch with
      | locked hst => exact .nothing
      | noEntry hst ht => exact .nothing
      | panicked hst ht hsel => exact .nothing
      | changed hst ht hsel =>
        refine (Alters.update hc h ha ht hsel hst).congr (by simp) fun name => ?_
        rw [Executor.saveTable_storage, logSnapshot_storage]
        exact table_change (updateRows_rewrites _ _ _ _) ht _ name
  | createIndex hcols h =>
    cases h with
    | locked hc => exact .nothing
    | rejected hc h => exact .nothing
    | unbuilt hc h ht hst => exact .createIndex hc hcols h
    | duplicate hc h ht hst hb => exact .createIndex hc hcols h
    | built hc h ht hst hb => exact .createIndex hc hcols h
  | dropIndex hfind h =>
    cases h with
    | locked hc => exact .nothing
    | rejected hc h => exact .nothing
    | undropped hc h hst => exact .dropIndex hc h
    | dropped hc h hst => exact .dropIndex hc h
  | createDatabase h =>
    cases h with
    | locked hc => exact .nothing
    | rejected hc h => exact .nothing
    | changed hc h =>
      cases h
      exact .createDatabase hc
  | @dropDatabase names ifExists r e' h =>
    cases h with
    | locked hc => exact .nothing
    | rejected hc h => exact .nothing
    | @changed c hc h =>
      cases hremoved : e.catalog.value.removeDatabase (firstName names) with
      | none => simp [hremoved] at h
      | some c' =>
        simp only [hremoved, Except.ok.injEq] at h
        subst h
        exact .dropDatabase hc hremoved

omit [Bincode] in
/-- An index in the catalog after a statement was there before, or the statement
is a CREATE INDEX. -/
theorem Alters.mem_getTableIndexes {e : Executor} {call : Call} {c : Catalog}
    {table : String → Table} (h : Alters e call c table) {db t : String} {idx : IndexDef}
    (hidx : idx ∈ c.getTableIndexes db t) :
    idx ∈ e.catalog.value.getTableIndexes db t ∨
      ∃ ci, call.stmt = .createIndex ci ∧
        e.catalog.value.createIndex call.db (newIndexDef (nameToString ci.tableName) ci) = .ok c ∧
        SameName (nameToString ci.tableName) t ∧
        idx = newIndexDef (nameToString ci.tableName) ci := by
  cases h with
  | nothing => exact .inl hidx
  | createTable hc h => exact .inl (indexesWithin_createTable h _ _ _ hidx)
  | dropTable hc h => exact .inl (indexesWithin_dropTable h _ _ _ hidx)
  | dropTableOnly hc h => exact .inl (indexesWithin_dropTable h _ _ _ hidx)
  | @insert env db ins tableDef rows filled last c hc h hs hf =>
    have hdatabases := fillRows_databases env.now (tableObjectName ins.table) tableDef.columns rows
      0 0 e.catalog.value
    rw [hf] at hdatabases
    exact .inl (indexesWithin_congr hdatabases _ _ _ hidx)
  | insertFails => exact .inl (indexesWithin_congr (fillRows_databases _ _ _ _ _ _ _) _ _ _ hidx)
  | delete => exact .inl hidx
  | update => exact .inl hidx
  | createIndex hc hcols h =>
    rcases (mem_createIndex h).mp hidx with hold | ⟨-, ht, rfl⟩
    · exact .inl hold
    · exact .inr ⟨_, rfl, h, ht, rfl⟩
  | dropIndex hc h => exact .inl (indexesWithin_dropIndex h _ _ _ hidx)
  | createDatabase => exact .inl (indexesWithin_createDatabase _ _ _ _ hidx)
  | dropDatabase hc h => exact .inl (indexesWithin_removeDatabase h _ _ _ hidx)

/-! ## The values in the altered tables -/

omit [Bincode] in
/-- INSERT adds the values of its rows. -/
theorem tableValues_insert {e : Executor} (hcons : e.storage.value.Consistent) {env : Env}
    {tableName : String} {columns : List Column} {cols : List String} {source : Option Query}
    {rows filled : List Row} {last : Nat} {c c' : Catalog}
    (hs : sourceRows columns cols source = .ok rows)
    (hf : fillRows env.now tableName columns 0 rows 0 c = (.ok (filled, last), c')) :
    (tableValues (Storage.insertLoop (e.storage.value.table tableName)
      (e.storage.value.nextId tableName) filled).1).Perm
      (filled.map (·.values) ++ tableValues (e.storage.value.table tableName)) := by
  obtain ⟨-, -, hsup⟩ := fillRows_eq_ok hf
  exact Storage.insertLoop_rows_perm (hsup.id_eq_zero (sourceRows_id_eq_zero hs))
    (hcons.sound tableName)

omit [Bincode] in
/-- DELETE keeps the values of the rows it did not select. -/
theorem tableValues_delete {columns : List Column} {selection : Option Expr} {t : Table}
    {rows : List Row} (ht : t.Keyed) (h : selectRows columns selection t.entries = .ok rows) :
    (tableValues (eraseRows rows t)).Perm
      ((t.rows.filter fun row => !selects columns selection row).map (·.values)) :=
  (eraseRows_rows_perm ht h).map _

omit [Bincode] in
/-- UPDATE assigns to the rows it selected. -/
theorem tableValues_update {columns : List Column} {selection : Option Expr}
    (assigns : List (Nat × Expr)) {t : Table} {rows : List Row} (ht : t.Keyed)
    (h : selectRows columns selection t.entries = .ok rows) :
    (tableValues (assignRows assigns rows t)).Perm
      ((rows.map fun row => assignValues assigns row.values) ++
        (t.rows.filter fun row => !selects columns selection row).map (·.values)) := by
  have hperm := (assignRows_rows_perm assigns ht h).map (·.values)
  rwa [List.map_append, List.map_map] at hperm

end Theory

end Srrdb.Server
