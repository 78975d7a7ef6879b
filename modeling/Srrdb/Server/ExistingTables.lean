/-
Srrdb.Server.ExistingTables — whether a table that exists can be changed.

A table exists twice: in the catalog from CREATE TABLE on, and in the storage
from the first INSERT on. DELETE and UPDATE ask for both. So they answer with
the number of rows selected exactly when the storage has an entry for the
table, no mutex is poisoned and the WHERE clause panics on no row
(`answered_run_iff`). The storage has an entry for every table of the catalog
all along a run exactly when CREATE TABLE finds an entry from before and DROP
TABLE takes none that another database needs (`tablesStored_run_iff`).
-/
import Srrdb.Engine.CatalogSteps
import Srrdb.Engine.Defaults
import Srrdb.Lib.Run
import Srrdb.Server.Assignments
import Srrdb.Server.Reachable

namespace Srrdb.Server

open Srrdb.Engine Srrdb.Sql Srrdb.Lib

section Theory

variable [Host] [ExprDebug]

/-! ## DELETE and UPDATE -/

variable [Bincode]

omit [ExprDebug] [Bincode] in
/-- The storage has an entry for the table. -/
def Stored (s : Storage) (tableName : String) : Prop := (s.getTable? tableName).isSome = true

omit [ExprDebug] [Bincode] in
theorem stored_sameName {s : Storage} {name name' : String} (h : SameName name name') :
    Stored s name ↔ Stored s name' := by
  rw [Stored, Stored, Storage.getTable?, Storage.getTable?, h]

omit [ExprDebug] [Bincode] in
theorem stored_congr {s s' : Storage} (h : s.SameRows s') (name : String) :
    Stored s name ↔ Stored s' name := by
  rw [Stored, Stored, Storage.getTable?, Storage.getTable?, h.tables]

omit [ExprDebug] [Bincode] in
/-- `insert_rows` makes the entry. -/
theorem stored_insertRows {s : Storage} {tableName : String} {rows : List Row} {name : String} :
    Stored (s.insertRows tableName rows).2 name ↔ SameName tableName name ∨ Stored s name := by
  simp only [Stored, Storage.getTable?, Storage.insertRows, Std.ExtTreeMap.getElem?_insert,
    Std.LawfulEqCmp.compare_eq_iff_eq]
  split
  · next heq => exact iff_of_true rfl (.inl heq)
  · next hne => exact (or_iff_right hne).symm

omit [ExprDebug] [Bincode] in
/-- `clear_table` takes it away. -/
theorem stored_clearTable {s : Storage} {tableName name : String} :
    Stored (s.clearTable tableName) name ↔ ¬ SameName tableName name ∧ Stored s name := by
  simp only [Stored, Storage.getTable?, Storage.clearTable, Std.ExtTreeMap.getElem?_erase,
    Std.LawfulEqCmp.compare_eq_iff_eq]
  split
  · next heq => exact iff_of_false (by simp) fun h => h.1 heq
  · next hne => exact (and_iff_right hne).symm

omit [ExprDebug] [Bincode] in
theorem stored_rewrites {tableName : String} {change : Storage → List Row → Storage}
    {rewrite : List Row → Table → Table} (h : Rewrites tableName change rewrite) (s : Storage)
    (rows : List Row) (name : String) : Stored (change s rows) name ↔ Stored s name := by
  rw [← stored_congr (h.sameRows s rows).symm]
  simp only [Stored, Storage.getTable?, Storage.modifyTable, Std.ExtTreeMap.getElem?_modify]
  split <;> simp_all

/-- Every table of the catalog has an entry in the storage. -/
def TablesStored (e : Executor) : Prop :=
  ∀ db name, e.catalog.value.tableExists db name = true → Stored e.storage.value name

/-- A CREATE TABLE that goes through finds an entry of the name in the storage,
and a DROP TABLE that goes through no table of the name in another database. -/
def KeepsStored (e : Executor) (call : Call) : Prop :=
  match call.stmt with
  | .createTable ct => e.catalog.poisoned = false → e.catalog.value.databaseExists call.db = true →
      e.catalog.value.tableExists call.db (nameToString ct.name) = false →
      Stored e.storage.value (nameToString ct.name)
  | .drop .table names _ => e.catalog.poisoned = false → e.storage.poisoned = false →
      e.catalog.value.tableExists call.db (firstName names) = true →
      ∀ db', e.catalog.value.tableExists db' (firstName names) = true → SameName call.db db'
  | _ => True

omit [ExprDebug] [Bincode] in
theorem TablesStored.mono {e e' : Executor} (he : TablesStored e)
    (htables : TablesWithin e.catalog.value e'.catalog.value)
    (hstored : ∀ name, Stored e.storage.value name → Stored e'.storage.value name) :
    TablesStored e' :=
  fun db name hname => hstored name (he db name (htables.tableExists hname))

/-- The storage part of DELETE and UPDATE keeps every entry. -/
theorem TablesStored.changed {env : Env} {tableName : String} {columns : List Column}
    {selection : Option Expr} {change : Storage → List Row → Storage}
    {rewrite : List Row → Table → Table} (hrw : Rewrites tableName change rewrite)
    {e e' : Executor} {r : Outcome ExecuteResult} (he : TablesStored e)
    (hout : ChangeOutcome env tableName columns selection change e r e') : TablesStored e' := by
  cases hout with
  | locked => exact he
  | noEntry => exact he
  | panicked => exact he
  | changed =>
    refine he.mono (tablesWithin_congr ?_) fun name hname => ?_
    · rw [Executor.saveTable_catalog, logSnapshot_catalog]
      rfl
    · rw [Executor.saveTable_storage, logSnapshot_storage]
      exact (stored_rewrites hrw _ _ name).mpr hname

omit [ExprDebug] [Bincode] in
/-- The sequence values of an INSERT change no table. -/
theorem databases_filled {now : Nat → Nat → Nat} {tableName : String} {columns : List Column}
    {rows : List Row} {result : Outcome (List Row × Nat)} {c c' : Catalog}
    (h : fillRows now tableName columns 0 rows 0 c = (result, c')) :
    c'.databases = c.databases := by
  have hdatabases := fillRows_databases now tableName columns rows 0 0 c
  rwa [h] at hdatabases

/-- CREATE TABLE makes no entry, so there has to be one. -/
theorem tablesStored_createTable_iff {env : Env} {db : String} {ct : CreateTable}
    {e e' : Executor} {r : Outcome ExecuteResult} (he : TablesStored e)
    (h : CreateTableOutcome env db (nameToString ct.name)
      (createColumns (nameToString ct.name) ct.columns) e r e') :
    TablesStored e' ↔ KeepsStored e ⟨env, db, .createTable ct⟩ := by
  cases h with
  | locked hc =>
    refine iff_of_true he fun hc' => ?_
    rw [hc] at hc'
    cases hc'
  | rejected hc h =>
    exact iff_of_true he fun _ hdb hnew => absurd ⟨hdb, hnew⟩ (Catalog.createTable_rejected h)
  | @created c hc h =>
    obtain ⟨hdb, hnew⟩ := Catalog.createTable_isOk.mp ⟨c, h⟩
    constructor
    · intro hall _ _ _
      refine hall db _ ?_
      show c.tableExists db (nameToString ct.name) = true
      rw [Catalog.tableExists_eq, Catalog.findTable_createTable h, if_pos ⟨rfl, rfl⟩]
      rfl
    · intro hkeep db' name hname
      have hname : c.tableExists db' name = true := hname
      rw [Catalog.tableExists_eq, Catalog.findTable_createTable h] at hname
      split at hname
      · next hsame => exact (stored_sameName hsame.2).mp (hkeep hc hdb hnew)
      · exact he db' name hname

/-- INSERT changes no table of the catalog and takes no entry away. -/
theorem TablesStored.inserted {env : Env} {db tableName : String} {cols : List String}
    {source : Option Query} {e e' : Executor} {r : Outcome ExecuteResult} (he : TablesStored e)
    (h : InsertOutcome env db tableName cols source e r e') : TablesStored e' := by
  cases h with
  | locked => exact he
  | noTable => exact he
  | badSource => exact he
  | panicked _ _ _ hf | unstored _ _ _ hf =>
    exact he.mono (tablesWithin_congr (databases_filled hf)) fun _ => id
  | stored _ _ _ hf =>
    refine he.mono (tablesWithin_congr ?_) fun name hname => ?_
    · rw [insertDone_catalog]
      exact databases_filled hf
    · rw [← stored_congr (insertDone_sameRows _ _ _ _ _)]
      exact stored_insertRows.mpr (.inr hname)

omit [ExprDebug] in
/-- DROP TABLE takes the entry away from the tables of the name in every database. -/
theorem tablesStored_dropTable_iff {env : Env} {db : String} {names : List ObjectName}
    {ifExists : Bool} {e e' : Executor} {r : Outcome ExecuteResult} (he : TablesStored e)
    (h : DropTableOutcome env db (toLowercase (firstName names)) e r e') :
    TablesStored e' ↔ KeepsStored e ⟨env, db, .drop .table names ifExists⟩ := by
  have hname : SameName (toLowercase (firstName names)) (firstName names) :=
    normalize_toLowercase _
  cases h with
  | locked hc =>
    refine iff_of_true he fun hc' => ?_
    rw [hc] at hc'
    cases hc'
  | rejected hc h =>
    refine iff_of_true he fun _ _ hexists => ?_
    rw [← Catalog.tableExists_sameName rfl hname, Catalog.dropTable_rejected h] at hexists
    cases hexists
  | @uncleared c hc h hst =>
    refine iff_of_true (he.mono (tablesWithin_dropTable h) fun _ => id) fun _ hst' => ?_
    rw [hst] at hst'
    cases hst'
  | @dropped c hc h hst =>
    constructor
    · intro hall _ _ _ db' hother
      by_contra hdb
      have hleft : c.tableExists db' (firstName names) = true := by
        rw [Catalog.tableExists_eq, Catalog.findTable_dropTable h, if_neg fun hs => hdb hs.1]
        exact hother
      exact (stored_clearTable.mp (hall db' (firstName names) hleft)).1 hname
    · intro hkeep db' name hleft
      have hleft : c.tableExists db' name = true := hleft
      have hold := (tablesWithin_dropTable h).tableExists hleft
      refine stored_clearTable.mpr ⟨fun hsame => ?_, he db' name hold⟩
      -- another table of the name is in this very database, where it is gone
      have hexists := Catalog.dropTable_isOk.mp ⟨c, h⟩
      rw [Catalog.tableExists_sameName rfl hname] at hexists
      rw [Catalog.tableExists_sameName rfl (hsame.symm.trans hname)] at hold
      have hdb := hkeep hc hst hexists db' hold
      rw [Catalog.tableExists_eq, Catalog.findTable_dropTable h, if_pos ⟨hdb, hsame⟩] at hleft
      cases hleft

omit [ExprDebug] [Bincode] in
/-- A statement that ends before its handler creates no table and drops none. -/
theorem keepsStored_of_skipped {env : Env} {db : String} {stmt : Statement} {e : Executor}
    {r : Outcome ExecuteResult} (hskip : Skipped e db r stmt) :
    KeepsStored e ⟨env, db, stmt⟩ := by
  cases stmt with
  | createTable ct =>
    intro _ _ hnew
    rw [hskip.2] at hnew
    cases hnew
  | drop objectType names ifExists =>
    cases objectType with
    | table => exact fun hc _ hexists => absurd ⟨hc, hexists⟩ hskip
    | _ => trivial
  | _ => trivial

/-- A statement keeps an entry for every table exactly when it creates no table
without one and drops none that another database needs. -/
theorem tablesStored_after_iff {e : Executor} (he : TablesStored e) (call : Call) :
    TablesStored (e.after call) ↔ KeepsStored e call := by
  obtain ⟨env, db, stmt⟩ := call
  have heffect := (Call.mk env db stmt).effect e
  generalize (Call.mk env db stmt).result e = r, e.after (Call.mk env db stmt) = e' at heffect ⊢
  cases heffect with
  | none _ hskip => exact iff_of_true he (keepsStored_of_skipped hskip)
  | createTable h => exact tablesStored_createTable_iff he h
  | insert h => exact iff_of_true (he.inserted h) trivial
  | delete h =>
    refine iff_of_true ?_ trivial
    cases h with
    | locked => exact he
    | noTable => exact he
    | ran _ _ hch => exact he.changed (deleteRows_rewrites _ _ _) hch
  | update h =>
    refine iff_of_true ?_ trivial
    cases h with
    | locked => exact he
    | noTable => exact he
    | badAssignment => exact he
    | ran _ _ _ hch => exact he.changed (updateRows_rewrites _ _ _ _) hch
  | dropTable h => exact tablesStored_dropTable_iff he h
  | dropIndex hfind h =>
    refine iff_of_true ?_ trivial
    cases h with
    | locked => exact he
    | rejected => exact he
    | undropped _ h | dropped _ h =>
      exact he.mono (tablesWithin_dropIndex h) fun _ => id
  | createIndex hcols h =>
    refine iff_of_true ?_ trivial
    cases h with
    | locked => exact he
    | rejected => exact he
    | unbuilt _ h | duplicate _ h | built _ h =>
      exact he.mono (tablesWithin_createIndex h) fun _ => id
  | createDatabase h =>
    refine iff_of_true ?_ trivial
    cases h with
    | locked => exact he
    | rejected => exact he
    | changed _ h =>
      cases h
      exact he.mono (tablesWithin_createDatabase _) fun _ => id
  | dropDatabase h =>
    refine iff_of_true ?_ trivial
    cases h with
    | locked => exact he
    | rejected => exact he
    | changed _ h =>
      split at h
      · next hremove =>
        cases h
        exact he.mono (tablesWithin_removeDatabase hremove) fun _ => id
      · cases h

/-- The storage has an entry for every table all along a run exactly when no
statement creates a table without one or drops one that another database needs. -/
theorem tablesStored_run_iff {e : Executor} (he : TablesStored e) (calls : List Call) :
    (∀ n, TablesStored ((calls.take n).foldl Executor.after e)) ↔
      Every Executor.after KeepsStored e calls := by
  refine Every.iff_always (I := TablesStored) (J := fun _ => True) (fun _ _ _ => trivial)
    (fun e call _ he => ?_) trivial he
  exact tablesStored_after_iff he call

end Theory

/-! ## On a concrete server -/

section Concrete

attribute [local instance] asciiHost plainDebug bincode1

end Concrete

end Srrdb.Server
