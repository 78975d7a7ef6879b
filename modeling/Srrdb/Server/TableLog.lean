/-
Srrdb.Server.TableLog — the log, as it concerns one table of `srrdb`.

A table with its rows is an object of a redo log, and an entry of the log is a
change to it or does not concern it (`redo`). Replaying the log does to the
table what replaying these changes does to the object, as long as the rows in
the entries are as a server logs them (`Plain`).
-/
import Srrdb.Lib.Redo
import Srrdb.Server.Contents
import Srrdb.Server.LogOrder

namespace Srrdb.Server

open Srrdb.Engine Srrdb.Sql Srrdb.Lib

variable [Host]

/-! ## Tables as objects -/

/-- The definition of a table of `srrdb` and the values of the rows under its
name. -/
def tableObject (m : Memory) (name : String) : Object TableDef (List Value) :=
  ⟨m.catalog.findTable "srrdb" name, rowValues m.storage name⟩

/-- What an entry changes in a table. -/
def redo (name : String) : WalEntry → Option (Redo TableDef (List Value))
  | .createTable tableName columns =>
    if SameName tableName name then some (.create ⟨tableName, columns⟩) else none
  | .dropTable tableName => if SameName tableName name then some .drop else none
  | .insertRows tableName rows =>
    if SameName tableName name then some (.add (rows.map (·.values))) else none
  | .tableSnapshot tableName rows =>
    if SameName tableName name then some (.set (rows.map (·.values))) else none
  | .createIndex .. | .dropIndex .. | .checkpoint => none

/-- The changes of a log to one table. -/
def redoLog (name : String) (log : List WalEntry) : List (Redo TableDef (List Value)) :=
  log.filterMap (redo name)

theorem redoLog_sameName {name name' : String} (h : SameName name name') (log : List WalEntry) :
    redoLog name log = redoLog name' log := by
  have hredo : redo name = redo name' := by
    funext entry
    cases entry <;> simp only [redo, SameName, show normalize name = normalize name' from h]
  rw [redoLog, redoLog, hredo]

theorem redoLog_append (name : String) (log log' : List WalEntry) :
    redoLog name (log ++ log') = redoLog name log ++ redoLog name log' :=
  List.filterMap_append

/-- What one entry changes in a table. -/
theorem replay_redoLog_some {name : String} (entry : WalEntry) {change : Redo TableDef (List Value)}
    (h : redo name entry = some change) (o : Object TableDef (List Value)) :
    o.replay (redoLog name [entry]) = o.apply change := by
  rw [redoLog, List.filterMap_cons, h]
  rfl

theorem replay_redoLog_none {name : String} (entry : WalEntry) (h : redo name entry = none)
    (o : Object TableDef (List Value)) : o.replay (redoLog name [entry]) = o := by
  rw [redoLog, List.filterMap_cons, h]
  rfl

/-- An entry as statements log it: new rows without ids, and snapshots of
tables that `insert_rows` made. -/
def Plain : WalEntry → Prop
  | .insertRows _ rows => ∀ row ∈ rows, row.id = 0
  | .tableSnapshot _ rows => ∃ (t : Table) (next : Nat), t.Sound next ∧ rows = t.rows
  | .checkpoint => False
  | _ => True

/-! ## Replay -/

theorem databaseExists_tryCatalog {m : Memory} {db : String} {r : Except String Catalog}
    (h : ∀ c, r = .ok c → c.databaseExists db = m.catalog.databaseExists db) :
    (m.tryCatalog r).2.catalog.databaseExists db = m.catalog.databaseExists db := by
  cases r with
  | error msg => rfl
  | ok c => exact h c rfl

/-- Replay creates and removes no database. -/
theorem databaseExists_applyEntry (m : Memory) (entry : WalEntry) (db : String) :
    (m.applyEntry entry).2.catalog.databaseExists db = m.catalog.databaseExists db := by
  cases entry with
  | createTable tableName columns =>
    exact databaseExists_tryCatalog fun c h => Catalog.databaseExists_createTable h
  | dropTable tableName =>
    rw [Memory.applyEntry]
    split
    · next h => exact Catalog.databaseExists_dropTable h
    · rfl
  | createIndex dbName indexDef =>
    exact databaseExists_tryCatalog fun c h => Catalog.databaseExists_createIndex h
  | dropIndex dbName indexName tableName =>
    exact databaseExists_tryCatalog fun c h => Catalog.databaseExists_dropIndex h
  | insertRows tableName rows | tableSnapshot tableName rows | checkpoint => rfl

/-- A change of the catalog that finds the same tables. -/
theorem tableObject_tryCatalog {m : Memory} {name : String} {r : Except String Catalog}
    (h : ∀ c, r = .ok c → c.findTable "srrdb" name = m.catalog.findTable "srrdb" name) :
    tableObject (m.tryCatalog r).2 name = tableObject m name := by
  cases r with
  | error msg => rfl
  | ok c =>
    show (⟨c.findTable "srrdb" name, rowValues m.storage name⟩ : Object TableDef (List Value)) = _
    rw [h c rfl]
    rfl

/-- CREATE TABLE replayed. -/
theorem tableObject_createTable {m : Memory} (hdb : m.catalog.databaseExists "srrdb" = true)
    (tableName : String) (columns : List Column) (name : String) :
    tableObject (m.tryCatalog (m.catalog.createTable "srrdb" tableName columns)).2 name =
      if SameName tableName name then (tableObject m name).apply (.create ⟨tableName, columns⟩)
      else tableObject m name := by
  cases h : m.catalog.createTable "srrdb" tableName columns with
  | ok c =>
    obtain ⟨-, hfree⟩ := Catalog.createTable_isOk.mp ⟨c, h⟩
    show (⟨c.findTable "srrdb" name, rowValues m.storage name⟩ : Object TableDef (List Value)) = _
    rw [Catalog.findTable_createTable h]
    by_cases hname : SameName tableName name
    · rw [Catalog.tableExists_sameName rfl hname] at hfree
      have hnone := Catalog.findTable_eq_none hfree
      rw [if_pos ⟨rfl, hname⟩, if_pos hname]
      simp [Object.apply, tableObject, hnone]
    · rw [if_neg fun hs => hname hs.2, if_neg hname]
      rfl
  | error msg =>
    show tableObject m name = _
    by_cases hname : SameName tableName name
    · -- the table exists: CREATE TABLE has no other reason to fail
      have hexists : m.catalog.tableExists "srrdb" tableName = true :=
        Bool.not_eq_false _ ▸ fun hfree => Catalog.createTable_rejected h ⟨hdb, hfree⟩
      rw [Catalog.tableExists_sameName rfl hname, Catalog.tableExists_eq,
        Option.isSome_iff_exists] at hexists
      obtain ⟨t, ht⟩ := hexists
      rw [if_pos hname]
      simp [Object.apply, tableObject, ht]
    · rw [if_neg hname]

/-- DROP TABLE replayed. -/
theorem tableObject_dropTable (m : Memory) (tableName name : String) :
    tableObject (m.applyEntry (.dropTable tableName)).2 name =
      if SameName tableName name then (tableObject m name).apply .drop else tableObject m name := by
  rw [Memory.applyEntry]
  cases h : m.catalog.dropTable "srrdb" tableName with
  | ok c =>
    have hexists := Catalog.dropTable_isOk.mp ⟨c, h⟩
    show (⟨c.findTable "srrdb" name, rowValues (m.storage.clearTable tableName) name⟩ :
      Object TableDef (List Value)) = _
    rw [Catalog.findTable_dropTable h, rowValues, Storage.table_clearTable]
    by_cases hname : SameName tableName name
    · rw [Catalog.tableExists_sameName rfl hname, Catalog.tableExists_eq] at hexists
      rw [if_pos ⟨rfl, hname⟩, if_pos hname, if_pos hname, Table.rows_empty]
      simp [Object.apply, Object.absent, tableObject, hexists]
    · rw [if_neg fun hs => hname hs.2, if_neg hname, if_neg hname]
      rfl
  | error msg =>
    show tableObject m name = _
    by_cases hname : SameName tableName name
    · have hnone := Catalog.dropTable_rejected h
      rw [Catalog.tableExists_sameName rfl hname, Catalog.tableExists_eq] at hnone
      rw [if_pos hname]
      simp [Object.apply, tableObject, hnone]
    · rw [if_neg hname]

/-- An entry replayed is the change carried out. -/
theorem tableObject_applyEntry {m : Memory} (hdb : m.catalog.databaseExists "srrdb" = true)
    (hs : m.storage.Consistent) {entry : WalEntry} (hplain : Plain entry) (name : String) :
    (tableObject (m.applyEntry entry).2 name).Same
      ((tableObject m name).replay (redoLog name [entry])) := by
  cases entry with
  | createTable tableName columns =>
    rw [Memory.applyEntry, tableObject_createTable hdb]
    split
    · next hname =>
      rw [replay_redoLog_some (.createTable tableName columns) (if_pos hname)]
      exact .refl _
    · next hname =>
      rw [replay_redoLog_none (.createTable tableName columns) (if_neg hname)]
      exact .refl _
  | dropTable tableName =>
    rw [tableObject_dropTable]
    split
    · next hname =>
      rw [replay_redoLog_some (.dropTable tableName) (if_pos hname)]
      exact .refl _
    · next hname =>
      rw [replay_redoLog_none (.dropTable tableName) (if_neg hname)]
      exact .refl _
  | insertRows tableName rows =>
    have hperm := rowValues_insertRows hs.sound tableName hplain name
    by_cases hname : SameName tableName name
    · rw [rowsFor, if_pos hname] at hperm
      rw [replay_redoLog_some (.insertRows tableName rows) (if_pos hname)]
      exact ⟨rfl, hperm⟩
    · rw [rowsFor, if_neg hname] at hperm
      rw [replay_redoLog_none (.insertRows tableName rows) (if_neg hname)]
      exact ⟨rfl, hperm⟩
  | tableSnapshot tableName rows =>
    obtain ⟨t, next, ht, rfl⟩ := hplain
    have hperm := rowValues_restoreRows m.storage tableName ht name
    by_cases hname : SameName tableName name
    · rw [if_pos hname] at hperm
      rw [replay_redoLog_some (.tableSnapshot tableName _) (if_pos hname)]
      exact ⟨rfl, hperm⟩
    · rw [if_neg hname] at hperm
      rw [replay_redoLog_none (.tableSnapshot tableName _) (if_neg hname)]
      exact ⟨rfl, hperm⟩
  | createIndex dbName indexDef =>
    have heq : tableObject (m.applyEntry (.createIndex dbName indexDef)).2 name =
        tableObject m name :=
      tableObject_tryCatalog fun c h => Catalog.findTable_createIndex h "srrdb" name
    exact heq ▸ .refl _
  | dropIndex dbName indexName tableName =>
    have heq : tableObject (m.applyEntry (.dropIndex dbName indexName tableName)).2 name =
        tableObject m name :=
      tableObject_tryCatalog fun c h => Catalog.findTable_dropIndex h "srrdb" name
    exact heq ▸ .refl _
  | checkpoint => exact hplain.elim

/-- A log replayed is its changes carried out. -/
theorem tableObject_applyAll {log : List WalEntry} (hplain : ∀ entry ∈ log, Plain entry)
    {m : Memory} (hdb : m.catalog.databaseExists "srrdb" = true) (hs : m.storage.Consistent)
    (name : String) :
    (tableObject (m.applyAll log) name).Same ((tableObject m name).replay (redoLog name log)) := by
  induction log generalizing m with
  | nil => exact .refl _
  | cons entry log ih =>
    obtain ⟨hentry, hlog⟩ := List.forall_mem_cons.mp hplain
    have hstep := tableObject_applyEntry hdb hs hentry name
    have hrest := ih hlog ((databaseExists_applyEntry m entry "srrdb").trans hdb)
      (applyEntry_consistent hs entry)
    have hsplit : redoLog name (entry :: log) = redoLog name [entry] ++ redoLog name log :=
      redoLog_append name [entry] log
    rw [Memory.applyAll_cons, hsplit, Object.replay_append]
    exact hrest.trans (hstep.replay _)

end Srrdb.Server
