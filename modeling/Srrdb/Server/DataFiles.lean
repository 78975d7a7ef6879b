/-
Srrdb.Server.DataFiles — the data directory beside the log.

`Settled` is what a start relies on: the catalog file, once there is one, is
the catalog of an earlier time, as the log tells it, and the file of a table is
empty unless the log somewhere overwrites the rows of the table. Writes keep
it: what a statement appends, an index file, a catalog that follows the log,
and the rows of a table that the log overwrites. `recovered` says that a start
then yields what the log says, whatever the table files hold.
-/
import Srrdb.Engine.SavedFiles
import Srrdb.Server.Restart
import Srrdb.Server.TableLog

namespace Srrdb.Server

open Srrdb.Engine Srrdb.Sql Srrdb.Lib

variable [Host]

/-! ## Catalogs with tables in `srrdb` alone -/

/-- The database `srrdb` is there, all tables are in it, and under names that
name a file of their own. -/
structure HomeTables (c : Catalog) : Prop where
  database : c.databaseExists "srrdb" = true
  tables : ∀ (dbKey : String) (d : DatabaseDef) (key : String) (t : TableDef),
    c.databases[dbKey]? = some d → d.tables[key]? = some t →
      dbKey = normalize "srrdb" ∧ normalize key = key ∧ isFileName key = true

theorem HomeTables.congr {c c' : Catalog} (h : HomeTables c) (heq : c'.databases = c.databases) :
    HomeTables c' where
  database := by
    rw [Catalog.databaseExists, heq]
    exact h.database
  tables dbKey d key t hd ht := h.tables dbKey d key t (heq ▸ hd) ht

theorem HomeTables.new : HomeTables .new where
  database := by simp [Catalog.databaseExists, Catalog.new]
  tables dbKey d key t hd ht := by
    simp only [Catalog.new, Std.ExtTreeMap.getElem?_insert] at hd
    split at hd
    · cases hd
      simp [DatabaseDef.empty] at ht
    · simp at hd

theorem findTable_new (db name : String) : Catalog.new.findTable db name = none := by
  cases ht : Catalog.new.findTable db name with
  | none => rfl
  | some t =>
    obtain ⟨d, hd, hget⟩ := Option.bind_eq_some_iff.mp ht
    simp only [Catalog.getDatabase, Catalog.new, Std.ExtTreeMap.getElem?_insert] at hd
    split at hd
    · cases hd
      simp [DatabaseDef.empty] at hget
    · simp at hd

/-- A table is found in `srrdb` only. -/
theorem HomeTables.found {c : Catalog} (h : HomeTables c) {db name : String} {t : TableDef}
    (ht : c.findTable db name = some t) :
    SameName "srrdb" db ∧ isFileName (normalize name) = true := by
  obtain ⟨d, hd, hget⟩ := Option.bind_eq_some_iff.mp ht
  obtain ⟨hdb, -, hfile⟩ := h.tables _ d _ t hd hget
  exact ⟨hdb.symm, hfile⟩

theorem HomeTables.elsewhere {c : Catalog} (h : HomeTables c) {db : String}
    (hdb : ¬ SameName "srrdb" db) (name : String) : c.findTable db name = none := by
  cases ht : c.findTable db name with
  | none => rfl
  | some t => exact absurd (h.found ht).1 hdb

/-- A table that is stored is found under its key. -/
theorem HomeTables.lookup {c : Catalog} (h : HomeTables c) {dbKey key : String} {d : DatabaseDef}
    {t : TableDef} (hd : c.databases[dbKey]? = some d) (ht : d.tables[key]? = some t) :
    c.findTable "srrdb" key = some t := by
  obtain ⟨rfl, hkey, -⟩ := h.tables dbKey d key t hd ht
  rw [Catalog.findTable, Catalog.getDatabase, hd, Option.bind_some, hkey, ht]

/-- A database written back with no new tables. -/
theorem HomeTables.setDatabase {c : Catalog} (h : HomeTables c) {db : String} {d d' : DatabaseDef}
    (hd : c.getDatabase db = some d)
    (hsub : ∀ (key : String) (t : TableDef), d'.tables[key]? = some t →
      ∃ t', d.tables[key]? = some t') : HomeTables (c.setDatabase db d') where
  database := (Catalog.databaseExists_setDatabase hd d').trans h.database
  tables dbKey d₁ key t hd₁ ht := by
    rcases Catalog.databases_setDatabase hd₁ with ⟨rfl, rfl⟩ | hold
    · obtain ⟨t', ht'⟩ := hsub key t ht
      exact h.tables _ d key t' hd ht'
    · exact h.tables dbKey d₁ key t hold ht

theorem HomeTables.createTable {c c' : Catalog} (h : HomeTables c) {db tableName : String}
    {columns : List Column} (hdb : SameName db "srrdb")
    (hfile : isFileName (normalize tableName) = true)
    (hcreated : c.createTable db tableName columns = .ok c') : HomeTables c' := by
  refine ⟨(Catalog.databaseExists_createTable hcreated).trans h.database, ?_⟩
  obtain ⟨d, hd, -, rfl⟩ := Catalog.createTable_ok hcreated
  intro dbKey d₁ key t hd₁ ht
  rcases Catalog.databases_setDatabase hd₁ with ⟨rfl, rfl⟩ | hold
  · simp only [Std.ExtTreeMap.getElem?_insert] at ht
    split at ht
    · next hkey =>
      obtain rfl := Std.LawfulEqOrd.eq_of_compare hkey
      exact ⟨hdb, normalize_normalize tableName, hfile⟩
    · exact h.tables _ d key t hd ht
  · exact h.tables dbKey d₁ key t hold ht

theorem HomeTables.dropTable {c c' : Catalog} (h : HomeTables c) {db tableName : String}
    (hdropped : c.dropTable db tableName = .ok c') : HomeTables c' := by
  obtain ⟨d, t, hd, -, rfl⟩ := Catalog.dropTable_ok hdropped
  refine (h.setDatabase hd fun key t' ht' => ?_).congr rfl
  simp only [Std.ExtTreeMap.getElem?_erase] at ht'
  split at ht'
  · cases ht'
  · exact ⟨t', ht'⟩

theorem HomeTables.createIndex {c c' : Catalog} (h : HomeTables c) {db : String}
    {indexDef : IndexDef} (hcreated : c.createIndex db indexDef = .ok c') : HomeTables c' := by
  obtain ⟨d, t, hd, -, -, rfl⟩ := Catalog.createIndex_ok hcreated
  exact h.setDatabase hd fun key t' ht' => ⟨t', ht'⟩

theorem HomeTables.dropIndex {c c' : Catalog} (h : HomeTables c) {db indexName tableName : String}
    (hdropped : c.dropIndex db indexName tableName = .ok c') : HomeTables c' := by
  obtain ⟨d, pos, hd, -, rfl⟩ := Catalog.dropIndex_ok hdropped
  exact h.setDatabase hd fun key t' ht' => ⟨t', ht'⟩

theorem HomeTables.createDatabase {c : Catalog} (h : HomeTables c) (name : String) :
    HomeTables (c.createDatabase name) where
  database := by
    show ((c.createDatabase name).getDatabase "srrdb").isSome = true
    rw [Catalog.getDatabase_createDatabase]
    split
    · rfl
    · exact h.database
  tables dbKey d key t hd ht := by
    simp only [Catalog.createDatabase, Std.ExtTreeMap.getElem?_insertIfNew] at hd
    split at hd
    · cases hd
      simp [DatabaseDef.empty] at ht
    · exact h.tables dbKey d key t hd ht

theorem HomeTables.removeDatabase {c c' : Catalog} (h : HomeTables c) {name : String}
    (hname : ¬ SameName name "srrdb") (hremoved : c.removeDatabase name = some c') :
    HomeTables c' where
  database := by
    show (c'.getDatabase "srrdb").isSome = true
    rw [Catalog.getDatabase_removeDatabase hremoved, if_neg hname]
    exact h.database
  tables dbKey d key t hd ht := by
    rw [Catalog.removeDatabase_ok hremoved] at hd
    simp only [Std.ExtTreeMap.getElem?_erase] at hd
    split at hd
    · cases hd
    · exact h.tables dbKey d key t hd ht

/-! ## Settled files -/

/-- The table as a log says it is. -/
def logged (name : String) (log : List WalEntry) : Object TableDef (List Value) :=
  Object.absent.replay (redoLog name log)

/-- Somewhere the log says what the rows of the table are. -/
def overwritten (name : String) (log : List WalEntry) : Bool :=
  (redoLog name log).any Redo.overwrites

/-- The catalog has the tables that a part of the log leads to. -/
structure Follows (c : Catalog) (log : List WalEntry) : Prop where
  home : HomeTables c
  definitions : ∃ log', log' <+: log ∧
    ∀ name, c.findTable "srrdb" name = (logged name log').definition

variable [Bincode]

/-- The catalog file follows the log. `bare` is what is known of the server as
long as there is none. -/
def CatalogFile (bare : Prop) (p : Persistence) (log : List WalEntry) : Prop :=
  (p.hasExistingData = false ∧ bare) ∨ ∃ c, p.loadCatalog = some c ∧ Follows c log

/-- The data directory beside a log, as every write leaves it. -/
structure Settled (bare : Prop) (p : Persistence) (log : List WalEntry) : Prop where
  catalog : CatalogFile bare p log
  rows : ∀ name, isFileName (normalize name) = true → overwritten name log = false →
    ∀ rows, p.loadTableData name = some rows → rows = []

omit [Bincode] in
theorem logged_append (name : String) (log log' : List WalEntry) :
    logged name (log ++ log') = (logged name log).replay (redoLog name log') := by
  rw [logged, redoLog_append, Object.replay_append, logged]

omit [Bincode] in
theorem overwritten_append (name : String) (log log' : List WalEntry) :
    overwritten name (log ++ log') = (overwritten name log || overwritten name log') := by
  rw [overwritten, redoLog_append, List.any_append, overwritten, overwritten]

omit [Bincode] in
theorem Follows.append {c : Catalog} {log : List WalEntry} (h : Follows c log)
    (log' : List WalEntry) : Follows c (log ++ log') := by
  obtain ⟨early, hpre, hdef⟩ := h.definitions
  exact ⟨h.home, early, hpre.trans (List.prefix_append log log'), hdef⟩

omit [Bincode] in
/-- Creating an index changes no table. -/
theorem Follows.createIndex {c c' : Catalog} {log : List WalEntry} (h : Follows c log)
    {db : String} {indexDef : IndexDef} (hcreated : c.createIndex db indexDef = .ok c') :
    Follows c' log := by
  obtain ⟨early, hpre, hdef⟩ := h.definitions
  refine ⟨h.home.createIndex hcreated, early, hpre, fun name => ?_⟩
  rw [Catalog.findTable_createIndex hcreated]
  exact hdef name

/-- A change that does not touch the catalog file. -/
theorem CatalogFile.congr {bare : Prop} {p p' : Persistence} {log : List WalEntry}
    (h : CatalogFile bare p log) (hsame : p'.files[catalogPath]? = p.files[catalogPath]?) :
    CatalogFile bare p' log := by
  simp only [CatalogFile, Persistence.hasExistingData, Persistence.loadCatalog, hsame]
  exact h

/-- Appending to the log. -/
theorem Settled.append {bare : Prop} {p : Persistence} {log : List WalEntry}
    (h : Settled bare p log) (log' : List WalEntry) : Settled bare p (log ++ log') where
  catalog := h.catalog.imp id fun ⟨c, hload, hc⟩ => ⟨c, hload, hc.append log'⟩
  rows name hfile hover := by
    rw [overwritten_append, Bool.or_eq_false_iff] at hover
    exact h.rows name hfile hover.1

/-- What is known without a catalog file may be put differently. -/
theorem Settled.imp {bare bare' : Prop} {p : Persistence} {log : List WalEntry}
    (h : Settled bare p log) (hbare : p.hasExistingData = false → bare → bare') :
    Settled bare' p log where
  catalog := h.catalog.imp (fun ⟨hdata, hb⟩ => ⟨hdata, hbare hdata hb⟩) id
  rows := h.rows

/-- A change that touches neither the catalog file nor a table file. -/
theorem Settled.congr {bare : Prop} {p p' : Persistence} {log : List WalEntry}
    (h : Settled bare p log) (hcatalog : p'.files[catalogPath]? = p.files[catalogPath]?)
    (htables : ∀ name, isFileName (normalize name) = true →
      p'.files[tablePath name]? = p.files[tablePath name]?) : Settled bare p' log where
  catalog := h.catalog.congr hcatalog
  rows name hfile hover rows hload := by
    rw [Persistence.loadTableData, htables name hfile] at hload
    exact h.rows name hfile hover rows hload

omit [Bincode] in
theorem tablePath_eq {name : String} (h : isFileName (normalize name) = true) :
    tablePath name = ["tables"] ++ [normalize name ++ ".srrdb"] :=
  tablePath_of_isFileName h

omit [Bincode] in
theorem tablePath_ne_catalogPath {name : String} (h : isFileName (normalize name) = true) :
    tablePath name ≠ catalogPath := by
  rw [tablePath_eq h]
  simp [catalogPath]

/-- Saving a catalog that follows the log. -/
theorem Settled.saveCatalog {bare : Prop} {p : Persistence} {log : List WalEntry}
    (h : Settled bare p log) {c : Catalog} (hc : Follows c log) :
    Settled bare (p.saveCatalog c) log where
  catalog := .inr ⟨c, Persistence.loadCatalog_saveCatalog p c, hc⟩
  rows name hfile hover rows hload := by
    refine h.rows name hfile hover rows (.trans ?_ hload)
    refine (Persistence.loadTableData_congr ?_).symm
    rw [Persistence.saveCatalog, Persistence.files_write,
      if_neg (tablePath_ne_catalogPath hfile).symm]

/-- Saving the rows of a table: those of a table that the log overwrites, or
none. -/
theorem Settled.saveTableData {bare : Prop} {p : Persistence} {log : List WalEntry}
    (h : Settled bare p log) {tableName : String} (hfile : isFileName (normalize tableName) = true)
    {t : Table} (ht : overwritten tableName log = true ∨ t.rows = []) :
    Settled bare (p.saveTableData tableName t) log where
  catalog := by
    refine h.catalog.congr ?_
    rw [Persistence.saveTableData, Persistence.files_write,
      if_neg (tablePath_ne_catalogPath hfile)]
  rows name hfile' hover rows hload := by
    rw [Persistence.loadTableData, Persistence.saveTableData, Persistence.files_write] at hload
    split at hload
    · next hpath =>
      rw [tablePath_eq hfile, tablePath_eq hfile'] at hpath
      have hname : SameName tableName name := by
        have hlast := (List.cons.inj (List.append_cancel_left hpath)).1
        exact (String.append_left_inj ".srrdb").mp hlast
      simp only [Option.bind_some, deserialize_serialize, Option.some.injEq] at hload
      rcases ht with ht | ht
      · rw [overwritten, ← redoLog_sameName hname, ← overwritten, ht] at hover
        cases hover
      · exact hload ▸ ht
    · exact h.rows name hfile' hover rows hload

/-- Removing the file of a table. -/
theorem Settled.removeTableData {bare : Prop} {p : Persistence} {log : List WalEntry}
    (h : Settled bare p log) {tableName : String}
    (hfile : isFileName (normalize tableName) = true) :
    Settled bare (p.removeTableData tableName) log where
  catalog := by
    refine h.catalog.congr ?_
    rw [Persistence.removeTableData, Persistence.files_remove,
      if_neg (tablePath_ne_catalogPath hfile)]
  rows name hfile' hover rows hload := by
    rw [Persistence.loadTableData, Persistence.removeTableData, Persistence.files_remove] at hload
    split at hload
    · cases hload
    · exact h.rows name hfile' hover rows hload

/-- A write to an index file, or its removal. -/
theorem Settled.writeIndex {bare : Prop} {p p' : Persistence} {log : List WalEntry}
    (h : Settled bare p log)
    (indexName : String)
    (hsame : ∀ path, path ≠ indexPath indexName → p'.files[path]? = p.files[path]?) :
    Settled bare p' log := by
  exact h.congr (hsame _ (catalogPath_ne_indexPath indexName)) fun name _ =>
    hsame _ (tablePath_ne_indexPath name indexName)

theorem Settled.saveIndexData {bare : Prop} {p : Persistence} {log : List WalEntry}
    (h : Settled bare p log)
    (indexName : String) (data : IndexData) : Settled bare (p.saveIndexData indexName data) log := by
  refine h.writeIndex indexName fun path hne => ?_
  rw [Persistence.saveIndexData, Persistence.files_write, if_neg hne.symm]

theorem Settled.removeIndexData {bare : Prop} {p : Persistence} {log : List WalEntry}
    (h : Settled bare p log)
    (indexName : String) : Settled bare (p.removeIndexData indexName) log := by
  refine h.writeIndex indexName fun path hne => ?_
  rw [Persistence.removeIndexData, Persistence.files_remove, if_neg hne.symm]

/-- The index files that DROP TABLE removes. -/
theorem Settled.removeIndexFiles {bare : Prop} {p : Persistence} {log : List WalEntry}
    (h : Settled bare p log)
    (tn : String) : Settled bare (removeIndexFiles tn p) log := by
  refine h.congr (files_removeIndexFiles p (not_isRemoved_catalogPath tn)) fun name hfile =>
    files_removeIndexFiles p ?_
  rw [tablePath_eq hfile]
  rintro ⟨fname, hpath, -⟩
  exact absurd (List.cons.inj hpath).1 (by decide)

/-- The files `save_table` writes. -/
theorem Settled.tableFiles {bare : Prop} {p : Persistence} {log : List WalEntry}
    (h : Settled bare p log)
    {s : Storage} {tableName : String} (hfile : isFileName (normalize tableName) = true)
    (hrows : overwritten tableName log = true ∨ rowValues s tableName = []) :
    Settled bare (tableFiles s tableName p) log := by
  unfold Engine.tableFiles
  refine foldl_keeps (I := fun p => Settled bare p log) (fun p e _ h => h.saveIndexData e.1 e.2) ?_
  split
  · next t ht =>
    have hfile' : isFileName (normalize (toLowercase tableName)) = true := by
      rwa [normalize_toLowercase]
    refine h.saveTableData hfile' (hrows.imp (fun hover => ?_) fun hnil => ?_)
    · rwa [overwritten, redoLog_sameName (normalize_toLowercase tableName)]
    · have htable : s.table tableName = t := by
        rw [Storage.table, Std.ExtTreeMap.getD_eq_getD_getElem?, Engine.normalize, ht,
          Option.getD_some]
      rw [rowValues, htable] at hnil
      exact List.map_eq_nil_iff.mp hnil
  · exact h

/-! ## Starting on settled files -/

omit [Bincode] in
/-- Rows that are loaded or replayed for no table of the name. -/
theorem rowValues_insertRows_nil {s : Storage} {tableName name : String} {rows : List Row}
    (h : rowValues s name = []) (hrows : SameName tableName name → rows = []) :
    rowValues (s.insertRows tableName rows).2 name = [] := by
  rw [rowValues, Storage.table_insertRows]
  split
  · next hname =>
    obtain rfl := hrows hname
    rw [Storage.table_sameName s hname]
    exact h
  · exact h

/-- The rows of a table after the files are loaded, if its file has none. -/
theorem loadFiles_rowValues_nil {order : List String → List String}
    (horder : ∀ names, ∀ name ∈ order names, name ∈ names) {p : Persistence} {name : String}
    (h : ∀ (dbKey : String) (d : DatabaseDef) (key : String) (t : TableDef) (rows : List Row),
      (loadFiles order p).catalog.databases[dbKey]? = some d → d.tables[key]? = some t →
        SameName key name → p.loadTableData key = some rows → rows = []) :
    rowValues (loadFiles order p).storage name = [] := by
  refine foldl_keeps (I := fun s => rowValues s name = []) (fun s dbName _ hs => ?_) ?_
  · split
    · next d hd =>
      refine foldl_keeps (I := fun s => rowValues s name = []) (fun s key hkey hs => ?_) hs
      split
      · next rows hload =>
        refine rowValues_insertRows_nil hs fun hname => ?_
        have hmem := horder _ key hkey
        rw [Std.ExtTreeMap.mem_keys, ← Std.ExtTreeMap.isSome_getElem?_iff_mem,
          Option.isSome_iff_exists] at hmem
        obtain ⟨t, ht⟩ := hmem
        exact h dbName d key t rows hd ht hname hload
      · exact hs
    · exact hs
  · simp [rowValues, Storage.table_new]

/-- What the files of a settled directory with a catalog make of a table. -/
theorem loadFiles_object {order : List String → List String}
    (horder : ∀ names, ∀ name ∈ order names, name ∈ names) {bare : Prop} {p : Persistence}
    {log : List WalEntry} (h : Settled bare p log) {c : Catalog} (hload : p.loadCatalog = some c)
    (hhome : HomeTables c) (name : String) :
    (tableObject (loadFiles order p) name).definition = c.findTable "srrdb" name ∧
      (tableObject (loadFiles order p) name).Tidy ∧
      (overwritten name log = true ∨ (tableObject (loadFiles order p) name).contents = []) := by
  have hc : (loadFiles order p).catalog = c := by simp [loadFiles, hload]
  refine ⟨congrArg (fun c => c.findTable "srrdb" name) hc, fun hnone => ?_, ?_⟩
  · have hnone : c.findTable "srrdb" name = none := hc ▸ hnone
    refine loadFiles_rowValues_nil horder fun dbKey d key t rows hd ht hname hrows => ?_
    rw [hc] at hd
    have hfound := hhome.lookup hd ht
    rw [Catalog.findTable_sameName rfl hname, hnone] at hfound
    cases hfound
  · cases hover : overwritten name log with
    | true => exact .inl rfl
    | false =>
      refine .inr (loadFiles_rowValues_nil horder fun dbKey d key t rows hd ht hname hrows => ?_)
      rw [hc] at hd
      obtain ⟨-, hkey, hfile⟩ := hhome.tables dbKey d key t hd ht
      rw [overwritten, ← redoLog_sameName hname, ← overwritten] at hover
      exact h.rows key (by rwa [hkey]) hover rows hrows

omit [Bincode] in
theorem findTable_applyAll (log : List WalEntry) (m : Memory) {db : String}
    (hdb : ¬ SameName "srrdb" db) (name : String) :
    (m.applyAll log).catalog.findTable db name = m.catalog.findTable db name := by
  induction log generalizing m with
  | nil => rfl
  | cons entry log ih => rw [Memory.applyAll_cons, ih, findTable_applyEntry hdb]

/-- The server has the tables of the log, and no others. -/
def HasLogged (e : Executor) (log : List WalEntry) : Prop :=
  (∀ name, (tableObject e.memory name).Same (logged name log)) ∧
    ∀ db, ¬ SameName "srrdb" db → ∀ name, e.catalog.value.findTable db name = none

omit [Bincode] in
/-- Rebuilding the indexes leaves the tables of a server as they are. -/
theorem HasLogged.rebuildIndexes {e : Executor} {log : List WalEntry} (h : HasLogged e log)
    (order : List String → List String) : HasLogged (e.rebuildIndexes order) log := by
  obtain ⟨hcatalog, htables⟩ := rebuildIndexes_sameContent order e
  refine ⟨fun name => ?_, fun db hdb name => ?_⟩
  · have hobject : tableObject (e.rebuildIndexes order).memory name = tableObject e.memory name := by
      rw [tableObject, tableObject, hcatalog, rowValues, rowValues, Storage.table_congr htables]
    rw [hobject]
    exact h.1 name
  · rw [show (e.rebuildIndexes order).catalog.value = e.catalog.value from hcatalog]
    exact h.2 db hdb name

/-- A start on settled files yields the tables of the log. Without a catalog
file it does not look at the log, and yields none. -/
theorem recovered {order : List String → List String}
    (horder : ∀ names, ∀ name ∈ order names, name ∈ names) {bare : Prop} {p : Persistence}
    {log : List WalEntry} (h : Settled bare p log) (hfit : ∀ entry ∈ log, entry.Fits)
    (hplain : ∀ entry ∈ log, Plain entry)
    (hhappens : ∀ name, (Object.absent : Object TableDef (List Value)).Happens (redoLog name log)) :
    ∃ e, recover order p (logBytes log) = .ok e ∧ (HasLogged e log ∨ bare ∧ HasLogged e []) := by
  have hno : WalEntry.checkpoint ∉ log := fun hmem => hplain _ hmem
  rw [recover, recoverMemory_logBytes hfit hno order p]
  refine ⟨_, rfl, ?_⟩
  rcases h.catalog with ⟨hdata, hbare⟩ | ⟨c, hload, hhome, early, hpre, hdef⟩
  · rw [hdata, if_neg (by decide)]
    refine .inr ⟨hbare, HasLogged.rebuildIndexes ⟨fun name => ?_, fun db hdb => ?_⟩ order⟩
    · have hrows : rowValues Storage.new name = [] := by
        simp [rowValues, Storage.table_new]
      exact ⟨findTable_new "srrdb" name, .of_eq hrows⟩
    · exact findTable_new db
  · have hdata : p.hasExistingData = true := by
      obtain ⟨bytes, hbytes, -⟩ := Option.bind_eq_some_iff.mp hload
      rw [Persistence.hasExistingData, hbytes, Option.isSome_some]
    have hc : (loadFiles order p).catalog = c := by simp [loadFiles, hload]
    rw [hdata, if_pos rfl]
    refine .inl (HasLogged.rebuildIndexes ⟨fun name => ?_, fun db hdb name => ?_⟩ order)
    · obtain ⟨hfile, htidy, hor⟩ := loadFiles_object horder h hload hhome name
      have hreplay := tableObject_applyAll hplain (by rw [hc]; exact hhome.database)
        (loadFiles_consistent order p) name
      have hprefix : redoLog name early <+: redoLog name log := hpre.filterMap (redo name)
      exact hreplay.trans ((Object.replay_again hprefix (hhappens name)
        (hfile.trans (hdef name)) htidy).mpr hor)
    · refine (findTable_applyAll log _ hdb name).trans ?_
      rw [hc]
      exact hhome.elsewhere hdb name

end Srrdb.Server
