/-
Srrdb.Engine.CatalogTheorems — specifications of the catalog operations.

`create_table`, `drop_table`, `create_index` and `drop_index` each look a
database up, check it and write it back. The `*_ok` lemmas say what holds of
the database when they succeed and which catalog they return. `findTable` and
`getTableIndexes` are what a later reader sees of it; a lemma for each
operation says how it changes the two, for the table it names and for every
other one. Names are compared after folding everywhere.
-/
import Srrdb.Engine.Catalog
import Srrdb.Lib.OrdMap

namespace Srrdb.Engine

open Srrdb.Lib

variable [Host]

/-- Two names of the same object. -/
abbrev SameName (a b : String) : Prop := normalize a = normalize b

@[simp] theorem normalize_normalize (name : String) :
    normalize (normalize name) = normalize name :=
  toLowercase_idem name

@[simp] theorem normalize_toLowercase (name : String) :
    normalize (toLowercase name) = normalize name :=
  toLowercase_idem name

namespace Catalog

variable {c c' : Catalog} {db db' tableName tableName' : String}

/-! ## What a reader sees -/

/-- The definition of a table, if there is one. -/
def findTable (c : Catalog) (db tableName : String) : Option TableDef :=
  (c.getDatabase db).bind fun d => d.tables[normalize tableName]?

theorem getTable_ok_iff {t : TableDef} :
    c.getTable db tableName = .ok t ↔ c.findTable db tableName = some t := by
  unfold getTable findTable
  cases c.getDatabase db with
  | none => simp
  | some d =>
    simp only [Option.bind_some]
    cases d.tables[normalize tableName]? <;> simp

/-- All tables of all databases: the folded name, the definition, the indexes. -/
def listing (c : Catalog) : List (String × TableDef × List IndexDef) :=
  c.databases.toList.flatMap fun d =>
    d.2.tables.toList.map fun t => (t.1, t.2, (d.2.indexes[t.1]?).getD [])

/-- A table that is found is listed. -/
theorem mem_listing {t : TableDef} (h : c.findTable db tableName = some t) :
    (normalize tableName, t, c.getTableIndexes db tableName) ∈ c.listing := by
  obtain ⟨d, hd, ht⟩ := Option.bind_eq_some_iff.mp h
  refine List.mem_flatMap.mpr ⟨(normalize db, d), OrdMap.mem_toList.mpr hd, ?_⟩
  refine List.mem_map.mpr ⟨(normalize tableName, t), OrdMap.mem_toList.mpr ht, ?_⟩
  rw [getTableIndexes, hd, Option.bind_some]

theorem tableExists_eq : c.tableExists db tableName = (c.findTable db tableName).isSome := rfl

theorem tableExists_of_getTable {t : TableDef} (h : c.getTable db tableName = .ok t) :
    c.tableExists db tableName = true := by
  rw [tableExists_eq, getTable_ok_iff.mp h, Option.isSome_some]

theorem getDatabase_eq_none (h : c.databaseExists db = false) : c.getDatabase db = none :=
  Option.isNone_iff_eq_none.mp (Option.isSome_eq_false_iff.mp h)

theorem findTable_eq_none (h : c.tableExists db tableName = false) :
    c.findTable db tableName = none :=
  Option.isNone_iff_eq_none.mp (Option.isSome_eq_false_iff.mp h)

theorem getDatabase_sameName (h : SameName db db') : c.getDatabase db = c.getDatabase db' := by
  rw [getDatabase, getDatabase, h]

theorem findTable_sameName (hd : SameName db db') (ht : SameName tableName tableName') :
    c.findTable db tableName = c.findTable db' tableName' := by
  rw [findTable, findTable, getDatabase_sameName hd, ht]

theorem tableExists_sameName (hd : SameName db db') (ht : SameName tableName tableName') :
    c.tableExists db tableName = c.tableExists db' tableName' := by
  rw [tableExists_eq, tableExists_eq, findTable_sameName hd ht]

theorem getTableIndexes_sameName (hd : SameName db db') (ht : SameName tableName tableName') :
    c.getTableIndexes db tableName = c.getTableIndexes db' tableName' := by
  rw [getTableIndexes, getTableIndexes, getDatabase_sameName hd, ht]

/-! Readers look at the databases only. -/

theorem getDatabase_congr (h : c.databases = c'.databases) (db : String) :
    c.getDatabase db = c'.getDatabase db := by
  rw [getDatabase, getDatabase, h]

theorem getTable_congr (h : c.databases = c'.databases) (db tableName : String) :
    c.getTable db tableName = c'.getTable db tableName := by
  rw [getTable, getTable, getDatabase_congr h]

theorem findTable_congr (h : c.databases = c'.databases) (db tableName : String) :
    c.findTable db tableName = c'.findTable db tableName := by
  rw [findTable, findTable, getDatabase_congr h]

theorem getTableIndexes_congr (h : c.databases = c'.databases) (db tableName : String) :
    c.getTableIndexes db tableName = c'.getTableIndexes db tableName := by
  rw [getTableIndexes, getTableIndexes, getDatabase_congr h]

/-! ## Writing a database back -/

theorem getDatabase_setDatabase (d : DatabaseDef) :
    (c.setDatabase db d).getDatabase db' =
      if SameName db db' then some d else c.getDatabase db' := by
  simp [getDatabase, setDatabase, Std.ExtTreeMap.getElem?_insert]

/-- A database that is stored after a write is the one written or an old one. -/
theorem databases_setDatabase {d d₁ : DatabaseDef} {key : String}
    (h : (c.setDatabase db d).databases[key]? = some d₁) :
    key = normalize db ∧ d₁ = d ∨ c.databases[key]? = some d₁ := by
  simp only [setDatabase, Std.ExtTreeMap.getElem?_insert] at h
  split at h
  · next heq => exact .inl ⟨(Std.LawfulEqOrd.eq_of_compare heq).symm, (Option.some.inj h).symm⟩
  · exact .inr h

/-- Writing back a database that was looked up adds and removes none. -/
theorem databaseExists_setDatabase {d : DatabaseDef} (hd : c.getDatabase db = some d)
    (d' : DatabaseDef) : (c.setDatabase db d').databaseExists db' = c.databaseExists db' := by
  show ((c.setDatabase db d').getDatabase db').isSome = (c.getDatabase db').isSome
  rw [getDatabase_setDatabase]
  split
  · next hname =>
    rw [← getDatabase_sameName hname, hd]
    rfl
  · rfl

/-- What is read under a folded name after a database `d` was replaced by one that
differs from it only under the name `tableName`. -/
theorem read_setDatabase {β : Type} (g : DatabaseDef → String → Option β) {d d' : DatabaseDef}
    (tableName : String) (hd : c.getDatabase db = some d)
    (hother : ∀ name, ¬ SameName tableName name → g d' (normalize name) = g d (normalize name)) :
    ((c.setDatabase db d').getDatabase db').bind (g · (normalize tableName')) =
      if SameName db db' ∧ SameName tableName tableName' then g d' (normalize tableName)
      else (c.getDatabase db').bind (g · (normalize tableName')) := by
  rw [getDatabase_setDatabase]
  by_cases hdb : SameName db db'
  · rw [if_pos hdb, ← getDatabase_sameName hdb, hd]
    by_cases ht : SameName tableName tableName'
    · rw [if_pos ⟨hdb, ht⟩, Option.bind_some, ht]
    · rw [if_neg fun h => ht h.2, Option.bind_some, Option.bind_some, hother _ ht]
  · rw [if_neg hdb, if_neg fun h => hdb h.1]

/-- Tables seen after a database `d` was replaced by `d'`. -/
theorem findTable_setDatabase {d d' : DatabaseDef} (tableName : String)
    (hd : c.getDatabase db = some d) {t : Option TableDef} (hsame : d'.tables[normalize tableName]? = t)
    (hother : ∀ name, ¬ SameName tableName name →
      d'.tables[normalize name]? = d.tables[normalize name]?) :
    (c.setDatabase db d').findTable db' tableName' =
      if SameName db db' ∧ SameName tableName tableName' then t
      else c.findTable db' tableName' :=
  hsame ▸ read_setDatabase (fun d key => d.tables[key]?) tableName hd hother

/-- Indexes seen after a database `d` was replaced by `d'`. -/
theorem getTableIndexes_setDatabase {d d' : DatabaseDef} (tableName : String)
    (hd : c.getDatabase db = some d) {l : List IndexDef} (hsame : d'.indexes[normalize tableName]?.getD [] = l)
    (hother : ∀ name, ¬ SameName tableName name →
      d'.indexes[normalize name]? = d.indexes[normalize name]?) :
    (c.setDatabase db d').getTableIndexes db' tableName' =
      if SameName db db' ∧ SameName tableName tableName' then l
      else c.getTableIndexes db' tableName' := by
  unfold getTableIndexes
  rw [read_setDatabase (fun d key => d.indexes[key]?) tableName hd hother]
  split
  · exact hsame
  · rfl

/-! ## CREATE TABLE -/

theorem createTable_ok {columns : List Column} (h : c.createTable db tableName columns = .ok c') :
    ∃ d, c.getDatabase db = some d ∧ d.tables[normalize tableName]? = none ∧
      c' = { c.setDatabase db { d with
          tables := d.tables.insert (normalize tableName) ⟨tableName, columns⟩
          indexes := d.indexes.insertIfNew (normalize tableName) [] } with
        sequences := c.sequences.insert (normalize tableName) 1 } := by
  unfold createTable at h
  cases hd : c.getDatabase db with
  | none => rw [hd] at h; cases h
  | some d =>
    rw [hd] at h
    simp only at h
    split at h
    · cases h
    · next hnone =>
      cases h
      exact ⟨d, rfl, by simpa using hnone, rfl⟩

omit [Host] in
/-- What an operation asks for is missing when it is rejected. -/
theorem not_of_rejected {r : Except String Catalog} {P : Prop} (hok : (∃ c', r = .ok c') ↔ P)
    {msg : String} (h : r = .error msg) : ¬ P := by
  intro hp
  obtain ⟨c', hc'⟩ := hok.mpr hp
  rw [h] at hc'
  cases hc'

/-- CREATE TABLE asks for a database and a name that is free in it. -/
theorem createTable_isOk {columns : List Column} :
    (∃ c', c.createTable db tableName columns = .ok c') ↔
      c.databaseExists db = true ∧ c.tableExists db tableName = false := by
  have hdb : c.databaseExists db = (c.getDatabase db).isSome := rfl
  rw [hdb]
  unfold createTable tableExists
  cases c.getDatabase db with
  | none => simp
  | some d =>
    simp only [Option.bind_some]
    split <;> simp_all

theorem createTable_rejected {columns : List Column} {msg : String}
    (h : c.createTable db tableName columns = .error msg) :
    ¬ (c.databaseExists db = true ∧ c.tableExists db tableName = false) :=
  not_of_rejected createTable_isOk h

theorem findTable_createTable {columns : List Column}
    (h : c.createTable db tableName columns = .ok c') (db' tableName' : String) :
    c'.findTable db' tableName' =
      if SameName db db' ∧ SameName tableName tableName' then some ⟨tableName, columns⟩
      else c.findTable db' tableName' := by
  obtain ⟨d, hd, -, rfl⟩ := createTable_ok h
  refine (findTable_congr rfl _ _).trans (findTable_setDatabase tableName hd (by simp)
    fun name hne => ?_)
  simp [Std.ExtTreeMap.getElem?_insert, hne]

/-- A new table has the indexes an earlier one of its name left, and no other
table's indexes change. -/
theorem getTableIndexes_createTable {columns : List Column}
    (h : c.createTable db tableName columns = .ok c') (db' tableName' : String) :
    c'.getTableIndexes db' tableName' = c.getTableIndexes db' tableName' := by
  obtain ⟨d, hd, -, rfl⟩ := createTable_ok h
  have hsame : (d.indexes.insertIfNew (normalize tableName) [])[normalize tableName]?.getD [] =
      c.getTableIndexes db tableName := by
    rw [getTableIndexes, hd, Option.bind_some, Std.ExtTreeMap.getElem?_insertIfNew]
    split
    · next hnew => rw [Std.ExtTreeMap.getElem?_eq_none hnew.2]; rfl
    · rfl
  refine (getTableIndexes_congr rfl _ _).trans ((getTableIndexes_setDatabase tableName hd hsame
    fun name hne => ?_).trans ?_)
  · simp [Std.ExtTreeMap.getElem?_insertIfNew, hne]
  · split
    · next hs => exact getTableIndexes_sameName hs.1 hs.2
    · rfl

theorem databaseExists_createTable {columns : List Column}
    (h : c.createTable db tableName columns = .ok c') :
    c'.databaseExists db' = c.databaseExists db' := by
  obtain ⟨d, hd, -, rfl⟩ := createTable_ok h
  exact databaseExists_setDatabase hd _

/-! ## DROP TABLE -/

theorem dropTable_ok (h : c.dropTable db tableName = .ok c') :
    ∃ d t, c.getDatabase db = some d ∧ d.tables[normalize tableName]? = some t ∧
      c' = { c.setDatabase db { d with
          tables := d.tables.erase (normalize tableName)
          indexes := d.indexes.erase (normalize tableName) } with
        sequences := c.sequences.erase (normalize tableName) } := by
  unfold dropTable at h
  cases hd : c.getDatabase db with
  | none => rw [hd] at h; cases h
  | some d =>
    rw [hd] at h
    simp only at h
    split at h
    · cases h
    · next hsome =>
      cases ht : d.tables[normalize tableName]? with
      | none => rw [ht] at hsome; simp at hsome
      | some t => cases h; exact ⟨d, t, rfl, ht, rfl⟩

/-- DROP TABLE asks for the table. -/
theorem dropTable_isOk :
    (∃ c', c.dropTable db tableName = .ok c') ↔ c.tableExists db tableName = true := by
  unfold dropTable tableExists
  cases c.getDatabase db with
  | none => simp
  | some d =>
    simp only [Option.bind_some]
    split <;> simp_all

theorem dropTable_rejected {msg : String} (h : c.dropTable db tableName = .error msg) :
    c.tableExists db tableName = false :=
  Bool.eq_false_iff.mpr (not_of_rejected dropTable_isOk h)

theorem findTable_dropTable (h : c.dropTable db tableName = .ok c') (db' tableName' : String) :
    c'.findTable db' tableName' =
      if SameName db db' ∧ SameName tableName tableName' then none
      else c.findTable db' tableName' := by
  obtain ⟨d, t, hd, -, rfl⟩ := dropTable_ok h
  refine (findTable_congr rfl _ _).trans (findTable_setDatabase tableName hd (by simp)
    fun name hne => ?_)
  simp [Std.ExtTreeMap.getElem?_erase, hne]

theorem getTableIndexes_dropTable (h : c.dropTable db tableName = .ok c')
    (db' tableName' : String) :
    c'.getTableIndexes db' tableName' =
      if SameName db db' ∧ SameName tableName tableName' then []
      else c.getTableIndexes db' tableName' := by
  obtain ⟨d, t, hd, -, rfl⟩ := dropTable_ok h
  refine (getTableIndexes_congr rfl _ _).trans (getTableIndexes_setDatabase tableName hd
    (by simp) fun name hne => ?_)
  simp [Std.ExtTreeMap.getElem?_erase, hne]

theorem databaseExists_dropTable (h : c.dropTable db tableName = .ok c') :
    c'.databaseExists db' = c.databaseExists db' := by
  obtain ⟨d, t, hd, -, rfl⟩ := dropTable_ok h
  exact databaseExists_setDatabase hd _

/-! ## CREATE INDEX and DROP INDEX -/

theorem createIndex_ok {indexDef : IndexDef} (h : c.createIndex db indexDef = .ok c') :
    ∃ d t, c.getDatabase db = some d ∧ d.tables[normalize indexDef.tableName]? = some t ∧
      ((c.getTableIndexes db indexDef.tableName).any fun i =>
        eqIgnoreAsciiCase i.name indexDef.name) = false ∧
      c' = c.setDatabase db { d with
        indexes := d.indexes.insert (normalize indexDef.tableName)
          (c.getTableIndexes db indexDef.tableName ++ [indexDef]) } := by
  unfold createIndex at h
  cases hd : c.getDatabase db with
  | none => rw [hd] at h; cases h
  | some d =>
    have hidx : d.indexes.getD (normalize indexDef.tableName) [] =
        c.getTableIndexes db indexDef.tableName := by
      rw [getTableIndexes, hd, Option.bind_some, Std.ExtTreeMap.getD_eq_getD_getElem?]
    rw [hd] at h
    simp only [hidx] at h
    split at h
    · cases h
    · split at h
      · cases h
      · next hsome hany =>
        cases ht : d.tables[normalize indexDef.tableName]? with
        | none => rw [ht] at hsome; simp at hsome
        | some t => cases h; exact ⟨d, t, rfl, ht, by simpa using hany, rfl⟩

/-- CREATE INDEX asks for the table and a name that is free on it. -/
theorem createIndex_isOk {indexDef : IndexDef} :
    (∃ c', c.createIndex db indexDef = .ok c') ↔ c.tableExists db indexDef.tableName = true ∧
      ((c.getTableIndexes db indexDef.tableName).any fun i =>
        eqIgnoreAsciiCase i.name indexDef.name) = false := by
  unfold createIndex tableExists getTableIndexes
  cases c.getDatabase db with
  | none => simp
  | some d =>
    simp only [Std.ExtTreeMap.getD_eq_getD_getElem?, Option.bind_some]
    split
    · simp_all
    · split <;> simp_all

theorem findTable_createIndex {indexDef : IndexDef} (h : c.createIndex db indexDef = .ok c')
    (db' tableName' : String) : c'.findTable db' tableName' = c.findTable db' tableName' := by
  obtain ⟨d, t, hd, ht, -, rfl⟩ := createIndex_ok h
  rw [findTable_setDatabase indexDef.tableName hd (by exact ht) fun name _ => by rfl]
  split
  · next hs => rw [← findTable_sameName hs.1 hs.2, findTable, hd, Option.bind_some, ht]
  · rfl

theorem getTableIndexes_createIndex {indexDef : IndexDef}
    (h : c.createIndex db indexDef = .ok c') (db' tableName' : String) :
    c'.getTableIndexes db' tableName' =
      if SameName db db' ∧ SameName indexDef.tableName tableName' then
        c.getTableIndexes db indexDef.tableName ++ [indexDef]
      else c.getTableIndexes db' tableName' := by
  obtain ⟨d, t, hd, -, -, rfl⟩ := createIndex_ok h
  refine getTableIndexes_setDatabase indexDef.tableName hd (by simp) fun name hne => ?_
  simp [Std.ExtTreeMap.getElem?_insert, hne]

theorem databaseExists_createIndex {indexDef : IndexDef} (h : c.createIndex db indexDef = .ok c') :
    c'.databaseExists db' = c.databaseExists db' := by
  obtain ⟨d, t, hd, -, -, rfl⟩ := createIndex_ok h
  exact databaseExists_setDatabase hd _

theorem dropIndex_ok {indexName : String} (h : c.dropIndex db indexName tableName = .ok c') :
    ∃ d pos, c.getDatabase db = some d ∧
      (c.getTableIndexes db tableName).findIdx? (fun i => eqIgnoreAsciiCase i.name indexName) =
        some pos ∧
      c' = c.setDatabase db { d with
        indexes := d.indexes.insert (normalize tableName)
          ((c.getTableIndexes db tableName).eraseIdx pos) } := by
  unfold dropIndex at h
  cases hd : c.getDatabase db with
  | none => rw [hd] at h; cases h
  | some d =>
    rw [hd] at h
    cases hi : d.indexes[normalize tableName]? with
    | none => simp only [hi] at h; cases h
    | some indexes =>
      have hidx : c.getTableIndexes db tableName = indexes := by
        rw [getTableIndexes, hd, Option.bind_some, hi, Option.getD_some]
      simp only [hi] at h
      cases hpos : indexes.findIdx? fun i => eqIgnoreAsciiCase i.name indexName with
      | none => rw [hpos] at h; cases h
      | some pos =>
        rw [hpos] at h
        cases h
        exact ⟨d, pos, rfl, hidx ▸ hpos, by rw [hidx]⟩

/-- DROP INDEX asks for an index of that name on the table. -/
theorem dropIndex_isOk {indexName : String} :
    (∃ c', c.dropIndex db indexName tableName = .ok c') ↔
      ((c.getTableIndexes db tableName).any fun i => eqIgnoreAsciiCase i.name indexName) =
        true := by
  unfold dropIndex getTableIndexes
  cases c.getDatabase db with
  | none => simp
  | some d =>
    simp only [Option.bind_some]
    cases d.indexes[normalize tableName]? with
    | none => simp
    | some indexes =>
      simp only [Option.getD_some, ← List.findIdx?_isSome]
      cases indexes.findIdx? fun i => eqIgnoreAsciiCase i.name indexName <;> simp

theorem dropIndex_rejected {indexName msg : String}
    (h : c.dropIndex db indexName tableName = .error msg) :
    ¬ ((c.getTableIndexes db tableName).any fun i => eqIgnoreAsciiCase i.name indexName) = true :=
  not_of_rejected dropIndex_isOk h

theorem findTable_dropIndex {indexName : String} (h : c.dropIndex db indexName tableName = .ok c')
    (db' tableName' : String) : c'.findTable db' tableName' = c.findTable db' tableName' := by
  obtain ⟨d, pos, hd, -, rfl⟩ := dropIndex_ok h
  rw [findTable_setDatabase tableName hd (by rfl) fun name _ => by rfl]
  split
  · next hs => rw [← findTable_sameName hs.1 hs.2, findTable, hd, Option.bind_some]
  · rfl

theorem getTableIndexes_dropIndex {indexName : String}
    (h : c.dropIndex db indexName tableName = .ok c') (db' tableName' : String) :
    c'.getTableIndexes db' tableName' =
      if SameName db db' ∧ SameName tableName tableName' then
        (c.getTableIndexes db tableName).eraseIdx
          ((c.getTableIndexes db tableName).findIdx fun i => eqIgnoreAsciiCase i.name indexName)
      else c.getTableIndexes db' tableName' := by
  obtain ⟨d, pos, hd, hpos, rfl⟩ := dropIndex_ok h
  have hfind : ((c.getTableIndexes db tableName).findIdx fun i =>
      eqIgnoreAsciiCase i.name indexName) = _ := List.findIdx_eq_getD_findIdx?
  rw [hpos, Option.getD_some] at hfind
  rw [hfind]
  refine getTableIndexes_setDatabase tableName hd (by simp) fun name hne => ?_
  simp [Std.ExtTreeMap.getElem?_insert, hne]

theorem databaseExists_dropIndex {indexName : String}
    (h : c.dropIndex db indexName tableName = .ok c') :
    c'.databaseExists db' = c.databaseExists db' := by
  obtain ⟨d, pos, hd, -, rfl⟩ := dropIndex_ok h
  exact databaseExists_setDatabase hd _

/-! ## CREATE DATABASE and DROP DATABASE -/

theorem getDatabase_createDatabase (name : String) :
    (c.createDatabase name).getDatabase db =
      if SameName name db ∧ c.databaseExists name = false then some (DatabaseDef.empty name)
      else c.getDatabase db := by
  have hfree : c.databaseExists name = false ↔ normalize name ∉ c.databases := by
    rw [databaseExists, ← Bool.not_eq_true, Std.ExtTreeMap.mem_iff_isSome_getElem?]
  simp [getDatabase, createDatabase, Std.ExtTreeMap.getElem?_insertIfNew, hfree]

theorem databaseExists_createDatabase {name : String} (h : ¬ SameName name db) :
    (c.createDatabase name).databaseExists db = c.databaseExists db := by
  show ((c.createDatabase name).getDatabase db).isSome = (c.getDatabase db).isSome
  rw [getDatabase_createDatabase, if_neg fun hnew => h hnew.1]

theorem removeDatabase_ok {name : String} (h : c.removeDatabase name = some c') :
    c' = { c with databases := c.databases.erase (normalize name) } := by
  unfold removeDatabase at h
  split at h
  · exact (Option.some.inj h).symm
  · cases h

theorem getDatabase_removeDatabase {name : String} (h : c.removeDatabase name = some c') :
    c'.getDatabase db = if SameName name db then none else c.getDatabase db := by
  rw [removeDatabase_ok h]
  simp [getDatabase, Std.ExtTreeMap.getElem?_erase]

/-- What is missing is missing after a database has been removed. -/
theorem databaseExists_removeDatabase {name : String} (h : c.removeDatabase name = some c')
    (hmissing : c.databaseExists db = false) : c'.databaseExists db = false := by
  show (c'.getDatabase db).isSome = false
  rw [getDatabase_removeDatabase h]
  split
  · rfl
  · exact hmissing

/-- A new database has no tables. -/
theorem findTable_createDatabase (name : String) :
    (c.createDatabase name).findTable db tableName = c.findTable db tableName := by
  unfold findTable
  rw [getDatabase_createDatabase]
  split
  · next hnew =>
    have hnone : c.getDatabase db = none := by
      rw [← getDatabase_sameName hnew.1]
      exact getDatabase_eq_none hnew.2
    rw [hnone]
    simp [DatabaseDef.empty]
  · rfl

theorem getTableIndexes_createDatabase (name : String) :
    (c.createDatabase name).getTableIndexes db tableName = c.getTableIndexes db tableName := by
  unfold getTableIndexes
  rw [getDatabase_createDatabase]
  split
  · next hnew =>
    have hnone : c.getDatabase db = none := by
      rw [← getDatabase_sameName hnew.1]
      exact getDatabase_eq_none hnew.2
    rw [hnone]
    simp [DatabaseDef.empty]
  · rfl

theorem findTable_removeDatabase {name : String} (h : c.removeDatabase name = some c') :
    c'.findTable db tableName = if SameName name db then none else c.findTable db tableName := by
  unfold findTable
  rw [getDatabase_removeDatabase h]
  split <;> rfl

theorem getTableIndexes_removeDatabase {name : String} (h : c.removeDatabase name = some c') :
    c'.getTableIndexes db tableName =
      if SameName name db then [] else c.getTableIndexes db tableName := by
  unfold getTableIndexes
  rw [getDatabase_removeDatabase h]
  split <;> rfl

/-! ## Only the databases decide

Whether an operation succeeds, and the databases it leaves, depend on the
databases before it and on the folded database name. -/

theorem createTable_databases (hc : c.databases = c'.databases) (hd : SameName db db')
    (tableName : String) (columns : List Column) :
    (c.createTable db tableName columns).toOption.map databases =
      (c'.createTable db' tableName columns).toOption.map databases := by
  unfold createTable
  rw [getDatabase_congr hc, getDatabase_sameName hd]
  cases c'.getDatabase db' with
  | none => rfl
  | some d =>
    simp only
    split
    · rfl
    · simp [Except.toOption, hc, hd]

theorem dropTable_databases (hc : c.databases = c'.databases) (hd : SameName db db')
    (tableName : String) :
    (c.dropTable db tableName).toOption.map databases =
      (c'.dropTable db' tableName).toOption.map databases := by
  unfold dropTable
  rw [getDatabase_congr hc, getDatabase_sameName hd]
  cases c'.getDatabase db' with
  | none => rfl
  | some d =>
    simp only
    split
    · rfl
    · simp [Except.toOption, hc, hd]

theorem createIndex_databases (hc : c.databases = c'.databases) (db : String)
    (indexDef : IndexDef) :
    (c.createIndex db indexDef).toOption.map databases =
      (c'.createIndex db indexDef).toOption.map databases := by
  unfold createIndex
  rw [getDatabase_congr hc]
  cases c'.getDatabase db with
  | none => rfl
  | some d =>
    simp only
    split
    · rfl
    · split
      · rfl
      · simp [Except.toOption, setDatabase, hc]

theorem dropIndex_databases (hc : c.databases = c'.databases) (db indexName tableName : String) :
    (c.dropIndex db indexName tableName).toOption.map databases =
      (c'.dropIndex db indexName tableName).toOption.map databases := by
  unfold dropIndex
  rw [getDatabase_congr hc]
  cases c'.getDatabase db with
  | none => rfl
  | some d =>
    simp only
    cases d.indexes[normalize tableName]? with
    | none => rfl
    | some indexes =>
      simp only
      split
      · rfl
      · simp [Except.toOption, setDatabase, hc]

/-! ## Sequences -/

/-- The next AUTO_INCREMENT value of a name. -/
def sequence (c : Catalog) (tableName : String) : Nat :=
  c.sequences.getD (normalize tableName) 1

theorem sequence_sameName (h : SameName tableName tableName') :
    c.sequence tableName = c.sequence tableName' := by
  rw [sequence, sequence, h]

/-- CREATE TABLE starts the sequence of its name anew. -/
theorem sequence_createTable {columns : List Column}
    (h : c.createTable db tableName columns = .ok c') (name : String) :
    c'.sequence name = if SameName tableName name then 1 else c.sequence name := by
  obtain ⟨d, hd, -, rfl⟩ := createTable_ok h
  simp only [sequence, Std.ExtTreeMap.getD_insert, Std.LawfulEqCmp.compare_eq_iff_eq]

/-- DROP TABLE forgets the sequence of its name. -/
theorem sequence_dropTable (h : c.dropTable db tableName = .ok c') (name : String) :
    c'.sequence name = if SameName tableName name then 1 else c.sequence name := by
  obtain ⟨d, t, hd, -, rfl⟩ := dropTable_ok h
  simp only [sequence, Std.ExtTreeMap.getD_erase, Std.LawfulEqCmp.compare_eq_iff_eq]

theorem sequence_createIndex {indexDef : IndexDef} (h : c.createIndex db indexDef = .ok c')
    (name : String) : c'.sequence name = c.sequence name := by
  obtain ⟨d, t, hd, -, -, rfl⟩ := createIndex_ok h
  rfl

theorem sequence_dropIndex {indexName : String} (h : c.dropIndex db indexName tableName = .ok c')
    (name : String) : c'.sequence name = c.sequence name := by
  obtain ⟨d, pos, hd, -, rfl⟩ := dropIndex_ok h
  rfl

theorem sequence_removeDatabase {name : String} (h : c.removeDatabase name = some c')
    (tableName : String) : c'.sequence tableName = c.sequence tableName := by
  rw [removeDatabase_ok h]
  rfl

/-- The catalog after `n` sequence values of a table were handed out. -/
def draw (c : Catalog) (tableName : String) (n : Nat) : Catalog :=
  if n = 0 then c
  else { c with
    sequences := c.sequences.insert (normalize tableName)
      (c.sequences.getD (normalize tableName) 1 + n) }

@[simp] theorem draw_zero : c.draw tableName 0 = c := rfl

@[simp] theorem draw_databases (n : Nat) : (c.draw tableName n).databases = c.databases := by
  unfold draw
  split <;> rfl

theorem getD_draw (n : Nat) : (c.draw tableName n).sequences.getD (normalize tableName) 1 =
    c.sequences.getD (normalize tableName) 1 + n := by
  unfold draw
  split
  · next h => rw [h, Nat.add_zero]
  · simp

theorem sequence_draw (n : Nat) (name : String) :
    (c.draw tableName n).sequence name =
      if SameName tableName name then c.sequence name + n else c.sequence name := by
  unfold sequence draw
  by_cases hn : n = 0
  · simp [hn]
  · simp only [if_neg hn, Std.ExtTreeMap.getD_insert, Std.LawfulEqCmp.compare_eq_iff_eq]
    split
    · next heq => rw [heq]
    · rfl

theorem draw_draw (m n : Nat) : (c.draw tableName m).draw tableName n =
    c.draw tableName (m + n) := by
  by_cases hm : m = 0
  · rw [hm, draw_zero, Nat.zero_add]
  by_cases hn : n = 0
  · rw [hn, draw_zero, Nat.add_zero]
  · have hget : (c.draw tableName m).sequences.getD (normalize tableName) 1 = _ := getD_draw m
    have hmn : m + n ≠ 0 := by omega
    simp only [draw, if_neg hm, if_neg hn, if_neg hmn, Catalog.mk.injEq, true_and] at hget ⊢
    rw [hget, Nat.add_assoc]
    refine Std.ExtTreeMap.ext_getElem? fun k => ?_
    simp only [Std.ExtTreeMap.getElem?_insert]
    split <;> rfl

/-- Handing out a value is seen in the catalog. -/
theorem draw_ne_self {n : Nat} (hn : n ≠ 0) : c.draw tableName n ≠ c := by
  intro h
  have hget : (c.draw tableName n).sequences.getD (normalize tableName) 1 = _ := getD_draw n
  rw [h] at hget
  omega

end Catalog

end Srrdb.Engine
