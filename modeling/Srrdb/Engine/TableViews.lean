/-
Srrdb.Engine.TableViews — all that statements on one table read.

`TableAlike db name` relates two servers that show the same of the table `name`
of `db`: its definition, its indexes and their data, its sequence, its rows
and its id counter, and which mutexes are poisoned. Every operation of the
catalog and the storage on the table gives the same answer on both and relates
what it leaves (`SameEntry`, `SameRecords`); an operation on a table `Apart`
from it leaves it the same.

Index data is filed under `table:index`, and DROP TABLE removes by the prefix
`table:`, so two tables are apart when neither prefix continues the other: the
tables `a` and `a:b` are not.
-/
import Srrdb.Engine.CatalogTheorems
import Srrdb.Engine.Defaults
import Srrdb.Engine.IndexMaintenance
import Srrdb.Engine.RowChanges
import Srrdb.Engine.SavedFiles
import Srrdb.Engine.StorageTheorems
import Srrdb.Lib.Views

namespace Srrdb.Engine

open Srrdb.Sql Srrdb.Lib

variable [Host]

/-! ## What is read of a table -/

/-- The catalogs show the same of the table. -/
structure SameEntry (db name : String) (c c' : Catalog) : Prop where
  database : c'.databaseExists db = c.databaseExists db
  table : c'.findTable db name = c.findTable db name
  indexes : c'.getTableIndexes db name = c.getTableIndexes db name
  sequence : c'.sequence name = c.sequence name

/-- The prefix of the keys of a table's index data. -/
def keyPrefix (name : String) : String := normalize name ++ ":"

/-- Two index maps have the same data for the table. -/
def SameIndexData (name : String) (m m' : IndexMap) : Prop :=
  ∀ key, startsWith key (keyPrefix name) = true → m'[key]? = m[key]?

/-- The storages hold the same of the table. -/
structure SameRecords (name : String) (s s' : Storage) : Prop where
  table : s'.getTable? name = s.getTable? name
  nextId : s'.nextId name = s.nextId name
  indexData : SameIndexData name s.indexData s'.indexData

/-- The servers show the same of the table. -/
structure TableAlike (db name : String) (e e' : Executor) : Prop where
  catalogPoisoned : e'.catalog.poisoned = e.catalog.poisoned
  storagePoisoned : e'.storage.poisoned = e.storage.poisoned
  durable : e'.persistence.isSome = e.persistence.isSome
  entry : SameEntry db name e.catalog.value e'.catalog.value
  records : SameRecords name e.storage.value e'.storage.value

variable {db db' name name' other : String} {c c' : Catalog} {s s' : Storage} {m m' : IndexMap}

theorem SameEntry.refl (db name : String) (c : Catalog) : SameEntry db name c c :=
  ⟨rfl, rfl, rfl, rfl⟩

theorem SameEntry.symm (h : SameEntry db name c c') : SameEntry db name c' c :=
  ⟨h.database.symm, h.table.symm, h.indexes.symm, h.sequence.symm⟩

theorem SameEntry.trans {c'' : Catalog} (h : SameEntry db name c c')
    (h' : SameEntry db name c' c'') : SameEntry db name c c'' :=
  ⟨h'.database.trans h.database, h'.table.trans h.table, h'.indexes.trans h.indexes,
    h'.sequence.trans h.sequence⟩

theorem SameRecords.refl (name : String) (s : Storage) : SameRecords name s s :=
  ⟨rfl, rfl, fun _ _ => rfl⟩

theorem SameRecords.symm (h : SameRecords name s s') : SameRecords name s' s :=
  ⟨h.table.symm, h.nextId.symm, fun key hkey => (h.indexData key hkey).symm⟩

theorem SameRecords.trans {s'' : Storage} (h : SameRecords name s s')
    (h' : SameRecords name s' s'') : SameRecords name s s'' :=
  ⟨h'.table.trans h.table, h'.nextId.trans h.nextId, fun key hkey =>
    (h'.indexData key hkey).trans (h.indexData key hkey)⟩

theorem equivalence_tableAlike (db name : String) : Equivalence (TableAlike db name) where
  refl _ := ⟨rfl, rfl, rfl, .refl _ _ _, .refl _ _⟩
  symm h := ⟨h.catalogPoisoned.symm, h.storagePoisoned.symm, h.durable.symm, h.entry.symm,
    h.records.symm⟩
  trans h h' := ⟨h'.catalogPoisoned.trans h.catalogPoisoned,
    h'.storagePoisoned.trans h.storagePoisoned, h'.durable.trans h.durable,
    h.entry.trans h'.entry, h.records.trans h'.records⟩

/-- Only the folded names matter. -/
theorem TableAlike.sameName {e e' : Executor} (hdb : SameName db db') (hname : SameName name name')
    (h : TableAlike db name e e') : TableAlike db' name' e e' where
  catalogPoisoned := h.catalogPoisoned
  storagePoisoned := h.storagePoisoned
  durable := h.durable
  entry := by
    refine ⟨?_, ?_, ?_, ?_⟩
    · have hsame : ∀ c : Catalog, c.databaseExists db' = c.databaseExists db := fun c => by
        rw [Catalog.databaseExists, Catalog.databaseExists, hdb]
      rw [hsame, hsame, h.entry.database]
    · rw [← Catalog.findTable_sameName hdb hname, ← Catalog.findTable_sameName hdb hname,
        h.entry.table]
    · rw [← Catalog.getTableIndexes_sameName hdb hname,
        ← Catalog.getTableIndexes_sameName hdb hname, h.entry.indexes]
    · rw [← Catalog.sequence_sameName hname, ← Catalog.sequence_sameName hname, h.entry.sequence]
  records := by
    refine ⟨?_, ?_, ?_⟩
    · rw [Storage.getTable?, Storage.getTable?, ← hname]
      exact h.records.table
    · rw [Storage.nextId, Storage.nextId, ← hname]
      exact h.records.nextId
    · unfold SameIndexData keyPrefix
      rw [← hname]
      exact h.records.indexData

theorem tableAlike_sameName (hdb : SameName db db') (hname : SameName name name') :
    TableAlike db name = TableAlike db' name' :=
  funext fun _ => funext fun _ => propext ⟨.sameName hdb hname, .sameName hdb.symm hname.symm⟩

/-! ## Operations on the table -/

/-- Two answers are the same error, or values that are related. -/
inductive Agree {ε α : Type} (R : α → α → Prop) : Except ε α → Except ε α → Prop
  | error (x : ε) : Agree R (.error x) (.error x)
  | ok {a b : α} (h : R a b) : Agree R (.ok a) (.ok b)

namespace SameEntry

variable (h : SameEntry db name c c')

include h in
theorem tableExists : c'.tableExists db name = c.tableExists db name := by
  rw [Catalog.tableExists_eq, Catalog.tableExists_eq, h.table]

include h in
/-- What the entry of the database in the catalog comes to. -/
theorem getDatabase : (c.getDatabase db = none ∧ c'.getDatabase db = none) ∨
    ∃ d d', c.getDatabase db = some d ∧ c'.getDatabase db = some d' ∧
      d'.tables[normalize name]? = d.tables[normalize name]? ∧
      d'.indexes[normalize name]?.getD [] = d.indexes[normalize name]?.getD [] := by
  have hdatabase := h.database
  have htable := h.table
  have hindexes := h.indexes
  unfold Catalog.databaseExists at hdatabase
  unfold Catalog.findTable at htable
  unfold Catalog.getTableIndexes at hindexes
  cases hd : c.getDatabase db with
  | none =>
    rw [Catalog.getDatabase] at hd
    rw [hd] at hdatabase
    exact .inl ⟨rfl, Option.isNone_iff_eq_none.mp (Option.isSome_eq_false_iff.mp hdatabase)⟩
  | some d =>
    cases hd' : c'.getDatabase db with
    | none =>
      rw [Catalog.getDatabase] at hd hd'
      rw [hd, hd'] at hdatabase
      cases hdatabase
    | some d' =>
      rw [hd, hd'] at htable hindexes
      exact .inr ⟨d, d', rfl, rfl, htable, hindexes⟩

include h in
theorem getTable : c'.getTable db name = c.getTable db name := by
  unfold Catalog.getTable
  rcases h.getDatabase with ⟨hd, hd'⟩ | ⟨d, d', hd, hd', htable, -⟩
  · rw [hd, hd']
  · rw [hd, hd']
    simp only [htable]

include h in
theorem createTable (columns : List Column) : Agree (SameEntry db name)
    (c.createTable db name columns) (c'.createTable db name columns) := by
  cases hr : c.createTable db name columns with
  | ok d =>
    have hfree := Catalog.createTable_isOk.mp ⟨d, hr⟩
    rw [← h.database, ← h.tableExists] at hfree
    obtain ⟨d', hr'⟩ := Catalog.createTable_isOk.mpr hfree
    rw [hr']
    refine .ok ⟨?_, ?_, ?_, ?_⟩
    · rw [Catalog.databaseExists_createTable hr, Catalog.databaseExists_createTable hr', h.database]
    · rw [Catalog.findTable_createTable hr, Catalog.findTable_createTable hr',
        if_pos ⟨rfl, rfl⟩, if_pos ⟨rfl, rfl⟩]
    · rw [Catalog.getTableIndexes_createTable hr, Catalog.getTableIndexes_createTable hr', h.indexes]
    · rw [Catalog.sequence_createTable hr, Catalog.sequence_createTable hr', if_pos rfl, if_pos rfl]
  | error msg =>
    have hsame : c'.createTable db name columns = .error msg := by
      unfold Catalog.createTable at hr ⊢
      rcases h.getDatabase with ⟨hd, hd'⟩ | ⟨d, d', hd, hd', htable, -⟩
      · rw [hd] at hr
        rw [hd']
        exact hr
      · rw [hd] at hr
        rw [hd']
        simp only at hr
        split at hr
        · next hexists =>
          simp only [htable, hexists, if_true]
          exact hr
        · cases hr
    rw [hsame]
    exact .error msg

include h in
theorem dropTable : Agree (SameEntry db name) (c.dropTable db name) (c'.dropTable db name) := by
  cases hr : c.dropTable db name with
  | ok d =>
    have hfound := Catalog.dropTable_isOk.mp ⟨d, hr⟩
    rw [← h.tableExists] at hfound
    obtain ⟨d', hr'⟩ := Catalog.dropTable_isOk.mpr hfound
    rw [hr']
    refine .ok ⟨?_, ?_, ?_, ?_⟩
    · rw [Catalog.databaseExists_dropTable hr, Catalog.databaseExists_dropTable hr', h.database]
    · rw [Catalog.findTable_dropTable hr, Catalog.findTable_dropTable hr', if_pos ⟨rfl, rfl⟩,
        if_pos ⟨rfl, rfl⟩]
    · rw [Catalog.getTableIndexes_dropTable hr, Catalog.getTableIndexes_dropTable hr',
        if_pos ⟨rfl, rfl⟩, if_pos ⟨rfl, rfl⟩]
    · rw [Catalog.sequence_dropTable hr, Catalog.sequence_dropTable hr', if_pos rfl, if_pos rfl]
  | error msg =>
    have hsame : c'.dropTable db name = .error msg := by
      unfold Catalog.dropTable at hr ⊢
      rcases h.getDatabase with ⟨hd, hd'⟩ | ⟨d, d', hd, hd', htable, -⟩
      · rw [hd] at hr
        rw [hd']
        exact hr
      · rw [hd] at hr
        rw [hd']
        simp only at hr
        split at hr
        · next hnone =>
          simp only [htable, hnone, if_true]
          exact hr
        · cases hr
    rw [hsame]
    exact .error msg

include h in
theorem createIndex {indexDef : IndexDef} (hname : SameName indexDef.tableName name) :
    Agree (SameEntry db name) (c.createIndex db indexDef) (c'.createIndex db indexDef) := by
  have hexists : c'.tableExists db indexDef.tableName = c.tableExists db indexDef.tableName := by
    rw [Catalog.tableExists_sameName rfl hname, Catalog.tableExists_sameName rfl hname,
      h.tableExists]
  have hlist : c'.getTableIndexes db indexDef.tableName =
      c.getTableIndexes db indexDef.tableName := by
    rw [Catalog.getTableIndexes_sameName rfl hname, Catalog.getTableIndexes_sameName rfl hname,
      h.indexes]
  cases hr : c.createIndex db indexDef with
  | ok d =>
    have hfree := Catalog.createIndex_isOk.mp ⟨d, hr⟩
    rw [← hexists, ← hlist] at hfree
    obtain ⟨d', hr'⟩ := Catalog.createIndex_isOk.mpr hfree
    rw [hr']
    refine .ok ⟨?_, ?_, ?_, ?_⟩
    · rw [Catalog.databaseExists_createIndex hr, Catalog.databaseExists_createIndex hr', h.database]
    · rw [Catalog.findTable_createIndex hr, Catalog.findTable_createIndex hr', h.table]
    · rw [Catalog.getTableIndexes_createIndex hr, Catalog.getTableIndexes_createIndex hr',
        if_pos ⟨rfl, hname⟩, if_pos ⟨rfl, hname⟩, hlist]
    · rw [Catalog.sequence_createIndex hr, Catalog.sequence_createIndex hr', h.sequence]
  | error msg =>
    have hsame : c'.createIndex db indexDef = .error msg := by
      unfold Catalog.createIndex at hr ⊢
      rw [hname] at hr ⊢
      rcases h.getDatabase with ⟨hd, hd'⟩ | ⟨d, d', hd, hd', htable, hindexes⟩
      · rw [hd] at hr
        rw [hd']
        exact hr
      · rw [hd] at hr
        rw [hd']
        simp only [Std.ExtTreeMap.getD_eq_getD_getElem?, htable, hindexes] at hr ⊢
        split at hr
        · next hnone =>
          rw [if_pos hnone]
          exact hr
        · next hsome =>
          rw [if_neg hsome]
          split at hr
          · next hany =>
            rw [if_pos hany]
            exact hr
          · cases hr
    rw [hsame]
    exact .error msg

include h in
theorem nextRowId (count : Nat) : (c'.nextRowId name count).1 = (c.nextRowId name count).1 ∧
    SameEntry db name (c.nextRowId name count).2 (c'.nextRowId name count).2 := by
  have hseq : ∀ c : Catalog, (c.nextRowId name count).2.sequence name = c.sequence name + count :=
    fun c => by simp [Catalog.nextRowId, Catalog.sequence]
  refine ⟨h.sequence, h.database, h.table, h.indexes, ?_⟩
  rw [hseq, hseq, h.sequence]

include h in
theorem fillValues (now : Nat → Nat) (idx : Nat) (columns : List Column) (values : List Value)
    (last : Nat) : (Engine.fillValues now name idx columns values last c').1 =
        (Engine.fillValues now name idx columns values last c).1 ∧
      SameEntry db name (Engine.fillValues now name idx columns values last c).2
        (Engine.fillValues now name idx columns values last c').2 := by
  induction columns generalizing idx values last c c' with
  | nil => exact ⟨rfl, h⟩
  | cons col cols ih =>
    unfold Engine.fillValues
    cases values[idx]? with
    | none => exact ⟨rfl, h⟩
    | some v =>
      cases v with
      | null =>
        cases hauto : col.autoIncrement with
        | true =>
          obtain ⟨hid, hnext⟩ := h.nextRowId 1
          simp only [if_true, hid]
          exact ih hnext _ _ _
        | false =>
          cases col.defaultExpr with
          | none => exact ih h _ _ _
          | some expr => exact ih h _ _ _
      | _ => exact ih h _ _ _

include h in
theorem fillRows (now : Nat → Nat → Nat) (columns : List Column) (i : Nat) (rows : List Row)
    (last : Nat) : (Engine.fillRows now name columns i rows last c').1 =
        (Engine.fillRows now name columns i rows last c).1 ∧
      SameEntry db name (Engine.fillRows now name columns i rows last c).2
        (Engine.fillRows now name columns i rows last c').2 := by
  induction rows generalizing i last c c' with
  | nil => exact ⟨rfl, h⟩
  | cons row rows ih =>
    unfold Engine.fillRows
    obtain ⟨hfst, hsnd⟩ := h.fillValues (now i) 0 columns row.values last
    rcases hv : Engine.fillValues (now i) name 0 columns row.values last c with ⟨r, d⟩
    rcases hv' : Engine.fillValues (now i) name 0 columns row.values last c' with ⟨r', d'⟩
    rw [hv, hv'] at hfst hsnd
    obtain rfl : r' = r := hfst
    have hd : SameEntry db name d d' := hsnd
    cases r' with
    | error x => exact ⟨rfl, hd⟩
    | ok filled =>
      obtain ⟨hfst, hsnd⟩ := ih hd (i + 1) filled.2
      simp only
      rcases hrest : Engine.fillRows now name columns (i + 1) rows filled.2 d with ⟨r, e⟩
      rcases hrest' : Engine.fillRows now name columns (i + 1) rows filled.2 d' with ⟨r', e'⟩
      rw [hrest, hrest'] at hfst hsnd
      obtain rfl : r' = r := hfst
      cases r' with
      | error x => exact ⟨rfl, hsnd⟩
      | ok rest => exact ⟨rfl, hsnd⟩

end SameEntry

/-! ## Operations on the records -/

omit [Host] in
theorem startsWith_iff {s pre : String} : startsWith s pre = true ↔ pre.toList <+: s.toList :=
  List.isPrefixOf_iff_prefix

namespace SameIndexData

variable (h : SameIndexData name m m')

include h in
/-- The same change under one key, of this table or another. -/
theorem alter (key : String) (f : Option IndexData → Option IndexData) :
    SameIndexData name (m.alter key f) (m'.alter key f) := by
  intro key' hkey'
  rw [Std.ExtTreeMap.getElem?_alter, Std.ExtTreeMap.getElem?_alter]
  split
  · next heq =>
    rw [Std.LawfulEqCmp.compare_eq_iff_eq] at heq
    subst heq
    rw [h key hkey']
  · exact h key' hkey'

include h in
theorem insertIntoIndexesRaw (tableName : String) (indexes : List IndexDef)
    (columns : List Column) (row : Row) :
    SameIndexData name (Engine.insertIntoIndexesRaw m tableName indexes columns row)
      (Engine.insertIntoIndexesRaw m' tableName indexes columns row) := by
  unfold Engine.insertIntoIndexesRaw
  induction indexes generalizing m m' with
  | nil => exact h
  | cons idx rest ih => exact ih (h.alter _ _)

include h in
theorem deleteFromIndexesRaw (tableName : String) (indexes : List IndexDef)
    (columns : List Column) (row : Row) :
    SameIndexData name (Engine.deleteFromIndexesRaw m tableName indexes columns row)
      (Engine.deleteFromIndexesRaw m' tableName indexes columns row) := by
  unfold Engine.deleteFromIndexesRaw
  induction indexes generalizing m m' with
  | nil => exact h
  | cons idx rest ih => exact ih (h.alter _ _)

include h in
/-- The same changes in a row. -/
theorem foldl {β : Type} {f : IndexMap → β → IndexMap} {l : List β}
    (hf : ∀ m m' b, SameIndexData name m m' → SameIndexData name (f m b) (f m' b)) :
    SameIndexData name (l.foldl f m) (l.foldl f m') := by
  induction l generalizing m m' with
  | nil => exact h
  | cons b rest ih => exact ih (hf _ _ b h)

end SameIndexData

namespace SameRecords

variable (h : SameRecords name s s')

include h in
theorem rows : s'.getRows name = s.getRows name := by
  have hrows : ∀ s : Storage, s.getRows name = ((s.getTable? name).map Table.rows).getD [] :=
    fun _ => rfl
  rw [hrows, hrows, h.table]

include h in
theorem table_eq : s'.table name = s.table name := by
  have htable : ∀ s : Storage, s.table name = (s.getTable? name).getD ∅ :=
    fun s => Std.ExtTreeMap.getD_eq_getD_getElem?
  rw [htable, htable, h.table]

include h in
theorem storedRow (id : Nat) : Engine.storedRow s' name id = Engine.storedRow s name id := by
  rw [Engine.storedRow, Engine.storedRow, h.table]

include h in
theorem insertRows (rows : List Row) : (s'.insertRows name rows).1 = (s.insertRows name rows).1 ∧
    SameRecords name (s.insertRows name rows).2 (s'.insertRows name rows).2 := by
  have htable : ∀ s : Storage, (s.insertRows name rows).2.getTable? name =
      some (Storage.insertLoop (s.table name) (s.nextId name) rows).1 := fun s => by
    simp [Storage.getTable?, Storage.insertRows, Storage.table, Storage.nextId]
  refine ⟨?_, ?_, ?_, h.indexData⟩
  · rw [Storage.ids_insertRows, Storage.ids_insertRows, h.table_eq, h.nextId]
  · rw [htable, htable, h.table_eq, h.nextId]
  · rw [Storage.nextId_insertRows, Storage.nextId_insertRows, if_pos rfl, if_pos rfl, h.table_eq,
      h.nextId]

include h in
theorem modifyTable (f : Table → Table) :
    SameRecords name (s.modifyTable name f) (s'.modifyTable name f) := by
  have htable : ∀ s : Storage, (s.modifyTable name f).getTable? name = (s.getTable? name).map f :=
    fun s => by simp [Storage.getTable?, Storage.modifyTable]
  refine ⟨?_, h.nextId, h.indexData⟩
  rw [htable, htable, h.table]

include h in
/-- The same change of the index data. -/
theorem setIndexData (hm : SameIndexData name m m') :
    SameRecords name { s with indexData := m } { s' with indexData := m' } :=
  ⟨h.table, h.nextId, hm⟩

include h in
theorem indexInserted (indexes : List IndexDef) (columns : List Column) (ids : List Nat) :
    SameRecords name (Engine.indexInserted s name indexes columns ids)
      (Engine.indexInserted s' name indexes columns ids) := by
  refine h.setIndexData (SameIndexData.foldl (l := ids) (f := fun data id =>
    Engine.insertIntoIndexesRaw data name indexes columns (Engine.storedRow s name id))
    h.indexData fun _ _ id hm => hm.insertIntoIndexesRaw _ _ _ _) |>.trans ?_
  unfold Engine.indexInserted
  simp only [h.storedRow]
  exact .refl _ _

include h in
/-- A change of the rows, once the index data is known to be the same. -/
theorem rewritten {change : Storage → List Row → Storage} {rewrite : List Row → Table → Table}
    (hre : Rewrites name change rewrite) {rows : List Row}
    (hdata : SameIndexData name (change s rows).indexData (change s' rows).indexData) :
    SameRecords name (change s rows) (change s' rows) where
  table := by
    have hmodified := (h.modifyTable (rewrite rows)).table
    rw [Storage.getTable?, Storage.getTable?] at hmodified ⊢
    rw [(hre.sameRows s rows).tables, (hre.sameRows s' rows).tables, hmodified]
  nextId := by
    rw [Storage.nextId_congr (hre.sameRows s rows).nextIds,
      Storage.nextId_congr (hre.sameRows s' rows).nextIds]
    exact h.nextId
  indexData := hdata

include h in
theorem deleteRows (indexes : List IndexDef) (columns : List Column) (rows : List Row) :
    SameRecords name (Engine.deleteRows s name indexes columns rows)
      (Engine.deleteRows s' name indexes columns rows) :=
  h.rewritten (deleteRows_rewrites name indexes columns) (h.indexData.foldl fun _ _ row hm =>
    hm.deleteFromIndexesRaw name indexes columns row)

include h in
theorem updateRows [ExprDebug] (indexes : List IndexDef) (columns : List Column)
    (assigns : List (Nat × Expr)) (rows : List Row) :
    SameRecords name (Engine.updateRows s name indexes columns assigns rows)
      (Engine.updateRows s' name indexes columns assigns rows) :=
  h.rewritten (updateRows_rewrites name indexes columns assigns)
    ((h.indexData.foldl fun _ _ row hm => hm.deleteFromIndexesRaw name indexes columns row).foldl
      fun _ _ row hm => hm.insertIntoIndexesRaw name indexes columns row)

include h in
theorem putIndex (key : String) (data : IndexData) :
    SameRecords name (s.putIndex key data) (s'.putIndex key data) := by
  refine ⟨h.table, h.nextId, fun key' hkey' => ?_⟩
  simp only [Storage.putIndex, Std.ExtTreeMap.getElem?_insert]
  rw [h.indexData key' hkey']

include h in
theorem removeIndex (key : String) :
    SameRecords name (s.removeIndex key) (s'.removeIndex key) := by
  refine ⟨h.table, h.nextId, fun key' hkey' => ?_⟩
  simp only [Storage.removeIndex, Std.ExtTreeMap.getElem?_erase]
  rw [h.indexData key' hkey']

end SameRecords

/-- Nothing is left of a table that is cleared. -/
theorem sameRecords_cleared (name : String) (s s' : Storage) :
    SameRecords name (s.clearTable name) (s'.clearTable name) := by
  have htable : ∀ s : Storage, (s.clearTable name).getTable? name = none := fun s => by
    simp [Storage.getTable?, Storage.clearTable]
  refine ⟨?_, ?_, fun key hkey => ?_⟩
  · rw [htable, htable]
  · rw [Storage.nextId_clearTable, Storage.nextId_clearTable, if_pos rfl, if_pos rfl]
  · rw [keyPrefix] at hkey
    rw [Storage.indexData_clearTable, Storage.indexData_clearTable, if_pos hkey, if_pos hkey]

/-! ## Operations on other tables -/

/-- Neither table's key prefix continues the other's. -/
def TablesApart (name other : String) : Prop :=
  startsWith (keyPrefix name) (keyPrefix other) = false ∧
    startsWith (keyPrefix other) (keyPrefix name) = false

theorem TablesApart.ne (h : TablesApart name other) : ¬ SameName other name := by
  intro hname
  have hsame : keyPrefix other = keyPrefix name := congrArg (· ++ ":") hname
  have hself : startsWith (keyPrefix name) (keyPrefix name) = true :=
    startsWith_iff.mpr (List.prefix_refl _)
  have hcontinues := h.1
  rw [hsame, hself] at hcontinues
  cases hcontinues

/-- No key is a key of both tables. -/
theorem TablesApart.not_startsWith (h : TablesApart name other) {key : String}
    (hkey : startsWith key (keyPrefix name) = true) : startsWith key (keyPrefix other) = false := by
  rw [Bool.eq_false_iff]
  intro hother
  rcases List.prefix_or_prefix_of_prefix (startsWith_iff.mp hkey) (startsWith_iff.mp hother) with
    hpre | hpre
  · cases (startsWith_iff.mpr hpre).symm.trans h.2
  · cases (startsWith_iff.mpr hpre).symm.trans h.1

theorem TablesApart.storageKey_ne (h : TablesApart name other) {key : String}
    (hkey : startsWith key (keyPrefix name) = true) (indexName : String) :
    key ≠ storageKey other indexName := by
  rintro rfl
  have hother : startsWith (storageKey other indexName) (keyPrefix other) = true :=
    startsWith_storageKey other indexName
  rw [h.not_startsWith hkey] at hother
  cases hother

/-! The catalog. -/

theorem sameEntry_createTable {columns : List Column} {callDb : String}
    (hname : ¬ SameName other name) (h : c.createTable callDb other columns = .ok c') :
    SameEntry db name c c' where
  database := Catalog.databaseExists_createTable h
  table := (Catalog.findTable_createTable h db name).trans (if_neg fun hs => hname hs.2)
  indexes := Catalog.getTableIndexes_createTable h db name
  sequence := (Catalog.sequence_createTable h name).trans (if_neg hname)

theorem sameEntry_dropTable {callDb : String} (hname : ¬ SameName other name)
    (h : c.dropTable callDb other = .ok c') : SameEntry db name c c' where
  database := Catalog.databaseExists_dropTable h
  table := (Catalog.findTable_dropTable h db name).trans (if_neg fun hs => hname hs.2)
  indexes := (Catalog.getTableIndexes_dropTable h db name).trans (if_neg fun hs => hname hs.2)
  sequence := (Catalog.sequence_dropTable h name).trans (if_neg hname)

theorem sameEntry_createIndex {callDb : String} {indexDef : IndexDef}
    (hname : ¬ SameName indexDef.tableName name) (h : c.createIndex callDb indexDef = .ok c') :
    SameEntry db name c c' where
  database := Catalog.databaseExists_createIndex h
  table := Catalog.findTable_createIndex h db name
  indexes := (Catalog.getTableIndexes_createIndex h db name).trans (if_neg fun hs => hname hs.2)
  sequence := Catalog.sequence_createIndex h name

theorem sameEntry_fillRows (hname : ¬ SameName other name) (now : Nat → Nat → Nat)
    (columns : List Column) (i : Nat) (rows : List Row) (last : Nat) :
    SameEntry db name c (fillRows now other columns i rows last c).2 := by
  obtain ⟨n, -, hdraw⟩ := fillRows_draws now other columns rows i last c
  have hdatabases : (c.draw other n).databases = c.databases := Catalog.draw_databases n
  rw [hdraw]
  exact ⟨congrArg (fun m => m[normalize db]?.isSome) hdatabases,
    Catalog.findTable_congr hdatabases db name, Catalog.getTableIndexes_congr hdatabases db name,
    (Catalog.sequence_draw n name).trans (if_neg hname)⟩

theorem sameEntry_createDatabase {dbName : String} (hdb : ¬ SameName dbName db) :
    SameEntry db name c (c.createDatabase dbName) where
  database := by
    have hget : (c.createDatabase dbName).getDatabase db = _ :=
      Catalog.getDatabase_createDatabase dbName
    rw [if_neg fun hs => hdb hs.1] at hget
    exact congrArg Option.isSome hget
  table := Catalog.findTable_createDatabase dbName
  indexes := Catalog.getTableIndexes_createDatabase dbName
  sequence := rfl

theorem sameEntry_removeDatabase {dbName : String} (hdb : ¬ SameName dbName db)
    (h : c.removeDatabase dbName = some c') : SameEntry db name c c' where
  database := by
    have hget : c'.getDatabase db = _ := Catalog.getDatabase_removeDatabase h
    rw [if_neg hdb] at hget
    exact congrArg Option.isSome hget
  table := (Catalog.findTable_removeDatabase h).trans (if_neg hdb)
  indexes := (Catalog.getTableIndexes_removeDatabase h).trans (if_neg hdb)
  sequence := Catalog.sequence_removeDatabase h name

/-! The storage. -/

theorem sameRecords_insertRows (hname : ¬ SameName other name) (rows : List Row) :
    SameRecords name s (s.insertRows other rows).2 where
  table := by
    simp only [Storage.getTable?, Storage.insertRows, Std.ExtTreeMap.getElem?_insert,
      Std.LawfulEqCmp.compare_eq_iff_eq]
    exact if_neg hname
  nextId := (Storage.nextId_insertRows s other rows name).trans (if_neg hname)
  indexData _ _ := rfl

theorem sameRecords_modifyTable (hname : ¬ SameName other name) (f : Table → Table) :
    SameRecords name s (s.modifyTable other f) where
  table := by
    simp only [Storage.getTable?, Storage.modifyTable, Std.ExtTreeMap.getElem?_modify,
      Std.LawfulEqCmp.compare_eq_iff_eq]
    exact if_neg hname
  nextId := rfl
  indexData _ _ := rfl

theorem sameRecords_clearTable (hapart : TablesApart name other) :
    SameRecords name s (s.clearTable other) where
  table := by
    simp only [Storage.getTable?, Storage.clearTable, Std.ExtTreeMap.getElem?_erase,
      Std.LawfulEqCmp.compare_eq_iff_eq]
    exact if_neg hapart.ne
  nextId := (Storage.nextId_clearTable s other name).trans (if_neg hapart.ne)
  indexData key hkey := (Storage.indexData_clearTable s other key).trans
    (if_neg (Bool.eq_false_iff.mp (hapart.not_startsWith hkey)))

theorem sameRecords_indexInserted (hapart : TablesApart name other) (indexes : List IndexDef)
    (columns : List Column) (ids : List Nat) :
    SameRecords name s (indexInserted s other indexes columns ids) :=
  ⟨rfl, rfl, fun _ hkey => indexInserted_indexData_keep
    (fun idx _ => hapart.storageKey_ne hkey idx.name) columns s ids⟩

theorem sameRecords_rewritten (hname : ¬ SameName other name)
    {change : Storage → List Row → Storage} {rewrite : List Row → Table → Table}
    (hre : Rewrites other change rewrite) {rows : List Row}
    (hdata : SameIndexData name s.indexData (change s rows).indexData) :
    SameRecords name s (change s rows) where
  table := by
    have hmodified : (s.modifyTable other (rewrite rows)).getTable? name = s.getTable? name :=
      (sameRecords_modifyTable hname (rewrite rows)).table
    rw [Storage.getTable?] at hmodified ⊢
    rw [(hre.sameRows s rows).tables, hmodified]
  nextId := Storage.nextId_congr (hre.sameRows s rows).nextIds name
  indexData := hdata

theorem sameRecords_deleteRows (hapart : TablesApart name other) (indexes : List IndexDef)
    (columns : List Column) (rows : List Row) :
    SameRecords name s (deleteRows s other indexes columns rows) :=
  sameRecords_rewritten hapart.ne (deleteRows_rewrites other indexes columns) fun _ hkey =>
    deleteRows_indexData_keep (fun idx _ => hapart.storageKey_ne hkey idx.name) columns s rows

theorem sameRecords_updateRows [ExprDebug] (hapart : TablesApart name other)
    (indexes : List IndexDef) (columns : List Column) (assigns : List (Nat × Expr))
    (rows : List Row) : SameRecords name s (updateRows s other indexes columns assigns rows) :=
  sameRecords_rewritten hapart.ne (updateRows_rewrites other indexes columns assigns)
    fun _ hkey => updateRows_indexData_keep
      (fun idx _ => hapart.storageKey_ne hkey idx.name) columns assigns s rows

theorem sameRecords_putIndex (hapart : TablesApart name other) (indexName : String)
    (data : IndexData) : SameRecords name s (s.putIndex (storageKey other indexName) data) := by
  refine ⟨rfl, rfl, fun key hkey => ?_⟩
  simp only [Storage.putIndex, Std.ExtTreeMap.getElem?_insert,
    Std.LawfulEqCmp.compare_eq_iff_eq]
  exact if_neg (hapart.storageKey_ne hkey indexName).symm

theorem sameRecords_removeIndex (hapart : TablesApart name other) (indexName : String) :
    SameRecords name s (s.removeIndex (storageKey other indexName)) := by
  refine ⟨rfl, rfl, fun key hkey => ?_⟩
  simp only [Storage.removeIndex, Std.ExtTreeMap.getElem?_erase,
    Std.LawfulEqCmp.compare_eq_iff_eq]
  exact if_neg (hapart.storageKey_ne hkey indexName).symm

/-! ## Servers -/

variable {e e' : Executor}

theorem TableAlike.poisonCatalog (h : TableAlike db name e e') :
    TableAlike db name e.poisonCatalog e'.poisonCatalog :=
  ⟨rfl, h.storagePoisoned, h.durable, h.entry, h.records⟩

theorem TableAlike.poisonStorage (h : TableAlike db name e e') :
    TableAlike db name e.poisonStorage e'.poisonStorage :=
  ⟨h.catalogPoisoned, rfl, h.durable, h.entry, h.records⟩

theorem TableAlike.setCatalog {c c' : Catalog} (h : TableAlike db name e e')
    (hc : SameEntry db name c c') : TableAlike db name (e.setCatalog c) (e'.setCatalog c') :=
  ⟨h.catalogPoisoned, h.storagePoisoned, h.durable, hc, h.records⟩

theorem TableAlike.setStorage {s s' : Storage} (h : TableAlike db name e e')
    (hs : SameRecords name s s') : TableAlike db name (e.setStorage s) (e'.setStorage s') :=
  ⟨h.catalogPoisoned, h.storagePoisoned, h.durable, h.entry, hs⟩

/-- The log and the files are not part of what statements read. -/
theorem TableAlike.append (h : TableAlike db name e e') (env : Env) (entry entry' : WalEntry) :
    TableAlike db name (e.append env entry) (e'.append env entry') :=
  ⟨h.catalogPoisoned, h.storagePoisoned, h.durable, h.entry, h.records⟩

theorem TableAlike.persist (h : TableAlike db name e e') (f f' : Persistence → Persistence) :
    TableAlike db name (e.persist f) (e'.persist f') :=
  ⟨h.catalogPoisoned, h.storagePoisoned, by simpa using h.durable, h.entry, h.records⟩

end Srrdb.Engine
