/-
Srrdb.Server.RegisteredIndexes — the indexes in the catalog are exact.

The catalog names an index by database, table and name, the storage by table
and name alone. As long as no two indexes of the catalog have the same storage
key, each has its data for itself: `rebuild_indexes` leaves it exact whatever
the order of its loops, and so do CREATE INDEX, INSERT, DELETE and UPDATE.
-/
import Srrdb.Engine.IndexMaintenance
import Srrdb.Server.Reachable

namespace Srrdb.Server

open Srrdb.Engine Srrdb.Sql Srrdb.Lib

section Theory

variable [Host]

/-! ## Registered indexes -/

/-- The index is registered on a table of the database. -/
structure Registered (c : Catalog) (db name : String) (tableDef : TableDef) (idx : IndexDef) :
    Prop where
  table : c.findTable db name = some tableDef
  index : idx ∈ c.getTableIndexes db name

/-- All indexes of a catalog, each with the keys of its database and table. -/
def indexEntries (c : Catalog) : List (String × String × IndexDef) :=
  c.databases.toList.flatMap fun (dbKey, d) => d.tables.keys.flatMap fun tableKey =>
    (d.indexes.getD tableKey []).map fun idx => (dbKey, tableKey, idx)

/-- The storage key of one of them. -/
def entryKey (e : String × String × IndexDef) : String := storageKey e.2.1 e.2.2.name

/-- The storage keys of the indexes of a catalog are pairwise distinct. -/
def DistinctIndexKeys (c : Catalog) : Prop := ((indexEntries c).map entryKey).Nodup

omit [Host] in
theorem mem_indexEntries {c : Catalog} {dbKey tableKey : String} {idx : IndexDef} :
    (dbKey, tableKey, idx) ∈ indexEntries c ↔ ∃ d, c.databases[dbKey]? = some d ∧
      (∃ t, d.tables[tableKey]? = some t) ∧ idx ∈ d.indexes.getD tableKey [] := by
  simp only [indexEntries, List.mem_flatMap, List.mem_map, Prod.exists]
  constructor
  · intro h
    obtain ⟨dbKey', d, hd, tableKey', ht, idx', hidx, heq⟩ := h
    cases heq
    refine ⟨d, OrdMap.mem_toList.mp hd, ?_, hidx⟩
    rw [Std.ExtTreeMap.mem_keys, ← Std.ExtTreeMap.isSome_getElem?_iff_mem,
      Option.isSome_iff_exists] at ht
    exact ht
  · intro h
    obtain ⟨d, hd, ht, hidx⟩ := h
    refine ⟨dbKey, d, OrdMap.mem_toList.mpr hd, tableKey, ?_, idx, hidx, rfl⟩
    rw [Std.ExtTreeMap.mem_keys, ← Std.ExtTreeMap.isSome_getElem?_iff_mem,
      Option.isSome_iff_exists]
    exact ht

/-- Where the catalog keeps a registered index. -/
theorem Registered.lookup {c : Catalog} {db name : String} {tableDef : TableDef} {idx : IndexDef}
    (h : Registered c db name tableDef idx) :
    ∃ d, c.databases[normalize db]? = some d ∧ d.tables[normalize name]? = some tableDef ∧
      idx ∈ d.indexes.getD (normalize name) [] := by
  obtain ⟨htable, hindex⟩ := h
  unfold Catalog.findTable at htable
  unfold Catalog.getTableIndexes at hindex
  obtain ⟨d, hd, ht⟩ := Option.bind_eq_some_iff.mp htable
  rw [hd, Option.bind_some] at hindex
  refine ⟨d, hd, ht, ?_⟩
  rw [Std.ExtTreeMap.getD_eq_getD_getElem?]
  exact hindex

theorem storageKey_normalize (name indexName : String) :
    storageKey (normalize name) indexName = storageKey name indexName := by
  rw [storageKey, storageKey, Engine.normalize, toLowercase_idem]

/-- The indexes of one table have distinct storage keys. -/
theorem DistinctIndexKeys.ofTable {c : Catalog} (h : DistinctIndexKeys c) {db name : String}
    {tableDef : TableDef} (htable : c.findTable db name = some tableDef) :
    DistinctKeys name (c.getTableIndexes db name) := by
  unfold Catalog.findTable at htable
  obtain ⟨d, hd, ht⟩ := Option.bind_eq_some_iff.mp htable
  have hindexes : c.getTableIndexes db name = d.indexes.getD (normalize name) [] := by
    rw [Catalog.getTableIndexes, hd, Option.bind_some, Std.ExtTreeMap.getD_eq_getD_getElem?]
  have hkey : normalize name ∈ d.tables.keys := by
    rw [Std.ExtTreeMap.mem_keys, ← Std.ExtTreeMap.isSome_getElem?_iff_mem, ht]
    rfl
  -- the entries of the table are a part of those of its database, and these of all
  have htableSub : ((c.getTableIndexes db name).map fun idx =>
      (normalize db, normalize name, idx)).Sublist (d.tables.keys.flatMap fun tableKey =>
        (d.indexes.getD tableKey []).map fun idx => (normalize db, tableKey, idx)) := by
    rw [hindexes, List.flatMap_def]
    exact List.sublist_flatten_of_mem (List.mem_map.mpr ⟨_, hkey, rfl⟩)
  have hdbSub : (d.tables.keys.flatMap fun tableKey =>
      (d.indexes.getD tableKey []).map fun idx => (normalize db, tableKey, idx)).Sublist
        (indexEntries c) :=
    List.sublist_flatten_of_mem (List.mem_map.mpr ⟨(normalize db, d), OrdMap.mem_toList.mpr hd, rfl⟩)
  have hnodup : (((c.getTableIndexes db name).map fun idx =>
      (normalize db, normalize name, idx)).map entryKey).Nodup :=
    List.Nodup.sublist ((htableSub.trans hdbSub).map entryKey) h
  rw [List.map_map] at hnodup
  refine (List.map_congr_left fun idx _ => ?_).symm.subst (motive := List.Nodup) hnodup
  exact (storageKey_normalize name idx.name).symm

/-! ## `rebuild_indexes` -/

section Rebuild

variable {s₀ : Storage} {key : String} {data : IndexData}

/-- Indexes of a table that build the data `data` if they have the key `key`. -/
def Builds (s₀ : Storage) (key : String) (data : IndexData) (tableName : String)
    (tableDef : TableDef) (indexes : List IndexDef) : Prop :=
  ∀ idx ∈ indexes, storageKey tableName idx.name = key →
    indexOf idx tableDef.columns (s₀.getRows tableName) = data

/-- The loops write index data only. -/
theorem rebuildTable_sameRows (s : Storage) (tableName : String) (tableDef : TableDef)
    (indexes : List IndexDef) : (rebuildTable s tableName tableDef indexes).SameRows s := by
  unfold rebuildTable
  refine foldl_keeps (I := fun s' : Storage => s'.SameRows s) ?_ (.refl s)
  intro s' idx _ h
  exact ⟨h.tables, h.nextIds⟩

theorem getRows_sameRows {s s' : Storage} (h : s.SameRows s') (name : String) :
    s.getRows name = s'.getRows name := by
  rw [Storage.getRows, Storage.getRows, h.tables]

/-- The rebuild of a table keeps the data it would build. -/
theorem rebuildTable_keeps {s : Storage} (hs : s.SameRows s₀) {tableName : String}
    {tableDef : TableDef} {indexes : List IndexDef}
    (hb : Builds s₀ key data tableName tableDef indexes) (hdata : s.indexData[key]? = some data) :
    (rebuildTable s tableName tableDef indexes).indexData[key]? = some data := by
  refine foldl_keeps (I := fun s' : Storage => s'.indexData[key]? = some data) ?_ hdata
  intro s' idx hidx h
  rw [getRows_sameRows hs, Storage.putIndex, Std.ExtTreeMap.getElem?_insert]
  split
  · next heq => rw [hb idx hidx (Std.LawfulEqCmp.compare_eq_iff_eq.mp heq)]
  · exact h

/-- The rebuild of a table puts the data of its indexes in place. -/
theorem rebuildTable_reaches {s : Storage} (hs : s.SameRows s₀) {tableName : String}
    {tableDef : TableDef} {indexes : List IndexDef}
    (hb : Builds s₀ key data tableName tableDef indexes) {idx : IndexDef} (hidx : idx ∈ indexes)
    (hkey : storageKey tableName idx.name = key) :
    (rebuildTable s tableName tableDef indexes).indexData[key]? = some data := by
  refine foldl_reaches (I := fun _ => True)
    (J := fun s' : Storage => s'.indexData[key]? = some data) (fun _ _ _ _ => trivial) ?_ hidx
    ?_ trivial
  · intro s' idx' hidx' _ h
    rw [getRows_sameRows hs, Storage.putIndex, Std.ExtTreeMap.getElem?_insert]
    split
    · next heq => rw [hb idx' hidx' (Std.LawfulEqCmp.compare_eq_iff_eq.mp heq)]
    · exact h
  · intro s' _
    rw [getRows_sameRows hs, hb idx hidx hkey, hkey]
    exact Std.ExtTreeMap.getElem?_insert_self

theorem rebuildDatabase_sameRows (order : List String → List String) (d : DatabaseDef)
    (s : Storage) : (rebuildDatabase order d s).SameRows s := by
  refine foldl_keeps (I := fun s' : Storage => s'.SameRows s) ?_ (.refl s)
  intro s' tableName _ h
  split
  · exact (rebuildTable_sameRows _ _ _ _).trans h
  · exact h

/-- All tables of a database build the data if one of their indexes has the key. -/
def DatabaseBuilds (s₀ : Storage) (key : String) (data : IndexData) (d : DatabaseDef) : Prop :=
  ∀ tableName tableDef, d.tables[tableName]? = some tableDef →
    Builds s₀ key data tableName tableDef (d.indexes.getD tableName [])

theorem rebuildDatabase_keeps {order : List String → List String} {d : DatabaseDef}
    (hb : DatabaseBuilds s₀ key data d) {s : Storage} (hs : s.SameRows s₀)
    (hdata : s.indexData[key]? = some data) :
    (rebuildDatabase order d s).indexData[key]? = some data := by
  refine (foldl_keeps (I := fun s' : Storage => s'.SameRows s₀ ∧ s'.indexData[key]? = some data)
    ?_ ⟨hs, hdata⟩).2
  intro s' tableName _ h
  split
  · next tableDef htable =>
    exact ⟨(rebuildTable_sameRows _ _ _ _).trans h.1,
      rebuildTable_keeps h.1 (hb tableName tableDef htable) h.2⟩
  · exact h

theorem rebuildDatabase_reaches {order : List String → List String}
    (horder : ∀ names, (order names).Perm names) {d : DatabaseDef}
    (hb : DatabaseBuilds s₀ key data d) {tableName : String} {tableDef : TableDef}
    (htable : d.tables[tableName]? = some tableDef) {idx : IndexDef}
    (hidx : idx ∈ d.indexes.getD tableName []) (hkey : storageKey tableName idx.name = key)
    {s : Storage} (hs : s.SameRows s₀) :
    (rebuildDatabase order d s).indexData[key]? = some data := by
  have hmem : tableName ∈ order d.tables.keys := by
    rw [(horder _).mem_iff, Std.ExtTreeMap.mem_keys, ← Std.ExtTreeMap.isSome_getElem?_iff_mem,
      htable]
    rfl
  refine foldl_reaches (I := fun s' : Storage => s'.SameRows s₀)
    (J := fun s' : Storage => s'.indexData[key]? = some data) ?_ ?_ hmem ?_ hs
  · intro s' name _ h
    split
    · exact (rebuildTable_sameRows _ _ _ _).trans h
    · exact h
  · intro s' name _ hsame h
    split
    · next tableDef' htable' => exact rebuildTable_keeps hsame (hb name tableDef' htable') h
    · exact h
  · intro s' hsame
    rw [htable]
    exact rebuildTable_reaches hsame (hb tableName tableDef htable) hidx hkey

/-- The rebuild of all databases. -/
theorem rebuildStorage_reaches {order : List String → List String}
    (horder : ∀ names, (order names).Perm names) {c : Catalog}
    (hb : ∀ dbName d, c.getDatabase dbName = some d → DatabaseBuilds s₀ key data d)
    {db : String} {d : DatabaseDef} (hd : c.databases[normalize db]? = some d)
    {tableName : String} {tableDef : TableDef} (htable : d.tables[tableName]? = some tableDef)
    {idx : IndexDef} (hidx : idx ∈ d.indexes.getD tableName [])
    (hkey : storageKey tableName idx.name = key) :
    (rebuildStorage order c s₀).indexData[key]? = some data := by
  have hmem : normalize db ∈ order c.databases.keys := by
    rw [(horder _).mem_iff, Std.ExtTreeMap.mem_keys, ← Std.ExtTreeMap.isSome_getElem?_iff_mem, hd]
    rfl
  have hget : c.getDatabase (normalize db) = some d := by
    rw [Catalog.getDatabase, Engine.normalize, Engine.normalize, toLowercase_idem]
    exact hd
  refine foldl_reaches (I := fun s' : Storage => s'.SameRows s₀)
    (J := fun s' : Storage => s'.indexData[key]? = some data) ?_ ?_ hmem ?_ (.refl s₀)
  · intro s' name _ h
    split
    · exact (rebuildDatabase_sameRows _ _ _).trans h
    · exact h
  · intro s' name _ hsame h
    split
    · next d' hd' => exact rebuildDatabase_keeps (hb name d' hd') hsame h
    · exact h
  · intro s' hsame
    rw [hget]
    exact rebuildDatabase_reaches horder (hb _ d hget) htable hidx hkey hsame

end Rebuild

theorem rebuildStorage_sameRows (order : List String → List String) (c : Catalog) (s : Storage) :
    (rebuildStorage order c s).SameRows s := by
  refine foldl_keeps (I := fun s' : Storage => s'.SameRows s) ?_ (.refl s)
  intro s' name _ h
  split
  · exact (rebuildDatabase_sameRows _ _ _).trans h
  · exact h

/-! ## What maintenance rests on -/

/-- Values without NaN as the defaults of columns. -/
def RegularDefaults (columns : List Column) : Prop :=
  ∀ col ∈ columns, ∀ v, col.defaultExpr = some (.value v) → v.Regular

/-- A catalog and a storage whose indexes can be kept exact. -/
structure Maintainable (e : Executor) : Prop where
  distinct : DistinctIndexKeys e.catalog.value
  keyed : ∀ name, (e.storage.value.table name).Keyed
  fresh : ∀ name id row, (e.storage.value.table name)[id]? = some row →
    id < e.storage.value.nextId name
  rows : ∀ name, ∀ row ∈ (e.storage.value.table name).rows, row.Regular
  defaults : ∀ db name tableDef, e.catalog.value.findTable db name = some tableDef →
    RegularDefaults tableDef.columns

theorem Maintainable.fresh_none {e : Executor} (h : Maintainable e) {name : String} {id : Nat}
    (hid : e.storage.value.nextId name ≤ id) : (e.storage.value.table name)[id]? = none := by
  cases hget : (e.storage.value.table name)[id]? with
  | none => rfl
  | some row =>
    have := h.fresh name id row hget
    omega

/-- `rebuild_indexes` makes every registered index exact. -/
theorem rebuildIndexes_exact {e : Executor} (h : Maintainable e)
    {order : List String → List String} (horder : ∀ names, (order names).Perm names)
    (hc : e.catalog.poisoned = false) (hst : e.storage.poisoned = false) {db name : String}
    {tableDef : TableDef} {idx : IndexDef} (hreg : Registered e.catalog.value db name tableDef idx) :
    IndexExact (e.rebuildIndexes order).storage.value name tableDef.columns idx := by
  have hrun : (e.rebuildIndexes order).storage.value =
      rebuildStorage order e.catalog.value e.storage.value := by
    simp [Executor.rebuildIndexes, hc, hst]
  rw [hrun]
  obtain ⟨d, hd, htable, hidx⟩ := hreg.lookup
  have hnorm : e.storage.value.getRows (normalize name) = e.storage.value.getRows name := by
    rw [Storage.getRows, Storage.getRows, Engine.normalize, Engine.normalize, toLowercase_idem]
  have hmem : (normalize db, normalize name, idx) ∈ indexEntries e.catalog.value :=
    mem_indexEntries.mpr ⟨d, hd, ⟨tableDef, htable⟩, hidx⟩
  -- whatever has the storage key of the index is the index
  have hbuilds : ∀ dbName d', e.catalog.value.getDatabase dbName = some d' →
      DatabaseBuilds e.storage.value (storageKey name idx.name)
        (indexOf idx tableDef.columns (e.storage.value.getRows name)) d' := by
    intro dbName d' hd' tableKey tableDef' htable' idx' hidx' hkey
    have hmem' : (normalize dbName, tableKey, idx') ∈ indexEntries e.catalog.value :=
      mem_indexEntries.mpr ⟨d', hd', ⟨tableDef', htable'⟩, hidx'⟩
    have heq := List.inj_on_of_nodup_map h.distinct hmem' hmem
      (hkey.trans (storageKey_normalize name idx.name).symm)
    obtain ⟨hdb, htn, rfl⟩ : normalize dbName = normalize db ∧ tableKey = normalize name ∧
      idx' = idx := by simpa using heq
    subst htn
    rw [Catalog.getDatabase, hdb, hd] at hd'
    cases hd'
    rw [htable] at htable'
    cases htable'
    rw [hnorm]
  refine ⟨_, rebuildStorage_reaches horder hbuilds hd htable hidx
    (storageKey_normalize name idx.name), ?_⟩
  rw [Storage.table_congr (rebuildStorage_sameRows order _ _).tables, indexOf,
    Storage.getRows_eq]
  exact exact_foldl_insert (h.keyed name) (h.rows name) idx tableDef.columns

variable [ExprDebug] [Bincode]

/-! ## CREATE INDEX -/

/-- A CREATE INDEX that succeeds makes its index exact. -/
theorem createIndex_exact {e e' : Executor} (h : Maintainable e) {env : Env} {db : String}
    {ci : CreateIndex} {r : ExecuteResult} (heffect : Effect env db e (.createIndex ci) (.ok r) e') :
    ∃ tableDef, Registered e'.catalog.value db (nameToString ci.tableName) tableDef
        (newIndexDef (nameToString ci.tableName) ci) ∧
      IndexExact e'.storage.value (nameToString ci.tableName) tableDef.columns
        (newIndexDef (nameToString ci.tableName) ci) := by
  generalize hr : (Except.ok r : Outcome ExecuteResult) = result at heffect
  cases heffect with
  | none _ hskip =>
    obtain ⟨msg, hmsg⟩ := hskip
    rw [← hr] at hmsg
    cases hmsg
  | createIndex _ hout =>
    cases hout with
    | locked | rejected | unbuilt | duplicate => cases hr
    | @built c tableDef data hc hci ht hst hb =>
      have htable : e.catalog.value.findTable db (nameToString ci.tableName) = some tableDef :=
        Catalog.getTable_ok_iff.mp ht
      refine ⟨tableDef, ⟨?_, ?_⟩, data, ?_, ?_⟩
      · exact (Catalog.findTable_createIndex hci db _).trans htable
      · have hindexes := Catalog.getTableIndexes_createIndex hci db (nameToString ci.tableName)
        show newIndexDef (nameToString ci.tableName) ci ∈
          c.getTableIndexes db (nameToString ci.tableName)
        rw [hindexes, if_pos ⟨rfl, rfl⟩]
        exact List.mem_append_right _ List.mem_cons_self
      · exact Std.ExtTreeMap.getElem?_insert_self
      · show Exact data _ (e.storage.value.table (nameToString ci.tableName))
        rw [buildIndex_ok hb, Storage.getRows_eq]
        exact exact_foldl_insert (h.keyed _) (h.rows _) _ _

/-! ## INSERT, DELETE and UPDATE -/

/-- The table whose rows a statement changes. -/
def changedTable : Statement → Option String
  | .insert ins => some (tableObjectName ins.table)
  | .delete del => some (deleteTable del)
  | .update table _ _ => some (tableFactorName table)
  | _ => none

/-- The values a statement brings are not NaN. -/
def RegularLiterals : Statement → Prop
  | .insert ins => ∀ query rows, ins.source = some query → query.body = .values rows →
      ∀ exprs ∈ rows, ∀ expr ∈ exprs, (sqlExprToValue expr).Regular
  | .update _ assignments _ => ∀ a ∈ assignments, (sqlExprToValue a.value).Regular
  | _ => True

omit [Host] [ExprDebug] [Bincode] in
/-- A row under a column list is made of the literals and of NULLs. -/
theorem regular_mapColumns {tableColumns : List Column} {columns : List String}
    {vals mapped : List Value} (h : mapColumns tableColumns columns vals = .ok mapped)
    (hvals : ∀ v ∈ vals, v.Regular) : ∀ v ∈ mapped, v.Regular := by
  refine foldlM_keeps (I := fun mapped => ∀ v ∈ mapped, v.Regular) ?_ ?_ h
  · intro mapped p hp mapped' hmapped hstep v hv
    cases hpos : columnPosition tableColumns p.1 with
    | none =>
      simp only [hpos] at hstep
      cases hstep
    | some pos =>
      simp only [hpos] at hstep
      cases hstep
      rcases List.mem_or_eq_of_mem_set hv with hv | rfl
      · exact hmapped v hv
      · exact hvals p.2 (List.of_mem_zip hp).2
  · intro v hv
    rw [List.eq_of_mem_replicate hv]
    rfl

omit [Host] [Bincode] in
theorem regular_insertRow {tableColumns : List Column} {columns : List String} {exprs : List Expr}
    {row : Row} (h : insertRow tableColumns columns exprs = .ok row)
    (hlit : ∀ expr ∈ exprs, (sqlExprToValue expr).Regular) : row.Regular := by
  have hvals : ∀ v ∈ exprs.map sqlExprToValue, v.Regular := by
    intro v hv
    obtain ⟨expr, hexpr, rfl⟩ := List.mem_map.mp hv
    exact hlit expr hexpr
  unfold insertRow at h
  split at h
  · cases h
    exact hvals
  · cases hm : mapColumns tableColumns columns (exprs.map sqlExprToValue) with
    | error msg => simp only [hm] at h; cases h
    | ok values =>
      simp only [hm] at h
      cases h
      exact regular_mapColumns hm hvals

omit [Host] [Bincode] in
/-- The rows an INSERT supplies. -/
theorem regular_sourceRows {tableColumns : List Column} {columns : List String}
    {source : Option Query} {rows : List Row}
    (h : sourceRows tableColumns columns source = .ok rows)
    (hlit : ∀ query exprRows, source = some query → query.body = .values exprRows →
      ∀ exprs ∈ exprRows, ∀ expr ∈ exprs, (sqlExprToValue expr).Regular) :
    ∀ row ∈ rows, row.Regular := by
  unfold sourceRows at h
  split at h
  · cases h
  · next query =>
    split at h
    · next exprRows hbody =>
      intro row hrow
      obtain ⟨exprs, hexprs, hinsert⟩ := exists_of_mem_mapM h hrow
      exact regular_insertRow hinsert (hlit query exprRows rfl hbody exprs hexprs)
    · cases h

omit [Host] [ExprDebug] [Bincode] in
/-- Filling in sequence values and regular defaults keeps rows regular. -/
theorem regular_suppliedRows {columns : List Column} (hdef : RegularDefaults columns)
    {rows filled : List Row} (h : SuppliedRows columns rows filled)
    (hreg : ∀ row ∈ rows, row.Regular) : ∀ row ∈ filled, row.Regular := by
  have hsupplied : ∀ col ∈ columns, ∀ v, Supplied col v → v.Regular := by
    intro col hcol v hv
    rcases hv with ⟨n, rfl⟩ | ⟨t, expr, hexpr, rfl⟩
    · simp [Value.Regular, Value.eq]
    · cases expr with
      | value v => exact hdef col hcol v hexpr
      | currentTimestamp => simp [Value.Regular, evalDefaultExpr, formatTimestamp, Value.eq]
  induction h with
  | nil => intro row hrow; cases hrow
  | cons hab _ ih =>
    intro row hrow
    rcases List.mem_cons.mp hrow with rfl | hrow
    · intro v hv
      rcases hab.2.2 v hv with hv | ⟨col, hcol, hs⟩
      · exact hreg _ List.mem_cons_self v hv
      · exact hsupplied col hcol v hs
    · exact ih (fun r hr => hreg r (List.mem_cons_of_mem _ hr)) row hrow

omit [Host] [Bincode] in
/-- The expressions UPDATE assigns are those of its assignments. -/
theorem regular_assignIndexes {columns : List Column} {assignments : List Assignment}
    {assigns : List (Nat × Expr)} (h : assignments.mapM (assignIndex columns) = .ok assigns)
    (hlit : ∀ a ∈ assignments, (sqlExprToValue a.value).Regular) :
    ∀ a ∈ assigns, (sqlExprToValue a.2).Regular := by
  intro pair hpair
  obtain ⟨a, ha, hassign⟩ := exists_of_mem_mapM h hpair
  have hvalue : pair.2 = a.value := by
    unfold assignIndex at hassign
    split at hassign
    · cases hassign
    · split at hassign <;> cases hassign
      rfl
  rw [hvalue]
  exact hlit a ha

section Statements

variable {e e' : Executor} {env : Env} {db : String} {r : Outcome ExecuteResult}
  {tableDef : TableDef} {idx : IndexDef}

/-- INSERT indexes the rows it stores. -/
theorem insert_exact (h : Maintainable e) {name : String} {cols : List String}
    {source : Option Query}
    (hlit : ∀ query exprRows, source = some query → query.body = .values exprRows →
      ∀ exprs ∈ exprRows, ∀ expr ∈ exprs, (sqlExprToValue expr).Regular)
    (hreg : Registered e.catalog.value db name tableDef idx)
    (hex : IndexExact e.storage.value name tableDef.columns idx)
    (hout : InsertOutcome env db name cols source e r e') :
    IndexExact e'.storage.value name tableDef.columns idx := by
  cases hout with
  | locked | noTable | badSource | panicked | unstored => exact hex
  | @stored tableDef' rows filled last c hc ht hs hf hst =>
    have htable := Catalog.getTable_ok_iff.mp ht
    rw [hreg.table] at htable
    cases htable
    obtain ⟨-, rfl, hsup⟩ := fillRows_eq_ok hf
    have hindexes : (e.catalog.value.draw name (drawnRows tableDef.columns rows)).getTableIndexes
        db name = e.catalog.value.getTableIndexes db name :=
      Catalog.getTableIndexes_congr (Catalog.draw_databases _) db name
    have hexact := hex.insertRows (h.distinct.ofTable hreg.table) hreg.index
      (fun _ => h.fresh_none) (hsup.id_eq_zero (sourceRows_id_eq_zero hs))
      (regular_suppliedRows (h.defaults db name tableDef hreg.table) hsup
        (regular_sourceRows hs hlit))
    unfold insertDone
    rw [hindexes]
    split
    · next hskip =>
      -- there is an index, so no row was inserted and the indexing loop does nothing
      have hne : e.catalog.value.getTableIndexes db name ≠ [] := List.ne_nil_of_mem hreg.index
      have hids : (e.storage.value.insertRows name filled).1 = [] := by
        simpa [hne] using hskip
      rw [hids] at hexact
      exact hexact
    · exact hexact

/-- DELETE takes the rows it removes out of the indexes. -/
theorem delete_exact (h : Maintainable e) {name : String} {selection : Option Expr}
    (hreg : Registered e.catalog.value db name tableDef idx)
    (hex : IndexExact e.storage.value name tableDef.columns idx)
    (hout : DeleteOutcome env db name selection e r e') :
    IndexExact e'.storage.value name tableDef.columns idx := by
  cases hout with
  | locked | noTable => exact hex
  | ran hc ht hch =>
    have htable := Catalog.getTable_ok_iff.mp ht
    rw [hreg.table] at htable
    cases htable
    cases hch with
    | locked | noEntry | panicked => exact hex
    | @changed t rows hst hget hsel =>
      have hcur := Storage.table_of_getTable? hget
      have hexact := hex.deleteRows (h.distinct.ofTable hreg.table) hreg.index hget
        (hcur ▸ h.keyed name) (hcur ▸ h.rows name) hsel
      unfold logSnapshot
      split <;> exact hexact

/-- UPDATE moves the rows it rewrites to their new keys. -/
theorem update_exact (h : Maintainable e) {name : String} {assignments : List Assignment}
    {selection : Option Expr} (hlit : ∀ a ∈ assignments, (sqlExprToValue a.value).Regular)
    (hreg : Registered e.catalog.value db name tableDef idx)
    (hex : IndexExact e.storage.value name tableDef.columns idx)
    (hout : UpdateOutcome env db name assignments selection e r e') :
    IndexExact e'.storage.value name tableDef.columns idx := by
  cases hout with
  | locked | noTable | badAssignment => exact hex
  | @ran tableDef' assigns _ _ hc ht ha hch =>
    have htable := Catalog.getTable_ok_iff.mp ht
    rw [hreg.table] at htable
    cases htable
    cases hch with
    | locked | noEntry | panicked => exact hex
    | @changed t rows hst hget hsel =>
      have hcur := Storage.table_of_getTable? hget
      have hexact := hex.updateRows (h.distinct.ofTable hreg.table) hreg.index hget
        (hcur ▸ h.keyed name) (hcur ▸ h.rows name) (regular_assignIndexes ha hlit) hsel
      unfold logSnapshot
      split <;> exact hexact

end Statements

/-- Where maintenance has what it rests on, `rebuild_indexes` makes every
registered index exact, a CREATE INDEX that succeeds makes its index exact,
and INSERT, DELETE and UPDATE keep every index of their table exact, however
they end. For a hash index whose keys have zeros of both signs the standard library
leaves open whether they meet; here they do not. -/
theorem indexes_maintained {e : Executor} (h : Maintainable e) :
    (∀ order : List String → List String, (∀ names, (order names).Perm names) →
      e.catalog.poisoned = false → e.storage.poisoned = false →
      ∀ db name tableDef idx, Registered e.catalog.value db name tableDef idx →
        IndexExact (e.rebuildIndexes order).storage.value name tableDef.columns idx) ∧
    (∀ env db ci r, Call.result ⟨env, db, .createIndex ci⟩ e = .ok r →
      ∃ tableDef, Registered (e.after ⟨env, db, .createIndex ci⟩).catalog.value db
          (nameToString ci.tableName) tableDef (newIndexDef (nameToString ci.tableName) ci) ∧
        IndexExact (e.after ⟨env, db, .createIndex ci⟩).storage.value
          (nameToString ci.tableName) tableDef.columns
          (newIndexDef (nameToString ci.tableName) ci)) ∧
    (∀ call name, changedTable call.stmt = some name → RegularLiterals call.stmt →
      ∀ tableDef idx, Registered e.catalog.value call.db name tableDef idx →
        IndexExact e.storage.value name tableDef.columns idx →
        IndexExact (e.after call).storage.value name tableDef.columns idx) := by
  refine ⟨fun order horder hc hst db name tableDef idx hreg =>
    rebuildIndexes_exact h horder hc hst hreg, ?_, ?_⟩
  · intro env db ci r hr
    have heffect := Call.effect ⟨env, db, .createIndex ci⟩ e
    rw [hr] at heffect
    exact createIndex_exact h heffect
  · intro call name hname hlit tableDef idx hreg hex
    have heffect := call.effect e
    obtain ⟨env, db, stmt⟩ := call
    generalize Call.result ⟨env, db, stmt⟩ e = r, e.after ⟨env, db, stmt⟩ = e' at heffect ⊢
    cases heffect with
    | none r hskip => exact hex
    | insert hout =>
      cases hname
      exact insert_exact h hlit hreg hex hout
    | delete hout =>
      cases hname
      exact delete_exact h hreg hex hout
    | update hout =>
      cases hname
      exact update_exact h hlit hreg hex hout
    | createTable | dropTable | dropIndex | createIndex | createDatabase | dropDatabase =>
      cases hname

/-! ## Reachable servers -/

omit [Host] in
instance (c : Catalog) : Decidable (DistinctIndexKeys c) := inferInstanceAs (Decidable (List.Nodup _))

instance (row : Row) : Decidable row.Regular := inferInstanceAs (Decidable (∀ v ∈ row.values, _))

/-- On a reachable server the rest is a finite check. -/
theorem Reachable.maintainable {e : Executor} (h : Reachable e)
    (hd : DistinctIndexKeys e.catalog.value)
    (hrows : ∀ p ∈ e.storage.value.tables.toList, ∀ row ∈ p.2.rows, row.Regular)
    (hdef : ∀ p ∈ e.catalog.value.databases.toList, ∀ q ∈ p.2.tables.toList,
      ∀ col ∈ q.2.columns, col.defaultExpr = none) : Maintainable e where
  distinct := hd
  keyed name := (h.consistent.sound name).keyed
  fresh name := (h.consistent.sound name).id_lt
  rows name := by
    intro row hrow
    rw [Storage.table, Std.ExtTreeMap.getD_eq_getD_getElem?] at hrow
    cases hget : e.storage.value.tables[normalize name]? with
    | none =>
      rw [hget, Option.getD_none, Table.rows_empty] at hrow
      cases hrow
    | some t =>
      rw [hget, Option.getD_some] at hrow
      exact hrows (normalize name, t) (OrdMap.mem_toList.mpr hget) row hrow
  defaults db name tableDef hfind := by
    intro col hcol v hv
    obtain ⟨d, hdb, ht⟩ := Option.bind_eq_some_iff.mp hfind
    rw [hdef (normalize db, d) (OrdMap.mem_toList.mpr hdb) (normalize name, tableDef)
      (OrdMap.mem_toList.mpr ht) col hcol] at hv
    cases hv

end Theory

section Concrete

attribute [local instance] asciiHost plainDebug bincode1

/-- A table with rows. -/
def numberTable : Executor :=
  ((Executor.ofMemory .new none).after (callIn "srrdb" (intTable "t" ["a", "b"]))).after
    (callIn "srrdb" (insertNumbers "t" [["1", "2"], ["1", "3"]]))

/-- The table with an index. -/
def indexedTable : Executor := numberTable.after (callIn "srrdb" (indexOn false "i" "t" ["a"]))

theorem numberTable_maintainable : Maintainable numberTable :=
  Reachable.maintainable (((Reachable.fresh none).after _).after _) (by decide +kernel)
    (by decide +kernel) (by decide +kernel)

theorem indexedTable_maintainable : Maintainable indexedTable :=
  Reachable.maintainable ((((Reachable.fresh none).after _).after _).after _) (by decide +kernel)
    (by decide +kernel) (by decide +kernel)

/-- The index is built, rebuilt and kept up by an UPDATE of an indexed column. -/
theorem indexedTable_maintained :
    ∃ tableDef idx, Registered indexedTable.catalog.value "srrdb" "t" tableDef idx ∧
      IndexExact (indexedTable.rebuildIndexes id).storage.value "t" tableDef.columns idx ∧
      IndexExact (indexedTable.after (callIn "srrdb" (updateSet "t" "a" "7"
        (some (columnIs "b" "3"))))).storage.value "t" tableDef.columns idx := by
  have hcreate := (indexes_maintained numberTable_maintainable).2.1
  have hresult : (callIn "srrdb" (indexOn false "i" "t" ["a"])).result numberTable = .ok .ok := by
    decide +kernel
  obtain ⟨tableDef, hreg, hexact⟩ := hcreate _ _ _ _ hresult
  obtain ⟨hrebuild, -, hchange⟩ := indexes_maintained indexedTable_maintainable
  refine ⟨tableDef, _, hreg, ?_, ?_⟩
  · exact hrebuild id (fun _ => .refl _) (by decide +kernel) (by decide +kernel) _ _ _ _ hreg
  · refine hchange (callIn "srrdb" (updateSet "t" "a" "7" (some (columnIs "b" "3")))) _ rfl ?_ _ _
      hreg hexact
    intro a ha
    obtain rfl := List.mem_singleton.mp ha
    decide +kernel

end Concrete

end Srrdb.Server
