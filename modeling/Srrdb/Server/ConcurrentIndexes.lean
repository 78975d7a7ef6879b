/-
Srrdb.Server.ConcurrentIndexes — indexes under concurrent statements.

INSERT indexes its rows in a section of its own, after it has read the index
list again; UPDATE and DELETE maintain the indexes they read before they took
the storage; CREATE INDEX registers its index before it builds it. `Followed`
is the invariant: an index no thread is about to build is exact but for the
rows that some INSERT still has to index in it. `Spoils` names the steps that
break it.
-/
import Srrdb.Server.IndexLookup
import Srrdb.Server.LogOrder

namespace Srrdb.Server

open Srrdb.Engine Srrdb.Sql Srrdb.Lib

/-! ## What threads still have to do for the indexes -/

/-- The rows an INSERT has stored and not indexed. -/
def pendingIds : Place → List Nat
  | .savingRows _ _ _ _ _ ids | .listing _ _ _ _ _ ids | .indexing _ _ _ _ _ ids => ids
  | _ => []

/-- Those of them it is going to put into an index. -/
def pendingIn (idx : IndexDef) : Place → List Nat
  | .savingRows _ _ _ _ _ ids | .listing _ _ _ _ _ ids => ids
  | .indexing _ _ indexes _ _ ids => if idx ∈ indexes then ids else []
  | _ => []

/-- The index a CREATE INDEX has registered and is to build. -/
def awaited : Place → Option IndexDef
  | .loggingIndex _ _ _ idx | .readingTable _ _ idx | .building _ _ idx => some idx
  | _ => none

theorem pendingIn_sublist (idx : IndexDef) (q : Place) :
    (pendingIn idx q).Sublist (pendingIds q) := by
  cases q <;> try exact .refl _
  unfold pendingIn pendingIds
  simp only
  split
  · exact .refl _
  · exact List.nil_sublist _

theorem flatMap_pendingIn_sublist (idx : IndexDef) (places : List Place) :
    (places.flatMap (pendingIn idx)).Sublist (places.flatMap pendingIds) := by
  induction places with
  | nil => exact .refl _
  | cons q rest ih => exact (pendingIn_sublist idx q).append ih

section Names

variable [Host]

/-! ## Names in another case -/

theorem storageKey_sameName {tableName name : String} (h : SameName tableName name)
    (indexName : String) : storageKey tableName indexName = storageKey name indexName := by
  have h : toLowercase tableName = toLowercase name := h
  rw [storageKey, storageKey, h]

theorem getTable?_sameName {tableName name : String} (h : SameName tableName name) (s : Storage) :
    s.getTable? tableName = s.getTable? name := by
  rw [Storage.getTable?, Storage.getTable?, h]

theorem getRows_sameName {tableName name : String} (h : SameName tableName name) (s : Storage) :
    s.getRows tableName = s.getRows name := by
  rw [Storage.getRows, Storage.getRows, h]

theorem insertRows_sameName {tableName name : String} (h : SameName tableName name) (s : Storage)
    (rows : List Row) : s.insertRows tableName rows = s.insertRows name rows := by
  simp only [Storage.insertRows, h]

theorem insertIntoIndexesRaw_sameName {tableName name : String} (h : SameName tableName name)
    (data : IndexMap) (indexes : List IndexDef) (columns : List Column) (row : Row) :
    insertIntoIndexesRaw data tableName indexes columns row =
      insertIntoIndexesRaw data name indexes columns row := by
  simp only [insertIntoIndexesRaw, storageKey_sameName h]

theorem deleteFromIndexesRaw_sameName {tableName name : String} (h : SameName tableName name)
    (data : IndexMap) (indexes : List IndexDef) (columns : List Column) (row : Row) :
    deleteFromIndexesRaw data tableName indexes columns row =
      deleteFromIndexesRaw data name indexes columns row := by
  simp only [deleteFromIndexesRaw, storageKey_sameName h]

theorem indexInserted_sameName {tableName name : String} (h : SameName tableName name)
    (s : Storage) (indexes : List IndexDef) (columns : List Column) (ids : List Nat) :
    indexInserted s tableName indexes columns ids = indexInserted s name indexes columns ids := by
  simp only [indexInserted, insertIntoIndexesRaw_sameName h, storedRow, getTable?_sameName h]

theorem apply_sameName [ExprDebug] {tableName name : String} (h : SameName tableName name)
    (change : Change) (columns : List Column) (indexes : List IndexDef) (s : Storage)
    (rows : List Row) :
    change.apply tableName columns indexes s rows = change.apply name columns indexes s rows := by
  cases change <;>
    simp only [Change.apply, deleteRows, updateRows, deleteFromIndexesRaw_sameName h,
      insertIntoIndexesRaw_sameName h, Storage.modifyTable, h]

end Names

section Theory

variable [Host] [ExprDebug] [Bincode]

/-! ## The invariant -/

/-- The new values of an UPDATE are not NaN. -/
def RegularChange : Change → Prop
  | .remove => True
  | .assign assigns => ∀ a ∈ assigns, (sqlExprToValue a.2).Regular

/-- The names mean the table. -/
def Means (db name db' tableName : String) : Prop := SameName db' db ∧ SameName tableName name

/-- What a statement on the table carries: the columns of the table, rows
without ids and NaN, a part of the index list. -/
def Fits (db name : String) (tableDef : TableDef) (registered : List IndexDef) : Place → Prop
  | .insert _ db' tableName _ source => Means db name db' tableName ∧
    ∀ query rows, source = some query → query.body = .values rows →
      ∀ exprs ∈ rows, ∀ expr ∈ exprs, (sqlExprToValue expr).Regular
  | .filling _ db' tableName columns rows | .logging _ db' tableName columns rows _
  | .storing db' tableName columns rows _ => Means db name db' tableName ∧
    columns = tableDef.columns ∧ (∀ row ∈ rows, row.id = 0) ∧ ∀ row ∈ rows, row.Regular
  | .savingRows db' tableName columns _ _ _ | .listing db' tableName columns _ _ _ =>
    Means db name db' tableName ∧ columns = tableDef.columns
  | .indexing tableName columns indexes _ _ _ =>
    SameName tableName name ∧ columns = tableDef.columns ∧ indexes <+: registered
  | .delete _ db' tableName _ => Means db name db' tableName
  | .update _ db' tableName assignments _ => Means db name db' tableName ∧
    ∀ a ∈ assignments, (sqlExprToValue a.value).Regular
  | .assigning _ db' tableName columns indexes assignments _ => Means db name db' tableName ∧
    columns = tableDef.columns ∧ indexes <+: registered ∧
    ∀ a ∈ assignments, (sqlExprToValue a.value).Regular
  | .changing _ tableName columns indexes _ change => SameName tableName name ∧
    columns = tableDef.columns ∧ indexes <+: registered ∧ RegularChange change
  | .createIndex _ db' ci => Means db name db' (nameToString ci.tableName)
  | .registering _ db' tableName idx => Means db name db' tableName ∧
    SameName idx.tableName name
  | .loggingIndex _ db' tableName idx | .readingTable db' tableName idx =>
    Means db name db' tableName ∧ idx ∈ registered
  | .building tableName columns idx =>
    SameName tableName name ∧ columns = tableDef.columns ∧ idx ∈ registered
  | .savingChange _ _ | .savingIndex _ | .savingCatalog | .over _ => True

omit [Bincode] in
theorem Fits.mono {db name : String} {tableDef : TableDef} {registered registered' : List IndexDef}
    (hr : registered <+: registered') {q : Place} (h : Fits db name tableDef registered q) :
    Fits db name tableDef registered' q := by
  cases q with
  | indexing => exact ⟨h.1, h.2.1, h.2.2.trans hr⟩
  | assigning => exact ⟨h.1, h.2.1, h.2.2.1.trans hr, h.2.2.2⟩
  | changing => exact ⟨h.1, h.2.1, h.2.2.1.trans hr, h.2.2.2⟩
  | loggingIndex => exact ⟨h.1, hr.subset h.2⟩
  | readingTable => exact ⟨h.1, hr.subset h.2⟩
  | building => exact ⟨h.1, h.2.1, hr.subset h.2.2⟩
  | _ => exact h

/-- An index that no thread is about to build is exact but for the rows some
thread still has to put into it. -/
structure Followed (db name : String) (tableDef : TableDef) (places : List Place) (e : Executor) :
    Prop where
  table : e.catalog.value.findTable db name = some tableDef
  distinct : DistinctKeys name (e.catalog.value.getTableIndexes db name)
  consistent : e.storage.value.Consistent
  rows : ∀ row ∈ (e.storage.value.table name).rows, row.Regular
  fits : ∀ q ∈ places, Fits db name tableDef (e.catalog.value.getTableIndexes db name) q
  ids : (places.flatMap pendingIds).Nodup
  old : ∀ id ∈ places.flatMap pendingIds, id < e.storage.value.nextId name
  indexes : ∀ idx ∈ e.catalog.value.getTableIndexes db name, some idx ∉ places.map awaited →
    IndexExactBut e.storage.value name tableDef.columns idx (places.flatMap (pendingIn idx))

omit [Bincode] in
theorem Followed.perm {db name : String} {tableDef : TableDef} {places places' : List Place}
    {e : Executor} (h : Followed db name tableDef places e) (hp : places.Perm places') :
    Followed db name tableDef places' e where
  table := h.table
  distinct := h.distinct
  consistent := h.consistent
  rows := h.rows
  fits q hq := h.fits q (hp.mem_iff.mpr hq)
  ids := (hp.flatMap_right pendingIds).nodup_iff.mp h.ids
  old id hid := h.old id ((hp.flatMap_right pendingIds).mem_iff.mpr hid)
  indexes idx hidx haw := (h.indexes idx hidx fun hm => haw ((hp.map awaited).mem_iff.mp hm)).congr
    rfl rfl fun _ => (hp.flatMap_right (pendingIn idx)).mem_iff.symm

/-! ## Steps that spoil an index -/

/-- What an UPDATE or DELETE would do wrong to an index for a row it selects:
change a row that a thread is yet to put into the index, or change an indexed
row without the index. -/
def Clashes (columns : List Column) (indexes : List IndexDef) (change : Change) (row : Row)
    (idx : IndexDef) (pend : List Nat) : Prop :=
  if idx ∈ indexes then row.id ∈ pend
  else match change with
    | .remove => True
    | .assign assigns => row.id ∉ pend ∧
      getIndexKey { row with values := assignValues assigns row.values } idx columns ≠
        getIndexKey row idx columns

/-- The next section of a place, among others, spoils an index of the table. -/
def SpoilsAt (db name : String) (places : List Place) (e : Executor) : Place → Prop
  | .registering _ db' _ idx => (∃ c, e.catalog.value.createIndex db' idx = .ok c) ∧
    ∃ idx' ∈ e.catalog.value.getTableIndexes db name,
      storageKey name idx'.name = storageKey name idx.name
  | .building _ columns idx =>
    (idx.unique = true ∧ DuplicateKeys idx columns (e.storage.value.getRows name)) ∨
      places.flatMap (pendingIn idx) ≠ []
  | .changing _ tableName columns indexes selection change =>
    ∃ row ∈ selectedRows e tableName columns selection,
      ∃ idx ∈ e.catalog.value.getTableIndexes db name, some idx ∉ places.map awaited ∧
        Clashes columns indexes change row idx (places.flatMap (pendingIn idx))
  | _ => False

/-- The step spoils an index of the table. -/
def Spoils (db name : String) (p : Floor Executor Place) (i : Nat) : Prop :=
  ∃ q, p.places[i]? = some q ∧ SpoilsAt db name p.places p.shared q

omit [Bincode] in
theorem SpoilsAt.perm {db name : String} {places places' : List Place} {e : Executor} {q : Place}
    (hp : places.Perm places') (h : SpoilsAt db name places e q) :
    SpoilsAt db name places' e q := by
  have hpend : ∀ idx, (places.flatMap (pendingIn idx)).Perm (places'.flatMap (pendingIn idx)) :=
    fun idx => hp.flatMap_right (pendingIn idx)
  cases q with
  | registering env db' tableName idx => exact h
  | building tableName columns idx =>
    refine h.imp id fun hne hnil => hne ?_
    have hperm := hpend idx
    rw [hnil] at hperm
    exact List.perm_nil.mp hperm
  | changing env tableName columns indexes selection change =>
    obtain ⟨row, hrow, idx, hidx, haw, hclash⟩ := h
    refine ⟨row, hrow, idx, hidx, fun hm => haw ((hp.map awaited).mem_iff.mpr hm), ?_⟩
    unfold Clashes at hclash ⊢
    split
    · next hmem =>
      rw [if_pos hmem] at hclash
      exact (hpend idx).mem_iff.mp hclash
    · next hmem =>
      rw [if_neg hmem] at hclash
      cases change with
      | remove => trivial
      | assign assigns => exact ⟨fun hm => hclash.1 ((hpend idx).mem_iff.mpr hm), hclash.2⟩
  | _ => exact h

/-! ## Turns -/

section Turns

variable {db name : String} {tableDef : TableDef} {q q' : Place} {rest : List Place}
  {e e' : Executor}

omit [Bincode] in
/-- A turn that changes neither the tables nor the storage. -/
theorem Followed.still (h : Followed db name tableDef (q :: rest) e)
    (hdb : e'.catalog.value.databases = e.catalog.value.databases)
    (hst : e'.storage.value = e.storage.value)
    (hfits : Fits db name tableDef (e.catalog.value.getTableIndexes db name) q')
    (hids : (pendingIds q').Sublist (pendingIds q))
    (hin : ∀ idx ∈ e.catalog.value.getTableIndexes db name, pendingIn idx q' = pendingIn idx q)
    (haw : awaited q' = awaited q) : Followed db name tableDef (q' :: rest) e' := by
  have hindexes := Catalog.getTableIndexes_congr hdb db name
  have hsub : ((q' :: rest).flatMap pendingIds).Sublist ((q :: rest).flatMap pendingIds) := by
    rw [List.flatMap_cons, List.flatMap_cons]
    exact hids.append (.refl _)
  refine ⟨(Catalog.findTable_congr hdb db name).trans h.table, ?_, ?_, ?_, ?_, ?_, ?_, ?_⟩
  · rw [hindexes]
    exact h.distinct
  · rw [hst]
    exact h.consistent
  · rw [hst]
    exact h.rows
  · intro q₁ hq₁
    rw [hindexes]
    rcases List.mem_cons.mp hq₁ with rfl | hq₁
    · exact hfits
    · exact h.fits q₁ (List.mem_cons_of_mem _ hq₁)
  · exact h.ids.sublist hsub
  · intro id hid
    rw [hst]
    exact h.old id (hsub.subset hid)
  · rw [hindexes, hst]
    intro idx hidx hnot
    rw [List.map_cons, haw] at hnot
    have hold := h.indexes idx hidx hnot
    rw [List.flatMap_cons, hin idx hidx]
    exact hold

omit [ExprDebug] [Bincode] in
/-- The ids given to new rows. -/
theorem ids_insertRows_range (s : Storage) (name : String) {rows : List Row} (hz : ∀ row ∈ rows, row.id = 0) :
    (s.insertRows name rows).1 = List.range' (s.nextId name) rows.length ∧
      (s.insertRows name rows).2.nextId name = s.nextId name + rows.length := by
  rw [Storage.ids_insertRows, Storage.nextId_insertRows, if_pos rfl,
    Storage.insertLoop_fresh hz]
  exact ⟨rfl, rfl⟩

omit [ExprDebug] [Bincode] in
/-- New regular rows leave the table regular. -/
theorem regular_insertRows {s : Storage} (hs : s.Consistent) {rows : List Row}
    (hz : ∀ row ∈ rows, row.id = 0) (hrows : ∀ row ∈ rows, row.Regular)
    (h : ∀ row ∈ (s.table name).rows, row.Regular) :
    ∀ row ∈ ((s.insertRows name rows).2.table name).rows, row.Regular := by
  intro row hrow
  rw [Storage.table_insertRows, if_pos rfl] at hrow
  have hmem := (Storage.insertLoop_rows_perm hz (hs.sound name)).mem_iff.mp
    (List.mem_map_of_mem (f := Row.values) hrow)
  rcases List.mem_append.mp hmem with hmem | hmem
  · obtain ⟨new, hnew, hvalues⟩ := List.mem_map.mp hmem
    rw [Row.Regular, ← hvalues]
    exact hrows new hnew
  · obtain ⟨old, hold, hvalues⟩ := List.mem_map.mp hmem
    rw [Row.Regular, ← hvalues]
    exact h old hold

omit [Bincode] in
/-- An INSERT stores its rows: they are to be indexed. -/
theorem Followed.stored {db' tableName : String} {columns : List Column} {rows : List Row}
    {last : Nat} (h : Followed db name tableDef
      (.storing db' tableName columns rows last :: rest) e) :
    Followed db name tableDef
      (.savingRows db' tableName columns rows.length last
        (e.storage.value.insertRows tableName rows).1 :: rest)
      (e.setStorage (e.storage.value.insertRows tableName rows).2) := by
  obtain ⟨hmeans, hcols, hz, hreg⟩ := h.fits _ List.mem_cons_self
  rw [insertRows_sameName hmeans.2]
  obtain ⟨hids, hnext⟩ := ids_insertRows_range e.storage.value name hz
  have hold : ∀ id ∈ rest.flatMap pendingIds, id < e.storage.value.nextId name := h.old
  refine ⟨h.table, h.distinct, h.consistent.insertRows name rows,
    regular_insertRows h.consistent hz hreg h.rows, ?_, ?_, ?_, ?_⟩
  · intro q₁ hq₁
    rcases List.mem_cons.mp hq₁ with rfl | hq₁
    · exact ⟨hmeans, hcols⟩
    · exact h.fits q₁ (List.mem_cons_of_mem _ hq₁)
  · show ((e.storage.value.insertRows name rows).1 ++ rest.flatMap pendingIds).Nodup
    rw [hids]
    refine List.nodup_append.mpr ⟨List.nodup_range', h.ids, fun a ha b hb hab => ?_⟩
    have hlow := (List.mem_range'_1.mp ha).1
    have hhigh := hold b hb
    omega
  · intro id hid
    show id < (e.storage.value.insertRows name rows).2.nextId name
    rw [hnext]
    rcases List.mem_append.mp (show id ∈ (e.storage.value.insertRows name rows).1 ++
      rest.flatMap pendingIds from hid) with hid | hid
    · rw [hids] at hid
      exact (List.mem_range'_1.mp hid).2
    · have := hold id hid
      omega
  · intro idx hidx hnot
    exact (h.indexes idx hidx hnot).insertRows
      (fun id hid => by
        cases hget : (e.storage.value.table name)[id]? with
        | none => rfl
        | some row =>
          have := (h.consistent.sound name).id_lt id row hget
          omega) hz

omit [ExprDebug] [Bincode] in
/-- Part of the index list has distinct keys, and none is that of another index. -/
theorem distinct_prefix {registered indexes : List IndexDef} (hd : DistinctKeys name registered)
    (hp : indexes <+: registered) : DistinctKeys name indexes ∧
      ∀ idx ∈ registered, idx ∉ indexes →
        ∀ idx' ∈ indexes, storageKey name idx.name ≠ storageKey name idx'.name := by
  refine ⟨hd.sublist (hp.sublist.map _), fun idx hidx hnot idx' hidx' heq => ?_⟩
  have hsame := List.inj_on_of_nodup_map hd hidx (hp.subset hidx') heq
  exact hnot (hsame ▸ hidx')

omit [Bincode] in
/-- An INSERT indexes its rows. -/
theorem Followed.indexed {tableName : String} {columns : List Column} {indexes : List IndexDef}
    {n last : Nat} {ids : List Nat} {r : Outcome ExecuteResult}
    (h : Followed db name tableDef (.indexing tableName columns indexes n last ids :: rest) e) :
    Followed db name tableDef (.over r :: rest)
      (e.setStorage (indexInserted e.storage.value tableName indexes columns ids)) := by
  obtain ⟨hname, rfl, hprefix⟩ := h.fits _ List.mem_cons_self
  rw [indexInserted_sameName hname]
  obtain ⟨hd, hkeys⟩ := distinct_prefix h.distinct hprefix
  have hids : (ids ++ rest.flatMap pendingIds).Nodup := h.ids
  have hsame : (indexInserted e.storage.value name indexes tableDef.columns ids).SameRows
      e.storage.value := ⟨rfl, rfl⟩
  refine ⟨h.table, h.distinct, hsame.symm.consistent h.consistent, h.rows, ?_,
    (List.nodup_append.mp hids).2.1, ?_, ?_⟩
  · intro q₁ hq₁
    rcases List.mem_cons.mp hq₁ with rfl | hq₁
    · exact trivial
    · exact h.fits q₁ (List.mem_cons_of_mem _ hq₁)
  · intro id hid
    exact h.old id (List.mem_append_right _ hid)
  · intro idx hidx hnot
    have hold := h.indexes idx hidx hnot
    rw [List.flatMap_cons] at hold ⊢
    by_cases hmem : idx ∈ indexes
    · have hin : pendingIn idx (.indexing tableName tableDef.columns indexes n last ids) = ids :=
        if_pos hmem
      rw [hin] at hold
      refine hold.index hd hmem ?_ fun id _ row hget => ?_
      · exact hids.sublist (.append (.refl ids) (flatMap_pendingIn_sublist idx rest))
      · have hkeyed := (h.consistent.sound name).keyed
        exact ⟨hkeyed id row hget, h.rows row (hkeyed.mem_rows.mpr (hkeyed id row hget ▸ hget))⟩
    · have hin : pendingIn idx (.indexing tableName tableDef.columns indexes n last ids) = [] :=
        if_neg hmem
      rw [hin] at hold
      exact hold.congr rfl
        (indexInserted_indexData_keep (hkeys idx hidx hmem) tableDef.columns _ ids) fun _ => .rfl

omit [Bincode] in
/-- The rows UPDATE and DELETE leave are regular. -/
theorem regular_change {change : Change} (hchange : RegularChange change) {columns : List Column}
    {selection : Option Expr} {t : Table} (hkeyed : t.Keyed) (ht : ∀ row ∈ t.rows, row.Regular)
    {rows : List Row} (hsel : selectRows columns selection t.entries = .ok rows)
    (hnew : (change.rewrite rows t).Keyed) :
    ∀ row ∈ (change.rewrite rows t).rows, row.Regular := by
  intro row hrow
  have hget := hnew.mem_rows.mp hrow
  cases change with
  | remove =>
    have herase : (eraseRows rows t)[row.id]? = some row := hget
    rw [eraseRows, Table.getElem?_eraseRows] at herase
    split at herase
    · cases herase
    · exact ht row (hkeyed.mem_rows.mpr herase)
  | assign assigns =>
    have hassign : (assignRows assigns rows t)[row.id]? = some row := hget
    by_cases hid : row.id ∈ rows.map (·.id)
    · obtain ⟨old, hold, hids⟩ := List.mem_map.mp hid
      rw [← hids, getElem?_assignRows_of_mem assigns hkeyed hsel hold] at hassign
      obtain rfl := Option.some.inj hassign
      exact regular_assignValues hchange
        (ht old (hkeyed.mem_rows.mpr (getElem?_of_selected hkeyed hsel hold)))
    · rw [getElem?_assignRows_of_notMem assigns t hid] at hassign
      exact ht row (hkeyed.mem_rows.mpr hassign)

omit [Bincode] in
/-- An UPDATE or DELETE changes the rows it selects. -/
theorem Followed.changed {env : Env} {tableName : String} {columns : List Column}
    {indexes : List IndexDef} {selection : Option Expr} {change : Change} {t : Table}
    {rows : List Row}
    (h : Followed db name tableDef
      (.changing env tableName columns indexes selection change :: rest) e)
    (hget : e.storage.value.getTable? tableName = some t)
    (hsel : selectRows columns selection t.entries = .ok rows)
    (hno : ¬ SpoilsAt db name (.changing env tableName columns indexes selection change :: rest) e
      (.changing env tableName columns indexes selection change)) :
    Followed db name tableDef (.savingChange tableName rows.length :: rest)
      (logSnapshot env tableName rows
        (e.setStorage (change.apply tableName columns indexes e.storage.value rows))) := by
  obtain ⟨hname, rfl, hprefix, hchange⟩ := h.fits _ List.mem_cons_self
  obtain ⟨hd, hkeys⟩ := distinct_prefix h.distinct hprefix
  have hselected : selectedRows e tableName tableDef.columns selection = rows :=
    selectedRows_eq hget hsel
  rw [getTable?_sameName hname] at hget
  rw [apply_sameName hname]
  have hre := change.rewrites name tableDef.columns indexes
  have htable := Storage.table_of_getTable? hget
  have hkeyed : t.Keyed := htable ▸ (h.consistent.sound name).keyed
  have hrows : ∀ row ∈ t.rows, row.Regular := htable ▸ h.rows
  have hconsistent := hre.consistent h.consistent rows
  have hafter := Storage.table_of_getTable? (hre.table hget rows)
  have hnext : (change.apply name tableDef.columns indexes e.storage.value rows).nextId name =
      e.storage.value.nextId name :=
    Storage.nextId_congr ((hre.sameRows e.storage.value rows).nextIds) name
  have hindexes : ∀ idx ∈ e.catalog.value.getTableIndexes db name, some idx ∉ rest.map awaited →
      IndexExactBut (change.apply name tableDef.columns indexes e.storage.value rows) name
        tableDef.columns idx (rest.flatMap (pendingIn idx)) := by
    intro idx hidx hnot
    have hold : IndexExactBut e.storage.value name tableDef.columns idx
        (rest.flatMap (pendingIn idx)) := h.indexes idx hidx (by simpa [awaited] using hnot)
    have hclash : ∀ row ∈ rows,
        ¬ Clashes tableDef.columns indexes change row idx (rest.flatMap (pendingIn idx)) :=
      fun row hrow hc => hno ⟨row, hselected ▸ hrow, idx, hidx, by simpa [awaited] using hnot, hc⟩
    unfold Clashes at hclash
    by_cases hmem : idx ∈ indexes
    · simp only [if_pos hmem] at hclash
      cases change with
      | remove => exact hold.deleteRows hd hmem hget hkeyed hrows hsel hclash
      | assign assigns => exact hold.updateRows hd hmem hget hkeyed hrows hchange hsel hclash
    · simp only [if_neg hmem] at hclash
      cases change with
      | remove =>
        -- no row is selected
        obtain rfl : rows = [] := List.eq_nil_iff_forall_not_mem.mpr fun row hrow =>
          hclash row hrow trivial
        refine hold.congr ?_ rfl fun _ => .rfl
        rw [htable]
        exact hafter
      | assign assigns =>
        refine hold.updateRows_unknown (hkeys idx hidx hmem) hget hkeyed hsel fun row hrow hp => ?_
        exact not_not.mp fun hne => hclash row hrow ⟨hp, hne⟩
  refine ⟨?_, ?_, ?_, ?_, ?_, h.ids, ?_, ?_⟩
  · rw [logSnapshot_catalog]
    exact h.table
  · rw [logSnapshot_catalog]
    exact h.distinct
  · rw [logSnapshot_storage]
    exact hconsistent
  · rw [logSnapshot_storage]
    show ∀ row ∈ ((change.apply name tableDef.columns indexes e.storage.value rows).table name).rows,
      row.Regular
    rw [hafter]
    exact regular_change hchange hkeyed hrows hsel (hafter ▸ (hconsistent.sound name).keyed)
  · intro q₁ hq₁
    rw [logSnapshot_catalog]
    rcases List.mem_cons.mp hq₁ with rfl | hq₁
    · exact trivial
    · exact h.fits q₁ (List.mem_cons_of_mem _ hq₁)
  · intro id hid
    rw [logSnapshot_storage]
    show id < (change.apply name tableDef.columns indexes e.storage.value rows).nextId name
    rw [hnext]
    exact h.old id hid
  · rw [logSnapshot_catalog, logSnapshot_storage]
    intro idx hidx hnot
    exact hindexes idx hidx (by simpa [awaited] using hnot)

omit [Bincode] in
/-- A CREATE INDEX registers its index. -/
theorem Followed.registered {env : Env} {db' tableName : String} {indexDef : IndexDef}
    {c : Catalog} (h : Followed db name tableDef (.registering env db' tableName indexDef :: rest) e)
    (hc : e.catalog.value.createIndex db' indexDef = .ok c)
    (hno : ¬ SpoilsAt db name (.registering env db' tableName indexDef :: rest) e
      (.registering env db' tableName indexDef)) :
    Followed db name tableDef (.loggingIndex env db' tableName indexDef :: rest)
      (e.setCatalog c) := by
  obtain ⟨hmeans, hindex⟩ := h.fits _ List.mem_cons_self
  have hregistered : c.getTableIndexes db name =
      e.catalog.value.getTableIndexes db name ++ [indexDef] := by
    rw [Catalog.getTableIndexes_createIndex hc, if_pos ⟨hmeans.1, hindex⟩,
      Catalog.getTableIndexes_sameName hmeans.1 hindex]
  have hprefix : e.catalog.value.getTableIndexes db name <+: c.getTableIndexes db name := by
    rw [hregistered]
    exact List.prefix_append _ _
  have hnew : ∀ idx ∈ e.catalog.value.getTableIndexes db name,
      storageKey name idx.name ≠ storageKey name indexDef.name :=
    fun idx hidx heq => hno ⟨⟨c, hc⟩, idx, hidx, heq⟩
  refine ⟨(Catalog.findTable_createIndex hc db name).trans h.table, ?_, h.consistent, h.rows, ?_,
    h.ids, h.old, ?_⟩
  · show DistinctKeys name (c.getTableIndexes db name)
    rw [hregistered, DistinctKeys, List.map_append]
    refine List.nodup_append.mpr ⟨h.distinct, List.nodup_singleton _, ?_⟩
    intro a ha b hb
    obtain ⟨idx, hidx, rfl⟩ := List.mem_map.mp ha
    obtain rfl := List.mem_singleton.mp hb
    exact hnew idx hidx
  · intro q₁ hq₁
    rcases List.mem_cons.mp hq₁ with rfl | hq₁
    · exact ⟨hmeans, hregistered ▸ List.mem_append_right _ List.mem_cons_self⟩
    · exact (h.fits q₁ (List.mem_cons_of_mem _ hq₁)).mono hprefix
  · intro idx hidx hnot
    have hidx : idx ∈ c.getTableIndexes db name := hidx
    simp only [List.map_cons, awaited, List.mem_cons, Option.some.injEq, not_or] at hnot
    rw [hregistered, List.mem_append, List.mem_singleton] at hidx
    exact h.indexes idx (hidx.resolve_right hnot.1) (by simpa [awaited] using hnot.2)

omit [Bincode] in
/-- A CREATE INDEX builds its index. -/
theorem Followed.built {tableName : String} {columns : List Column} {indexDef : IndexDef}
    {data : IndexData}
    (h : Followed db name tableDef (.building tableName columns indexDef :: rest) e)
    (hb : buildIndex indexDef columns (e.storage.value.getRows tableName)
      (.new indexDef.indexType) = .ok data)
    (hno : ¬ SpoilsAt db name (.building tableName columns indexDef :: rest) e
      (.building tableName columns indexDef)) :
    Followed db name tableDef (.savingIndex tableName :: rest)
      (e.setStorage (e.storage.value.putIndex (storageKey tableName indexDef.name) data)) := by
  obtain ⟨hname, rfl, hindex⟩ := h.fits _ List.mem_cons_self
  rw [storageKey_sameName hname]
  rw [getRows_sameName hname] at hb
  refine ⟨h.table, h.distinct, h.consistent.putIndex _ _, h.rows, ?_, h.ids, h.old, ?_⟩
  · intro q₁ hq₁
    rcases List.mem_cons.mp hq₁ with rfl | hq₁
    · exact trivial
    · exact h.fits q₁ (List.mem_cons_of_mem _ hq₁)
  · intro idx hidx hnot
    by_cases hmine : idx = indexDef
    · subst hmine
      have hnil : rest.flatMap (pendingIn idx) = [] := not_not.mp fun hne => hno (.inr hne)
      show IndexExactBut _ _ _ _ (rest.flatMap (pendingIn idx))
      rw [hnil, indexExactBut_nil]
      refine ⟨data, Std.ExtTreeMap.getElem?_insert_self, ?_⟩
      show Exact data _ (e.storage.value.table name)
      rw [buildIndex_ok hb, Storage.getRows_eq]
      exact exact_foldl_insert (h.consistent.sound name).keyed h.rows idx tableDef.columns
    · have hkey : storageKey name indexDef.name ≠ storageKey name idx.name := fun heq =>
        hmine (List.inj_on_of_nodup_map h.distinct hindex hidx heq).symm
      have hold := h.indexes idx hidx (by
        simp only [List.map_cons, awaited, List.mem_cons, Option.some.injEq, not_or] at hnot ⊢
        exact ⟨hmine, hnot.2⟩)
      refine hold.congr rfl ?_ fun _ => .rfl
      refine (Std.ExtTreeMap.getElem?_insert).trans (if_neg ?_)
      rw [Std.LawfulEqCmp.compare_eq_iff_eq]
      exact hkey

/-- Every turn that does not spoil an index keeps the invariant. -/
theorem Followed.turn (ht : Turns q e q' e') (h : Followed db name tableDef (q :: rest) e)
    (hdef : RegularDefaults tableDef.columns) (hwell : ¬ e.Poisoned)
    (hno : ¬ SpoilsAt db name (q :: rest) e q) : Followed db name tableDef (q' :: rest) e' := by
  have hfits := h.fits q List.mem_cons_self
  have htable : ∀ {db' tableName tableDef'}, Means db name db' tableName →
      e.catalog.value.getTable db' tableName = .ok tableDef' → tableDef' = tableDef := by
    intro db' tableName tableDef' hmeans hget
    have hfind := Catalog.getTable_ok_iff.mp hget
    rw [Catalog.findTable_sameName hmeans.1 hmeans.2, h.table] at hfind
    exact (Option.some.inj hfind).symm
  have hlist : ∀ {db' tableName}, Means db name db' tableName →
      e.catalog.value.getTableIndexes db' tableName =
        e.catalog.value.getTableIndexes db name :=
    fun hmeans => Catalog.getTableIndexes_sameName hmeans.1 hmeans.2
  have hprefix : ∀ {db' tableName}, Means db name db' tableName →
      e.catalog.value.getTableIndexes db' tableName <+:
        e.catalog.value.getTableIndexes db name :=
    fun hmeans => hlist hmeans ▸ List.prefix_refl _
  cases ht with
  | @failed q e e' x hs hx hwhy =>
    have hfail := hwhy.resolve_left hwell
    cases q with
    | insert | filling | delete | update | assigning | changing | createIndex | registering =>
      exact h.still hs.databases hs.storage trivial (.refl _) (fun _ _ => rfl) rfl
    | readingTable db' tableName idx =>
      obtain ⟨msg, hmsg⟩ := hfail
      have hok := Catalog.getTable_ok_iff.mpr
        ((Catalog.findTable_sameName hfits.1.1 hfits.1.2).trans h.table)
      rw [hmsg] at hok
      cases hok
    | _ => exact absurd hfail id
  | prepared ht hs =>
    obtain rfl := htable hfits.1 ht
    exact h.still rfl rfl ⟨hfits.1, rfl, sourceRows_id_eq_zero hs, regular_sourceRows hs hfits.2⟩
      (.refl _) (fun _ _ => rfl) rfl
  | filled hsup hc =>
    obtain ⟨hmeans, rfl, hz, hreg⟩ := hfits
    exact h.still hc rfl ⟨hmeans, rfl, hsup.id_eq_zero hz, regular_suppliedRows hdef hsup hreg⟩
      (.refl _) (fun _ _ => rfl) rfl
  | logged => exact h.still rfl rfl hfits (.refl _) (fun _ _ => rfl) rfl
  | stored hst => exact h.stored
  | savedRows => exact h.still rfl rfl hfits (.refl _) (fun _ _ => rfl) rfl
  | listed =>
    refine h.still rfl rfl ⟨hfits.1.2, hfits.2, hprefix hfits.1⟩ (.refl _) (fun idx hidx => ?_) rfl
    rw [← hlist hfits.1] at hidx
    exact if_pos hidx
  | unlisted hskip =>
    refine h.still rfl rfl trivial (List.nil_sublist _) (fun idx hidx => ?_) rfl
    rcases hskip with hnil | hnil
    · rw [← hlist hfits.1, hnil] at hidx
      cases hidx
    · exact hnil.symm
  | indexed hst => exact h.indexed
  | deleting ht =>
    obtain rfl := htable hfits ht
    exact h.still rfl rfl ⟨hfits.2, rfl, hprefix hfits, trivial⟩ (.refl _) (fun _ _ => rfl) rfl
  | updating ht =>
    obtain rfl := htable hfits.1 ht
    exact h.still rfl rfl ⟨hfits.1, rfl, hprefix hfits.1, hfits.2⟩ (.refl _)
      (fun _ _ => rfl) rfl
  | assigned ha =>
    obtain ⟨hmeans, hcols, hprefix, hlit⟩ := hfits
    exact h.still rfl rfl ⟨hmeans.2, hcols, hprefix, regular_assignIndexes ha hlit⟩ (.refl _)
      (fun _ _ => rfl) rfl
  | changed hst hget hsel => exact h.changed hget hsel hno
  | savedChange | savedIndex | savedCatalog =>
    exact h.still rfl rfl trivial (.refl _) (fun _ _ => rfl) rfl
  | found => exact h.still rfl rfl ⟨hfits, hfits.2⟩ (.refl _) (fun _ _ => rfl) rfl
  | registered hc => exact h.registered hc hno
  | loggedIndex => exact h.still rfl rfl hfits (.refl _) (fun _ _ => rfl) rfl
  | tableRead ht =>
    obtain rfl := htable hfits.1 ht
    exact h.still rfl rfl ⟨hfits.1.2, rfl, hfits.2⟩ (.refl _) (fun _ _ => rfl) rfl
  | built hst hb => exact h.built hb hno
  | duplicate hst hb =>
    rw [getRows_sameName hfits.1] at hb
    exact absurd (.inl (buildIndex_error_iff.mp ⟨_, hb⟩)) hno

end Turns

/-! ## Runs -/

/-- A statement panicked, or no mutex is poisoned and the indexes are followed. -/
def IndexInvariant (db name : String) (tableDef : TableDef) (p : Floor Executor Place) : Prop :=
  .over (.error .panic) ∈ p.places ∨
    (¬ p.shared.Poisoned ∧ Followed db name tableDef p.places p.shared)

theorem indexInvariant_step {db name : String} {tableDef : TableDef}
    (hdef : RegularDefaults tableDef.columns) {p : Floor Executor Place} {i : Nat}
    (h : IndexInvariant db name tableDef p) (hno : ¬ Spoils db name p i) :
    IndexInvariant db name tableDef (machine.step p i) := by
  rcases machine.step_cases p i with hstep | ⟨q, hget, hres, hstep⟩
  · rw [hstep]
    exact h
  rw [hstep]
  obtain ⟨rest, hperm, hset⟩ := exists_perm_set hget
  have hset := hset (machine.turn q p.shared).1
  rcases h with hpanic | ⟨hwell, hfollowed⟩
  · -- a thread that panicked stays where it is
    refine .inl (hset.mem_iff.mpr ?_)
    rcases List.mem_cons.mp (hperm.mem_iff.mp hpanic) with rfl | hpanic
    · cases hres
    · exact List.mem_cons_of_mem _ hpanic
  · have hturns := q.turns p.shared hres
    rcases hturns.poisoned hwell with hwell' | hpanic
    · refine .inr ⟨hwell', Followed.perm ?_ hset.symm⟩
      exact Followed.turn hturns (hfollowed.perm hperm) hdef hwell
        fun hspoils => hno ⟨q, hget, hspoils.perm hperm.symm⟩
    · refine .inl (hset.mem_iff.mpr ?_)
      rw [← hpanic]
      exact List.mem_cons_self

/-- The table a statement changes or gives an index. -/
def targetTable : Statement → Option String
  | .createIndex ci => some (nameToString ci.tableName)
  | stmt => changedTable stmt

/-- A statement on the table, without NaN. -/
structure CallOn (db name : String) (call : Call) : Prop where
  db : SameName call.db db
  table : ∃ tableName, targetTable call.stmt = some tableName ∧ SameName tableName name
  literals : RegularLiterals call.stmt

/-- A server without poisoned mutexes and a table without NaN, all of whose
indexes are exact. -/
structure ExactTable (db name : String) (tableDef : TableDef) (e : Executor) : Prop where
  table : e.catalog.value.findTable db name = some tableDef
  well : ¬ e.Poisoned
  distinct : DistinctKeys name (e.catalog.value.getTableIndexes db name)
  defaults : RegularDefaults tableDef.columns
  rows : ∀ row ∈ (e.storage.value.table name).rows, row.Regular
  indexes : ∀ idx ∈ e.catalog.value.getTableIndexes db name,
    IndexExact e.storage.value name tableDef.columns idx

omit [Bincode] in
/-- No statement has started. -/
theorem ExactTable.followed {db name : String} {tableDef : TableDef} {e : Executor}
    (h : ExactTable db name tableDef e) (hs : e.storage.value.Consistent) {calls : List Call}
    (hon : ∀ call ∈ calls, CallOn db name call) {places : List Place}
    (hcalls : calls.map Call.start = places.map some) : Followed db name tableDef places e := by
  have hstarts : ∀ q ∈ places, pendingIds q = [] ∧
      Fits db name tableDef (e.catalog.value.getTableIndexes db name) q := by
    intro q hq
    have hmem : some q ∈ calls.map Call.start := hcalls ▸ List.mem_map_of_mem hq
    obtain ⟨call, hcall, hstart⟩ := List.mem_map.mp hmem
    obtain ⟨hdb, ⟨tableName, htarget, hname⟩, hlit⟩ := hon call hcall
    obtain ⟨env, db', stmt⟩ := call
    cases stmt with
    | insert ins => cases hstart; cases htarget; exact ⟨rfl, ⟨hdb, hname⟩, hlit⟩
    | delete del => cases hstart; cases htarget; exact ⟨rfl, hdb, hname⟩
    | update table assignments selection =>
      cases hstart; cases htarget; exact ⟨rfl, ⟨hdb, hname⟩, hlit⟩
    | createIndex ci => cases hstart; cases htarget; exact ⟨rfl, hdb, hname⟩
    | _ => cases hstart
  have hids : places.flatMap pendingIds = [] :=
    List.flatMap_eq_nil_iff.mpr fun q hq => (hstarts q hq).1
  refine ⟨h.table, h.distinct, hs, h.rows, fun q hq => (hstarts q hq).2, ?_, ?_, ?_⟩
  · rw [hids]
    exact List.nodup_nil
  · rw [hids]
    intro id hid
    cases hid
  · intro idx hidx _
    have hnil : places.flatMap (pendingIn idx) = [] :=
      List.eq_nil_of_sublist_nil (hids ▸ flatMap_pendingIn_sublist idx places)
    rw [hnil, indexExactBut_nil]
    exact h.indexes idx hidx

/-- Statements on one table that run at the same time, in any order of their
sections, and no step of which spoils an index. When all have returned, every
registered index is exact, and through it each row with a key is found once. -/
theorem indexes_exact {e : Executor} (he : Reachable e) {db name : String} {tableDef : TableDef}
    (hstart : ExactTable db name tableDef e) {calls : List Call}
    (hon : ∀ call ∈ calls, CallOn db name call) {places : List Place}
    (hcalls : calls.map Call.start = places.map some) {schedule : List Nat}
    (hno : Every machine.step (fun p i => ¬ Spoils db name p i) ⟨places, e⟩ schedule)
    {results : List (Outcome ExecuteResult)}
    (hdone : ((Pool.mk (calls.map Call.program) e).run schedule).results = some results)
    (hreturned : .error .panic ∉ results) :
    ∀ idx ∈ (serve e calls schedule).catalog.value.getTableIndexes db name,
      ∃ data, (serve e calls schedule).storage.value.indexData[storageKey name idx.name]? =
          some data ∧
        Exact data (fun row => getIndexKey row idx tableDef.columns)
          ((serve e calls schedule).storage.value.table name) ∧
        ∀ key, ((data.lookupEq key).filterMap fun id =>
            ((serve e calls schedule).storage.value.getTable? name).bind fun t => t[id]?).Perm
          (((serve e calls schedule).storage.value.getRows name).filter fun row =>
            getIndexKey row idx tableDef.columns = key) := by
  have hend : IndexInvariant db name tableDef (machine.run ⟨places, e⟩ schedule) :=
    Every.foldl_invariant (fun p i hp hno => indexInvariant_step hstart.defaults hp hno)
      (.inr ⟨hstart.well, hstart.followed he.consistent hon hcalls⟩) hno
  have hshows := (shows_calls hcalls e).run schedule
  have hover := over_of_results hshows hdone
  rcases hend with hpanic | ⟨-, hfollowed⟩
  · obtain ⟨r, hr, hq⟩ := hover _ hpanic
    cases hq
    exact absurd hr hreturned
  · have hshared : (machine.run ⟨places, e⟩ schedule).shared = serve e calls schedule :=
      hshows.shared
    rw [hshared] at hfollowed
    intro idx hidx
    have hnot : some idx ∉ (machine.run ⟨places, e⟩ schedule).places.map awaited := by
      intro hm
      obtain ⟨q, hq, haw⟩ := List.mem_map.mp hm
      obtain ⟨r, -, rfl⟩ := hover q hq
      cases haw
    have hnil : (machine.run ⟨places, e⟩ schedule).places.flatMap (pendingIn idx) = [] := by
      rw [List.flatMap_eq_nil_iff]
      intro q hq
      obtain ⟨r, -, rfl⟩ := hover q hq
      rfl
    have hexact := hfollowed.indexes idx hidx hnot
    rw [hnil, indexExactBut_nil] at hexact
    obtain ⟨data, hdata, hex⟩ := hexact
    exact ⟨data, hdata, hex, candidates_perm hex⟩

/-! ## Deciding -/

instance (idx : IndexDef) (columns : List Column) (rows : List Row) :
    Decidable (DuplicateKeys idx columns rows) := inferInstanceAs (Decidable (¬ List.Pairwise _ _))

instance (r : Except String Catalog) : Decidable (∃ c, r = .ok c) :=
  match r with
  | .ok c => .isTrue ⟨c, rfl⟩
  | .error _ => .isFalse fun ⟨_, h⟩ => by cases h

instance (columns : List Column) (indexes : List IndexDef) (change : Change) (row : Row)
    (idx : IndexDef) (pend : List Nat) : Decidable (Clashes columns indexes change row idx pend) := by
  unfold Clashes
  split
  · infer_instance
  · split <;> infer_instance

instance (db name : String) (places : List Place) (e : Executor) (q : Place) :
    Decidable (SpoilsAt db name places e q) := by
  unfold SpoilsAt
  split <;> infer_instance

instance (db name : String) (p : Floor Executor Place) (i : Nat) :
    Decidable (Spoils db name p i) :=
  match h : p.places[i]? with
  | none => .isFalse fun ⟨_, hq, _⟩ => by rw [h] at hq; cases hq
  | some q => decidable_of_iff (SpoilsAt db name p.places p.shared q)
      ⟨fun hs => ⟨q, h, hs⟩, fun ⟨_, hq, hs⟩ => by rw [h] at hq; cases hq; exact hs⟩

end Theory

section Concrete

attribute [local instance] asciiHost plainDebug bincode1

/-- A table `t` with the row `1` and an index over its column. -/
def indexedRow : Executor := oneRow.after (callIn "srrdb" (indexOn false "i" "t" ["a"]))

theorem indexedRow_reachable : Reachable indexedRow := oneRow_reachable.after _

/-- An INSERT and a DELETE of everything on two connections. -/
def insertAndDelete : List Call :=
  [callIn "srrdb" (insertNumbers "t" [["2"]]), callIn "srrdb" (deleteFrom "t" none)]

/-- The DELETE takes the row before the INSERT has indexed it: the index is left
with the id of a row that is gone. -/
theorem insertAndDelete_dangling :
    Reachable indexedRow ∧
      ((Pool.mk (insertAndDelete.map Call.program) indexedRow).run
        [0, 0, 0, 0, 1, 1, 1, 0, 0, 0]).results = some [.ok (.affected 1 0), .ok (.affected 2 0)] ∧
      (serve indexedRow insertAndDelete
        [0, 0, 0, 0, 1, 1, 1, 0, 0, 0]).catalog.value.getTableIndexes "srrdb" "t" =
          [⟨"i", .bTree, "t", ["a"], false⟩] ∧
      ((serve indexedRow insertAndDelete
        [0, 0, 0, 0, 1, 1, 1, 0, 0, 0]).storage.value.indexData["t:i"]?.map
          (·.lookupEq [.null])) = some [2] ∧
      (serve indexedRow insertAndDelete
        [0, 0, 0, 0, 1, 1, 1, 0, 0, 0]).storage.value.getRows "t" = [] := by
  refine ⟨indexedRow_reachable, ?_, ?_, ?_, ?_⟩ <;> decide +kernel

def intColumns : List Column := [.new "a" "t" .long]

theorem indexedRow_exact : ExactTable "srrdb" "t" ⟨"t", intColumns⟩ indexedRow := by
  have hdefaults : RegularDefaults intColumns := by
    intro col hcol v hv
    obtain rfl := List.mem_singleton.mp hcol
    cases hv
  have hmaint : Maintainable oneRow :=
    oneRow_reachable.maintainable (by decide +kernel) (by decide +kernel) (by decide +kernel)
  have hresult : (callIn "srrdb" (indexOn false "i" "t" ["a"])).result oneRow = .ok .ok := by
    decide +kernel
  have heffect := (callIn "srrdb" (indexOn false "i" "t" ["a"])).effect oneRow
  rw [hresult] at heffect
  obtain ⟨tableDef, hreg, hexact⟩ := createIndex_exact hmaint heffect
  have htable : indexedRow.catalog.value.findTable "srrdb" "t" = some ⟨"t", intColumns⟩ := by
    decide +kernel
  obtain rfl : tableDef = ⟨"t", intColumns⟩ := Option.some.inj (hreg.table.symm.trans htable)
  have hlist : indexedRow.catalog.value.getTableIndexes "srrdb" "t" =
      [newIndexDef "t" ⟨some ["i"], ["t"], none, [⟨.identifier "a", none⟩], false⟩] := by decide +kernel
  refine ⟨htable, ?_, ?_, hdefaults, by decide +kernel, ?_⟩
  · rintro (h | h) <;> revert h <;> decide +kernel
  · rw [hlist]
    exact List.nodup_singleton _
  · rw [hlist]
    intro idx hidx
    obtain rfl := List.mem_singleton.mp hidx
    exact hexact

/-- The DELETE takes the rows after the INSERT has indexed its own, which is
not over yet. -/
theorem insertAndDelete_exact :
    ((Pool.mk (insertAndDelete.map Call.program) indexedRow).run
        [0, 0, 0, 0, 1, 0, 0, 0, 1, 1]).results =
      some [.ok (.affected 1 0), .ok (.affected 2 0)] ∧
    ∀ idx ∈ (serve indexedRow insertAndDelete
        [0, 0, 0, 0, 1, 0, 0, 0, 1, 1]).catalog.value.getTableIndexes "srrdb" "t",
      ∃ data, (serve indexedRow insertAndDelete
          [0, 0, 0, 0, 1, 0, 0, 0, 1, 1]).storage.value.indexData[storageKey "t" idx.name]? =
            some data ∧
        Exact data (fun row => getIndexKey row idx intColumns)
          ((serve indexedRow insertAndDelete [0, 0, 0, 0, 1, 0, 0, 0, 1, 1]).storage.value.table
            "t") ∧
        ∀ key, ((data.lookupEq key).filterMap fun id =>
            ((serve indexedRow insertAndDelete
              [0, 0, 0, 0, 1, 0, 0, 0, 1, 1]).storage.value.getTable? "t").bind
                fun t => t[id]?).Perm
          (((serve indexedRow insertAndDelete
            [0, 0, 0, 0, 1, 0, 0, 0, 1, 1]).storage.value.getRows "t").filter fun row =>
              getIndexKey row idx intColumns = key) := by
  have hcalls : insertAndDelete.map Call.start =
      [.insert plainEnv "srrdb" "t" [] (some ⟨.values [[numberExpr "2"]], none, none, none⟩),
        .delete plainEnv "srrdb" "t" none].map some := rfl
  have hon : ∀ call ∈ insertAndDelete, CallOn "srrdb" "t" call := by
    intro call hcall
    rcases List.mem_pair.mp hcall with rfl | rfl
    · refine ⟨rfl, ⟨"t", rfl, rfl⟩, ?_⟩
      intro query rows hsource hbody exprs hexprs expr hexpr
      cases hsource
      cases hbody
      obtain rfl := List.mem_singleton.mp hexprs
      obtain rfl := List.mem_singleton.mp hexpr
      decide
    · exact ⟨rfl, ⟨"t", rfl, rfl⟩, trivial⟩
  have hdone : ((Pool.mk (insertAndDelete.map Call.program) indexedRow).run
      [0, 0, 0, 0, 1, 0, 0, 0, 1, 1]).results =
        some [.ok (.affected 1 0), .ok (.affected 2 0)] := by decide +kernel
  exact ⟨hdone, indexes_exact indexedRow_reachable indexedRow_exact hon hcalls
    (by decide +kernel) hdone (by decide)⟩

end Concrete

end Srrdb.Server
