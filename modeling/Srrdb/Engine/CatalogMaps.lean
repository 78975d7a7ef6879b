/-
Srrdb.Engine.CatalogMaps — the maps of the catalog stay consistent.

A database keeps its tables and their indexes in two maps that different
operations update. `DatabaseDef.Consistent` is what holds between them, and
`Catalog.Consistent` of all databases. Every step of the catalog keeps it
(`CatalogStep.consistent`), so it holds after any calls, the failed ones
included, and a table that is created and dropped again leaves no trace.
-/
import Srrdb.Engine.CatalogSteps
import Srrdb.Lib.Run

namespace Srrdb.Engine

open Srrdb.Lib

variable [Host]

/-! ## Calls -/

/-- A call of an operation that changes the catalog. -/
inductive CatalogCall where
  | createDatabase (name : String)
  | removeDatabase (name : String)
  | createTable (dbName tableName : String) (columns : List Column)
  | dropTable (dbName tableName : String)
  | createIndex (dbName : String) (indexDef : IndexDef)
  | dropIndex (dbName indexName tableName : String)

/-- The catalog after a call, unchanged by one that fails. -/
def Catalog.call (c : Catalog) : CatalogCall → Catalog
  | .createDatabase name => c.createDatabase name
  | .removeDatabase name => (c.removeDatabase name).getD c
  | .createTable dbName tableName columns =>
    (c.createTable dbName tableName columns).toOption.getD c
  | .dropTable dbName tableName => (c.dropTable dbName tableName).toOption.getD c
  | .createIndex dbName indexDef => (c.createIndex dbName indexDef).toOption.getD c
  | .dropIndex dbName indexName tableName =>
    (c.dropIndex dbName indexName tableName).toOption.getD c

omit [Host] in
/-- A rejected operation is no step. -/
theorem toOption_getD_cases {r : Except String Catalog} {c : Catalog} :
    r.toOption.getD c = c ∨ r = .ok (r.toOption.getD c) := by
  cases r with
  | ok c' => exact .inr rfl
  | error msg => exact .inl rfl

theorem Catalog.call_step (c : Catalog) (op : CatalogCall) : CatalogStep c (c.call op) := by
  have hsame : ∀ {c' : Catalog}, c' = c → CatalogStep c c' := fun h => .drawn (by rw [h])
  cases op with
  | createDatabase name => exact .createDatabase name
  | removeDatabase name =>
    rw [Catalog.call]
    cases h : c.removeDatabase name with
    | none => exact hsame rfl
    | some c' => exact .removeDatabase h
  | createTable dbName tableName columns => exact toOption_getD_cases.elim hsame .createTable
  | dropTable dbName tableName => exact toOption_getD_cases.elim hsame .dropTable
  | createIndex dbName indexDef => exact toOption_getD_cases.elim hsame .createIndex
  | dropIndex dbName indexName tableName => exact toOption_getD_cases.elim hsame .dropIndex

/-! ## The invariant -/

/-- The two maps of a database: the same tables, and under each its own indexes,
no two of one name. -/
structure DatabaseDef.Consistent (d : DatabaseDef) : Prop where
  sameKeys : ∀ key : String, d.indexes[key]? = none ↔ d.tables[key]? = none
  tableName : ∀ (key : String) (indexes : List IndexDef), d.indexes[key]? = some indexes →
    ∀ i ∈ indexes, normalize i.tableName = key
  distinct : ∀ (key : String) (indexes : List IndexDef), d.indexes[key]? = some indexes →
    indexes.Pairwise fun i j => eqIgnoreAsciiCase i.name j.name = false

/-- Every database is stored under its folded name, and its maps are consistent. -/
structure Catalog.Consistent (c : Catalog) : Prop where
  keyed : ∀ (key : String) (d : DatabaseDef), c.databases[key]? = some d →
    key = normalize d.name
  maps : ∀ (key : String) (d : DatabaseDef), c.databases[key]? = some d → d.Consistent

namespace DatabaseDef

theorem consistent_empty (name : String) : (empty name).Consistent where
  sameKeys key := by simp [empty]
  tableName key indexes h := by simp [empty] at h
  distinct key indexes h := by simp [empty] at h

variable {d : DatabaseDef} {key : String}

/-- A list of indexes replaced by one of the same table with distinct names. -/
theorem Consistent.setIndexes (h : d.Consistent) (htable : d.tables[key]? ≠ none)
    {indexes : List IndexDef} (hname : ∀ i ∈ indexes, normalize i.tableName = key)
    (hdistinct : indexes.Pairwise fun i j => eqIgnoreAsciiCase i.name j.name = false) :
    Consistent { d with indexes := d.indexes.insert key indexes } := by
  refine ⟨fun key' => ?_, fun key' l hl => ?_, fun key' l hl => ?_⟩
  · rw [Std.ExtTreeMap.getElem?_insert]
    split
    · next heq =>
      obtain rfl := Std.LawfulEqOrd.eq_of_compare heq
      exact iff_of_false (Option.some_ne_none _) htable
    · exact h.sameKeys key'
  all_goals
    rw [Std.ExtTreeMap.getElem?_insert] at hl
    split at hl
  · next heq =>
    obtain rfl := Std.LawfulEqOrd.eq_of_compare heq
    cases hl
    exact hname
  · exact h.tableName key' l hl
  · cases hl
    exact hdistinct
  · exact h.distinct key' l hl

/-- A new table comes with an empty list of indexes. -/
theorem Consistent.createTable (h : d.Consistent) (hfree : d.tables[key]? = none)
    (t : TableDef) :
    Consistent { d with
      tables := d.tables.insert key t, indexes := d.indexes.insertIfNew key [] } := by
  have hindexes : ∀ key' : String, (d.indexes.insertIfNew key [])[key']? =
      if key = key' then some [] else d.indexes[key']? := by
    intro key'
    have hnot : key ∉ d.indexes := by
      rw [Std.ExtTreeMap.mem_iff_isSome_getElem?, (h.sameKeys key).mpr hfree]
      exact Bool.false_ne_true
    simp only [Std.ExtTreeMap.getElem?_insertIfNew, Std.LawfulEqOrd.compare_eq_iff_eq, hnot,
      not_false_eq_true, and_true]
  refine ⟨fun key' => ?_, fun key' l hl => ?_, fun key' l hl => ?_⟩
  · rw [hindexes, Std.ExtTreeMap.getElem?_insert]
    simp only [Std.LawfulEqOrd.compare_eq_iff_eq]
    split
    · exact iff_of_false (Option.some_ne_none _) (Option.some_ne_none _)
    · exact h.sameKeys key'
  all_goals
    rw [hindexes] at hl
    split at hl
  · cases hl
    exact nofun
  · exact h.tableName key' l hl
  · cases hl
    exact .nil
  · exact h.distinct key' l hl

/-- A dropped table takes its indexes along. -/
theorem Consistent.dropTable (h : d.Consistent) (key : String) :
    Consistent { d with tables := d.tables.erase key, indexes := d.indexes.erase key } := by
  refine ⟨fun key' => ?_, fun key' l hl => ?_, fun key' l hl => ?_⟩
  · rw [Std.ExtTreeMap.getElem?_erase, Std.ExtTreeMap.getElem?_erase]
    split
    · exact iff_of_true rfl rfl
    · exact h.sameKeys key'
  all_goals
    rw [Std.ExtTreeMap.getElem?_erase] at hl
    split at hl
    · cases hl
  · exact h.tableName key' l hl
  · exact h.distinct key' l hl

end DatabaseDef

namespace Catalog

variable {c c' : Catalog} {db : String}

theorem consistent_new : new.Consistent := by
  have hnew : ∀ (key : String) (d : DatabaseDef), new.databases[key]? = some d →
      key = normalize d.name ∧ d = .empty "srrdb" := by
    intro key d h
    simp only [new, Std.ExtTreeMap.getElem?_insert, Std.LawfulEqOrd.compare_eq_iff_eq,
      Std.ExtTreeMap.getElem?_empty] at h
    split at h
    · next heq => cases h; exact ⟨heq.symm, rfl⟩
    · cases h
  exact ⟨fun key d h => (hnew key d h).1, fun key d h => by
    rw [(hnew key d h).2]; exact DatabaseDef.consistent_empty "srrdb"⟩

/-- A database written back under its own name. -/
theorem Consistent.setDatabase (h : c.Consistent) {d d' : DatabaseDef}
    (hd : c.getDatabase db = some d) (hd' : d'.Consistent) (hname : d'.name = d.name) :
    (c.setDatabase db d').Consistent := by
  refine ⟨fun key d₁ hd₁ => ?_, fun key d₁ hd₁ => ?_⟩
  · rcases databases_setDatabase hd₁ with ⟨rfl, rfl⟩ | hold
    · rw [hname]
      exact h.keyed _ d hd
    · exact h.keyed key d₁ hold
  · rcases databases_setDatabase hd₁ with ⟨-, rfl⟩ | hold
    · exact hd'
    · exact h.maps key d₁ hold

/-- The catalog looks at its databases only. -/
theorem Consistent.congr (h : c.Consistent) (heq : c'.databases = c.databases) :
    c'.Consistent :=
  ⟨fun key d hd => h.keyed key d (heq ▸ hd), fun key d hd => h.maps key d (heq ▸ hd)⟩

/-- What the consistent maps say of the indexes of a table that is listed. -/
theorem Consistent.tableIndexes (h : c.Consistent) (db tableName : String) :
    (∀ i ∈ c.getTableIndexes db tableName, normalize i.tableName = normalize tableName) ∧
    (c.getTableIndexes db tableName).Pairwise
      fun i j => eqIgnoreAsciiCase i.name j.name = false := by
  unfold getTableIndexes
  cases hd : c.getDatabase db with
  | none => exact ⟨nofun, .nil⟩
  | some d =>
    rw [Option.bind_some]
    cases hi : d.indexes[normalize tableName]? with
    | none => exact ⟨nofun, .nil⟩
    | some indexes =>
      have hmaps := h.maps _ d hd
      exact ⟨hmaps.tableName _ indexes hi, hmaps.distinct _ indexes hi⟩

theorem Consistent.createTable (h : c.Consistent) {tableName : String} {columns : List Column}
    (hc : c.createTable db tableName columns = .ok c') : c'.Consistent := by
  obtain ⟨d, hd, hfree, rfl⟩ := createTable_ok hc
  have hmaps := (h.maps _ d hd).createTable hfree ⟨tableName, columns⟩
  exact Consistent.congr (h.setDatabase hd hmaps rfl) rfl

theorem Consistent.dropTable (h : c.Consistent) {tableName : String}
    (hc : c.dropTable db tableName = .ok c') : c'.Consistent := by
  obtain ⟨d, t, hd, -, rfl⟩ := dropTable_ok hc
  have hmaps := (h.maps _ d hd).dropTable (normalize tableName)
  exact Consistent.congr (h.setDatabase hd hmaps rfl) rfl

theorem Consistent.createIndex (h : c.Consistent) {indexDef : IndexDef}
    (hc : c.createIndex db indexDef = .ok c') : c'.Consistent := by
  obtain ⟨d, t, hd, ht, hfree, rfl⟩ := createIndex_ok hc
  obtain ⟨hnames, hdistinct⟩ := h.tableIndexes db indexDef.tableName
  refine h.setDatabase hd ((h.maps _ d hd).setIndexes (by rw [ht]; exact nofun) ?_ ?_) rfl
  · intro i hi
    rcases List.mem_append.mp hi with hold | hnew
    · exact hnames i hold
    · rw [List.mem_singleton.mp hnew]
  · refine List.pairwise_append.mpr ⟨hdistinct, List.pairwise_singleton _ _, fun i hi j hj => ?_⟩
    rw [List.mem_singleton.mp hj]
    exact Bool.eq_false_iff.mpr (List.any_eq_false.mp hfree i hi)

theorem Consistent.dropIndex (h : c.Consistent) {indexName tableName : String}
    (hc : c.dropIndex db indexName tableName = .ok c') : c'.Consistent := by
  obtain ⟨d, pos, hd, hpos, rfl⟩ := dropIndex_ok hc
  obtain ⟨hnames, hdistinct⟩ := h.tableIndexes db tableName
  refine h.setDatabase hd ((h.maps _ d hd).setIndexes (fun ht => ?_)
    (fun i hi => hnames i (List.eraseIdx_subset hi))
    (hdistinct.sublist (List.eraseIdx_sublist _ _))) rfl
  -- a table that is not listed has no index to drop
  have hnone := ((h.maps _ d hd).sameKeys _).mpr ht
  rw [getTableIndexes, hd, Option.bind_some, hnone] at hpos
  cases hpos

/-- Every step of the catalog keeps its maps consistent. -/
theorem Consistent.step (h : c.Consistent) (hstep : CatalogStep c c') : c'.Consistent := by
  cases hstep with
  | drawn heq => exact h.congr heq
  | createTable hc => exact h.createTable hc
  | dropTable hc => exact h.dropTable hc
  | createIndex hc => exact h.createIndex hc
  | dropIndex hc => exact h.dropIndex hc
  | createDatabase name =>
    have hcases : ∀ (key : String) (d : DatabaseDef),
        (c.createDatabase name).databases[key]? = some d →
        key = normalize name ∧ d = .empty name ∨ c.databases[key]? = some d := by
      intro key d hd
      simp only [createDatabase, Std.ExtTreeMap.getElem?_insertIfNew,
        Std.LawfulEqOrd.compare_eq_iff_eq] at hd
      split at hd
      · next hnew => cases hd; exact .inl ⟨hnew.1.symm, rfl⟩
      · exact .inr hd
    refine ⟨fun key d hd => ?_, fun key d hd => ?_⟩
    · rcases hcases key d hd with ⟨rfl, rfl⟩ | hold
      · rfl
      · exact h.keyed key d hold
    · rcases hcases key d hd with ⟨-, rfl⟩ | hold
      · exact DatabaseDef.consistent_empty name
      · exact h.maps key d hold
  | removeDatabase hc =>
    rw [removeDatabase_ok hc]
    have hcases : ∀ (key name : String) (d : DatabaseDef),
        (c.databases.erase name)[key]? = some d → c.databases[key]? = some d := by
      intro key name d hd
      rw [Std.ExtTreeMap.getElem?_erase] at hd
      split at hd
      · cases hd
      · exact hd
    exact ⟨fun key d hd => h.keyed key d (hcases key _ d hd),
      fun key d hd => h.maps key d (hcases key _ d hd)⟩

omit [Host] in
/-- An entry that is added and erased again leaves a map as it was. -/
theorem erase_eq {β : Type} {m m' : Std.ExtTreeMap String β} {key : String}
    (hnew : m[key]? = none) (hother : ∀ key', key ≠ key' → m'[key']? = m[key']?) :
    m'.erase key = m := by
  refine Std.ExtTreeMap.ext_getElem? fun key' => ?_
  rw [Std.ExtTreeMap.getElem?_erase]
  split
  · next heq => rw [← Std.LawfulEqOrd.eq_of_compare heq, hnew]
  · next hne => exact hother key' fun heq => hne (by rw [heq]; exact Std.ReflOrd.compare_self)

/-- A table that is created can be dropped, and then the databases are as before. -/
theorem Consistent.dropTable_createTable (h : c.Consistent) {tableName : String}
    {columns : List Column} (hc : c.createTable db tableName columns = .ok c') :
    ∃ c'', c'.dropTable db tableName = .ok c'' ∧ c''.databases = c.databases := by
  obtain ⟨c'', hdrop⟩ : ∃ c'', c'.dropTable db tableName = .ok c'' := by
    rw [dropTable_isOk, tableExists_eq, findTable_createTable hc, if_pos ⟨rfl, rfl⟩]
    rfl
  refine ⟨c'', hdrop, ?_⟩
  obtain ⟨d, hd, hfree, hc'⟩ := createTable_ok hc
  obtain ⟨d', t, hd', -, rfl⟩ := dropTable_ok hdrop
  have hcreated : c'.databases = c.databases.insert (normalize db) { d with
      tables := d.tables.insert (normalize tableName) ⟨tableName, columns⟩
      indexes := d.indexes.insertIfNew (normalize tableName) [] } := by rw [hc']; rfl
  rw [getDatabase, hcreated, Std.ExtTreeMap.getElem?_insert_self] at hd'
  cases hd'
  have htables : (d.tables.insert (normalize tableName) ⟨tableName, columns⟩).erase
      (normalize tableName) = d.tables :=
    erase_eq hfree fun key' hne => by simp [Std.ExtTreeMap.getElem?_insert, hne]
  have hindexes : (d.indexes.insertIfNew (normalize tableName) []).erase (normalize tableName) =
      d.indexes :=
    erase_eq (((h.maps _ d hd).sameKeys _).mpr hfree)
      fun key' hne => by simp [Std.ExtTreeMap.getElem?_insertIfNew, hne]
  simp only [htables, hindexes]
  change c'.databases.insert (normalize db) d = c.databases
  rw [hcreated]
  refine Std.ExtTreeMap.ext_getElem? fun key => ?_
  rw [Std.ExtTreeMap.getElem?_insert, Std.ExtTreeMap.getElem?_insert]
  split
  · next heq =>
    rw [← Std.LawfulEqOrd.eq_of_compare heq]
    exact hd.symm
  · rfl

/-- After any calls, those that fail included, the maps are consistent, and a
table created then and dropped again leaves the databases as they were. -/
theorem maps_consistent (calls : List CatalogCall) :
    (calls.foldl call new).Consistent ∧
    ∀ (db tableName : String) (columns : List Column) (c' : Catalog),
      (calls.foldl call new).createTable db tableName columns = .ok c' →
        ∃ c'', c'.dropTable db tableName = .ok c'' ∧
          c''.databases = (calls.foldl call new).databases := by
  have h : (calls.foldl call new).Consistent :=
    foldl_keeps (fun c op _ hc => hc.step (call_step c op)) consistent_new
  exact ⟨h, fun db tableName columns c' hc => h.dropTable_createTable hc⟩

end Catalog

end Srrdb.Engine
