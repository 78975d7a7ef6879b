/-
Srrdb.Engine.SavedFiles — what the writes of the executor do to each file.

Every write and removal is at paths that depend on names only, and a file that
is loaded depends on what is at one path. So `save` gives the catalog file and
leaves the others, `save_table` gives the files of a table and of its indexes,
and what is at a path of none of them stays.
-/
import Srrdb.Engine.FileNames
import Srrdb.Lib.Run

namespace Srrdb.Engine

open Srrdb.Lib

section Theory

variable [Host]

/-! ## Paths of different kinds -/

theorem tablePath_ne_indexPath (tableName key : String) : tablePath tableName ≠ indexPath key := by
  rw [tablePath_eq_append]
  exact fun h => indexPath_ne key _ _ h.symm

theorem catalogPath_ne_indexPath (key : String) : catalogPath ≠ indexPath key :=
  fun h => indexPath_ne key [] "catalog" h.symm

/-- One file under two spellings. -/
theorem tablePath_sameName {name name' : String} (h : SameName name name') :
    tablePath name = tablePath name' := by
  have h : toLowercase name = toLowercase name' := h
  rw [tablePath, tablePath, h]

@[simp] theorem tablePath_toLowercase (name : String) :
    tablePath (toLowercase name) = tablePath name :=
  tablePath_sameName (normalize_toLowercase name)

/-! ## What one write leaves at a path -/

variable [Bincode]

namespace Persistence

omit [Host] [Bincode] in
theorem files_write (p : Persistence) (path : FilePath) (data : List UInt8) (path' : FilePath) :
    (p.write path data).files[path']? = if path = path' then some data else p.files[path']? := by
  simp only [write, Std.ExtTreeMap.getElem?_insert, Std.LawfulEqCmp.compare_eq_iff_eq]

omit [Host] [Bincode] in
theorem files_remove (p : Persistence) (path path' : FilePath) :
    (p.remove path).files[path']? = if path = path' then none else p.files[path']? := by
  simp only [remove, Std.ExtTreeMap.getElem?_erase, Std.LawfulEqCmp.compare_eq_iff_eq]

omit [Host] in
@[simp] theorem loadCatalog_saveCatalog (p : Persistence) (c : Catalog) :
    (p.saveCatalog c).loadCatalog = some c := by
  rw [loadCatalog, saveCatalog, files_write, if_pos rfl]
  exact deserialize_serialize _ c

omit [Host] in
@[simp] theorem hasExistingData_saveCatalog (p : Persistence) (c : Catalog) :
    (p.saveCatalog c).hasExistingData = true := by
  rw [hasExistingData, saveCatalog, files_write, if_pos rfl, Option.isSome_some]

theorem loadTableData_saveTableData {p : Persistence} {tableName name : String}
    (h : SameName tableName name) (t : Table) :
    (p.saveTableData tableName t).loadTableData name = some t.rows := by
  rw [loadTableData, saveTableData, files_write, if_pos (tablePath_sameName h)]
  exact deserialize_serialize _ _

@[simp] theorem loadIndexData_saveIndexData (p : Persistence) (key : String) (d : IndexData) :
    (p.saveIndexData key d).loadIndexData key = some d := by
  rw [loadIndexData, saveIndexData, files_write, if_pos rfl]
  exact deserialize_serialize _ d

/-! ### Loads depend on one path -/

omit [Host] in
theorem loadCatalog_congr {p p' : Persistence} (h : p'.files[catalogPath]? = p.files[catalogPath]?) :
    p'.loadCatalog = p.loadCatalog ∧ p'.hasExistingData = p.hasExistingData := by
  rw [loadCatalog, loadCatalog, hasExistingData, hasExistingData, h]
  exact ⟨rfl, rfl⟩

theorem loadTableData_congr {p p' : Persistence} {name : String}
    (h : p'.files[tablePath name]? = p.files[tablePath name]?) :
    p'.loadTableData name = p.loadTableData name := by
  rw [loadTableData, loadTableData, h]

theorem loadIndexData_congr {p p' : Persistence} {key : String}
    (h : p'.files[indexPath key]? = p.files[indexPath key]?) :
    p'.loadIndexData key = p.loadIndexData key := by
  rw [loadIndexData, loadIndexData, h]

end Persistence

/-! ## The files of a table -/

omit [Bincode] in
/-- The key of an index starts with the name of its table and a colon. -/
theorem startsWith_storageKey (tableName name : String) :
    startsWith (storageKey tableName name) (toLowercase tableName ++ ":") = true := by
  rw [startsWith, List.isPrefixOf_iff_prefix]
  exact ⟨(toLowercase name).toList, by simp [storageKey, indexKey]⟩

/-- `save_table` leaves what is at another path. -/
theorem files_tableFiles {s : Storage} {tableName : String} {path : FilePath} (p : Persistence)
    (htable : path ≠ tablePath tableName)
    (hindex : ∀ key d, s.indexData[key]? = some d →
      startsWith key (toLowercase tableName ++ ":") = true → path ≠ indexPath key) :
    (tableFiles s tableName p).files[path]? = p.files[path]? := by
  refine foldl_keeps (I := fun q : Persistence => q.files[path]? = p.files[path]?)
    (fun q entry hmem hq => ?_) ?_
  · obtain ⟨hmem, hstart⟩ := List.mem_filter.mp hmem
    have hdata := Std.ExtTreeMap.mem_toList_iff_getElem?_eq_some.mp hmem
    rw [Persistence.saveIndexData, Persistence.files_write,
      if_neg (hindex entry.1 entry.2 hdata hstart).symm]
    exact hq
  · split
    · rw [Persistence.saveTableData, Persistence.files_write, tablePath_toLowercase,
        if_neg htable.symm]
    · rfl

/-- `save_table` writes the rows of the table. -/
theorem loadTableData_tableFiles {s : Storage} {tableName name : String} {t : Table}
    (p : Persistence) (ht : s.getTable? tableName = some t) (h : SameName tableName name) :
    (tableFiles s tableName p).loadTableData name = some t.rows := by
  refine foldl_keeps (I := fun q : Persistence => q.loadTableData name = some t.rows)
    (fun q entry _ hq => ?_) ?_
  · rw [Persistence.loadTableData_congr, hq]
    rw [Persistence.saveIndexData, Persistence.files_write,
      if_neg (tablePath_ne_indexPath name entry.1).symm]
  · have ht : s.tables[toLowercase tableName]? = some t := ht
    rw [ht]
    exact Persistence.loadTableData_saveTableData ((normalize_toLowercase tableName).trans h) t

/-- `save_table` writes the data of the indexes of the table, those whose files
are no others' too. -/
theorem loadIndexData_tableFiles {s : Storage} {tableName key : String} {d : IndexData}
    (p : Persistence) (hd : s.indexData[key]? = some d)
    (hkey : startsWith key (toLowercase tableName ++ ":") = true)
    (hapart : ∀ key' d', s.indexData[key']? = some d' →
      startsWith key' (toLowercase tableName ++ ":") = true → indexPath key' = indexPath key →
        key' = key) :
    (tableFiles s tableName p).loadIndexData key = some d := by
  refine foldl_reaches (I := fun _ => True) (J := fun q : Persistence => q.loadIndexData key = some d)
    (b := (key, d)) (fun _ _ _ _ => trivial) (fun q entry hmem _ hq => ?_) ?_ (fun q _ => ?_) trivial
  · obtain ⟨hmem, hstart⟩ := List.mem_filter.mp hmem
    have hdata := Std.ExtTreeMap.mem_toList_iff_getElem?_eq_some.mp hmem
    by_cases hpath : indexPath entry.1 = indexPath key
    · obtain ⟨key', d'⟩ := entry
      obtain rfl := hapart key' d' hdata hstart hpath
      obtain rfl := Option.some.inj (hd.symm.trans hdata)
      exact Persistence.loadIndexData_saveIndexData q key' d
    · rw [Persistence.loadIndexData_congr, hq]
      rw [Persistence.saveIndexData, Persistence.files_write, if_neg hpath]
  · exact List.mem_filter.mpr ⟨Std.ExtTreeMap.mem_toList_iff_getElem?_eq_some.mpr hd, hkey⟩
  · exact Persistence.loadIndexData_saveIndexData q key d

/-! ## The files that DROP TABLE removes -/

/-- `removeIndexFiles` removes what is at this path. -/
def IsRemoved (tn : String) (path : FilePath) : Prop :=
  ∃ fname, path = ["indexes", fname] ∧
    (startsWith fname tn = true ∨ containsText fname ("_" ++ tn ++ "_") = true)

omit [Host] [Bincode] in
theorem not_isRemoved_catalogPath (tn : String) : ¬ IsRemoved tn catalogPath := by
  rintro ⟨fname, h, -⟩
  exact absurd (congrArg List.length h) (by simp [catalogPath])

omit [Host] [Bincode] in
theorem files_removeIndexFiles {tn : String} (p : Persistence) {path : FilePath}
    (h : ¬ IsRemoved tn path) :
    (removeIndexFiles tn p).files[path]? = p.files[path]? := by
  rw [removeIndexFiles, Std.ExtTreeMap.getElem?_filter']
  cases p.files[path]? with
  | none => rfl
  | some bytes =>
    rw [Option.filter_some, if_pos]
    split
    · next fname =>
      rw [Bool.not_eq_true', Bool.eq_false_iff]
      exact fun hname => h ⟨fname, rfl, (Bool.or_eq_true _ _).mp hname⟩
    · rfl

omit [Host] [Bincode] in
theorem files_removeIndexFiles_eq_none {tn : String} (p : Persistence) {path : FilePath}
    (h : IsRemoved tn path) : (removeIndexFiles tn p).files[path]? = none := by
  obtain ⟨fname, rfl, hname⟩ := h
  rw [removeIndexFiles, Std.ExtTreeMap.getElem?_filter', Option.filter_eq_none_iff]
  intro bytes _
  rw [Bool.not_eq_true, Bool.not_eq_false']
  exact (Bool.or_eq_true _ _).mpr hname

end Theory

end Srrdb.Engine
