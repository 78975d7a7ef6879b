/-
Srrdb.Engine.FileNames — where the files of tables and indexes are.

A name goes into a path as it is, folded to lower case and with an extension.
What stands before its last slash therefore chooses the directory (`folder`),
and two names have one file when their directories and the texts after the last
slash agree. The database is no part of a name. `filesInPlace_iff` says which
tables and indexes have files in their place and for themselves.
-/
import Srrdb.Engine.Outcomes
import Srrdb.Engine.CatalogTheorems

namespace Srrdb.Engine

open Srrdb.Sql

/-- `srrdb.wal`. -/
def walPath : FilePath := ["srrdb.wal"]

/-- A direct child of a directory. -/
def IsChild (dir path : FilePath) : Prop := ∃ f, path = dir ++ [f]

/-! ## Paths of names -/

theorem append_right_inj {a b ext : String} (h : a ++ ext = b ++ ext) : a = b := by
  have hchars := congrArg String.toList h
  rw [String.toList_append, String.toList_append] at hchars
  exact String.toList_inj.mp (List.append_cancel_right hchars)

section Theory

variable [Host]

theorem tablePath_eq_append (tableName : String) :
    tablePath tableName =
      folder ["tables"] (normalize tableName) ++ [fileName (normalize tableName) ++ ".srrdb"] :=
  joinPath_append _ _ (by decide) (by decide)

theorem indexPath_eq_append (key : String) :
    indexPath key = folder indexDir (toLowercase key) ++ [fileName (toLowercase key) ++ ".idx"] :=
  joinPath_append _ _ (by decide) (by decide)

omit [Host] in
theorem isChild_append {dir front : FilePath} {f : String} :
    IsChild dir (front ++ [f]) ↔ front = dir := by
  constructor
  · rintro ⟨f', h⟩
    exact (List.append_inj' h rfl).1
  · rintro rfl
    exact ⟨f, rfl⟩

theorem isChild_tablePath {tableName : String} :
    IsChild ["tables"] (tablePath tableName) ↔ folder ["tables"] (normalize tableName) = ["tables"] := by
  rw [tablePath_eq_append, isChild_append]

theorem isChild_indexPath {key : String} :
    IsChild indexDir (indexPath key) ↔ folder indexDir (toLowercase key) = indexDir := by
  rw [indexPath_eq_append, isChild_append]

/-- Two names have one file when their directories and last components agree. -/
theorem tablePath_eq_iff {t t' : String} :
    tablePath t = tablePath t' ↔ folder ["tables"] (normalize t) = folder ["tables"] (normalize t') ∧
      fileName (normalize t) = fileName (normalize t') := by
  rw [tablePath_eq_append, tablePath_eq_append]
  constructor
  · intro h
    obtain ⟨hfolder, hfile⟩ := List.append_inj' h rfl
    exact ⟨hfolder, append_right_inj (List.cons.inj hfile).1⟩
  · rintro ⟨hfolder, hfile⟩
    rw [hfolder, hfile]

theorem indexPath_eq_iff {key key' : String} :
    indexPath key = indexPath key' ↔
      folder indexDir (toLowercase key) = folder indexDir (toLowercase key') ∧
        fileName (toLowercase key) = fileName (toLowercase key') := by
  rw [indexPath_eq_append, indexPath_eq_append]
  constructor
  · intro h
    obtain ⟨hfolder, hfile⟩ := List.append_inj' h rfl
    exact ⟨hfolder, append_right_inj (List.cons.inj hfile).1⟩
  · rintro ⟨hfolder, hfile⟩
    rw [hfolder, hfile]

/-! ## Tables and indexes of a server -/

/-- A table: its database and its name. -/
abbrev TableId := String × String

/-- An index: its database, its table and its name. -/
abbrev IndexId := String × String × String

/-- One table under two spellings. -/
def SameTable (x y : TableId) : Prop := SameName x.1 y.1 ∧ SameName x.2 y.2

/-- One index under two spellings. -/
def SameIndex (x y : IndexId) : Prop :=
  SameName x.1 y.1 ∧ SameName x.2.1 y.2.1 ∧ eqIgnoreAsciiCase x.2.2 y.2.2 = true

/-- The key of an index, as `save_index_data` gets it. -/
def IndexId.key (x : IndexId) : String := storageKey x.2.1 x.2.2

/-- The files of these tables and indexes are in their place, apart from the
other files and from each other. -/
structure FilesInPlace (tables : Set TableId) (indexes : Set IndexId) : Prop where
  table : ∀ x ∈ tables, IsChild ["tables"] (tablePath x.2) ∧ tablePath x.2 ≠ catalogPath ∧
    tablePath x.2 ≠ walPath ∧ ∀ key, tablePath x.2 ≠ indexPath key
  tablesApart : ∀ x ∈ tables, ∀ y ∈ tables, ¬ SameTable x y → tablePath x.2 ≠ tablePath y.2
  index : ∀ x ∈ indexes, IsChild indexDir (indexPath x.key)
  indexesApart : ∀ x ∈ indexes, ∀ y ∈ indexes, ¬ SameIndex x y → indexPath x.key ≠ indexPath y.key

/-- What stands before the last slash of a name leads back to the directory,
and what stands after it is that of one table or index only. -/
structure NamesInPlace (tables : Set TableId) (indexes : Set IndexId) : Prop where
  table : ∀ x ∈ tables, folder ["tables"] (normalize x.2) = ["tables"]
  tablesApart : ∀ x ∈ tables, ∀ y ∈ tables,
    fileName (normalize x.2) = fileName (normalize y.2) → SameTable x y
  index : ∀ x ∈ indexes, folder indexDir (toLowercase x.key) = indexDir
  indexesApart : ∀ x ∈ indexes, ∀ y ∈ indexes,
    fileName (toLowercase x.key) = fileName (toLowercase y.key) → SameIndex x y

/-- A file of a table that is in its place is none of the other files. -/
theorem tablePath_ne_others {tableName : String}
    (h : folder ["tables"] (normalize tableName) = ["tables"]) :
    tablePath tableName ≠ catalogPath ∧ tablePath tableName ≠ walPath ∧
      ∀ key, tablePath tableName ≠ indexPath key := by
  rw [tablePath_eq_append, h]
  refine ⟨fun heq => ?_, fun heq => ?_, fun key heq => ?_⟩
  · exact absurd (congrArg List.length heq) (by simp [catalogPath])
  · exact absurd (congrArg List.length heq) (by simp [walPath])
  · exact indexPath_ne key ["tables"] (fileName (normalize tableName)) heq.symm

/-- Files are in their place exactly when the names are. -/
theorem filesInPlace_iff (tables : Set TableId) (indexes : Set IndexId) :
    FilesInPlace tables indexes ↔ NamesInPlace tables indexes := by
  constructor
  · intro h
    have htable : ∀ x ∈ tables, folder ["tables"] (normalize x.2) = ["tables"] := fun x hx =>
      isChild_tablePath.mp (h.table x hx).1
    have hindex : ∀ x ∈ indexes, folder indexDir (toLowercase x.key) = indexDir := fun x hx =>
      isChild_indexPath.mp (h.index x hx)
    refine ⟨htable, fun x hx y hy hfile => ?_, hindex, fun x hx y hy hfile => ?_⟩
    · by_contra hne
      apply h.tablesApart x hx y hy hne
      exact tablePath_eq_iff.mpr ⟨(htable x hx).trans (htable y hy).symm, hfile⟩
    · by_contra hne
      apply h.indexesApart x hx y hy hne
      exact indexPath_eq_iff.mpr ⟨(hindex x hx).trans (hindex y hy).symm, hfile⟩
  · intro h
    refine ⟨fun x hx => ⟨isChild_tablePath.mpr (h.table x hx), tablePath_ne_others (h.table x hx)⟩,
      fun x hx y hy hne heq => ?_, fun x hx => isChild_indexPath.mpr (h.index x hx),
      fun x hx y hy hne heq => ?_⟩
    · exact hne (h.tablesApart x hx y hy (tablePath_eq_iff.mp heq).2)
    · exact hne (h.indexesApart x hx y hy (indexPath_eq_iff.mp heq).2)

/-- Tables whose names have no slash are in place when no two databases have
one of the same name. -/
theorem namesInPlace_of_isFileName {tables : Set TableId}
    (hfile : ∀ x ∈ tables, isFileName (normalize x.2) = true)
    (hapart : ∀ x ∈ tables, ∀ y ∈ tables, SameName x.2 y.2 → SameName x.1 y.1) :
    NamesInPlace tables ∅ := by
  refine ⟨fun x hx => (folder_of_isFileName _ (hfile x hx)).1, fun x hx y hy hsame => ?_,
    fun x hx => absurd hx (Set.notMem_empty x), fun x hx => absurd hx (Set.notMem_empty x)⟩
  rw [(folder_of_isFileName [] (hfile x hx)).2, (folder_of_isFileName [] (hfile y hy)).2] at hsame
  exact ⟨hapart x hx y hy hsame, hsame⟩

end Theory

/-! ## On concrete names -/

section Concrete

attribute [local instance] asciiHost plainDebug bincode1

/-- CREATE TABLE accepts the name `../catalog`, whose file is the catalog file,
and a table `t` in two databases, which has one file. -/
theorem traversal_notInPlace :
    (callIn "srrdb" (intTable "../catalog" ["a"])).result (.ofMemory .new none) = .ok .ok ∧
      tablePath "../catalog" = catalogPath ∧ ¬ FilesInPlace {("srrdb", "../catalog")} ∅ ∧
      ¬ FilesInPlace {("srrdb", "t"), ("d", "t")} ∅ := by
  have hcatalog : tablePath "../catalog" = catalogPath := by decide +kernel
  refine ⟨by decide +kernel, hcatalog, fun h => ?_, fun h => ?_⟩
  · exact (h.table _ rfl).2.1 hcatalog
  · refine h.tablesApart _ (.inl rfl) _ (.inr rfl) (fun hsame => ?_) rfl
    have hdb := hsame.1
    revert hdb
    decide +kernel

end Concrete

end Srrdb.Engine
