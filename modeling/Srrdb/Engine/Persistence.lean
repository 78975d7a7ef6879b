/-
Srrdb.Engine.Persistence — the data directory (`engine/persistence.rs`).

A file is known by its path relative to the data directory, as the list of
its components with `.` and `..` resolved; an absolute name leaves the data
directory and starts with the component `/`. Names of tables and indexes
reach the file names as they are, folded to lower case. A write goes through
a temporary file that is renamed into place, so it replaces the content or
leaves the old one. Every write succeeds here. In the source one into a
directory that does not exist fails, and the caller drops the error.
-/
import Srrdb.Engine.Wal

namespace Srrdb.Engine

/-! ## Paths -/

/-- Components below the data directory. -/
abbrev FilePath := List String

/-- The text between slashes. -/
def components (name : String) : List String :=
  (name.toList.splitOn '/').map String.ofList

/-- One component more: `..` takes the last one back, unless there is none. -/
def pushComponent (path : FilePath) (c : String) : FilePath :=
  if c = "" ∨ c = "." then path
  else if c = ".." then
    match path.getLast? with
    | none => [".."]
    | some ".." => path ++ [".."]
    | some "/" => path
    | some _ => path.dropLast
  else path ++ [c]

/-- `dir.join(name)`. -/
def joinPath (dir : FilePath) (name : String) : FilePath :=
  (components name).foldl pushComponent (if startsWith name "/" then ["/"] else dir)

/-- A name that is a single component of a path. -/
def isFileName (name : String) : Bool := !name.toList.contains '/'

/-- `CATALOG_FILE`. -/
def catalogPath : FilePath := ["catalog.srrdb"]

/-- `INDEX_DIR`. -/
def indexDir : FilePath := ["indexes"]

/-- `Persistence::table_path`. -/
def tablePath [Host] (tableName : String) : FilePath :=
  joinPath ["tables"] (toLowercase tableName ++ ".srrdb")

/-- `Persistence::index_path`. -/
def indexPath [Host] (indexName : String) : FilePath :=
  joinPath indexDir (toLowercase indexName ++ ".idx")

theorem components_of_isFileName {name : String} (h : isFileName name = true) :
    components name = [name] := by
  have hsplit : name.toList.splitOn '/' = [name.toList] := by
    refine List.splitOnP_eq_singleton fun c hc => ?_
    rw [beq_eq_false_iff_ne]
    rintro rfl
    simp [isFileName, hc] at h
  simp [components, hsplit]

/-- Text behind a name that has no slash is in its last component. -/
theorem splitOn_append (cs : List Char) : ∃ front last, ∀ ext : List Char, '/' ∉ ext →
    (cs ++ ext).splitOn '/' = front ++ [last ++ ext] := by
  induction cs with
  | nil => exact ⟨[], [], fun ext hext => by simp [List.splitOn_eq_singleton hext]⟩
  | cons c cs ih =>
    obtain ⟨front, last, h⟩ := ih
    by_cases hc : c = '/'
    · refine ⟨[] :: front, last, fun ext hext => ?_⟩
      rw [List.cons_append, List.splitOn_cons_eq_if_modifyHead, h ext hext]
      simp [hc]
    · cases front with
      | nil =>
        refine ⟨[], c :: last, fun ext hext => ?_⟩
        rw [List.cons_append, List.splitOn_cons_eq_if_modifyHead, h ext hext]
        simp [hc]
      | cons first rest =>
        refine ⟨(c :: first) :: rest, last, fun ext hext => ?_⟩
        rw [List.cons_append, List.splitOn_cons_eq_if_modifyHead, h ext hext]
        simp [hc]

/-- The components of a path before its last one. -/
def parents (name : String) : List String := (components name).dropLast

/-- The last component of a path. -/
def fileName (name : String) : String := (components name).getLast?.getD ""

theorem components_append (name : String) {ext : String} (hext : isFileName ext = true) :
    components (name ++ ext) = parents name ++ [fileName name ++ ext] := by
  have hno : '/' ∉ ext.toList := by simpa [isFileName] using hext
  obtain ⟨front, last, h⟩ := splitOn_append name.toList
  have hname : components name = front.map String.ofList ++ [String.ofList last] := by
    have h' := h [] (by simp)
    rw [List.append_nil, List.append_nil] at h'
    simp [components, h']
  rw [parents, fileName, hname]
  simp [components, h _ hno]

/-- Where a path leads that ends in a component of some length. -/
theorem pushComponent_of_length (path : FilePath) {c : String} (h : 2 < c.length) :
    pushComponent path c = path ++ [c] := by
  have hempty : ¬ (c = "" ∨ c = ".") := by
    rintro (rfl | rfl) <;> exact absurd h (by decide)
  have hparent : c ≠ ".." := by
    rintro rfl
    exact absurd h (by decide)
  rw [pushComponent, if_neg hempty, if_neg hparent]

/-- Where the components before the last one lead. -/
def folder (dir : FilePath) (name : String) : FilePath :=
  (parents name).foldl pushComponent (if startsWith name "/" then ["/"] else dir)

/-- An extension without a slash does not make a name absolute. -/
theorem startsWith_append {name ext : String} (hext : isFileName ext = true) :
    startsWith (name ++ ext) "/" = startsWith name "/" := by
  have hno : '/' ∉ ext.toList := by simpa [isFileName] using hext
  rw [startsWith, startsWith, String.toList_append]
  cases name.toList with
  | cons c cs => rfl
  | nil =>
    cases hchars : ext.toList with
    | nil => rfl
    | cons c cs =>
      rw [hchars] at hno
      have hne : '/' ≠ c := fun h => hno (h ▸ List.mem_cons_self)
      simp [List.isPrefixOf, hne]

/-- A path with an extension leads to a file of that extension. -/
theorem joinPath_append (dir : FilePath) (name : String) {ext : String}
    (hext : isFileName ext = true) (hlen : 2 < ext.length) :
    joinPath dir (name ++ ext) = folder dir name ++ [fileName name ++ ext] := by
  rw [joinPath, components_append name hext, List.foldl_append, List.foldl_cons, List.foldl_nil,
    pushComponent_of_length _ (by rw [String.length_append]; omega), startsWith_append hext, folder]

/-- A name without a slash stays in the directory, under its own name. -/
theorem folder_of_isFileName (dir : FilePath) {name : String} (h : isFileName name = true) :
    folder dir name = dir ∧ fileName name = name := by
  have hno : '/' ∉ name.toList := by simpa [isFileName] using h
  have hrel : startsWith name "/" = false := by
    rw [startsWith, Bool.eq_false_iff]
    intro hpre
    obtain ⟨rest, hrest⟩ := List.isPrefixOf_iff_prefix.mp hpre
    exact hno (hrest ▸ by simp)
  rw [folder, parents, fileName, hrel, components_of_isFileName h]
  exact ⟨rfl, rfl⟩

/-- A name without a slash, with an extension, is a file of the directory. -/
theorem joinPath_of_isFileName (dir : FilePath) {name ext : String}
    (hname : isFileName name = true) (hext : isFileName ext = true) (hlen : 2 < ext.length) :
    joinPath dir (name ++ ext) = dir ++ [name ++ ext] := by
  obtain ⟨hfolder, hfile⟩ := folder_of_isFileName dir hname
  rw [joinPath_append dir name hext hlen, hfolder, hfile]

/-- The file of a table whose folded name has no slash. -/
theorem tablePath_of_isFileName [Host] {tableName : String}
    (h : isFileName (toLowercase tableName) = true) :
    tablePath tableName = ["tables", toLowercase tableName ++ ".srrdb"] :=
  joinPath_of_isFileName _ h (by decide) (by decide)

/-- No index file has the extension of the other files. -/
theorem indexPath_ne [Host] (indexName : String) (front : FilePath) (name : String) :
    indexPath indexName ≠ front ++ [name ++ ".srrdb"] := by
  have h : indexPath indexName = folder indexDir (toLowercase indexName) ++
      [fileName (toLowercase indexName) ++ ".idx"] :=
    joinPath_append _ _ (by decide) (by decide)
  rw [h]
  intro heq
  obtain ⟨-, hlast⟩ := List.append_inj' heq rfl
  have hchars := congrArg (fun s : String => s.toList.getLast?) (List.cons.inj hlast).1
  simp at hchars

/-! ## The data directory -/

/-- `struct Persistence`: the files with their contents. -/
structure Persistence where
  files : Std.ExtTreeMap FilePath (List UInt8)

namespace Persistence

/-- An empty data directory. -/
def empty : Persistence := ⟨∅⟩

/-- `atomic_write`. -/
def write (p : Persistence) (path : FilePath) (data : List UInt8) : Persistence :=
  ⟨p.files.insert path data⟩

def remove (p : Persistence) (path : FilePath) : Persistence := ⟨p.files.erase path⟩

/-- `Persistence::has_existing_data`. -/
def hasExistingData (p : Persistence) : Bool := (p.files[catalogPath]?).isSome

variable [Bincode]

/-- `Persistence::load_catalog`. -/
def loadCatalog (p : Persistence) : Option Catalog :=
  p.files[catalogPath]?.bind (deserialize Bincode.catalog)

/-- `Persistence::save_catalog`. -/
def saveCatalog (p : Persistence) (catalog : Catalog) : Persistence :=
  p.write catalogPath (serialize Bincode.catalog catalog)

variable [Host]

/-- `Persistence::load_table_data`. -/
def loadTableData (p : Persistence) (tableName : String) : Option (List Row) :=
  p.files[tablePath tableName]?.bind (deserialize Bincode.rows)

/-- `Persistence::save_table_data`. -/
def saveTableData (p : Persistence) (tableName : String) (table : Table) : Persistence :=
  p.write (tablePath tableName) (serialize Bincode.rows table.rows)

omit [Bincode] in
/-- `Persistence::remove_table_data`. -/
def removeTableData (p : Persistence) (tableName : String) : Persistence :=
  p.remove (tablePath tableName)

/-- `Persistence::load_index_data`. -/
def loadIndexData (p : Persistence) (indexName : String) : Option IndexData :=
  p.files[indexPath indexName]?.bind (deserialize Bincode.indexData)

/-- `Persistence::save_index_data`. -/
def saveIndexData (p : Persistence) (indexName : String) (data : IndexData) : Persistence :=
  p.write (indexPath indexName) (serialize Bincode.indexData data)

omit [Bincode] in
/-- `Persistence::remove_index_data`. -/
def removeIndexData (p : Persistence) (indexName : String) : Persistence :=
  p.remove (indexPath indexName)

end Persistence

end Srrdb.Engine
