/-
Srrdb.Engine.Projection — headers and cells of a result.

`execute_query` expands the projection into columns and `project_row` expands
it again into values, each in its own way. `origins` says where a position of
the result comes from. Item by item both expansions have its length, and at a
position that comes from a column both have what belongs to that column
(`result_lines_up`).
-/
import Srrdb.Engine.Predicate

namespace Srrdb.Engine

open Srrdb.Sql

/-- The columns of the table an item of the projection stands for, by their
position; none for a position that no column fills. -/
def origins (tableColumns : List Column) : SelectItem → List (Option Nat)
  | .wildcard | .unnamedExpr .wildcard => (List.range tableColumns.length).map some
  | .unnamedExpr (.identifier id) => [columnPosition tableColumns id]
  | _ => [none]

variable {tableColumns : List Column} {values : List Value}

/-- A name of a column stands for the first column of that name. -/
theorem columnPosition_eq_some_iff {id : String} {i : Nat} :
    columnPosition tableColumns id = some i ↔
      ∃ column, tableColumns[i]? = some column ∧ eqIgnoreAsciiCase column.name id = true ∧
        ∀ j < i, ∀ other, tableColumns[j]? = some other →
          eqIgnoreAsciiCase other.name id = false := by
  rw [columnPosition, List.findIdx?_eq_some_iff_getElem]
  constructor
  · rintro ⟨hi, hname, hbefore⟩
    refine ⟨tableColumns[i], List.getElem?_eq_getElem hi, hname, fun j hj other hother => ?_⟩
    obtain ⟨hj', rfl⟩ := List.getElem?_eq_some_iff.mp hother
    exact Bool.eq_false_iff.mpr (hbefore j hj)
  · rintro ⟨column, hcolumn, hname, hbefore⟩
    obtain ⟨hi, rfl⟩ := List.getElem?_eq_some_iff.mp hcolumn
    refine ⟨hi, hname, fun j hj hother => ?_⟩
    rw [hbefore j hj _ (List.getElem?_eq_getElem (hj.trans hi))] at hother
    cases hother

/-- `find_column` looks where `position` does. -/
theorem findColumn_of_columnPosition {id : String} {i : Nat}
    (h : columnPosition tableColumns id = some i) :
    tableColumns[i]? = some (findColumn tableColumns id) := by
  have hfind : tableColumns.find? (fun c => eqIgnoreAsciiCase c.name id) = tableColumns[i]? := by
    rw [List.find?_eq_bind_findIdx?_getElem?, show tableColumns.findIdx? _ = some i from h]
    rfl
  obtain ⟨column, hcolumn, -, -⟩ := columnPosition_eq_some_iff.mp h
  rw [findColumn, hfind, hcolumn, Option.getD_some]

/-- The header and the cell of a position belong to the column it comes from. -/
def LinesUp (tableColumns : List Column) (values : List Value) (origin : Option Nat)
    (header : Column) (cell : Value) : Prop :=
  ∀ i, origin = some i → tableColumns[i]? = some header ∧ values[i]? = some cell

/-- One item of the projection, on a row with a value for every column. -/
theorem item_lines_up (h : values.length = tableColumns.length) (tableName : String)
    (item : SelectItem) :
    (projectColumns tableColumns tableName item).length = (origins tableColumns item).length ∧
    (projectItem tableColumns values item).length = (origins tableColumns item).length ∧
    ∀ (p : Nat) (origin : Option Nat) (header : Column) (cell : Value),
      (origins tableColumns item)[p]? = some origin →
      (projectColumns tableColumns tableName item)[p]? = some header →
      (projectItem tableColumns values item)[p]? = some cell →
        LinesUp tableColumns values origin header cell := by
  have hwild : ∀ (p : Nat) (origin : Option Nat) (header : Column) (cell : Value),
      ((List.range tableColumns.length).map some)[p]? = some origin →
      tableColumns[p]? = some header → values[p]? = some cell →
        LinesUp tableColumns values origin header cell := by
    intro p origin header cell horigin hheader hcell i hi
    rw [hi, List.getElem?_map, Option.map_eq_some_iff] at horigin
    obtain ⟨j, hj, heq⟩ := horigin
    obtain ⟨hp, hpj⟩ := List.getElem?_eq_some_iff.mp hj
    rw [List.getElem_range] at hpj
    obtain rfl : p = i := hpj.trans (Option.some.inj heq)
    exact ⟨hheader, hcell⟩
  have hone : ∀ (origin : Option Nat) (header : Column) (cell : Value),
      LinesUp tableColumns values origin header cell →
        ∀ (p : Nat) (origin' : Option Nat) (header' : Column) (cell' : Value),
          [origin][p]? = some origin' → [header][p]? = some header' → [cell][p]? = some cell' →
            LinesUp tableColumns values origin' header' cell' := by
    intro origin header cell hup p origin' header' cell' horigin hheader hcell
    cases p with
    | zero =>
      cases horigin
      cases hheader
      cases hcell
      exact hup
    | succ p => cases horigin
  have hnone : ∀ (header : Column) (cell : Value),
      LinesUp tableColumns values none header cell := by
    intro header cell i hi
    cases hi
  have hlen : tableColumns.length = ((List.range tableColumns.length).map some).length := by simp
  cases item with
  | wildcard => exact ⟨hlen, h.trans hlen, hwild⟩
  | other => exact ⟨rfl, rfl, hone _ _ _ (hnone _ _)⟩
  | unnamedExpr expr =>
    cases expr with
    | wildcard => exact ⟨hlen, h.trans hlen, hwild⟩
    | identifier id =>
      cases hpos : columnPosition tableColumns id with
      | none =>
        simp only [projectColumns, projectItem, origins, hpos]
        exact ⟨rfl, rfl, hone _ _ _ (hnone _ _)⟩
      | some i =>
        simp only [projectColumns, projectItem, origins, hpos]
        refine ⟨rfl, rfl, hone _ _ _ fun j hj => ?_⟩
        cases hj
        have hcolumn := findColumn_of_columnPosition hpos
        have hi : i < values.length := h ▸ (List.getElem?_eq_some_iff.mp hcolumn).1
        refine ⟨hcolumn, ?_⟩
        rw [List.getD_eq_getElem?_getD, List.getElem?_eq_getElem hi, Option.getD_some]
    | _ => exact ⟨rfl, rfl, hone _ _ _ (hnone _ _)⟩

/-- The whole projection: headers and cells have the length of the origins, and
line up with them. -/
theorem projection_lines_up (h : values.length = tableColumns.length) (tableName : String)
    (projection : List SelectItem) :
    (projection.flatMap (projectColumns tableColumns tableName)).length =
      (projection.flatMap (origins tableColumns)).length ∧
    (projectRow projection tableColumns values).length =
      (projection.flatMap (origins tableColumns)).length ∧
    ∀ (p : Nat) (origin : Option Nat) (header : Column) (cell : Value),
      (projection.flatMap (origins tableColumns))[p]? = some origin →
      (projection.flatMap (projectColumns tableColumns tableName))[p]? = some header →
      (projectRow projection tableColumns values)[p]? = some cell →
        LinesUp tableColumns values origin header cell := by
  induction projection with
  | nil =>
    refine ⟨rfl, rfl, fun p origin header cell horigin _ _ => ?_⟩
    rw [List.flatMap_nil, List.getElem?_nil] at horigin
    cases horigin
  | cons item projection ih =>
    obtain ⟨hheaders, hcells, hup⟩ := item_lines_up h tableName item
    obtain ⟨ihheaders, ihcells, ihup⟩ := ih
    simp only [projectRow] at ihcells ihup
    simp only [projectRow, List.flatMap_cons, List.length_append, hheaders, ihheaders, hcells,
      ihcells, true_and]
    intro p origin header cell horigin hheader hcell
    -- the first item has the same width in all three lists
    rw [List.getElem?_append] at horigin hheader hcell
    rw [hheaders] at hheader
    rw [hcells] at hcell
    split at horigin
    · next hp =>
      rw [if_pos hp] at hheader hcell
      exact hup p origin header cell horigin hheader hcell
    · next hp =>
      rw [if_neg hp] at hheader hcell
      exact ihup _ origin header cell horigin hheader hcell

/-- Headers and cells are as many, and at every position that comes from a
column the header is that column and the cell the row's value of it. A wildcard
comes from every column in order, an identifier that names a column of the table
from the first of that name. -/
theorem result_lines_up (projection : List SelectItem) (tableName : String)
    (h : values.length = tableColumns.length) :
    (projection.flatMap (projectColumns tableColumns tableName)).length =
      (projectRow projection tableColumns values).length ∧
    (∀ p i : Nat, (projection.flatMap (origins tableColumns))[p]? = some (some i) →
      ∃ (header : Column) (cell : Value),
        (projection.flatMap (projectColumns tableColumns tableName))[p]? = some header ∧
        (projectRow projection tableColumns values)[p]? = some cell ∧
        tableColumns[i]? = some header ∧ values[i]? = some cell) ∧
    (projection.flatMap (origins tableColumns)).length =
      (projectRow projection tableColumns values).length ∧
    ∀ id : String, (∃ column ∈ tableColumns, eqIgnoreAsciiCase column.name id = true) →
      ∃ (i : Nat) (column : Column),
        origins tableColumns (.unnamedExpr (.identifier id)) = [some i] ∧
        tableColumns[i]? = some column ∧ eqIgnoreAsciiCase column.name id = true ∧
        ∀ j < i, ∀ other, tableColumns[j]? = some other →
          eqIgnoreAsciiCase other.name id = false := by
  obtain ⟨hheaders, hcells, hup⟩ := projection_lines_up h tableName projection
  refine ⟨hheaders.trans hcells.symm, fun p i hp => ?_, hcells.symm, fun id hid => ?_⟩
  · obtain ⟨hlt, -⟩ := List.getElem?_eq_some_iff.mp hp
    have hheader := List.getElem?_eq_getElem (hheaders ▸ hlt)
    have hcell := List.getElem?_eq_getElem (hcells ▸ hlt)
    exact ⟨_, _, hheader, hcell, hup p (some i) _ _ hp hheader hcell i rfl⟩
  · cases hpos : columnPosition tableColumns id with
    | none =>
      obtain ⟨column, hcolumn, hname⟩ := hid
      rw [columnPosition, List.findIdx?_eq_none_iff] at hpos
      rw [hpos column hcolumn] at hname
      cases hname
    | some i =>
      obtain ⟨column, hcolumn, hname, hbefore⟩ := columnPosition_eq_some_iff.mp hpos
      exact ⟨i, column, by rw [origins, hpos], hcolumn, hname, hbefore⟩

/-- `SELECT *, B, nosuch`: the third position is the second column again. -/
theorem star_and_name_line_up :
    ∃ (header : Column) (cell : Value),
      ([SelectItem.wildcard, .unnamedExpr (.identifier "B"),
        .unnamedExpr (.identifier "nosuch")].flatMap
        (projectColumns [.new "a" "t" .long, .new "b" "t" .varChar] "t"))[2]? = some header ∧
      (projectRow [SelectItem.wildcard, .unnamedExpr (.identifier "B"),
        .unnamedExpr (.identifier "nosuch")]
        [.new "a" "t" .long, .new "b" "t" .varChar] [.int 1, .text "x"])[2]? = some cell ∧
      [Column.new "a" "t" .long, .new "b" "t" .varChar][1]? = some header ∧
      [Value.int 1, .text "x"][1]? = some cell :=
  (result_lines_up [.wildcard, .unnamedExpr (.identifier "B"),
    .unnamedExpr (.identifier "nosuch")] "t" rfl).2.1 2 1 (by decide +kernel)

end Srrdb.Engine
