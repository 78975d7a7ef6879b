/-
Srrdb.Server.StoredLiterals — which literals survive storage.

INSERT converts a literal with `sql_expr_to_value` and a SELECT shows the value
stored. `WHERE c = v` converts the literal again: with `eval_expr` for each row,
and with `eval_const_expr` to look for an index. Numbers, single-quoted strings
and NULL are known to all three. Other literals are stored as the rendering of
their syntax tree, and an integer beyond `i64` as the nearest double.
-/
import Srrdb.Engine.InsertedRows
import Srrdb.Engine.Literals
import Srrdb.Protocol.Handshake
import Srrdb.Server.IndexLookup

namespace Srrdb.Server

open Srrdb.Engine Srrdb.Sql Srrdb.Lib Srrdb.Lib.Ieee Srrdb.Protocol

/-! ## Literals and their texts -/

/-- The literals as the parser hands them over, with the text of their value in
a result. NULL has none. -/
inductive Literal : Expr → Option String → Prop
  | integer {n : String} {N : Nat} (hn : parseDigits n.toList = some N) (hN : N < 2 ^ 64) :
      Literal (.value (.number n)) (some (Nat.repr N))
  | negative {n : String} {N : Nat} (hn : parseDigits n.toList = some N) (hN : N ≤ 2 ^ 63) :
      Literal (.unaryOp .minus (.value (.number n))) (some (Int.repr (-(N : Int))))
  | singleQuoted (s : String) : Literal (.value (.singleQuotedString s)) (some s)
  | doubleQuoted (s : String) : Literal (.value (.doubleQuotedString s)) (some s)
  | boolean (b : Bool) : Literal (.value (.boolean b)) (some (if b then "1" else "0"))
  | null : Literal (.value .null) none

/-- The literals that a column keeps: single-quoted strings, integers from 0 up
to 2^63, beyond that those whose digits are those of the nearest double, and
NULL, unless the column puts another value in its place. -/
def Storable (now : Nat) (col : Column) : Expr → Prop
  | .value (.number n) => ∀ N, parseDigits n.toList = some N →
      N < 2 ^ 63 ∨ binary64.display (binary64.ofDecimal false N 0) = Nat.repr N
  | .value (.singleQuotedString _) => True
  | .value .null => col.autoIncrement = false ∧
      ∀ expr, col.defaultExpr = some expr → evalDefaultExpr now expr = .null
  | _ => False

theorem asBytes_inj {a b : String} : asBytes a = asBytes b ↔ a = b := by
  constructor
  · intro h
    have hb := fromUtf8_asBytes b
    rw [← h, fromUtf8_asBytes] at hb
    exact Except.ok.inj hb
  · exact congrArg _

theorem textForm_eq_none_iff {v : Value} : textForm v = none ↔ v = .null := by
  cases v <;> simp [textForm]

theorem eq_of_completed {now lo hi : Nat} {col : Column} {v w : Value}
    (h : Completed now lo hi col (some v) (some w)) (hv : v ≠ .null) : w = v := by
  rw [Completed, if_neg (by simpa using hv)] at h
  exact Option.some.inj h

/-- The double an integer becomes, by its bits. -/
theorem toNat_ofDecimal {N : Nat} (h : N < 2 ^ 64) :
    (UInt64.ofNat (binary64.ofDecimal false N 0)).toNat = binary64.ofDecimal false N 0 := by
  have hlt := ofDecimal_lt h
  have hinf : binary64.infBits < 2 ^ 64 := by decide
  exact UInt64.toNat_ofNat_of_lt' (Nat.lt_trans hlt hinf)

section Theory

variable [ExprDebug]

/-- A literal that is stored as a rendering is not shown as its text. -/
theorem rendered_not_shown (hdebug : RendersNodes) {v : Expr} {text source : String}
    (hplain : plainLiteral v = false) (hsource : literalText v = some source)
    (hlen : text.length ≤ source.length) {now lo hi : Nat} {col : Column} {w : Value}
    (h : Completed now lo hi col (some (sqlExprToValue v)) (some w)) :
    textForm w ≠ some (asBytes text) := by
  rw [sqlExprToValue_of_not_plain hplain] at h
  rw [eq_of_completed h (by simp), textForm, ne_eq, Option.some.injEq, asBytes_inj]
  rintro rfl
  have hlt := hdebug v source hsource
  omega

/-- What is stored for a literal shows its text exactly when the literal is one
that the column keeps. -/
theorem shown_iff (hdebug : RendersNodes) {v : Expr} {text : Option String}
    (hlit : Literal v text) {now lo hi : Nat} {col : Column} {w : Value}
    (h : Completed now lo hi col (some (sqlExprToValue v)) (some w)) :
    textForm w = text.map asBytes ↔ Storable now col v := by
  cases hlit with
  | @integer n N hn hN =>
    have hvalue : sqlExprToValue (.value (.number n)) = numberToValue n := rfl
    rw [hvalue, numberToValue_digits hn hN] at h
    simp only [Storable, hn, Option.some.injEq, forall_eq']
    by_cases hsmall : N < 2 ^ 63
    · rw [if_pos hsmall] at h
      rw [eq_of_completed h (by simp)]
      refine iff_of_true ?_ (.inl hsmall)
      rw [textForm, Value.toString, Int64.toInt_ofInt_of_le (by omega) (by omega)]
      rfl
    · rw [if_neg hsmall] at h
      rw [eq_of_completed h (by simp), textForm, Value.toString, toNat_ofDecimal hN,
        Option.map_some, Option.some.injEq, asBytes_inj]
      exact ⟨.inr, fun hor => hor.resolve_left hsmall⟩
  | negative hn hN =>
    exact iff_of_false (rendered_not_shown hdebug rfl rfl (length_repr_neg_le hn) h) id
  | singleQuoted s =>
    rw [eq_of_completed h (by simp [sqlExprToValue])]
    exact iff_of_true rfl trivial
  | doubleQuoted s => exact iff_of_false (rendered_not_shown hdebug rfl rfl le_rfl h) id
  | boolean b => exact iff_of_false (rendered_not_shown hdebug rfl rfl le_rfl h) id
  | null =>
    rw [Option.map_none, textForm_eq_none_iff]
    have hvalue : sqlExprToValue (.value .null) = .null := rfl
    rw [hvalue, Completed, if_pos rfl] at h
    cases hauto : col.autoIncrement with
    | true =>
      rw [if_pos hauto] at h
      obtain ⟨id, -, -, hw⟩ := h
      rw [Option.some.inj hw]
      exact iff_of_false (by simp) fun hcol => absurd (hauto.symm.trans hcol.1) (by simp)
    | false =>
      rw [if_neg (by simp [hauto]), Option.some.injEq] at h
      rw [h]
      cases hdef : col.defaultExpr <;> simp [Storable, hauto, hdef]

/-! ## Values found again -/

omit [ExprDebug] in
theorem isNan_of_lt {a : Nat} (h : a < binary64.infBits) : binary64.isNan a = false := by
  rw [Format.isNan, binary64.magnitude_of_lt (h.trans binary64.infBits_lt_signBit)]
  exact decide_eq_false (Nat.lt_asymm h)

omit [ExprDebug] in
theorem closeDouble_self {a : Nat} (h : a < binary64.infBits) : closeDouble a a = true := by
  have hnan := isNan_of_lt h
  have hinf : binary64.isInf a = false := by
    rw [Format.isInf, binary64.magnitude_of_lt (h.trans binary64.infBits_lt_signBit)]
    exact decide_eq_false h.ne
  refine (Format.sub_lt_epsilon_iff Format.binary64_wide a a).mpr ⟨hnan, hnan, hinf, hinf, ?_⟩
  rw [Int.sub_self]
  exact Format.closeBound_pos Format.binary64_wide

/-- A literal that is kept and not NULL: the three conversions agree on it, and
its value is equal to itself. -/
structure Searchable (v : Expr) : Prop where
  literal : ∃ l, v = .value l
  const : evalConstExpr v = some (sqlExprToValue v)
  ne_null : sqlExprToValue v ≠ .null
  regular : (sqlExprToValue v).Regular
  equal : valuesEqual (sqlExprToValue v) (sqlExprToValue v) = true

theorem searchable_of_storable {v : Expr} {text : Option String} (hlit : Literal v text)
    (hne : text ≠ none) {now : Nat} {col : Column} (h : Storable now col v) : Searchable v := by
  cases hlit with
  | @integer n N hn hN =>
    have hvalue : sqlExprToValue (.value (.number n)) = numberToValue n := rfl
    have hconst : evalConstExpr (.value (.number n)) = some (numberToValue n) := rfl
    refine ⟨⟨_, rfl⟩, by rw [hconst, hvalue], ?_, ?_, ?_⟩
    all_goals rw [hvalue, numberToValue_digits hn hN]
    · split <;> simp
    · split
      · simp [Value.Regular, Value.eq]
      · have hnan := isNan_of_lt (ofDecimal_lt hN)
        rw [Value.Regular, Value.eq, toNat_ofDecimal hN, Format.ieeeEq,
          binary64.partialCmp_of_not_nan hnan hnan]
        simp
    · split
      · simp [valuesEqual]
      · rw [valuesEqual, toNat_ofDecimal hN]
        exact closeDouble_self (ofDecimal_lt hN)
  | singleQuoted s =>
    exact ⟨⟨_, rfl⟩, rfl, by simp [sqlExprToValue],
      by simp [Value.Regular, Value.eq, sqlExprToValue], by simp [valuesEqual, sqlExprToValue]⟩
  | null => exact absurd rfl hne
  | negative | doubleQuoted | boolean => exact h.elim

/-! ## The row in the results -/

/-- `SELECT * FROM name WHERE selection` keeps the row and shows its values. -/
def Returns [Host] [Bincode] (e : Executor) (env : Env) (db name : String)
    (selection : Option Expr) (row : Row) : Prop :=
  ∃ tableDef rows, e.catalog.value.getTable db name = .ok tableDef ∧
    selectRows tableDef.columns selection (candidateRows e.storage.value name selection
      (e.catalog.value.getTableIndexes db name)) = .ok rows ∧
    row ∈ rows ∧
    (Call.mk env db (selectFrom name selection)).result e =
      .ok (.rows tableDef.columns (rows.map fun row => ⟨0, row.values⟩))

/-- The index that `WHERE c = v` uses, if there is one, is over the `j`th column.
Its columns are compared with the name after Unicode folding, those of the table
after ASCII folding. -/
def IndexedAt [Host] (columns : List Column) (indexes : List IndexDef) (c : String) (j : Nat) :
    Prop :=
  ∀ idx, lookupIndex indexes c = some idx →
    ∀ cname ∈ idx.columns, columnPosition columns cname = some j

section Results

variable [Host] {s : Storage} {name c : String} {columns : List Column} {indexes : List IndexDef}
  {row : Row} {j : Nat} {v : Expr}

theorem evalWhere_equal (hc : columnPosition columns c = some j) (hv : Searchable v)
    (hrow : row.values[j]? = some (sqlExprToValue v)) :
    evalWhere columns row.values (.binaryOp (.identifier c) .eq v) = .ok true := by
  obtain ⟨l, rfl⟩ := hv.literal
  have hleft : evalExpr columns row.values (.identifier c) = .ok (sqlExprToValue (.value l)) := by
    rw [evalExpr, hc]
    simp [List.getD_eq_getElem?_getD, hrow]
  rw [evalWhere, hleft, evalExpr]
  exact congrArg Except.ok hv.equal

omit [Host] [ExprDebug] in
/-- The key of the row in an index over the column alone. -/
theorem getIndexKey_eq {idx : IndexDef} {w : Value}
    (hidx : ∀ cname ∈ idx.columns, columnPosition columns cname = some j)
    (hrow : row.values[j]? = some w) :
    getIndexKey row idx columns = List.replicate idx.columns.length w := by
  rw [getIndexKey, buildKey, List.map_eq_replicate_iff]
  intro cname hcname
  rw [hidx cname hcname, Option.bind_some, hrow, Option.getD_some]

omit [ExprDebug] in
theorem mem_getRows {id : Nat} (hrow : (s.table name)[id]? = some row) : row ∈ s.getRows name := by
  rw [Storage.getRows_eq, Table.rows]
  exact List.mem_map.mpr ⟨(id, row), OrdMap.mem_toList.mpr hrow, rfl⟩

/-- A condition `c = v` offers the row, from an index or from the table. -/
theorem mem_candidateRows_equal (hv : Searchable v) (hstored : (s.table name)[row.id]? = some row)
    (hrow : row.values[j]? = some (sqlExprToValue v))
    (hindexes : ∀ idx ∈ indexes, ∃ data, s.indexData[storageKey name idx.name]? = some data ∧
      ((getIndexKey row idx columns).regular = true →
        row.id ∈ data.lookupEq (getIndexKey row idx columns)))
    (hover : IndexedAt columns indexes c j) :
    row ∈ candidateRows s name (some (.binaryOp (.identifier c) .eq v)) indexes := by
  have hcmp : comparison? (.binaryOp (.identifier c) .eq v) = some (c, sqlExprToValue v) := by
    simp [comparison?, columnLiteral, extractColumnRef, hv.const]
  have hconds := extractEqConditions_eq (.identifier c) v
  rw [hcmp] at hconds
  have hall : ∀ idx ∈ indexes, ∃ data, s.indexData[storageKey name idx.name]? = some data :=
    fun idx hidx => (hindexes idx hidx).imp fun _ h => h.1
  rw [candidateRows, Option.bind_some, tryIndexLookup_comparison hall hconds]
  cases hidx : lookupIndex indexes c with
  | none => exact mem_getRows hstored
  | some idx =>
    obtain ⟨data, hdata, hoffers⟩ := hindexes idx (List.mem_of_find?_eq_some hidx)
    rw [getIndexKey_eq (hover idx hidx) hrow] at hoffers
    simp only [Option.bind_some, hdata, Option.map_some]
    refine List.mem_filterMap.mpr ⟨row.id, hoffers ?_, ?_⟩
    · simpa [Key.regular] using .inr hv.regular
    · rw [Storage.getElem?_getTable?, hstored]

variable [Bincode] {e : Executor} {tableDef : TableDef} {db : String}

/-- A SELECT that offers the row and keeps it. -/
theorem returns_of_candidate (env : Env) (hc : e.catalog.poisoned = false)
    (hst : e.storage.poisoned = false) (h : e.catalog.value.getTable db name = .ok tableDef)
    {selection : Option Expr}
    (htotal : ∀ row, ∃ b, rowSelected tableDef.columns selection row = .ok b)
    (hmem : row ∈ candidateRows e.storage.value name selection
      (e.catalog.value.getTableIndexes db name))
    (hsel : rowSelected tableDef.columns selection row = .ok true) :
    Returns e env db name selection row := by
  have hrows : selectRows tableDef.columns selection (candidateRows e.storage.value name selection
      (e.catalog.value.getTableIndexes db name)) = .ok (List.filter _ _) :=
    selectRows_of_total selection fun row _ => htotal row
  refine ⟨tableDef, _, h, hrows, List.mem_filter.mpr ⟨hmem, by rw [selects, hsel]⟩, ?_⟩
  have hname : tableFactorName (.table [name]) = name := by
    simp [tableFactorName, nameToString]
  show ((executeQuery db ⟨.select ⟨[.wildcard], [.table [name]], selection⟩,
    none, none, none⟩).run e).1 = _
  rw [run_select rfl rfl, hname, hc, hst, h]
  simp only [Bool.false_eq_true, if_false, hrows]
  simp [finishQuery, projectColumns, projectRow, projectItem, Except.map]

theorem returns_all (env : Env) (hc : e.catalog.poisoned = false)
    (hst : e.storage.poisoned = false) (h : e.catalog.value.getTable db name = .ok tableDef)
    (hstored : (e.storage.value.table name)[row.id]? = some row) :
    Returns e env db name none row :=
  returns_of_candidate env hc hst h (fun _ => ⟨true, rfl⟩) (mem_getRows hstored) rfl

end Results

variable [Host] [Bincode]

/-- After the INSERT a SELECT shows the text of the literal `v` in the column
`c`, the `j`th, of row `k`, and `WHERE c = v` finds the row unless `v` is NULL. -/
def LiteralSurvives (e : Executor) (env : Env) (db : String) (ins : Insert) (k j : Nat)
    (c : String) (v : Expr) (text : Option String) : Prop :=
  let table := tableObjectName ins.table
  let e' := e.after ⟨env, db, .insert ins⟩
  ∃ row, (e'.storage.value.table table)[e.storage.value.nextId table + k]? = some row ∧
    Returns e' env db table none row ∧
    row.values[j]?.map textForm = some (text.map asBytes) ∧
    (text ≠ none → Returns e' env db table (some (.binaryOp (.identifier c) .eq v)) row)

section Survival

variable {e : Executor} {env : Env} {db : String} {ins : Insert} {tableDef : TableDef}
  {exprRows : List (List Expr)} {k j : Nat} {exprs : List Expr} {c : String} {col : Column}
  {v : Expr} {text : Option String}

/-- A stored row whose column shows a literal is found by a search for it. -/
theorem returns_equal {e' : Executor} {table : String} {filled : List Row} {row : Row}
    (env : Env) (hstored : StoredRows e e' db table tableDef.columns filled)
    (h : e'.catalog.value.getTable db table = .ok tableDef)
    (hrow : row ∈ placed (e.storage.value.nextId table) filled)
    (hpos : columnPosition tableDef.columns c = some j) (hv : Searchable v)
    (hcell : row.values[j]? = some (sqlExprToValue v))
    (hover : IndexedAt tableDef.columns (e.catalog.value.getTableIndexes db table) c j) :
    Returns e' env db table (some (.binaryOp (.identifier c) .eq v)) row := by
  have hcmp : comparison? (.binaryOp (.identifier c) .eq v) = some (c, sqlExprToValue v) := by
    simp [comparison?, columnLiteral, extractColumnRef, hv.const]
  refine returns_of_candidate env hstored.catalog hstored.storage h
    (fun row => whereHolds_comparison hcmp tableDef.columns row.values) ?_ ?_
  · rw [Catalog.getTableIndexes_congr hstored.databases]
    exact mem_candidateRows_equal hv (hstored.rows row hrow) hcell
      (fun idx hidx => hstored.indexes idx hidx row hrow) hover
  · show whereHolds tableDef.columns row.values _ = .ok true
    rw [whereHolds, evalWhere_equal hpos hv hcell]

/-- A literal survives an INSERT exactly when it is one that the column keeps,
if a search for it uses no index over another column. With such an index, too,
no other literal survives. -/
theorem literal_survives_iff (hdebug : RendersNodes) (hc : e.catalog.poisoned = false)
    (hst : e.storage.poisoned = false)
    (h : e.catalog.value.getTable db (tableObjectName ins.table) = .ok tableDef)
    (hvalues : IsValues ins.source exprRows)
    (hfits : ∀ exprs ∈ exprRows, ¬ Misfit tableDef.columns ins.columns exprs)
    (hk : exprRows[k]? = some exprs) (hpos : columnPosition tableDef.columns c = some j)
    (hcol : tableDef.columns[j]? = some col)
    (hgiven : cellFor tableDef.columns ins.columns exprs j = some v)
    (hlit : Literal v text) :
    let indexes := e.catalog.value.getTableIndexes db (tableObjectName ins.table)
    ((text ≠ none → IndexedAt tableDef.columns indexes c j) →
      (LiteralSurvives e env db ins k j c v text ↔ Storable (env.now k j) col v)) ∧
    (LiteralSurvives e env db ins k j c v text → Storable (env.now k j) col v) := by
  obtain ⟨filled, -, -, hstored, hcells⟩ := insert_of_fits env hc hst h hvalues hfits
  obtain ⟨row, hrow, hid, -, hcell⟩ := hcells k exprs hk
  obtain ⟨w, hw, hcompleted⟩ := hcell j col hcol
  rw [cellFor_map, hgiven, Option.map_some, Option.getD_some] at hcompleted
  have hshown := shown_iff hdebug hlit hcompleted
  have hget := hstored.rows row hrow
  have honly : LiteralSurvives e env db ins k j c v text → Storable (env.now k j) col v := by
    rintro ⟨row', hrow', -, htext, -⟩
    rw [← hid, hget] at hrow'
    cases hrow'
    rw [hw] at htext
    exact hshown.mp (Option.some.inj htext)
  refine ⟨fun hover => ⟨honly, fun hkept => ?_⟩, honly⟩
  have htable := (Catalog.getTable_congr hstored.databases db _).trans h
  refine ⟨row, hid ▸ hget, returns_all env hstored.catalog hstored.storage htable hget, ?_,
    fun hne => ?_⟩
  · rw [hw, Option.map_some, hshown.mpr hkept]
  · have hv := searchable_of_storable hlit hne hkept
    obtain rfl := eq_of_completed hcompleted hv.ne_null
    exact returns_equal env hstored htable hrow hpos hv hw (hover hne)

end Survival

end Theory

section Concrete

attribute [local instance] asciiHost nodeDebug bincode1

/-- `INSERT INTO t VALUES (5, TRUE)`. -/
def insertTrue : Insert := insertListed [] [numberExpr "5", .value (.boolean true)]

/-- A SELECT shows the syntax tree of the TRUE. -/
theorem true_not_survives :
    ¬ LiteralSurvives defaultFive plainEnv "srrdb" insertTrue 0 1 "b" (.value (.boolean true))
      (some "1") := by
  rintro ⟨row, hrow, -, hcell, -⟩
  have hstored : ((defaultFive.after (callIn "srrdb" (.insert insertTrue))).storage.value.table
      "t")[defaultFive.storage.value.nextId "t" + 0]? =
        some ⟨1, [.int 5, .text (renderNodes (.value (.boolean true)))]⟩ := by
    decide +kernel
  cases hrow.symm.trans hstored
  revert hcell
  decide +kernel

/-- The 5 is shown, and `WHERE a = 5` finds it. -/
theorem five_survives :
    LiteralSurvives defaultFive plainEnv "srrdb" insertTrue 0 0 "a" (numberExpr "5")
      (some "5") := by
  have htable : defaultFive.catalog.value.getTable "srrdb" (tableObjectName insertTrue.table) =
      .ok defaultFiveDef := by decide +kernel
  have hfive : parseDigits "5".toList = some 5 := by decide +kernel
  refine ((literal_survives_iff rendersNodes_nodeDebug (by decide +kernel) (by decide +kernel)
    htable ⟨_, rfl, rfl⟩ (by decide +kernel) rfl (by decide +kernel) rfl rfl
    (.integer hfive (by decide))).1 ?_).mpr ?_
  · intro _ idx hidx
    have hnone : lookupIndex (defaultFive.catalog.value.getTableIndexes "srrdb"
        (tableObjectName insertTrue.table)) "a" = none := by decide +kernel
    rw [hnone] at hidx
    cases hidx
  · intro N hN
    rw [hfive] at hN
    cases hN
    exact .inl (by decide)

end Concrete

end Srrdb.Server
