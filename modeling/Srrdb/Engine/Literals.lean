/-
Srrdb.Engine.Literals — what a literal becomes as a value.

`sql_expr_to_value` converts numbers, single-quoted strings and NULL. Whatever
else it is given, another literal or another expression, becomes the text of
its `Debug` rendering, which names the nodes of the tree and so is longer than
the literal in it. An integer is an `i64`, or from 2^63 on the nearest double.
-/
import Srrdb.Engine.Outcomes
import Srrdb.Lib.IeeeTheorems
import Mathlib.Data.List.TakeWhile

namespace Srrdb.Engine

open Srrdb.Sql Srrdb.Lib.Ieee

/-- The literals that have a value of their own. -/
def plainLiteral : Expr → Bool
  | .value (.number _) | .value (.singleQuotedString _) | .value .null => true
  | _ => false

/-- A literal as a client writes it and a result shows it. -/
def literalText : Expr → Option String
  | .value (.number n) => some n
  | .value (.singleQuotedString s) | .value (.doubleQuotedString s) => some s
  | .value (.boolean b) => some (if b then "1" else "0")
  | .unaryOp .minus (.value (.number n)) => some ("-" ++ n)
  | _ => none

section Rendered

variable [ExprDebug]

theorem sqlExprToValue_of_not_plain {expr : Expr} (h : plainLiteral expr = false) :
    sqlExprToValue expr = .text (debugExpr expr) := by
  unfold sqlExprToValue
  split
  · cases h
  · cases h
  · cases h
  · rfl

/-- The derived rendering of a literal has the names of its nodes around it. -/
def RendersNodes : Prop :=
  ∀ expr text, literalText expr = some text → text.length < (debugExpr expr).length

theorem RendersNodes.debugExpr_ne (h : RendersNodes) {expr : Expr} {text : String}
    (htext : literalText expr = some text) : debugExpr expr ≠ text := by
  intro heq
  have hlt := h expr text htext
  rw [heq] at hlt
  exact Nat.lt_irrefl _ hlt

/-- No literal with a value of its own becomes its rendering. -/
theorem RendersNodes.sqlExprToValue_ne (h : RendersNodes) {expr : Expr}
    (hplain : plainLiteral expr = true) : sqlExprToValue expr ≠ .text (debugExpr expr) := by
  unfold plainLiteral at hplain
  split at hplain
  · next n =>
    rw [sqlExprToValue, numberToValue]
    split
    · simp
    · split
      · simp
      · have htext : literalText (.value (.number n)) = some n := rfl
        simpa using (h.debugExpr_ne htext).symm
  · next s =>
    have htext : literalText (.value (.singleQuotedString s)) = some s := rfl
    simpa [sqlExprToValue] using (h.debugExpr_ne htext).symm
  · simp [sqlExprToValue]
  · cases hplain

end Rendered

/-! ## Integers -/

theorem parseDigits_eq_some {cs : List Char} {N : Nat} :
    parseDigits cs = some N ↔ cs ≠ [] ∧ (∀ c ∈ cs, isDigit c = true) ∧ digitsValue cs = N := by
  rw [parseDigits]
  split
  · next h =>
    have h' : cs ≠ [] ∧ ∀ c ∈ cs, isDigit c = true := by simpa using h
    rw [Option.some.injEq]
    exact ⟨fun hval => ⟨h'.1, h'.2, hval⟩, fun hall => hall.2.2⟩
  · next h =>
    have h' : ¬ (cs ≠ [] ∧ ∀ c ∈ cs, isDigit c = true) := by simpa using h
    exact iff_of_false nofun fun hall => h' ⟨hall.1, hall.2.1⟩

/-- Digits start with a digit, and so with no sign or letter. -/
theorem cons_of_parseDigits {cs : List Char} {N : Nat} (h : parseDigits cs = some N) :
    ∃ c rest, cs = c :: rest ∧ isDigit c = true := by
  obtain ⟨hne, hall, -⟩ := parseDigits_eq_some.mp h
  obtain ⟨c, rest, rfl⟩ := List.exists_cons_of_ne_nil hne
  exact ⟨c, rest, rfl, hall c List.mem_cons_self⟩

theorem toLower_of_isDigit {c : Char} (h : isDigit c = true) : c.toLower = c := by
  have hle : c.val ≤ '9'.val := by
    simp only [isDigit, Bool.and_eq_true, decide_eq_true_eq] at h
    exact h.2
  unfold Char.toLower
  rw [dif_neg]
  intro hup
  exact absurd (UInt32.le_trans hup.1 hle) (by decide)

theorem parseI64_digits {n : String} {N : Nat} (h : parseDigits n.toList = some N) :
    parseI64 n = if N < 2 ^ 63 then some (Int64.ofInt N) else none := by
  obtain ⟨c, rest, hcs, hdigit⟩ := cons_of_parseDigits h
  have hvalue : parseI64 n = (some (N : Int)).bind fun v =>
      if -(2 : Int) ^ 63 ≤ v ∧ v < (2 : Int) ^ 63 then some (Int64.ofInt v) else none := by
    unfold parseI64
    rw [hcs] at h ⊢
    simp only
    split
    · next heq => cases heq; cases hdigit
    · next heq => cases heq; cases hdigit
    · rw [h]; rfl
  rw [hvalue, Option.bind_some]
  split
  · next hlt => rw [if_pos (by omega)]
  · next hlt => rw [if_neg (by omega)]

theorem parseDecimal_digits {cs : List Char} {N : Nat} (h : parseDigits cs = some N) :
    parseDecimal cs = some (N, 0) := by
  obtain ⟨hne, hall, hval⟩ := parseDigits_eq_some.mp h
  have htake : cs.takeWhile isDigit = cs := List.takeWhile_eq_self_iff.mpr hall
  have hdrop : cs.dropWhile isDigit = [] := List.dropWhile_eq_nil_iff.mpr hall
  simp [parseDecimal, htake, hdrop, hne, parseExponent, hval]

/-- The double an integer literal beyond `i64` becomes. -/
theorem parseF64_digits {n : String} {N : Nat} (h : parseDigits n.toList = some N)
    (hpos : N ≠ 0) (hlt : N < 2 ^ 64) :
    parseF64 n = some (UInt64.ofNat (binary64.ofDecimal false N 0)) := by
  obtain ⟨c, rest, hcs, hdigit⟩ := cons_of_parseDigits h
  have hword : ∀ a : String, a.toList.head?.all (!isDigit ·) = true → a.toList ≠ [] →
      String.ofList ((c :: rest).map Char.toLower) ≠ a := by
    rintro a ha hne rfl
    simp [toLower_of_isDigit hdigit, hdigit] at ha
  have hlog : (Nat.log 10 N : Int) < 20 := by
    have := Nat.log_lt_of_lt_pow (b := 10) (x := 20) hpos (by omega)
    omega
  unfold parseF64
  rw [hcs] at h ⊢
  simp only
  split
  · next heq => cases heq; cases hdigit
  · next heq => cases heq; cases hdigit
  · simp only
    rw [if_neg, if_neg (hword "nan" (by decide) (by decide)), parseDecimal_digits h]
    · simp only [Option.map_some]
      rw [if_neg hpos, if_neg (by omega), if_neg (by omega), Format.withSign,
        if_neg Bool.false_ne_true]
    · rintro (hw | hw)
      · exact hword "inf" (by decide) (by decide) hw
      · exact hword "infinity" (by decide) (by decide) hw

theorem digitsValue_lt {cs : List Char} (h : ∀ c ∈ cs, isDigit c = true) :
    digitsValue cs < 10 ^ cs.length := by
  have hfold : ∀ (cs : List Char) (acc : Nat), (∀ c ∈ cs, isDigit c = true) →
      cs.foldl (fun n c => n * 10 + (c.toNat - '0'.toNat)) acc < (acc + 1) * 10 ^ cs.length := by
    intro cs
    induction cs with
    | nil => intro acc _; simp
    | cons c rest ih =>
      intro acc h
      obtain ⟨hc, hrest⟩ := List.forall_mem_cons.mp h
      have hdigit : c.toNat - '0'.toNat < 10 := by
        simp only [isDigit, Bool.and_eq_true, decide_eq_true_eq] at hc
        have hle : c.toNat ≤ '9'.toNat := UInt32.le_iff_toNat_le.mp hc.2
        change c.toNat ≤ 57 at hle
        change c.toNat - 48 < 10
        omega
      calc (c :: rest).foldl (fun n c => n * 10 + (c.toNat - '0'.toNat)) acc
          < (acc * 10 + (c.toNat - '0'.toNat) + 1) * 10 ^ rest.length := ih _ hrest
        _ ≤ (acc + 1) * 10 * 10 ^ rest.length := Nat.mul_le_mul_right _ (by omega)
        _ = (acc + 1) * 10 ^ (c :: rest).length := by rw [List.length_cons, Nat.pow_succ]; ring
  simpa [digitsValue] using hfold cs 0 h

/-- The decimal text of a number is no longer than the digits it was read from. -/
theorem length_repr_le {n : String} {N : Nat} (h : parseDigits n.toList = some N) :
    (Nat.repr N).length ≤ n.length := by
  obtain ⟨hne, hall, rfl⟩ := parseDigits_eq_some.mp h
  have hpos : 0 < n.length := by simpa [← String.length_toList] using List.length_pos_iff.mpr hne
  rw [Nat.length_repr_le_iff hpos, ← String.length_toList]
  exact digitsValue_lt hall

theorem length_repr_neg_le {n : String} {N : Nat} (h : parseDigits n.toList = some N) :
    (Int.repr (-(N : Int))).length ≤ ("-" ++ n).length := by
  have hrepr := length_repr_le h
  rw [String.length_append, show "-".length = 1 from rfl]
  cases N with
  | zero =>
    have hzero : (Int.repr (-((0 : Nat) : Int))).length = 1 := by decide
    omega
  | succ m =>
    have hneg : Int.repr (-((m + 1 : Nat) : Int)) = "-" ++ Nat.repr (m + 1) := rfl
    rw [hneg, String.length_append, show "-".length = 1 from rfl]
    omega

theorem numberToValue_digits {n : String} {N : Nat} (h : parseDigits n.toList = some N)
    (hlt : N < 2 ^ 64) : numberToValue n =
      if N < 2 ^ 63 then .int (Int64.ofInt N)
      else .double (UInt64.ofNat (binary64.ofDecimal false N 0)) := by
  rw [numberToValue, parseI64_digits h]
  by_cases hsmall : N < 2 ^ 63
  · rw [if_pos hsmall, if_pos hsmall]
  · rw [if_neg hsmall, if_neg hsmall, parseF64_digits h (by omega) hlt]

/-- The double nearest to such an integer is finite. -/
theorem ofDecimal_lt {N : Nat} (h : N < 2 ^ 64) :
    binary64.ofDecimal false N 0 < binary64.infBits := by
  have hmono : binary64.ofDecimal false N 0 ≤ binary64.ofDecimal false (2 ^ 64) 0 :=
    binary64.ofDecimal_mono h.le
  have hbound : binary64.ofDecimal false (2 ^ 64) 0 < binary64.infBits := by decide +kernel
  exact Nat.lt_of_le_of_lt hmono hbound

/-! ## A rendering -/

/-- A rendering with the names of the nodes. -/
def renderNodes : Expr → String
  | .identifier id => "Identifier(" ++ id ++ ")"
  | .value (.number n) => "Value(Number(" ++ n ++ "))"
  | .value (.singleQuotedString s) => "Value(SingleQuotedString(" ++ s ++ "))"
  | .value (.doubleQuotedString s) => "Value(DoubleQuotedString(" ++ s ++ "))"
  | .value (.boolean b) => "Value(Boolean(" ++ (if b then "true" else "false") ++ "))"
  | .unaryOp .minus (.value (.number n)) => "UnaryOp(Minus, Value(Number(" ++ n ++ ")))"
  | .binaryOp .. => "BinaryOp"
  | _ => "Expr"

@[reducible] def nodeDebug : ExprDebug := ⟨renderNodes⟩

theorem length_append_lt_around {a c : String} (h : c.length < a.length) (s b : String) :
    (c ++ s).length < (a ++ s ++ b).length := by
  rw [String.length_append, String.length_append, String.length_append]
  omega

theorem length_lt_around {a : String} (h : 0 < a.length) (s b : String) :
    s.length < (a ++ s ++ b).length := by
  rw [String.length_append, String.length_append]
  omega

theorem rendersNodes_nodeDebug : @RendersNodes nodeDebug := by
  intro expr text htext
  change text.length < (renderNodes expr).length
  unfold literalText at htext
  split at htext <;> cases htext
  · exact length_lt_around (by decide) _ _
  · exact length_lt_around (by decide) _ _
  · exact length_lt_around (by decide) _ _
  · next b => cases b <;> decide
  · exact length_append_lt_around (by decide) _ _

end Srrdb.Engine
