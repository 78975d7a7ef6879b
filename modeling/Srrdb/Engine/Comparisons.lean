/-
Srrdb.Engine.Comparisons — the comparison operators on two values.

`=` and `!=` go by `values_equal`, the other operators by `value_cmp`, and the
two know different pairs of types. Where `value_cmp` has no answer, none of
`<` and `>` holds, and `=` compares the printed forms. Between two floats `=`
asks whether they are closer than epsilon, and the order whether they are the
same. `coherent_iff` says for which values the operators agree all the same.
-/
import Srrdb.Engine.Outcomes
import Srrdb.Lib.IeeeTheorems

namespace Srrdb.Engine

open Srrdb.Sql Srrdb.Lib.Ieee

/-! ## Coherence -/

section Operators

variable [Host] [ExprDebug]

/-- The operator holds of two values, as the WHERE clause `a op b` finds on a
row of them. -/
def Compares (op : BinaryOperator) (a b : Value) : Prop :=
  evalWhere [.new "a" "t" .long, .new "b" "t" .long] [a, b]
    (.binaryOp (.identifier "a") op (.identifier "b")) = .ok true

/-- The comparison operators make one order of two values. -/
structure Coherent (a b : Value) : Prop where
  trichotomy : (Compares .lt a b ∧ ¬ Compares .eq a b ∧ ¬ Compares .gt a b) ∨
    (¬ Compares .lt a b ∧ Compares .eq a b ∧ ¬ Compares .gt a b) ∨
    (¬ Compares .lt a b ∧ ¬ Compares .eq a b ∧ Compares .gt a b)
  ltEq : Compares .ltEq a b ↔ Compares .lt a b ∨ Compares .eq a b
  gtEq : Compares .gtEq a b ↔ Compares .gt a b ∨ Compares .eq a b
  notEq : Compares .notEq a b ↔ ¬ Compares .eq a b
  converse : Compares .lt a b ↔ Compares .gt b a

theorem compares_iff {op : BinaryOperator} {a b : Value} :
    Compares op a b ↔ evalBinary op a b = .ok true := by
  have h : evalWhere [.new "a" "t" .long, .new "b" "t" .long] [a, b]
      (.binaryOp (.identifier "a") op (.identifier "b")) = Outcome.ofExcept (evalBinary op a b) :=
    rfl
  rw [Compares, h]
  cases evalBinary op a b <;> simp

omit [Host] [ExprDebug] in
theorem valueCmp_swap (a b : Value) : valueCmp b a = (valueCmp a b).map Ordering.swap := by
  cases a <;> cases b <;> first
    | rfl
    | exact congrArg some Std.OrientedCmp.eq_swap
    | exact Format.partialCmp_swap _ _ _

/-- The operators agree exactly when there is an order of the two values and
they are equal where it says so. -/
theorem coherent_iff_cmp {a b : Value} :
    Coherent a b ↔ ∃ o, valueCmp a b = some o ∧ (valuesEqual a b = true ↔ o = .eq) := by
  have hlt : Compares .lt a b ↔ valueCmp a b = some .lt := by simp [compares_iff, evalBinary]
  have hgt : Compares .gt a b ↔ valueCmp a b = some .gt := by simp [compares_iff, evalBinary]
  have hgt' : Compares .gt b a ↔ valueCmp b a = some .gt := by simp [compares_iff, evalBinary]
  have heq : Compares .eq a b ↔ valuesEqual a b = true := by simp [compares_iff, evalBinary]
  have hne : Compares .notEq a b ↔ ¬ valuesEqual a b = true := by simp [compares_iff, evalBinary]
  have hle : Compares .ltEq a b ↔ valueCmp a b = some .lt ∨ valueCmp a b = some .eq := by
    simp [compares_iff, evalBinary]
  have hge : Compares .gtEq a b ↔ valueCmp a b = some .gt ∨ valueCmp a b = some .eq := by
    simp [compares_iff, evalBinary]
  constructor
  · rintro ⟨htri, hltEq, -, -, -⟩
    rw [hlt, hgt, heq] at htri
    rw [hle, hlt, heq] at hltEq
    cases hcmp : valueCmp a b with
    | none =>
      rw [hcmp] at htri hltEq
      -- without an order only `=` can be the one that holds, and then `<=` does not
      simp at htri hltEq
      rw [htri] at hltEq
      cases hltEq
    | some o =>
      rw [hcmp] at htri
      refine ⟨o, rfl, ?_⟩
      cases o <;> simp at htri ⊢ <;> exact htri
  · rintro ⟨o, hcmp, hequal⟩
    have hswap := valueCmp_swap a b
    rw [hcmp] at hswap
    refine ⟨?_, ?_, ?_, ?_, ?_⟩
    · rw [hlt, hgt, heq, hcmp, hequal]
      cases o <;> simp
    · rw [hle, hlt, heq, hcmp, hequal]
      cases o <;> simp
    · rw [hge, hgt, heq, hcmp, hequal]
      cases o <;> simp
    · rw [hne, heq]
    · rw [hlt, hgt', hcmp, hswap]
      cases o <;> simp

end Operators

/-! ## Floats -/

/-- Neither is a NaN; an infinity is told from the other value, and finite
values are the same or at least half an epsilon step under epsilon apart. -/
def Separated (F : Format) (a b : Nat) : Prop :=
  F.isNan a = false ∧ F.isNan b = false ∧
    if F.isInf a || F.isInf b then F.scaled a ≠ F.scaled b
    else F.scaled a = F.scaled b ∨ F.closeBound ≤ (F.scaled a - F.scaled b).natAbs

/-- Equality up to epsilon agrees with the order exactly on separated values. -/
theorem close_coherent_iff {F : Format} (hF : F.Wide) (a b : Nat) :
    (∃ o, F.partialCmp a b = some o ∧
      (F.lt (F.abs (F.sub a b)) F.epsilon = true ↔ o = .eq)) ↔ Separated F a b := by
  have hpos := Format.closeBound_pos hF
  rw [Format.sub_lt_epsilon_iff hF, Separated]
  cases hna : F.isNan a with
  | true => simp [F.partialCmp_eq_none_iff.mpr (.inl hna)]
  | false =>
    cases hnb : F.isNan b with
    | true => simp [F.partialCmp_eq_none_iff.mpr (.inr hnb)]
    | false =>
      rw [F.partialCmp_of_not_nan hna hnb]
      simp only [Option.some.injEq, exists_eq_left', true_and, Int.compare_eq_eq]
      cases hia : F.isInf a with
      | true => simp
      | false =>
        cases hib : F.isInf b with
        | true => simp
        | false =>
          simp only [true_and, Bool.or_false, Bool.false_eq_true, if_false]
          omega

/-! ## Values -/

/-- The pairs on which the operators agree. -/
def Comparable : Value → Value → Prop
  | .int _, .int _ | .uint _, .uint _ | .text _, .text _ | .int _, .text _ | .text _, .int _ => True
  | .int _, .float b => binary32.isNan b.toNat = false
  | .float a, .int _ => binary32.isNan a.toNat = false
  | .float a, .float b => Separated binary32 a.toNat b.toNat
  | .double a, .double b => Separated binary64 a.toNat b.toNat
  | .int a, .double b => Separated binary64 (binary64.ofInt a.toInt) b.toNat
  | .double a, .int b => Separated binary64 a.toNat (binary64.ofInt b.toInt)
  | _, _ => False

/-- Without an order there is no coherence. -/
theorem not_ordered {a b : Value} (h : valueCmp a b = none) :
    ¬ ∃ o, valueCmp a b = some o ∧ (valuesEqual a b = true ↔ o = .eq) := by
  rw [h]
  rintro ⟨o, ho, -⟩
  cases ho

/-- Equality and order of one linearly ordered type. -/
theorem ordered_by_compare {α : Type} [Ord α] [BEq α] [LawfulBEq α] [Std.LawfulEqOrd α] (x y : α) :
    ∃ o, some (compare x y) = some o ∧ ((x == y) = true ↔ o = .eq) :=
  ⟨_, rfl, by rw [beq_iff_eq, Std.LawfulEqCmp.compare_eq_iff_eq]⟩

/-- IEEE equality is equality in the IEEE order. -/
theorem ordered_by_partialCmp {F : Format} {a b : Nat} :
    (∃ o, F.partialCmp a b = some o ∧ (F.ieeeEq a b = true ↔ o = .eq)) ↔
      F.isNan a = false ∧ F.isNan b = false := by
  cases hna : F.isNan a with
  | true => simp [F.partialCmp_eq_none_iff.mpr (.inl hna)]
  | false =>
    cases hnb : F.isNan b with
    | true => simp [F.partialCmp_eq_none_iff.mpr (.inr hnb)]
    | false => simp [Format.ieeeEq, F.partialCmp_of_not_nan hna hnb]

/-- The comparison operators are coherent exactly on integers and texts, on an
integer and a single float that is a number, and on separated floats. -/
theorem coherent_iff [Host] [ExprDebug] (a b : Value) : Coherent a b ↔ Comparable a b := by
  rw [coherent_iff_cmp]
  cases a with
  | null => exact iff_of_false (not_ordered (by cases b <;> rfl)) (by cases b <;> exact id)
  | bytes a => exact iff_of_false (not_ordered (by cases b <;> rfl)) (by cases b <;> exact id)
  | int a =>
    cases b with
    | int b => exact iff_of_true (ordered_by_compare a b) trivial
    | text b => exact iff_of_true (ordered_by_compare (Int.repr a.toInt) b) trivial
    | float b =>
      exact ordered_by_partialCmp.trans (by simp [Comparable, binary32.isNan_ofInt])
    | double b => exact close_coherent_iff Format.binary64_wide _ _
    | _ => exact iff_of_false (not_ordered rfl) id
  | uint a =>
    cases b with
    | uint b => exact iff_of_true (ordered_by_compare a b) trivial
    | _ => exact iff_of_false (not_ordered rfl) id
  | float a =>
    cases b with
    | int b =>
      exact ordered_by_partialCmp.trans (by simp [Comparable, binary32.isNan_ofInt])
    | float b => exact close_coherent_iff Format.binary32_wide _ _
    | _ => exact iff_of_false (not_ordered rfl) id
  | double a =>
    cases b with
    | int b => exact close_coherent_iff Format.binary64_wide _ _
    | double b => exact close_coherent_iff Format.binary64_wide _ _
    | _ => exact iff_of_false (not_ordered rfl) id
  | text a =>
    cases b with
    | int b => exact iff_of_true (ordered_by_compare a (Int.repr b.toInt)) trivial
    | text b => exact iff_of_true (ordered_by_compare a b) trivial
    | _ => exact iff_of_false (not_ordered rfl) id

section Concrete

attribute [local instance] asciiHost plainDebug

instance (op : BinaryOperator) (a b : Value) : Decidable (Compares op a b) :=
  inferInstanceAs (Decidable (_ = _))

/-- Zero is equal to the double `2^-60` and below it; the text `a` is neither
equal to the double one, nor below, nor above. -/
theorem doubles_not_coherent :
    (¬ Coherent (.double 0) (.double 0x3C30000000000000) ∧
        Compares .eq (.double 0) (.double 0x3C30000000000000) ∧
        Compares .lt (.double 0) (.double 0x3C30000000000000)) ∧
      ¬ Coherent (.text "a") (.double 0x3FF0000000000000) ∧
        ¬ Compares .lt (.text "a") (.double 0x3FF0000000000000) ∧
        ¬ Compares .eq (.text "a") (.double 0x3FF0000000000000) ∧
        ¬ Compares .gt (.text "a") (.double 0x3FF0000000000000) := by
  have hzero : Compares .eq (.double 0) (.double 0x3C30000000000000) ∧
      Compares .lt (.double 0) (.double 0x3C30000000000000) := by decide +kernel
  have htext : ¬ Compares .lt (.text "a") (.double 0x3FF0000000000000) ∧
      ¬ Compares .eq (.text "a") (.double 0x3FF0000000000000) ∧
      ¬ Compares .gt (.text "a") (.double 0x3FF0000000000000) := by decide +kernel
  refine ⟨⟨fun h => ?_, hzero⟩, fun h => ?_, htext⟩
  · rcases h.trichotomy with h | h | h
    · exact h.2.1 hzero.1
    · exact h.1 hzero.2
    · exact h.1 hzero.2
  · rcases h.trichotomy with h | h | h
    · exact htext.1 h.1
    · exact htext.2.1 h.2.1
    · exact htext.2.2 h.2.2

end Concrete

end Srrdb.Engine
