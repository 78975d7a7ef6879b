/-
Srrdb.Engine.Like — what `LIKE` finds, and when it panics.

The matcher reads pattern and text byte by byte and tries a `%` by slicing the
text at one byte after the other. A `_` takes one byte, which may be a part of
a character. A `%` that only `%` follow wants a byte to be left (`searched`).
And a `%` that comes to a position inside a character panics (`RunsInside`).
-/
import Srrdb.Engine.Outcomes
import Srrdb.Lib.Utf8
import Srrdb.Lib.Wildcard

namespace Srrdb.Engine

open Srrdb.Sql Srrdb.Lib.Utf8 Srrdb.Lib.Wildcard

/-! ## The pattern as the matcher takes it -/

section Searched

variable {α : Type} [DecidableEq α]

/-- The runs at the end of a pattern: two or more want a letter to be left. -/
def searched : List (Token α) → List (Token α)
  | [] => []
  | .run :: pattern =>
    if pattern ≠ [] ∧ ∀ t ∈ pattern, t = .run then [.one, .run] else .run :: searched pattern
  | .one :: pattern => .one :: searched pattern
  | .lit a :: pattern => .lit a :: searched pattern

theorem splits_searched_of_runs {pattern : List (Token α)} (hne : pattern ≠ [])
    (hruns : ∀ t ∈ pattern, t = .run) (b : α) (text : List α) :
    Splits (searched pattern) (b :: text) := by
  cases pattern with
  | nil => exact absurd rfl hne
  | cons t pattern =>
    obtain rfl : t = .run := hruns t List.mem_cons_self
    rw [searched]
    split
    · exact splits_one_cons.mpr (splits_runs (by simp) (by simp) text)
    · next hlast =>
      obtain rfl : pattern = [] := by
        by_contra hne'
        exact hlast ⟨hne', fun t ht => hruns t (List.mem_cons_of_mem _ ht)⟩
      exact splits_runs (by simp [searched]) (by simp) _

/-- The empty text is left to nothing but one run. -/
theorem runs_of_splits_searched_nil {pattern : List (Token α)}
    (h : Splits (searched pattern) []) : ∀ t ∈ pattern, t = .run := by
  induction pattern with
  | nil => exact fun t ht => by cases ht
  | cons t pattern ih =>
    cases t with
    | run =>
      rw [searched] at h
      split at h
      · exact absurd h not_splits_one_nil
      · exact List.forall_mem_cons.mpr ⟨rfl, ih (splits_run_nil.mp h)⟩
    | one => exact absurd h not_splits_one_nil
    | lit a => exact absurd h not_splits_lit_nil

variable {pattern : List (Token α)} (hne : pattern ≠ [])

include hne

theorem not_splits_searched_run_nil : ¬ Splits (searched (.run :: pattern)) [] := by
  rw [searched]
  split
  · exact not_splits_one_nil
  · next hruns =>
    intro h
    exact hruns ⟨hne, runs_of_splits_searched_nil (splits_run_nil.mp h)⟩

theorem splits_searched_run_cons {b : α} {text : List α} :
    Splits (searched (.run :: pattern)) (b :: text) ↔
      Splits (searched pattern) (b :: text) ∨ Splits (searched (.run :: pattern)) text := by
  by_cases hruns : ∀ t ∈ pattern, t = .run
  · refine iff_of_true ?_ (.inl (splits_searched_of_runs hne hruns b text))
    rw [searched, if_pos ⟨hne, hruns⟩]
    exact splits_one_cons.mpr (splits_runs (by simp) (by simp) text)
  · rw [searched, if_neg fun h => hruns h.2, splits_run_cons]

end Searched

/-! ## The search -/

/-- The search comes to a position inside a character. A `%` with pattern
after it tries one position after the other until the rest of the pattern
matches there. -/
inductive RunsInside : List (Token UInt8) → List UInt8 → Prop
  | here {pattern : List (Token UInt8)} {b : UInt8} {text : List UInt8} (hne : pattern ≠ [])
      (hb : isContinuation b.toNat = true) : RunsInside (.run :: pattern) (b :: text)
  | attempt {pattern : List (Token UInt8)} {b : UInt8} {text : List UInt8} (hne : pattern ≠ [])
      (h : RunsInside pattern (b :: text)) : RunsInside (.run :: pattern) (b :: text)
  | later {pattern : List (Token UInt8)} {b : UInt8} {text : List UInt8} (hne : pattern ≠ [])
      (hmiss : ¬ Splits (searched pattern) (b :: text)) (h : RunsInside (.run :: pattern) text) :
      RunsInside (.run :: pattern) (b :: text)
  | one {pattern : List (Token UInt8)} {b : UInt8} {text : List UInt8}
      (h : RunsInside pattern text) : RunsInside (.one :: pattern) (b :: text)
  | lit {pattern : List (Token UInt8)} {b : UInt8} {text : List UInt8}
      (h : RunsInside pattern text) : RunsInside (.lit b :: pattern) (b :: text)

/-- The answers of a search that may panic. -/
inductive Answers (panics holds : Prop) : Outcome Bool → Prop
  | panicked (h : panics) : Answers panics holds (.error .panic)
  | found (h : ¬ panics) (hholds : holds) : Answers panics holds (.ok true)
  | missed (h : ¬ panics) (hholds : ¬ holds) : Answers panics holds (.ok false)

namespace Answers

variable {panics holds panics' holds' : Prop} {o : Outcome Bool}

theorem congr (h : Answers panics holds o) (hp : panics ↔ panics') (hh : holds ↔ holds') :
    Answers panics' holds' o := by
  cases h with
  | panicked h => exact .panicked (hp.mp h)
  | found h hholds => exact .found (fun h' => h (hp.mpr h')) (hh.mp hholds)
  | missed h hholds => exact .missed (fun h' => h (hp.mpr h')) fun h' => hholds (hh.mpr h')

theorem panic_iff (h : Answers panics holds o) : o = .error .panic ↔ panics := by
  cases h with
  | panicked h => exact iff_of_true rfl h
  | found h _ => exact iff_of_false (by simp) h
  | missed h _ => exact iff_of_false (by simp) h

theorem true_iff (h : Answers panics holds o) : o = .ok true ↔ ¬ panics ∧ holds := by
  cases h with
  | panicked h => exact iff_of_false (by simp) fun h' => h'.1 h
  | found h hholds => exact iff_of_true rfl ⟨h, hholds⟩
  | missed _ hholds => exact iff_of_false (by simp) fun h' => hholds h'.2

end Answers

/-- The bytes of a pattern as tokens. -/
def byteTokens (pattern : List UInt8) : List (Token UInt8) :=
  tokens '%'.toUInt8 '_'.toUInt8 pattern

@[simp] theorem byteTokens_nil : byteTokens [] = [] := rfl

@[simp] theorem byteTokens_cons (p : UInt8) (pattern : List UInt8) :
    byteTokens (p :: pattern) =
      (if p = '%'.toUInt8 then .run else if p = '_'.toUInt8 then .one else .lit p) ::
        byteTokens pattern := rfl

theorem trySuffixes_answers {pattern : List (Token UInt8)} (hne : pattern ≠ [])
    {attempt : List UInt8 → Outcome Bool}
    (hattempt : ∀ text, Answers (RunsInside pattern text) (Splits (searched pattern) text)
      (attempt text)) (text : List UInt8) :
    Answers (RunsInside (.run :: pattern) text) (Splits (searched (.run :: pattern)) text)
      (trySuffixes attempt text) := by
  induction text with
  | nil => exact .missed (fun h => by cases h) (not_splits_searched_run_nil hne)
  | cons b text ih =>
    rw [trySuffixes]
    split
    · next hb => exact .panicked (.here hne hb)
    · next hb =>
      have hhere := hattempt (b :: text)
      generalize attempt (b :: text) = o at hhere
      cases hhere with
      | panicked h => exact .panicked (.attempt hne h)
      | found h hholds =>
        refine .found ?_ ((splits_searched_run_cons hne).mpr (.inl hholds))
        intro hruns
        cases hruns with
        | here _ hb' => exact hb hb'
        | attempt _ h' => exact h h'
        | later _ hmiss _ => exact hmiss hholds
      | missed h hmiss =>
        refine ih.congr ?_ ?_
        · constructor
          · exact fun hruns => .later hne hmiss hruns
          · intro hruns
            cases hruns with
            | here _ hb' => exact absurd hb' hb
            | attempt _ h' => exact absurd h' h
            | later _ _ h' => exact h'
        · rw [splits_searched_run_cons hne]
          exact (or_iff_right hmiss).symm

theorem likeMatchImpl_letter_nil {p : UInt8} (hrun : p ≠ '%'.toUInt8) (pattern : List UInt8) :
    likeMatchImpl (p :: pattern) [] = .ok false := by
  unfold likeMatchImpl
  rw [if_neg hrun]

theorem likeMatchImpl_letter {p : UInt8} (hrun : p ≠ '%'.toUInt8) (pattern : List UInt8)
    (b : UInt8) (text : List UInt8) :
    likeMatchImpl (p :: pattern) (b :: text) =
      if p = '_'.toUInt8 ∨ b = p then likeMatchImpl pattern text else .ok false := by
  rw [likeMatchImpl.eq_def]
  exact if_neg hrun

/-- What the matcher answers, for any bytes. -/
theorem likeMatchImpl_answers (pattern text : List UInt8) :
    Answers (RunsInside (byteTokens pattern) text) (Splits (searched (byteTokens pattern)) text)
      (likeMatchImpl pattern text) := by
  induction pattern generalizing text with
  | nil =>
    rw [likeMatchImpl]
    cases text with
    | nil => exact .found (fun h => by cases h) (splits_nil.mpr rfl)
    | cons b text => exact .missed (fun h => by cases h) fun h => by cases splits_nil.mp h
  | cons p pattern ih =>
    have hcons : ∀ t, byteTokens (p :: pattern) = t :: byteTokens pattern →
        Answers (RunsInside (t :: byteTokens pattern) text)
          (Splits (searched (t :: byteTokens pattern)) text) (likeMatchImpl (p :: pattern) text) →
        Answers (RunsInside (byteTokens (p :: pattern)) text)
          (Splits (searched (byteTokens (p :: pattern))) text)
          (likeMatchImpl (p :: pattern) text) := fun t ht h => ht ▸ h
    by_cases hrun : p = '%'.toUInt8
    · refine hcons .run (by rw [byteTokens_cons, if_pos hrun]) ?_
      unfold likeMatchImpl
      rw [if_pos hrun]
      cases pattern with
      | nil =>
        -- the last `%` takes the rest of the text
        refine .found (fun h => ?_) (splits_runs (by simp [searched]) (by simp [searched]) text)
        cases h <;> contradiction
      | cons p' pattern => exact trySuffixes_answers (by simp) ih text
    · by_cases hone : p = '_'.toUInt8
      · refine hcons .one (by rw [byteTokens_cons, if_neg hrun, if_pos hone]) ?_
        cases text with
        | nil =>
          rw [likeMatchImpl_letter_nil hrun]
          exact .missed (fun h => by cases h) not_splits_one_nil
        | cons b text =>
          rw [likeMatchImpl_letter hrun, if_pos (.inl hone)]
          refine (ih text).congr ⟨.one, fun h => ?_⟩ splits_one_cons.symm
          cases h with
          | one h => exact h
      · refine hcons (.lit p) (by rw [byteTokens_cons, if_neg hrun, if_neg hone]) ?_
        cases text with
        | nil =>
          rw [likeMatchImpl_letter_nil hrun]
          exact .missed (fun h => by cases h) not_splits_lit_nil
        | cons b text =>
          by_cases hsame : b = p
          · subst hsame
            rw [likeMatchImpl_letter hrun, if_pos (.inr rfl)]
            refine (ih text).congr ⟨.lit, fun h => ?_⟩ ?_
            · cases h with
              | lit h => exact h
            · rw [searched, splits_lit_cons]
              exact (and_iff_right rfl).symm
          · rw [likeMatchImpl_letter hrun, if_neg (not_or.mpr ⟨hone, hsame⟩)]
            refine .missed (fun h => ?_) fun h => hsame (splits_lit_cons.mp h).1.symm
            cases h
            exact hsame rfl

/-! ## LIKE does not panic -/

section Theory

variable [Host] [ExprDebug]

/-- Matching the text with the pattern does not panic, nor does a LIKE whose
operands are these strings in upper case. -/
structure LikeSafe (pattern text : String) : Prop where
  search : likeMatchImpl pattern.toUTF8.toList text.toUTF8.toList ≠ .error .panic
  condition : ∀ (columns : List Column) (values : List Value) (negated : Bool)
    (expr patternExpr : Expr) (s p : String),
    evalExpr columns values expr = .ok (.text s) →
    evalExpr columns values patternExpr = .ok (.text p) →
    toUppercase s = text → toUppercase p = pattern →
    evalWhere columns values (.like negated expr patternExpr) ≠ .error .panic

theorem evalWhere_like {columns : List Column} {values : List Value} {negated : Bool}
    {expr patternExpr : Expr} {lv rv : Value} (hl : evalExpr columns values expr = .ok lv)
    (hr : evalExpr columns values patternExpr = .ok rv) :
    evalWhere columns values (.like negated expr patternExpr) =
      (likeMatch lv rv).map fun result => if negated then !result else result := by
  rw [evalWhere, hl, hr]
  show (likeMatch lv rv >>= fun result => pure (if negated then !result else result)) = _
  cases likeMatch lv rv <;> rfl

/-- LIKE panics exactly when a `%` comes to a position inside a character. -/
theorem likeSafe_iff (pattern text : String) :
    LikeSafe pattern text ↔
      ¬ RunsInside (byteTokens pattern.toUTF8.toList) text.toUTF8.toList := by
  have hpanic := (likeMatchImpl_answers pattern.toUTF8.toList text.toUTF8.toList).panic_iff
  constructor
  · exact fun h hruns => h.search (hpanic.mpr hruns)
  · intro hruns
    have hsearch : likeMatchImpl pattern.toUTF8.toList text.toUTF8.toList ≠ .error .panic :=
      fun h => hruns (hpanic.mp h)
    refine ⟨hsearch, ?_⟩
    rintro columns values negated expr patternExpr s p hs hp rfl rfl hwhere
    rw [evalWhere_like hs hp, likeMatch] at hwhere
    cases hresult : likeMatchImpl (toUppercase p).toUTF8.toList (toUppercase s).toUTF8.toList with
    | ok b => rw [hresult] at hwhere; cases hwhere
    | error x =>
      rw [hresult] at hwhere
      cases hwhere
      exact hsearch hresult

end Theory

/-! ## On concrete texts -/

section Concrete

attribute [local instance] asciiHost plainDebug

/-- A `%` that comes to the second byte of `É`. -/
theorem capitalE_panics : ¬ LikeSafe "%A" "ÉA" := by
  intro h
  have hpanic : likeMatchImpl "%A".toUTF8.toList "ÉA".toUTF8.toList = .error .panic := by
    rw [toUTF8_toList, toUTF8_toList]
    decide +kernel
  exact h.search hpanic

end Concrete

end Srrdb.Engine
