/-
Srrdb.Lib.Wildcard — patterns with wildcards over any alphabet.

A pattern is a list of tokens: a letter, any one letter, or any run of
letters. A text matches it when it can be cut into one piece for each token
(`Splits`). The lemmas take a match apart token by token, the way a matcher
reads a pattern. A pattern and a text may also be written in a code, a word for
each letter, and be matched letter by letter of the code.
-/
import Mathlib.Data.List.Forall2
import Mathlib.Data.List.Infix

namespace Srrdb.Lib.Wildcard

/-- A token of a pattern. -/
inductive Token (α : Type) where
  | run
  | one
  | lit (a : α)
  deriving DecidableEq, Repr

variable {α β : Type}

/-- A piece of text that a token takes. -/
def Token.Takes : Token α → List α → Prop
  | .run, _ => True
  | .one, piece => piece.length = 1
  | .lit a, piece => piece = [a]

/-- The text can be cut into pieces, one for each token. -/
def Splits (pattern : List (Token α)) (text : List α) : Prop :=
  ∃ pieces : List (List α), pieces.flatten = text ∧ List.Forall₂ Token.Takes pattern pieces

/-- The tokens of a pattern that is written with two special letters. -/
def tokens [DecidableEq α] (run one : α) (pattern : List α) : List (Token α) :=
  pattern.map fun a => if a = run then .run else if a = one then .one else .lit a

/-! ## One token -/

@[simp] theorem splits_nil {text : List α} : Splits [] text ↔ text = [] := by
  constructor
  · rintro ⟨pieces, rfl, h⟩
    cases h
    rfl
  · rintro rfl
    exact ⟨[], rfl, .nil⟩

theorem splits_cons {t : Token α} {pattern : List (Token α)} {text : List α} :
    Splits (t :: pattern) text ↔
      ∃ piece rest, text = piece ++ rest ∧ t.Takes piece ∧ Splits pattern rest := by
  constructor
  · rintro ⟨pieces, rfl, h⟩
    cases h with
    | @cons _ piece _ rest ht hrest => exact ⟨piece, rest.flatten, rfl, ht, rest, rfl, hrest⟩
  · rintro ⟨piece, rest, rfl, ht, pieces, rfl, hpieces⟩
    exact ⟨piece :: pieces, rfl, .cons ht hpieces⟩

@[simp] theorem splits_lit_cons {a : α} {pattern : List (Token α)} {b : α} {text : List α} :
    Splits (.lit a :: pattern) (b :: text) ↔ a = b ∧ Splits pattern text := by
  rw [splits_cons]
  constructor
  · rintro ⟨piece, rest, htext, rfl, hrest⟩
    cases htext
    exact ⟨rfl, hrest⟩
  · rintro ⟨rfl, hrest⟩
    exact ⟨[a], text, rfl, rfl, hrest⟩

@[simp] theorem not_splits_lit_nil {a : α} {pattern : List (Token α)} :
    ¬ Splits (.lit a :: pattern) [] := by
  rw [splits_cons]
  rintro ⟨piece, rest, htext, rfl, -⟩
  cases htext

@[simp] theorem splits_one_cons {pattern : List (Token α)} {b : α} {text : List α} :
    Splits (.one :: pattern) (b :: text) ↔ Splits pattern text := by
  rw [splits_cons]
  constructor
  · rintro ⟨piece, rest, htext, hone, hrest⟩
    obtain ⟨c, rfl⟩ := List.length_eq_one_iff.mp hone
    cases htext
    exact hrest
  · intro hrest
    exact ⟨[b], text, rfl, rfl, hrest⟩

@[simp] theorem not_splits_one_nil {pattern : List (Token α)} :
    ¬ Splits (.one :: pattern) [] := by
  rw [splits_cons]
  rintro ⟨piece, rest, htext, hone, -⟩
  obtain ⟨c, rfl⟩ := List.length_eq_one_iff.mp hone
  cases htext

/-- A run ends before the text does, or goes on for one more letter. -/
theorem splits_run_cons {pattern : List (Token α)} {b : α} {text : List α} :
    Splits (.run :: pattern) (b :: text) ↔
      Splits pattern (b :: text) ∨ Splits (.run :: pattern) text := by
  rw [splits_cons, splits_cons]
  constructor
  · rintro ⟨piece, rest, htext, -, hrest⟩
    cases piece with
    | nil =>
      cases htext
      exact .inl hrest
    | cons c piece =>
      cases htext
      exact .inr ⟨piece, rest, rfl, trivial, hrest⟩
  · rintro (hrest | ⟨piece, rest, rfl, -, hrest⟩)
    · exact ⟨[], b :: text, rfl, trivial, hrest⟩
    · exact ⟨b :: piece, rest, rfl, trivial, hrest⟩

@[simp] theorem splits_run_nil {pattern : List (Token α)} :
    Splits (.run :: pattern) [] ↔ Splits pattern [] := by
  rw [splits_cons]
  constructor
  · rintro ⟨piece, rest, htext, -, hrest⟩
    obtain ⟨-, rfl⟩ := List.append_eq_nil_iff.mp htext.symm
    exact hrest
  · intro hrest
    exact ⟨[], [], rfl, trivial, hrest⟩

/-! ## Runs -/

/-- A pattern of runs takes every text that it does not have to leave. -/
theorem splits_runs {pattern : List (Token α)} (h : ∀ t ∈ pattern, t = .run) (hne : pattern ≠ [])
    (text : List α) : Splits pattern text := by
  induction pattern generalizing text with
  | nil => exact absurd rfl hne
  | cons t pattern ih =>
    obtain rfl : t = .run := h t List.mem_cons_self
    rw [splits_cons]
    cases pattern with
    | nil => exact ⟨text, [], by simp, trivial, splits_nil.mpr rfl⟩
    | cons t' pattern =>
      exact ⟨text, [], by simp, trivial,
        ih (fun t' ht' => h t' (List.mem_cons_of_mem _ ht')) (List.cons_ne_nil _ _) []⟩

/-- A run leaves some end of the text to the rest of the pattern. -/
theorem splits_run_iff {pattern : List (Token α)} {text : List α} :
    Splits (.run :: pattern) text ↔ ∃ rest, rest <:+ text ∧ Splits pattern rest := by
  rw [splits_cons]
  constructor
  · rintro ⟨piece, rest, rfl, -, hrest⟩
    exact ⟨rest, List.suffix_append piece rest, hrest⟩
  · rintro ⟨rest, ⟨piece, rfl⟩, hrest⟩
    exact ⟨piece, rest, rfl, trivial, hrest⟩

/-- A word of letters stands at the beginning of the text. -/
theorem splits_word_append {word : List α} {pattern : List (Token α)} {text : List α} :
    Splits (word.map .lit ++ pattern) text ↔ ∃ rest, text = word ++ rest ∧ Splits pattern rest := by
  induction word generalizing text with
  | nil => simp
  | cons a word ih =>
    cases text with
    | nil => simp
    | cons b text => simp [ih, and_assoc, eq_comm]

/-- One letter and a run take what is not empty. -/
theorem splits_one_run {text : List α} : Splits [.one, .run] text ↔ text ≠ [] := by
  cases text with
  | nil => simp
  | cons b text =>
    rw [splits_one_cons]
    exact iff_of_true (splits_runs (by simp) (by simp) text) (by simp)

/-- Two patterns after each other take a text in two parts. -/
theorem splits_append {p q : List (Token α)} {text : List α} :
    Splits (p ++ q) text ↔ ∃ front back, text = front ++ back ∧ Splits p front ∧ Splits q back := by
  induction p generalizing text with
  | nil => simp
  | cons t p ih =>
    rw [List.cons_append, splits_cons]
    constructor
    · rintro ⟨piece, rest, rfl, ht, hrest⟩
      obtain ⟨front, back, rfl, hfront, hback⟩ := ih.mp hrest
      exact ⟨piece ++ front, back, by simp, splits_cons.mpr ⟨piece, front, rfl, ht, hfront⟩, hback⟩
    · rintro ⟨front, back, rfl, hfront, hback⟩
      obtain ⟨piece, rest, rfl, ht, hrest⟩ := splits_cons.mp hfront
      exact ⟨piece, rest ++ back, by simp, ht, ih.mpr ⟨rest, back, rfl, hrest, hback⟩⟩

/-! ## Codes -/

/-- A code whose words are told apart from the left, and begin with letters
that stand nowhere else in a word. -/
structure SelfSynchronizing (code : α → List β) (first : β → Prop) : Prop where
  begins : ∀ a, ∃ b word, code a = b :: word ∧ first b ∧ ∀ b' ∈ word, ¬ first b'
  prefixFree : ∀ {a a' : α} {rest rest' : List β},
    code a ++ rest = code a' ++ rest' → a = a' ∧ rest = rest'

/-- A token in a code: the letters of a word one by one. -/
def Token.encode (code : α → List β) : Token α → List (Token β)
  | .run => [.run]
  | .one => [.one]
  | .lit a => (code a).map .lit

section Codes

variable {code : α → List β} {first : β → Prop} (hcode : SelfSynchronizing code first)

include hcode

theorem SelfSynchronizing.flatMap_eq_nil {text : List α} : text.flatMap code = [] ↔ text = [] := by
  rw [List.flatMap_eq_nil_iff]
  constructor
  · intro h
    refine List.eq_nil_iff_forall_not_mem.mpr fun a ha => ?_
    obtain ⟨b, word, hword, -⟩ := hcode.begins a
    rw [h a ha] at hword
    cases hword
  · rintro rfl a ha
    cases ha

theorem SelfSynchronizing.encode_eq_nil {pattern : List (Token α)} :
    pattern.flatMap (Token.encode code) = [] ↔ pattern = [] := by
  rw [List.flatMap_eq_nil_iff]
  constructor
  · intro h
    refine List.eq_nil_iff_forall_not_mem.mpr fun t ht => ?_
    have hnil := h t ht
    cases t with
    | lit a =>
      obtain ⟨b, word, hword, -⟩ := hcode.begins a
      simp [Token.encode, hword] at hnil
    | _ => simp [Token.encode] at hnil
  · rintro rfl t ht
    cases ht

/-- A pattern in a code is of runs only if the pattern is. -/
theorem SelfSynchronizing.encode_runs {pattern : List (Token α)} :
    (∀ t ∈ pattern.flatMap (Token.encode code), t = .run) ↔ ∀ t ∈ pattern, t = .run := by
  simp only [List.mem_flatMap, forall_exists_index, and_imp]
  constructor
  · intro h t ht
    cases t with
    | run => rfl
    | one => exact absurd (h .one .one ht (by simp [Token.encode])) (by simp)
    | lit a =>
      obtain ⟨b, word, hword, -⟩ := hcode.begins a
      exact absurd (h (.lit b) (.lit a) ht (by simp [Token.encode, hword])) (by simp)
  · intro h t t' ht' ht
    rw [h t' ht', Token.encode, List.mem_singleton] at ht
    exact ht

/-- The letters that are special in a written pattern stay so in a code that
has them as words of length one. -/
theorem tokens_flatMap [DecidableEq α] [DecidableEq β] {run one : α} {run' one' : β}
    (hrun : code run = [run']) (hone : code one = [one']) (pattern : List α) :
    tokens run' one' (pattern.flatMap code) =
      (tokens run one pattern).flatMap (Token.encode code) := by
  have hspecial : ∀ {a special : α} {b : β}, code special = [b] → b ∈ code a → a = special := by
    intro a special b hspecial hmem
    obtain ⟨b', word, hword, -, hword'⟩ := hcode.begins a
    obtain ⟨c, _, hc, hfirst, -⟩ := hcode.begins special
    cases hspecial.symm.trans hc
    rw [hword, List.mem_cons] at hmem
    rcases hmem with rfl | hmem
    · have heq : code a ++ [] = code special ++ word := by rw [hword, hspecial]; simp
      exact (hcode.prefixFree heq).1
    · exact absurd hfirst (hword' b hmem)
  rw [tokens, tokens, List.map_flatMap, List.flatMap_map]
  refine List.flatMap_congr fun a _ => ?_
  by_cases ha : a = run
  · rw [if_pos ha, ha, hrun]
    simp [Token.encode]
  by_cases ha' : a = one
  · have hne : one' ≠ run' := by
      rintro rfl
      exact ha (ha'.trans (hspecial hrun (by rw [hone]; exact List.mem_singleton_self _)))
    rw [if_neg ha, if_pos ha', ha', hone]
    simp [Token.encode, hne]
  · rw [if_neg ha, if_neg ha', Token.encode]
    refine List.map_congr_left fun b hb => ?_
    rw [if_neg, if_neg]
    · rintro rfl
      exact ha' (hspecial hone hb)
    · rintro rfl
      exact ha (hspecial hrun hb)

end Codes

end Srrdb.Lib.Wildcard
