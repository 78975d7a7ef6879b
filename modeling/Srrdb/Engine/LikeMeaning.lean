/-
Srrdb.Engine.LikeMeaning — when LIKE means what it says.

A `%` takes any run of characters, a `_` one character (`Means`). The matcher
counts bytes, so a `_` that comes to a character of several goes on inside it
(`MeetsWide`); the last two `%` of a pattern want a byte to be left
(`RunsAtEnd`); and a `%` that comes to a position inside a character panics
before it finds the text (`RunsInside`). Where none of the three happens
(`Harmless`), LIKE answers as it means.

UTF-8 is self-synchronizing, so a search that starts inside a character finds
nothing as long as each `_` comes to a character of one byte.
-/
import Srrdb.Engine.Like

namespace Srrdb.Engine

open Srrdb.Sql Srrdb.Lib.Utf8 Srrdb.Lib.Wildcard

/-! ## The runs at the end -/

section Ends

variable {α : Type} [DecidableEq α]

/-- Only a pattern that ends in two runs is taken otherwise than written. -/
theorem searched_eq_self {pattern : List (Token α)} (h : ¬ [.run, .run] <:+ pattern) :
    searched pattern = pattern := by
  induction pattern with
  | nil => rfl
  | cons t pattern ih =>
    have hrest := ih fun hsuffix => h (hsuffix.trans (List.suffix_cons t pattern))
    cases t with
    | run =>
      rw [searched, if_neg, hrest]
      rintro ⟨hne, hruns⟩
      obtain ⟨n, hn⟩ : ∃ n, pattern = List.replicate (n + 1) .run := by
        refine ⟨pattern.length - 1, List.eq_replicate_iff.mpr ⟨?_, hruns⟩⟩
        have := List.length_pos_of_ne_nil hne
        omega
      refine h ⟨List.replicate n .run, ?_⟩
      rw [hn, ← List.replicate_succ,
        show [Token.run, .run] = List.replicate 2 (.run : Token α) from rfl, ← List.replicate_add]
    | one => rw [searched, hrest]
    | lit a => rw [searched, hrest]

/-- Two runs at the end want a letter behind what stands before them. -/
theorem splits_searched_runs {before : List (Token α)} {text : List α} :
    Splits (searched (before ++ [.run, .run])) text ↔
      ∃ front back, text = front ++ back ∧ Splits before front ∧ back ≠ [] := by
  induction before generalizing text with
  | nil =>
    rw [List.nil_append, searched, if_pos (by simp), splits_one_run]
    constructor
    · intro hne
      exact ⟨[], text, rfl, splits_nil.mpr rfl, hne⟩
    · rintro ⟨front, back, rfl, -, hne⟩
      simp [hne]
  | cons t before ih =>
    rw [List.cons_append]
    have hcons : searched (t :: (before ++ [.run, .run])) =
          t :: searched (before ++ [.run, .run]) →
        (Splits (searched (t :: (before ++ [.run, .run]))) text ↔
          ∃ front back, text = front ++ back ∧ Splits (t :: before) front ∧ back ≠ []) := by
      intro heq
      rw [heq, splits_cons]
      constructor
      · rintro ⟨piece, rest, rfl, ht, hrest⟩
        obtain ⟨front, back, rfl, hfront, hne⟩ := ih.mp hrest
        exact ⟨piece ++ front, back, by simp, splits_cons.mpr ⟨piece, front, rfl, ht, hfront⟩, hne⟩
      · rintro ⟨front, back, rfl, hfront, hne⟩
        obtain ⟨piece, rest, rfl, ht, hrest⟩ := splits_cons.mp hfront
        exact ⟨piece, rest ++ back, by simp, ht, ih.mpr ⟨rest, back, rfl, hrest, hne⟩⟩
    cases t with
    | run =>
      by_cases hruns : ∀ t ∈ before, t = .run
      · have hall : ∀ t ∈ before ++ [.run, .run], t = (.run : Token α) := by
          simpa [or_imp, forall_and] using hruns
        rw [searched, if_pos ⟨by simp, hall⟩, splits_one_run]
        constructor
        · intro hne
          exact ⟨[], text, rfl, splits_runs (by simpa using hruns) (by simp) [], hne⟩
        · rintro ⟨front, back, rfl, -, hne⟩
          simp [hne]
      · refine hcons ?_
        rw [searched, if_neg fun h => hruns fun t ht => h.2 t (by simp [ht])]
    | one => exact hcons rfl
    | lit a => exact hcons rfl

/-- Two runs at the end come to the end of the text only: what stands before
them takes the whole text and no less. -/
def RunsAtEnd (pattern : List (Token α)) (text : List α) : Prop :=
  ∃ before, pattern = before ++ [.run, .run] ∧ Splits before text ∧
    ∀ front back, text = front ++ back → back ≠ [] → ¬ Splits before front

omit [DecidableEq α] in
theorem RunsAtEnd.splits {pattern : List (Token α)} {text : List α} (h : RunsAtEnd pattern text) :
    Splits pattern text := by
  obtain ⟨before, rfl, hbefore, -⟩ := h
  exact splits_append.mpr ⟨text, [], by simp, hbefore, splits_runs (by simp) (by simp) []⟩

/-- A pattern finds what it takes, unless two runs at its end stand against it. -/
theorem splits_searched_iff {pattern : List (Token α)} {text : List α} :
    Splits (searched pattern) text ↔ Splits pattern text ∧ ¬ RunsAtEnd pattern text := by
  by_cases hend : [.run, .run] <:+ pattern
  · obtain ⟨before, rfl⟩ := hend
    have hsplits : Splits (before ++ [.run, .run]) text ↔
        ∃ front back, text = front ++ back ∧ Splits before front := by
      rw [splits_append]
      refine exists_congr fun front => exists_congr fun back => ?_
      rw [and_iff_left (splits_runs (by simp) (by simp) back)]
    rw [splits_searched_runs, hsplits]
    constructor
    · rintro ⟨front, back, htext, hfront, hne⟩
      refine ⟨⟨front, back, htext, hfront⟩, ?_⟩
      rintro ⟨before', heq, -, hnone⟩
      obtain rfl := List.append_cancel_right heq
      exact hnone front back htext hne hfront
    · rintro ⟨⟨front, back, htext, hfront⟩, hnot⟩
      by_cases hne : back = []
      · rw [hne, List.append_nil] at htext
        by_contra hnone
        refine hnot ⟨before, rfl, htext ▸ hfront, fun front' back' h hne' h' => ?_⟩
        exact hnone ⟨front', back', h, h', hne'⟩
      · exact ⟨front, back, htext, hfront, hne⟩
  · rw [searched_eq_self hend]
    refine (and_iff_left ?_).symm
    rintro ⟨before, rfl, -⟩
    exact hend (List.suffix_append _ _)

/-! ## A `_` that comes to a character of several bytes -/

/-- In the order of the search, a `_` comes to a letter that is wide. -/
inductive MeetsWide (wide : α → Prop) : List (Token α) → List α → Prop
  | here {pattern : List (Token α)} {a : α} {text : List α} (ha : wide a) :
      MeetsWide wide (.one :: pattern) (a :: text)
  | attempt {pattern : List (Token α)} {a : α} {text : List α} (hne : pattern ≠ [])
      (h : MeetsWide wide pattern (a :: text)) : MeetsWide wide (.run :: pattern) (a :: text)
  | later {pattern : List (Token α)} {a : α} {text : List α} (hne : pattern ≠ [])
      (hmiss : ¬ Splits (searched pattern) (a :: text))
      (h : MeetsWide wide (.run :: pattern) text) :
      MeetsWide wide (.run :: pattern) (a :: text)
  | one {pattern : List (Token α)} {a : α} {text : List α} (h : MeetsWide wide pattern text) :
      MeetsWide wide (.one :: pattern) (a :: text)
  | lit {pattern : List (Token α)} {a : α} {text : List α} (h : MeetsWide wide pattern text) :
      MeetsWide wide (.lit a :: pattern) (a :: text)

theorem MeetsWide.exists_wide {wide : α → Prop} {pattern : List (Token α)} {text : List α}
    (h : MeetsWide wide pattern text) : ∃ a ∈ text, wide a := by
  induction h with
  | here ha => exact ⟨_, List.mem_cons_self, ha⟩
  | attempt _ _ ih => exact ih
  | later _ _ _ ih | one _ ih | lit _ ih =>
    obtain ⟨a, ha, hwide⟩ := ih
    exact ⟨a, List.mem_cons_of_mem _ ha, hwide⟩

end Ends

section Codes

variable {α β : Type} [DecidableEq α] [DecidableEq β] {code : α → List β} {first : β → Prop}
  {pattern : List (Token α)} {text : List α}

omit [DecidableEq α] in
theorem searched_word_append (word : List β) (pattern : List (Token β)) :
    searched (word.map .lit ++ pattern) = word.map .lit ++ searched pattern := by
  induction word with
  | nil => rfl
  | cons b word ih => rw [List.map_cons, List.cons_append, searched, ih, List.cons_append]

/-- From inside a word the rest of the pattern takes nothing. -/
theorem not_splits_inside (hcode : SelfSynchronizing code first) {a : α} {b : β}
    {word piece : List β} (hword : code a = b :: word) (hinside : piece <:+ word)
    (hpiece : piece ≠ []) (hne : pattern ≠ []) (hruns : ¬ ∀ t ∈ pattern, t = .run)
    (hmeets : ¬ MeetsWide (fun a => (code a).length ≠ 1) (.run :: pattern) (a :: text))
    (hmiss : ¬ Splits (searched (pattern.flatMap (Token.encode code))) ((a :: text).flatMap code)) :
    ¬ Splits (searched (pattern.flatMap (Token.encode code))) (piece ++ text.flatMap code) := by
  intro h
  obtain ⟨b', piece', rfl⟩ := List.exists_cons_of_ne_nil hpiece
  have hb' : ¬ first b' := by
    obtain ⟨_, _, hword', -, hrest⟩ := hcode.begins a
    cases hword.symm.trans hword'
    exact hrest b' (hinside.mem List.mem_cons_self)
  cases pattern with
  | nil => exact hne rfl
  | cons t pattern =>
    rw [List.flatMap_cons] at h hmiss
    cases t with
    | run =>
      -- a run that takes up inside the word could have taken the word
      have hlater : ¬ ∀ t ∈ pattern.flatMap (Token.encode code), t = .run := by
        rw [hcode.encode_runs]
        exact fun h => hruns (List.forall_mem_cons.mpr ⟨rfl, h⟩)
      rw [Token.encode, List.singleton_append, searched, if_neg fun h => hlater h.2] at h hmiss
      rw [splits_run_iff] at h hmiss
      obtain ⟨rest, hrest, hsplits⟩ := h
      refine hmiss ⟨rest, hrest.trans ?_, hsplits⟩
      rw [List.flatMap_cons, hword]
      obtain ⟨before, hbefore⟩ := hinside
      exact ⟨b :: before, by rw [← hbefore]; simp⟩
    | one =>
      refine hmeets (.attempt hne (.here ?_))
      obtain ⟨before, hbefore⟩ := hinside
      rw [hword, ← hbefore]
      simp
    | lit c =>
      obtain ⟨b'', word', hword', hfirst, -⟩ := hcode.begins c
      rw [Token.encode, searched_word_append, splits_word_append, hword'] at h
      obtain ⟨rest, heq, -⟩ := h
      exact hb' ((List.cons.inj heq).1 ▸ hfirst)

/-- A run that finds nothing at a letter goes on behind its word. -/
theorem splits_run_word (hcode : SelfSynchronizing code first) {a : α} (hne : pattern ≠ [])
    (hruns : ¬ ∀ t ∈ pattern, t = .run)
    (hmeets : ¬ MeetsWide (fun a => (code a).length ≠ 1) (.run :: pattern) (a :: text))
    (hmiss : ¬ Splits (searched (pattern.flatMap (Token.encode code))) ((a :: text).flatMap code)) :
    Splits (.run :: searched (pattern.flatMap (Token.encode code))) ((a :: text).flatMap code) ↔
      Splits (.run :: searched (pattern.flatMap (Token.encode code))) (text.flatMap code) := by
  rw [splits_run_iff, splits_run_iff]
  obtain ⟨b, word, hword, -, -⟩ := hcode.begins a
  constructor
  · rintro ⟨rest, hrest, hsplits⟩
    refine ⟨rest, ?_, hsplits⟩
    rw [List.flatMap_cons] at hrest
    rcases List.suffix_or_suffix_of_suffix hrest
      (List.suffix_append (code a) (text.flatMap code)) with h' | ⟨piece, rfl⟩
    · exact h'
    · rw [List.suffix_append_self_iff, hword, List.suffix_cons_iff] at hrest
      rcases hrest with rfl | hinside
      · rw [List.flatMap_cons, hword] at hmiss
        exact absurd hsplits hmiss
      · by_cases hpiece : piece = []
        · simp [hpiece]
        · exact absurd hsplits (not_splits_inside hcode hword hinside hpiece hne hruns hmeets hmiss)
  · rintro ⟨rest, hrest, hsplits⟩
    refine ⟨rest, hrest.trans ?_, hsplits⟩
    rw [List.flatMap_cons]
    exact List.suffix_append _ _

/-- As long as no `_` comes to a letter of several, a search in a code finds
what a search for the letters finds. -/
theorem splits_searched_encode_iff (hcode : SelfSynchronizing code first)
    (h : ¬ MeetsWide (fun a => (code a).length ≠ 1) pattern text) :
    Splits (searched (pattern.flatMap (Token.encode code))) (text.flatMap code) ↔
      Splits (searched pattern) text := by
  induction pattern generalizing text with
  | nil => rw [List.flatMap_nil, searched, searched, splits_nil, splits_nil, hcode.flatMap_eq_nil]
  | cons t pattern ih =>
    rw [List.flatMap_cons]
    cases t with
    | run =>
      rw [Token.encode, List.singleton_append]
      by_cases hruns : ∀ t ∈ pattern, t = .run
      · by_cases hne : pattern = []
        · subst hne
          exact iff_of_true (splits_runs (by simp [searched]) (by simp [searched]) _)
            (splits_runs (by simp [searched]) (by simp [searched]) _)
        · have hne' := mt hcode.encode_eq_nil.mp hne
          rw [searched, if_pos ⟨hne', hcode.encode_runs.mpr hruns⟩, searched,
            if_pos ⟨hne, hruns⟩, splits_one_run, splits_one_run, ne_eq, hcode.flatMap_eq_nil]
      · have hne : pattern ≠ [] := by
          rintro rfl
          exact hruns (List.forall_mem_nil _)
        have hruns' := mt hcode.encode_runs.mp hruns
        have hsearched : searched (.run :: pattern) = .run :: searched pattern := by
          rw [searched, if_neg fun h => hruns h.2]
        rw [searched, if_neg fun h => hruns' h.2, hsearched]
        induction text with
        | nil =>
          have hnil := @ih [] fun h => by cases h
          rw [List.flatMap_nil] at hnil ⊢
          rwa [splits_run_nil, splits_run_nil]
        | cons a text iht =>
          have hhere := ih fun h' => h (.attempt hne h')
          by_cases hhit : Splits (searched pattern) (a :: text)
          · refine iff_of_true ?_ (splits_run_cons.mpr (.inl hhit))
            exact splits_run_iff.mpr ⟨_, List.suffix_refl _, hhere.mpr hhit⟩
          · have hlater := iht fun h' => h (.later hne hhit h')
            refine (splits_run_word hcode hne hruns h (mt hhere.mp hhit)).trans ?_
            exact hlater.trans ((or_iff_right hhit).symm.trans splits_run_cons.symm)
    | one =>
      rw [Token.encode, List.singleton_append]
      cases text with
      | nil => simp [searched]
      | cons a text =>
        have hlen : (code a).length = 1 := by
          by_contra hwide
          exact h (.here hwide)
        obtain ⟨b, hb⟩ := List.length_eq_one_iff.mp hlen
        rw [List.flatMap_cons, hb, List.singleton_append, searched, searched, splits_one_cons,
          splits_one_cons]
        exact ih fun h' => h (.one h')
    | lit a =>
      rw [Token.encode, searched_word_append, searched, splits_word_append]
      cases text with
      | nil =>
        refine iff_of_false ?_ not_splits_lit_nil
        rintro ⟨rest, hnil, -⟩
        obtain ⟨b, word, hword, -⟩ := hcode.begins a
        rw [hword] at hnil
        cases hnil
      | cons a' text =>
        rw [splits_lit_cons, List.flatMap_cons]
        constructor
        · rintro ⟨rest, heq, hsplits⟩
          obtain ⟨rfl, rfl⟩ := hcode.prefixFree heq
          exact ⟨rfl, (ih fun h' => h (.lit h')).mp hsplits⟩
        · rintro ⟨rfl, hsplits⟩
          exact ⟨_, rfl, (ih fun h' => h (.lit h')).mpr hsplits⟩

end Codes

/-! ## Characters and bytes -/

/-- The characters of a pattern as tokens. -/
def charTokens (pattern : List Char) : List (Token Char) := tokens '%' '_' pattern

/-- The pattern is searched in the bytes as in the characters, if its `_` come
to characters of one byte only. -/
theorem splits_byteTokens_iff {pattern text : String}
    (h : ¬ MeetsWide (fun c => c.utf8Size ≠ 1) (charTokens pattern.toList) text.toList) :
    Splits (searched (byteTokens pattern.toUTF8.toList)) text.toUTF8.toList ↔
      Splits (searched (charTokens pattern.toList)) text.toList := by
  have hcode := selfSynchronizing_utf8EncodeChar
  have hrun : String.utf8EncodeChar '%' = ['%'.toUInt8] := by decide
  have hone : String.utf8EncodeChar '_' = ['_'.toUInt8] := by decide
  rw [toUTF8_toList, toUTF8_toList, byteTokens, tokens_flatMap hcode hrun hone]
  refine splits_searched_encode_iff hcode ?_
  simpa only [String.length_utf8EncodeChar, charTokens] using h

theorem RunsInside.exists_continuation {pattern : List (Token UInt8)} {text : List UInt8}
    (h : RunsInside pattern text) : ∃ b ∈ text, isContinuation b.toNat = true := by
  induction h with
  | here _ hb => exact ⟨_, List.mem_cons_self, hb⟩
  | attempt _ _ ih => exact ih
  | later _ _ _ ih | one _ ih | lit _ ih =>
    obtain ⟨b, hb, hcont⟩ := ih
    exact ⟨b, List.mem_cons_of_mem _ hb, hcont⟩

/-- An ASCII text has no positions inside characters. -/
theorem not_runsInside_of_ascii {pattern : List (Token UInt8)} {text : String}
    (ht : ∀ c ∈ text.toList, c.toNat < 128) : ¬ RunsInside pattern text.toUTF8.toList := by
  intro h
  obtain ⟨b, hb, hcont⟩ := h.exists_continuation
  rw [toUTF8_toList] at hb
  obtain ⟨c, hc, hbyte⟩ := List.mem_flatMap.mp hb
  have hlt := lt_of_mem_utf8EncodeChar (ht c hc) hbyte
  simp [isContinuation] at hcont
  omega

/-! ## LIKE means what it says -/

section Theory

variable [Host]

/-- The pattern of a LIKE, in upper case, takes the text: some run of
characters for each `%`, one character for each `_`. -/
def Means (pattern text : String) : Prop :=
  Splits (charTokens (toUppercase pattern).toList) (toUppercase text).toList

/-- No `_` comes to a character of several bytes, the pattern does not end in
two `%` for which nothing is left, and if the text matches, no `%` comes to a
position inside a character. -/
structure Harmless (pattern text : String) : Prop where
  one : ¬ MeetsWide (fun c => c.utf8Size ≠ 1) (charTokens (toUppercase pattern).toList)
    (toUppercase text).toList
  last : ¬ RunsAtEnd (charTokens (toUppercase pattern).toList) (toUppercase text).toList
  inside : Means pattern text →
    ¬ RunsInside (byteTokens (toUppercase pattern).toUTF8.toList) (toUppercase text).toUTF8.toList

theorem likeMatch_eq_true_iff (pattern text : String) :
    likeMatch (.text text) (.text pattern) = .ok true ↔
      ¬ RunsInside (byteTokens (toUppercase pattern).toUTF8.toList)
          (toUppercase text).toUTF8.toList ∧
        Splits (searched (byteTokens (toUppercase pattern).toUTF8.toList))
          (toUppercase text).toUTF8.toList :=
  (likeMatchImpl_answers _ _).true_iff

/-- LIKE means what it says where nothing stands against it. Where no `_` comes
to a character of several bytes, it does so nowhere else. -/
theorem like_means_iff (pattern text : String) :
    (Harmless pattern text →
      (likeMatch (.text text) (.text pattern) = .ok true ↔ Means pattern text)) ∧
    (¬ MeetsWide (fun c => c.utf8Size ≠ 1) (charTokens (toUppercase pattern).toList)
        (toUppercase text).toList →
      ((likeMatch (.text text) (.text pattern) = .ok true ↔ Means pattern text) ↔
        Harmless pattern text)) := by
  have hiff : ¬ MeetsWide (fun c => c.utf8Size ≠ 1) (charTokens (toUppercase pattern).toList)
      (toUppercase text).toList →
      ((likeMatch (.text text) (.text pattern) = .ok true ↔ Means pattern text) ↔
        Harmless pattern text) := by
    intro hone
    rw [likeMatch_eq_true_iff, splits_byteTokens_iff hone, splits_searched_iff]
    constructor
    · intro h
      refine ⟨hone, fun hend => ?_, fun hmeans => (h.mpr hmeans).1⟩
      exact (h.mpr hend.splits).2.2 hend
    · intro h
      exact ⟨fun hfound => hfound.2.1, fun hmeans => ⟨h.inside hmeans, hmeans, h.last⟩⟩
  exact ⟨fun h => (hiff h.one).mpr h, hiff⟩

/-- Nothing stands against it in a text that is ASCII in upper case, for a
pattern that does not end in two `%`. -/
theorem harmless_of_ascii {pattern text : String}
    (ht : ∀ c ∈ (toUppercase text).toList, c.toNat < 128)
    (hend : ¬ [.run, .run] <:+ charTokens (toUppercase pattern).toList) :
    Harmless pattern text := by
  refine ⟨fun hmeets => ?_, ?_, fun _ => not_runsInside_of_ascii ht⟩
  · obtain ⟨c, hc, hwide⟩ := hmeets.exists_wide
    rw [← String.length_utf8EncodeChar] at hwide
    exact hwide (length_utf8EncodeChar_ascii (ht c hc))
  · rintro ⟨before, heq, -⟩
    exact hend (heq ▸ List.suffix_append _ _)

end Theory

section Concrete

attribute [local instance] asciiHost

/-- `É` is one character and does not match `_`. -/
theorem capitalE_not_one : ¬ (likeMatch (.text "É") (.text "_") = .ok true ↔ Means "_" "É") := by
  have hlike : likeMatch (.text "É") (.text "_") = .ok false := by
    rw [likeMatch, toUTF8_toList, toUTF8_toList]
    decide +kernel
  have hmeans : Means "_" "É" := by
    refine ⟨[['É']], by decide +kernel, ?_⟩
    rw [show charTokens (toUppercase "_").toList = [.one] by decide +kernel]
    exact .cons rfl .nil
  rw [hlike]
  exact fun h => absurd (h.mpr hmeans) (by simp)

end Concrete

end Srrdb.Engine
