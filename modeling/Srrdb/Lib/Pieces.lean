/-
Srrdb.Lib.Pieces — a list cut at a separator, the pieces without the blanks
around them and the empty ones left out.

Cutting at one separator is cutting on both sides of it (`pieces_append_sep`),
and blanks and separators at the ends change nothing (`pieces_strip`). So a list
has no piece exactly if there is nothing else in it (`pieces_eq_nil_iff`), and
one exactly if no separator stands between the rest (`pieces_eq_singleton_iff`).
-/
import Mathlib.Data.List.DropRight

namespace Srrdb.Lib

/-! ## Blanks at the ends -/

section Strip

variable {α : Type} (blank : α → Bool)

/-- A list without the blanks at its ends. -/
def strip (l : List α) : List α := (l.dropWhile blank).rdropWhile blank

theorem strip_eq_nil_iff {l : List α} : strip blank l = [] ↔ ∀ x ∈ l, blank x := by
  constructor
  · intro h
    by_contra hx
    have hdrop : l.dropWhile blank ≠ [] := fun hnil => hx (List.dropWhile_eq_nil_iff.mp hnil)
    have hhead := List.head_dropWhile_not blank hdrop
    have hall := List.rdropWhile_eq_nil_iff.mp h _ (List.head_mem hdrop)
    rw [hhead] at hall
    cases hall
  · intro h
    rw [strip, List.dropWhile_eq_nil_iff.mpr h, List.rdropWhile_nil]

variable {blank}

theorem strip_cons {x : α} (hx : blank x = true) (l : List α) :
    strip blank (x :: l) = strip blank l := by
  rw [strip, List.dropWhile_cons_of_pos hx, strip]

theorem strip_concat {x : α} (hx : blank x = true) (l : List α) :
    strip blank (l ++ [x]) = strip blank l := by
  rw [strip, strip, List.dropWhile_append]
  split
  · next hnil =>
    rw [List.isEmpty_iff.mp hnil, List.dropWhile_cons_of_pos hx, List.dropWhile_nil]
  · exact List.rdropWhile_concat_pos blank _ x hx

theorem strip_append_left {front : List α} (h : ∀ x ∈ front, blank x = true) (l : List α) :
    strip blank (front ++ l) = strip blank l := by
  rw [strip, List.dropWhile_append_of_pos h, strip]

theorem strip_append_right {back : List α} (h : ∀ x ∈ back, blank x = true) (l : List α) :
    strip blank (l ++ back) = strip blank l := by
  induction back using List.reverseRecOn with
  | nil => rw [List.append_nil]
  | append_singleton back x ih =>
    have hx := h x (List.mem_append_right _ (List.mem_singleton_self x))
    rw [← List.append_assoc, strip_concat hx, ih fun y hy => h y (List.mem_append_left _ hy)]

theorem length_strip_le (l : List α) : (strip blank l).length ≤ l.length :=
  (List.rdropWhile_prefix blank _).length_le.trans (List.dropWhile_suffix blank).length_le

/-- What is left begins and ends with no blank, nor with any of fewer blanks. -/
theorem strip_strip (blank blank' : α → Bool) (h : ∀ x, blank x = true → blank' x = true)
    (l : List α) : strip blank (strip blank' l) = strip blank' l := by
  have hfront : (strip blank' l).dropWhile blank = strip blank' l := by
    obtain ⟨tail, htail⟩ := List.rdropWhile_prefix blank' (l := l.dropWhile blank')
    change strip blank' l ++ tail = _ at htail
    cases hs : strip blank' l with
    | nil => rfl
    | cons x rest =>
      have hnot := List.head?_dropWhile_not blank' l
      rw [← htail, hs] at hnot
      refine List.dropWhile_cons_of_neg fun hx => ?_
      exact absurd (h x hx) (by simpa using hnot)
  rw [strip, hfront, List.rdropWhile_eq_self_iff]
  intro hl hx
  exact List.rdropWhile_last_not blank' _ hl (h _ hx)

end Strip

/-! ## Pieces -/

section Pieces

variable {α : Type} [DecidableEq α] (sep : α) (blank : α → Bool)

/-- The pieces between separators, stripped, without the empty ones. -/
def pieces (l : List α) : List (List α) :=
  ((l.splitOn sep).map (strip blank)).filter fun piece => !piece.isEmpty

/-- A blank or the separator. -/
def blankOrSep (x : α) : Bool := blank x || x = sep

variable {sep blank}

theorem blankOrSep_iff {x : α} : blankOrSep sep blank x = true ↔ blank x = true ∨ x = sep := by
  rw [blankOrSep, Bool.or_eq_true, decide_eq_true_iff]

theorem pieces_append_sep (l l' : List α) :
    pieces sep blank (l ++ sep :: l') = pieces sep blank l ++ pieces sep blank l' := by
  rw [pieces, List.splitOn_append_cons_self, List.map_append, List.filter_append, pieces, pieces]

theorem pieces_of_not_mem {l : List α} (h : sep ∉ l) :
    pieces sep blank l = if strip blank l = [] then [] else [strip blank l] := by
  rw [pieces, List.splitOn_eq_singleton h, List.map_singleton]
  by_cases hnil : strip blank l = []
  · rw [hnil]
    rfl
  · rw [if_neg hnil]
    exact List.filter_cons_of_pos (by simpa using hnil)

theorem pieces_nil : pieces sep blank [] = [] :=
  pieces_of_not_mem List.not_mem_nil

/-- The pieces of a joined list are those of its parts. -/
theorem pieces_intercalate (parts : List (List α)) :
    pieces sep blank ([sep].intercalate parts) = parts.flatMap (pieces sep blank) := by
  induction parts with
  | nil => exact pieces_nil
  | cons part parts ih =>
    cases parts with
    | nil => simp [List.intercalate]
    | cons next parts =>
      have hjoin : [sep].intercalate (part :: next :: parts) =
          part ++ sep :: [sep].intercalate (next :: parts) := by
        simp [List.intercalate]
      rw [hjoin, pieces_append_sep, ih]
      rfl

/-- Whether a list has a separator or not, one induction serves: the first
separator is taken off, and the list before it has none. -/
theorem sep_induction (sep : α) {motive : List α → Prop} (piece : ∀ l, sep ∉ l → motive l)
    (cut : ∀ l l', sep ∉ l → motive l' → motive (l ++ sep :: l')) (l : List α) : motive l := by
  induction hn : l.length using Nat.strong_induction_on generalizing l with
  | _ n ih =>
    by_cases hmem : sep ∈ l
    · obtain ⟨first, rest, rfl, hfirst⟩ := List.eq_append_cons_of_mem hmem
      refine cut first rest hfirst (ih rest.length ?_ rest rfl)
      rw [← hn, List.length_append, List.length_cons]
      omega
    · exact piece l hmem

theorem pieces_cons {x : α} (hx : blankOrSep sep blank x = true) (l : List α) :
    pieces sep blank (x :: l) = pieces sep blank l := by
  by_cases hsep : x = sep
  · subst hsep
    rw [← List.nil_append (x :: l), pieces_append_sep, pieces_nil, List.nil_append]
  have hblank := (blankOrSep_iff.mp hx).resolve_right hsep
  have hpiece : ∀ first, sep ∉ first →
      pieces sep blank (x :: first) = pieces sep blank first := by
    intro first hfirst
    have hmem : sep ∉ x :: first := List.not_mem_cons_of_ne_of_not_mem (Ne.symm hsep) hfirst
    rw [pieces_of_not_mem hmem, pieces_of_not_mem hfirst, strip_cons hblank]
  cases l using sep_induction sep with
  | piece l hl => exact hpiece l hl
  | cut l l' hl =>
    rw [← List.cons_append, pieces_append_sep, pieces_append_sep, hpiece l hl]

theorem pieces_concat {x : α} (hx : blankOrSep sep blank x = true) (l : List α) :
    pieces sep blank (l ++ [x]) = pieces sep blank l := by
  by_cases hsep : x = sep
  · subst hsep
    rw [pieces_append_sep, pieces_nil, List.append_nil]
  have hblank := (blankOrSep_iff.mp hx).resolve_right hsep
  induction l using sep_induction sep with
  | piece l hl =>
    have hmem : sep ∉ l ++ [x] := by
      rw [List.mem_append, List.mem_singleton]
      exact not_or.mpr ⟨hl, Ne.symm hsep⟩
    rw [pieces_of_not_mem hmem, pieces_of_not_mem hl, strip_concat hblank]
  | cut l l' hl ih =>
    rw [List.append_assoc, List.cons_append, pieces_append_sep, pieces_append_sep, ih]

/-- Blanks and separators at the ends are in no piece. -/
theorem pieces_strip (l : List α) :
    pieces sep blank (strip (blankOrSep sep blank) l) = pieces sep blank l := by
  have hfront : ∀ l, pieces sep blank (l.dropWhile (blankOrSep sep blank)) =
      pieces sep blank l := by
    intro l
    induction l with
    | nil => rfl
    | cons x l ih =>
      rw [List.dropWhile_cons]
      split
      · next hx => rw [ih, pieces_cons hx]
      · rfl
  have hback : ∀ l, pieces sep blank (l.rdropWhile (blankOrSep sep blank)) =
      pieces sep blank l := by
    intro l
    induction l using List.reverseRecOn with
    | nil => rfl
    | append_singleton l x ih =>
      rw [List.rdropWhile_concat]
      split
      · next hx => rw [ih, pieces_concat hx]
      · rfl
  rw [strip, hback, hfront]

/-- No piece, and nothing but blanks and separators. -/
theorem pieces_eq_nil_iff {l : List α} :
    pieces sep blank l = [] ↔ ∀ x ∈ l, blankOrSep sep blank x = true := by
  have hpiece : ∀ l, sep ∉ l →
      (pieces sep blank l = [] ↔ ∀ x ∈ l, blankOrSep sep blank x = true) := by
    intro l hl
    rw [pieces_of_not_mem hl, ite_eq_left_iff]
    constructor
    · intro h x hx
      have hnil := by_contra fun hne => List.cons_ne_nil _ _ (h hne)
      exact blankOrSep_iff.mpr (.inl ((strip_eq_nil_iff blank).mp hnil x hx))
    · intro h hne
      refine absurd ((strip_eq_nil_iff blank).mpr fun x hx => ?_) hne
      exact (blankOrSep_iff.mp (h x hx)).resolve_right fun heq => hl (heq ▸ hx)
  induction l using sep_induction sep with
  | piece l hl => exact hpiece l hl
  | cut l l' hl ih =>
    rw [pieces_append_sep, List.append_eq_nil_iff, hpiece l hl, propext ih,
      List.forall_mem_append, List.forall_mem_cons]
    exact and_congr_right fun _ => (and_iff_right (blankOrSep_iff.mpr (.inr rfl))).symm

/-- What begins and ends with no blank or separator has a piece before and one
after every separator in it. -/
theorem pieces_beside_sep {first rest : List α}
    (h : strip (blankOrSep sep blank) (first ++ sep :: rest) = first ++ sep :: rest) :
    pieces sep blank first ≠ [] ∧ pieces sep blank rest ≠ [] := by
  have hsep : blankOrSep sep blank sep = true := blankOrSep_iff.mpr (.inr rfl)
  have hlength := congrArg List.length h
  rw [List.length_append, List.length_cons] at hlength
  constructor
  · intro hnil
    rw [strip_append_left (pieces_eq_nil_iff.mp hnil), strip_cons hsep] at hlength
    have hle : (strip (blankOrSep sep blank) rest).length ≤ rest.length := length_strip_le rest
    omega
  · intro hnil
    rw [List.append_cons, strip_append_right (pieces_eq_nil_iff.mp hnil),
      strip_concat hsep] at hlength
    have hle : (strip (blankOrSep sep blank) first).length ≤ first.length :=
      length_strip_le first
    omega

/-- One piece, and no separator between what is not blank at its ends. -/
theorem pieces_eq_singleton_iff {l piece : List α} :
    pieces sep blank l = [piece] ↔
      piece ≠ [] ∧ strip (blankOrSep sep blank) l = piece ∧ sep ∉ piece := by
  have hstrip := strip_strip (blankOrSep sep blank) _ (fun _ h => h) l
  have hpiece := strip_strip blank (blankOrSep sep blank)
    (fun x h => blankOrSep_iff.mpr (.inl h)) l
  rw [← pieces_strip]
  revert hstrip hpiece
  generalize strip (blankOrSep sep blank) l = core
  intro hstrip hpiece
  by_cases hsep : sep ∈ core
  · refine iff_of_false ?_ fun h => h.2.2 (h.2.1 ▸ hsep)
    obtain ⟨first, rest, rfl, -⟩ := List.eq_append_cons_of_mem hsep
    obtain ⟨hfirst, hrest⟩ := pieces_beside_sep hstrip
    rw [pieces_append_sep]
    intro h
    have hlength := congrArg List.length h
    have hfirst := List.length_pos_iff.mpr hfirst
    have hrest := List.length_pos_iff.mpr hrest
    rw [List.length_append, List.length_singleton] at hlength
    omega
  · rw [pieces_of_not_mem hsep, hpiece]
    by_cases hnil : core = []
    · rw [if_pos hnil]
      refine iff_of_false (List.cons_ne_nil _ _).symm fun h => h.1 ?_
      rw [← h.2.1, hnil]
    · rw [if_neg hnil, List.singleton_inj]
      constructor
      · rintro rfl
        exact ⟨hnil, rfl, hsep⟩
      · exact fun h => h.2.1

end Pieces

end Srrdb.Lib
