/-
Srrdb.Lib.Redo — a redo log replayed on top of a checkpoint it has led to.

An object has a definition, if it exists, and contents; a log creates and
drops it, adds to its contents and sets them. A checkpoint is the object as
the log had made it at some time. The log is not cut when a checkpoint is
taken, so a recovery replays all of it on the checkpoint. For the definition
that is harmless (`definition_replay_part`). For the contents it is when the
log somewhere says what they are, or when the checkpoint had none, and
otherwise not (`replay_again`).
-/
import Mathlib.Data.List.Basic
import Mathlib.Data.List.Perm.Basic

namespace Srrdb.Lib

/-- A change to an object. -/
inductive Redo (δ ρ : Type) where
  | create (definition : δ)
  | drop
  | add (rows : List ρ)
  | set (rows : List ρ)

/-- A definition, if the object exists, and contents in any order. -/
structure Object (δ ρ : Type) where
  definition : Option δ
  contents : List ρ

variable {δ ρ : Type}

namespace Redo

/-- Changes that write contents. -/
def writes : Redo δ ρ → Bool
  | .add _ | .set _ => true
  | _ => false

/-- Changes after which the contents do not depend on what they were. -/
def overwrites : Redo δ ρ → Bool
  | .drop | .set _ => true
  | _ => false

/-- What a change does to the definition. -/
def define (definition : Option δ) : Redo δ ρ → Option δ
  | .create d => some (definition.getD d)
  | .drop => none
  | .add _ | .set _ => definition

end Redo

namespace Object

/-- An object that does not exist. -/
def absent : Object δ ρ := ⟨none, []⟩

/-- A change carried out. Creating an object that exists and dropping one that
does not fail, and change nothing. -/
def apply (o : Object δ ρ) : Redo δ ρ → Object δ ρ
  | .create d => ⟨some (o.definition.getD d), o.contents⟩
  | .drop => if o.definition.isSome then absent else o
  | .add rows => ⟨o.definition, rows ++ o.contents⟩
  | .set rows => ⟨o.definition, rows⟩

/-- All changes of a log in order. -/
def replay (o : Object δ ρ) (log : List (Redo δ ρ)) : Object δ ρ := log.foldl apply o

@[simp] theorem replay_nil (o : Object δ ρ) : o.replay [] = o := rfl

@[simp] theorem replay_cons (o : Object δ ρ) (r : Redo δ ρ) (log : List (Redo δ ρ)) :
    o.replay (r :: log) = (o.apply r).replay log := rfl

theorem replay_append (o : Object δ ρ) (log log' : List (Redo δ ρ)) :
    o.replay (log ++ log') = (o.replay log).replay log' :=
  List.foldl_append

/-- The same definition and, in some order, the same contents. -/
structure Same (o o' : Object δ ρ) : Prop where
  definition : o.definition = o'.definition
  contents : o.contents.Perm o'.contents

theorem Same.refl (o : Object δ ρ) : o.Same o := ⟨rfl, .refl _⟩

theorem Same.trans {o o' o'' : Object δ ρ} (h : o.Same o') (h' : o'.Same o'') : o.Same o'' :=
  ⟨h.definition.trans h'.definition, h.contents.trans h'.contents⟩

theorem Same.apply {o o' : Object δ ρ} (h : o.Same o') (r : Redo δ ρ) :
    (o.apply r).Same (o'.apply r) := by
  obtain ⟨d, rows⟩ := o
  obtain ⟨d', rows'⟩ := o'
  obtain ⟨rfl, hperm⟩ := h
  cases r with
  | create e => exact ⟨rfl, hperm⟩
  | drop =>
    cases d with
    | none => exact ⟨rfl, hperm⟩
    | some e => exact .refl _
  | add new => exact ⟨rfl, hperm.append_left new⟩
  | set new => exact .refl _

theorem Same.replay {o o' : Object δ ρ} (h : o.Same o') (log : List (Redo δ ρ)) :
    (o.replay log).Same (o'.replay log) := by
  induction log generalizing o o' with
  | nil => exact h
  | cons r log ih => exact ih (h.apply r)

/-! ## Definitions -/

theorem definition_apply (o : Object δ ρ) (r : Redo δ ρ) :
    (o.apply r).definition = Redo.define o.definition r := by
  obtain ⟨_ | d, rows⟩ := o <;> cases r <;> rfl

theorem definition_replay (o : Object δ ρ) (log : List (Redo δ ρ)) :
    (o.replay log).definition = log.foldl Redo.define o.definition := by
  induction log generalizing o with
  | nil => rfl
  | cons r log ih => rw [replay_cons, ih, List.foldl_cons, definition_apply]

/-- Only a log that creates the object makes it exist. -/
theorem definition_replay_eq_none {o : Object δ ρ} (h : o.definition = none)
    {log : List (Redo δ ρ)} (hlog : ∀ d, Redo.create d ∉ log) :
    (o.replay log).definition = none := by
  induction log generalizing o with
  | nil => exact h
  | cons r log ih =>
    refine ih ?_ fun d hmem => hlog d (List.mem_cons_of_mem r hmem)
    rw [definition_apply, h]
    cases r with
    | create d => exact absurd List.mem_cons_self (hlog d)
    | drop | add rows | set rows => rfl

/-- From an object that exists a log leads to where it leads from any other,
or to the definition there was. -/
theorem foldl_define_some (d : δ) (log : List (Redo δ ρ)) (e : Option δ) :
    log.foldl Redo.define (some d) = log.foldl Redo.define e ∨
      log.foldl Redo.define (some d) = some d := by
  induction log generalizing e with
  | nil => exact .inr rfl
  | cons r log ih =>
    cases r with
    | create d' => exact ih (Redo.define e (.create d'))
    | drop => exact .inl rfl
    | add rows => exact ih e
    | set rows => exact ih e

/-- Where a log has led, it leads again. -/
theorem foldl_define_again (log : List (Redo δ ρ)) :
    log.foldl Redo.define (log.foldl Redo.define none) = log.foldl Redo.define none := by
  cases h : log.foldl Redo.define none with
  | none => exact h
  | some d =>
    rcases foldl_define_some d log none with hsame | hkept
    · exact hsame.trans h
    · exact hkept

/-- A replay on the definition of an earlier time ends with the right one. -/
theorem definition_replay_part {log log' : List (Redo δ ρ)} (h : log' <+: log)
    {o : Object δ ρ} (ho : o.definition = ((absent : Object δ ρ).replay log').definition) :
    (o.replay log).definition = ((absent : Object δ ρ).replay log).definition := by
  obtain ⟨rest, rfl⟩ := h
  simp only [definition_replay, List.foldl_append] at ho ⊢
  rw [ho]
  show rest.foldl Redo.define (log'.foldl Redo.define (log'.foldl Redo.define none)) = _
  rw [foldl_define_again]
  rfl

/-! ## Contents -/

/-- Only an object that exists has contents. -/
def Tidy (o : Object δ ρ) : Prop := o.definition = none → o.contents = []

/-- The log can have happened to the object: it wrote contents while the
object existed. -/
def Happens : Object δ ρ → List (Redo δ ρ) → Prop
  | _, [] => True
  | o, r :: log => (r.writes = true → o.definition.isSome = true) ∧ Happens (o.apply r) log

theorem happens_append {o : Object δ ρ} {log log' : List (Redo δ ρ)} :
    o.Happens (log ++ log') ↔ o.Happens log ∧ (o.replay log).Happens log' := by
  induction log generalizing o with
  | nil => simp [Happens]
  | cons r log ih => simp [Happens, ih, and_assoc]

theorem Same.happens {o o' : Object δ ρ} (h : o.Same o') {log : List (Redo δ ρ)}
    (hlog : o.Happens log) : o'.Happens log := by
  induction log generalizing o o' with
  | nil => trivial
  | cons r log ih => exact ⟨h.definition ▸ hlog.1, ih (h.apply r) hlog.2⟩

/-- Two tidy objects, of which the second exists at least when the first does. -/
structure Covers (o o' : Object δ ρ) : Prop where
  exist : o.definition.isSome = true → o'.definition.isSome = true
  tidy : o.Tidy
  tidy' : o'.Tidy

theorem Covers.apply {o o' : Object δ ρ} (h : o.Covers o') {r : Redo δ ρ}
    (hr : r.writes = true → o.definition.isSome = true) : (o.apply r).Covers (o'.apply r) := by
  obtain ⟨d, rows⟩ := o
  obtain ⟨d', rows'⟩ := o'
  obtain ⟨hexist, htidy, htidy'⟩ := h
  cases d <;> cases d' <;> cases r <;> simp_all [Object.apply, Tidy, absent, Redo.writes] <;>
    constructor <;> simp_all [Tidy]

/-- What can have happened to a tidy object leaves it tidy. -/
theorem tidy_replay {o : Object δ ρ} (h : o.Tidy) {log : List (Redo δ ρ)} (hlog : o.Happens log) :
    (o.replay log).Tidy := by
  induction log generalizing o with
  | nil => exact h
  | cons r log ih =>
    have hcovers : o.Covers o := ⟨id, h, h⟩
    exact ih (hcovers.apply hlog.1).tidy hlog.2

/-- A log that adds nothing to an object without contents overwrites it or
leaves it without. -/
theorem contents_replay_eq_nil {o : Object δ ρ} (h : o.contents = []) {log : List (Redo δ ρ)}
    (hlog : ∀ rows, Redo.add rows ∉ log) :
    log.any Redo.overwrites = true ∨ (o.replay log).contents = [] := by
  induction log generalizing o with
  | nil => exact .inr h
  | cons r log ih =>
    have hrest : ∀ rows, Redo.add rows ∉ log := fun rows hmem =>
      hlog rows (List.mem_cons_of_mem r hmem)
    cases r with
    | create d =>
      have hcontents : (o.apply (.create d)).contents = [] := h
      simpa [Redo.overwrites] using ih hcontents hrest
    | add rows => exact absurd List.mem_cons_self (hlog rows)
    | drop | set rows => exact .inl rfl

/-- After a change that overwrites, the contents are the same. -/
theorem Covers.overwritten {o o' : Object δ ρ} (h : o.Covers o') {r : Redo δ ρ}
    (hr : r.overwrites = true) : (o'.apply r).contents = (o.apply r).contents := by
  obtain ⟨d, rows⟩ := o
  obtain ⟨d', rows'⟩ := o'
  obtain ⟨hexist, htidy, htidy'⟩ := h
  cases d <;> cases d' <;> cases r <;> simp_all [Object.apply, Tidy, absent, Redo.overwrites]

/-- Other changes keep a difference in the contents. -/
theorem Covers.not_overwritten {o o' : Object δ ρ} {r : Redo δ ρ} (hr : r.overwrites = false) :
    (o'.apply r).contents.Perm (o.apply r).contents ↔ o'.contents.Perm o.contents := by
  obtain ⟨d, rows⟩ := o
  obtain ⟨d', rows'⟩ := o'
  cases d <;> cases d' <;> cases r <;>
    simp_all [Object.apply, Redo.overwrites, List.perm_append_left_iff]

/-- The same log on two objects: their contents come to agree when the log
overwrites them, and otherwise only if they agreed. -/
theorem replay_contents_perm_iff {o o' : Object δ ρ} (h : o.Covers o') {log : List (Redo δ ρ)}
    (hlog : o.Happens log) :
    (o'.replay log).contents.Perm (o.replay log).contents ↔
      log.any Redo.overwrites = true ∨ o'.contents.Perm o.contents := by
  induction log generalizing o o' with
  | nil => simp
  | cons r log ih =>
    rw [replay_cons, replay_cons, ih (h.apply hlog.1) hlog.2, List.any_cons]
    cases hr : r.overwrites with
    | true => simp [h.overwritten hr]
    | false => simp [Covers.not_overwritten hr]

/-- A log replayed on a checkpoint that a part of it led to, as far as the
definition goes: the result is that of the log alone exactly when the log
overwrites the contents somewhere or the checkpoint had none. -/
theorem replay_again {log log' : List (Redo δ ρ)} (h : log' <+: log)
    (hlog : (absent : Object δ ρ).Happens log) {o : Object δ ρ}
    (ho : o.definition = ((absent : Object δ ρ).replay log').definition) (htidy : o.Tidy) :
    (o.replay log).Same ((absent : Object δ ρ).replay log) ↔
      log.any Redo.overwrites = true ∨ o.contents = [] := by
  have hcovers : (absent : Object δ ρ).Covers o :=
    { exist := fun hsome => by simp [absent] at hsome
      tidy := fun _ => rfl
      tidy' := htidy }
  have hcontents := replay_contents_perm_iff hcovers hlog
  rw [show (absent : Object δ ρ).contents = [] from rfl, List.perm_nil] at hcontents
  constructor
  · exact fun hsame => hcontents.mp hsame.contents
  · exact fun hor => ⟨definition_replay_part h ho, hcontents.mpr hor⟩

end Object

end Srrdb.Lib
