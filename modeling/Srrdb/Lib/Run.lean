/-
Srrdb.Lib.Run — runs of a step function and what holds along them.

`Every step P s inputs` says that `P` holds of each input in the state the run
has reached when its turn comes. The rules are the induction for an invariant
under a side condition on the steps, and the exchange of one per-step
condition for another.
-/
import Mathlib.Data.List.Basic

namespace Srrdb.Lib

variable {σ ι : Type} {step : σ → ι → σ}

/-- `P` holds of every input of a run, in the state the input meets. -/
def Every (step : σ → ι → σ) (P : σ → ι → Prop) : σ → List ι → Prop
  | _, [] => True
  | s, i :: is => P s i ∧ Every step P (step s i) is

@[simp] theorem every_nil {P : σ → ι → Prop} (s : σ) : Every step P s [] := trivial

@[simp] theorem every_cons {P : σ → ι → Prop} {s : σ} {i : ι} {is : List ι} :
    Every step P s (i :: is) ↔ P s i ∧ Every step P (step s i) is := Iff.rfl

instance Every.decidable {P : σ → ι → Prop} [∀ s i, Decidable (P s i)] :
    ∀ (s : σ) (inputs : List ι), Decidable (Every step P s inputs)
  | _, [] => .isTrue trivial
  | s, i :: is =>
    have := Every.decidable (P := P) (step s i) is
    inferInstanceAs (Decidable (P s i ∧ Every step P (step s i) is))

theorem Every.congr {P Q : σ → ι → Prop} (h : ∀ s i, P s i ↔ Q s i) {inputs : List ι} {s : σ} :
    Every step P s inputs ↔ Every step Q s inputs := by
  induction inputs generalizing s with
  | nil => exact Iff.rfl
  | cons i rest ih => exact and_congr (h s i) ih

/-- The exchange of conditions that agree wherever an invariant holds. -/
theorem Every.congr_of_invariant {P Q : σ → ι → Prop} {I : σ → Prop}
    (hstep : ∀ s i, I s → I (step s i)) (h : ∀ s i, I s → (P s i ↔ Q s i)) {inputs : List ι}
    {s : σ} (hs : I s) : Every step P s inputs ↔ Every step Q s inputs := by
  induction inputs generalizing s with
  | nil => exact Iff.rfl
  | cons i rest ih => exact and_congr (h s i hs) (ih (hstep s i hs))

/-- What holds of a run holds of its beginnings. -/
theorem Every.take {P : σ → ι → Prop} {inputs : List ι} {s : σ} (h : Every step P s inputs)
    (n : Nat) : Every step P s (inputs.take n) := by
  induction inputs generalizing s n with
  | nil => simp
  | cons i rest ih =>
    cases n with
    | zero => trivial
    | succ n => exact ⟨h.1, ih h.2 n⟩

/-- A conclusion each step gives from an invariant and its side condition. -/
theorem Every.of_invariant {P Q : σ → ι → Prop} {Inv : σ → Prop}
    (hstep : ∀ s i, Inv s → P s i → Inv (step s i)) (hconcl : ∀ s i, Inv s → P s i → Q s i)
    {inputs : List ι} {s : σ} (hs : Inv s) (hp : Every step P s inputs) :
    Every step Q s inputs := by
  induction inputs generalizing s with
  | nil => trivial
  | cons i rest ih => exact ⟨hconcl s i hs hp.1, ih (hstep s i hs hp.1) hp.2⟩

/-- The exchange of conditions for a run of inputs where they agree, as long as an
invariant holds that they keep. -/
theorem Every.iff_of_inputs {P Q : σ → ι → Prop} {Inv : σ → Prop} {A : ι → Prop}
    (hstep : ∀ s i, Inv s → P s i → Inv (step s i))
    (hiff : ∀ s i, Inv s → A i → (P s i ↔ Q s i)) {inputs : List ι} (hA : ∀ i ∈ inputs, A i)
    {s : σ} (hs : Inv s) : Every step P s inputs ↔ Every step Q s inputs := by
  induction inputs generalizing s with
  | nil => exact Iff.rfl
  | cons i rest ih =>
    rw [List.forall_mem_cons] at hA
    rw [every_cons, every_cons, ← hiff s i hs hA.1]
    exact and_congr_right fun hp => ih hA.2 (hstep s i hs hp)

/-- An invariant holds at the end of a run whose steps meet the condition. -/
theorem Every.foldl_invariant {P : σ → ι → Prop} {Inv : σ → Prop}
    (hstep : ∀ s i, Inv s → P s i → Inv (step s i)) {inputs : List ι} {s : σ} (hs : Inv s)
    (hp : Every step P s inputs) : Inv (inputs.foldl step s) := by
  induction inputs generalizing s with
  | nil => exact hs
  | cons i rest ih => exact ih (hstep s i hs hp.1) hp.2

/-- An invariant that a step keeps exactly under its side condition holds all
along a run exactly if every step meets the condition. -/
theorem Every.iff_always {P : σ → ι → Prop} {I J : σ → Prop} (hJ : ∀ s i, J s → J (step s i))
    (hstep : ∀ s i, J s → I s → (I (step s i) ↔ P s i)) {inputs : List ι} {s : σ} (hs : J s)
    (hinv : I s) :
    (∀ n, I ((inputs.take n).foldl step s)) ↔ Every step P s inputs := by
  induction inputs generalizing s with
  | nil => exact ⟨fun _ => trivial, fun _ n => by rw [List.take_nil]; exact hinv⟩
  | cons i rest ih =>
    rw [every_cons, ← hstep s i hs hinv]
    constructor
    · intro h
      exact ⟨h 1, (ih (hJ s i hs) (h 1)).mp fun n => h (n + 1)⟩
    · rintro ⟨hnext, hrest⟩ n
      cases n with
      | zero => exact hinv
      | succ n => exact (ih (hJ s i hs) hnext).mpr hrest n

/-! ## Loops over a list -/

/-- A loop keeps what each of its rounds keeps. -/
theorem foldl_keeps {β : Type} {f : σ → β → σ} {I : σ → Prop} {l : List β}
    (hI : ∀ s, ∀ b ∈ l, I s → I (f s b)) {s : σ} (hs : I s) : I (l.foldl f s) := by
  induction l generalizing s with
  | nil => exact hs
  | cons b rest ih =>
    exact ih (fun s b hb => hI s b (List.mem_cons_of_mem _ hb)) (hI s b List.mem_cons_self hs)

/-- A loop makes what one of its rounds makes and the others keep. -/
theorem foldl_makes {β : Type} {f : σ → β → σ} {I : σ → Prop} {l : List β} {b : β} (hb : b ∈ l)
    (hmake : ∀ s, I (f s b)) (hkeep : ∀ s b', I s → I (f s b')) (s : σ) : I (l.foldl f s) := by
  obtain ⟨before, rest, rfl⟩ := List.append_of_mem hb
  rw [List.foldl_append, List.foldl_cons]
  exact foldl_keeps (fun s b' _ => hkeep s b') (hmake _)

/-- A loop that may fail keeps what each of its rounds keeps. -/
theorem foldlM_keeps {β ε : Type} {f : σ → β → Except ε σ} {I : σ → Prop} {l : List β}
    (hI : ∀ s, ∀ b ∈ l, ∀ s', I s → f s b = .ok s' → I s') {s s' : σ} (hs : I s)
    (hrun : l.foldlM f s = .ok s') : I s' := by
  induction l generalizing s with
  | nil =>
    cases hrun
    exact hs
  | cons b rest ih =>
    rw [List.foldlM_cons] at hrun
    cases hf : f s b with
    | error x =>
      rw [hf] at hrun
      cases hrun
    | ok t =>
      rw [hf] at hrun
      exact ih (fun s b hb => hI s b (List.mem_cons_of_mem _ hb))
        (hI s b List.mem_cons_self t hs hf) hrun

/-- A loop establishes at one of its elements what the others keep. -/
theorem foldl_reaches {β : Type} {f : σ → β → σ} {I J : σ → Prop} {l : List β}
    (hI : ∀ s, ∀ b ∈ l, I s → I (f s b)) (hJ : ∀ s, ∀ b ∈ l, I s → J s → J (f s b)) {b : β}
    (hb : b ∈ l) (hit : ∀ s, I s → J (f s b)) {s : σ} (hs : I s) : J (l.foldl f s) := by
  induction l generalizing s with
  | nil => cases hb
  | cons x rest ih =>
    have hIrest : ∀ s, ∀ b ∈ rest, I s → I (f s b) :=
      fun s b hb => hI s b (List.mem_cons_of_mem _ hb)
    have hJrest : ∀ s, ∀ b ∈ rest, I s → J s → J (f s b) :=
      fun s b hb => hJ s b (List.mem_cons_of_mem _ hb)
    rcases List.mem_cons.mp hb with rfl | hb
    · have hboth : I (f s b) ∧ J (f s b) := ⟨hI s b List.mem_cons_self hs, hit s hs⟩
      exact (foldl_keeps (I := fun s => I s ∧ J s)
        (fun s b hb h => ⟨hIrest s b hb h.1, hJrest s b hb h.1 h.2⟩) hboth).2
    · exact ih hIrest hJrest hb (hI s x List.mem_cons_self hs)

end Srrdb.Lib
