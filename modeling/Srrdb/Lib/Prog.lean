/-
Srrdb.Lib.Prog — programs made of atomic sections over a shared state.

A `Prog σ α` is what a thread does between two lock releases, repeated:
it either is finished with a result, or it performs one atomic section (a
function on the shared state) and continues with a program that may depend
on the state the section started from. Three readings of one program are
given, so that a sequential result, a concurrent result and a crash result
all speak about the same definition:

  * `Prog.run` — the program runs alone, to its end;
  * `Prog.prefixRun` — the program runs alone and is stopped after a given
    number of sections (a crash between two sections);
  * `Pool.run` — several programs share the state and a schedule says whose
    section is next;
  * `Prog.among` — one program of a pool, with what the others do to the state
    before each of its sections (`Pool.among_run`).

`Handler σ ε α` adds an early exit `ε` to a program, and `Handler.run` has
the equations a sequential proof rewrites with. `Prog.Keeps` says that every
section of a program keeps an invariant of the state, whatever ran before it;
its rules follow the program, and it holds along every schedule
(`Pool.keeps_run`).
-/
import Mathlib.Data.List.Basic

namespace Srrdb.Lib

/-! ## Programs -/

/-- A program: finished, or one atomic section and what follows it. The
continuation reads the state the section started from, so a section's
result reaches the rest of the program through it. -/
inductive Prog (σ α : Type) where
  | done (a : α)
  | atomic (f : σ → σ) (k : σ → Prog σ α)

namespace Prog

variable {σ α β : Type}

/-- Sequencing. -/
def bind : Prog σ α → (α → Prog σ β) → Prog σ β
  | .done a, g => g a
  | .atomic f k, g => .atomic f (fun s => (k s).bind g)

instance : Monad (Prog σ) where
  pure := .done
  bind := bind

/-- One atomic section with a result. -/
def sec (f : σ → α × σ) : Prog σ α :=
  .atomic (fun s => (f s).2) (fun s => .done (f s).1)

/-- The program alone, to its end. -/
def run : Prog σ α → σ → α × σ
  | .done a, s => (a, s)
  | .atomic f k, s => (k s).run (f s)

/-- The program alone, stopped after at most `n` sections: what is left of
it and the state it leaves behind. -/
def prefixRun : Nat → Prog σ α → σ → Prog σ α × σ
  | 0, p, s => (p, s)
  | _ + 1, .done a, s => (.done a, s)
  | n + 1, .atomic f k, s => prefixRun n (k s) (f s)

/-- The program to its end, with what others do before its sections. -/
def among : Prog σ α → (Nat → σ → σ) → σ → α × σ
  | .done a, _, s => (a, s)
  | .atomic f k, others, s =>
    (k (others 0 s)).among (fun n => others (n + 1)) (f (others 0 s))

@[simp] theorem run_done (a : α) (s : σ) : (Prog.done a).run s = (a, s) := rfl

@[simp] theorem run_atomic (f : σ → σ) (k : σ → Prog σ α) (s : σ) :
    (Prog.atomic f k).run s = (k s).run (f s) := rfl

theorem run_bind (p : Prog σ α) (g : α → Prog σ β) (s : σ) :
    (p.bind g).run s = (g (p.run s).1).run (p.run s).2 := by
  induction p generalizing s with
  | done a => rfl
  | atomic f k ih => exact ih s (f s)

/-- Every section of the program keeps the invariant, whatever the sections
before it read. -/
def Keeps (I : σ → Prop) : Prog σ α → Prop
  | .done _ => True
  | .atomic f k => (∀ s, I s → I (f s)) ∧ ∀ s, (k s).Keeps I

variable {I : σ → Prop}

theorem Keeps.bind {p : Prog σ α} (hp : p.Keeps I) {g : α → Prog σ β}
    (hg : ∀ a, (g a).Keeps I) : (p.bind g).Keeps I := by
  induction p with
  | done a => exact hg a
  | atomic f k ih => exact ⟨hp.1, fun s => ih s (hp.2 s)⟩

theorem Keeps.run {p : Prog σ α} (hp : p.Keeps I) {s : σ} (hs : I s) : I (p.run s).2 := by
  induction p generalizing s with
  | done a => exact hs
  | atomic f k ih => exact ih s (hp.2 s) (hp.1 s hs)

theorem Keeps.among {p : Prog σ α} (hp : p.Keeps I) {others : Nat → σ → σ}
    (hothers : ∀ n s, I s → I (others n s)) {s : σ} (hs : I s) : I (p.among others s).2 := by
  induction p generalizing others s with
  | done a => exact hs
  | atomic f k ih =>
    have hstart := hothers 0 s hs
    exact ih _ (hp.2 _) (fun n => hothers (n + 1)) (hp.1 _ hstart)

theorem Keeps.prefixRun {p : Prog σ α} (hp : p.Keeps I) (n : Nat) (s : σ) :
    (prefixRun n p s).1.Keeps I := by
  induction n generalizing p s with
  | zero => exact hp
  | succ n ih =>
    cases p with
    | done a => exact hp
    | atomic f k => exact ih (hp.2 s) (f s)

/-- Every section of the program is a step of the relation, whatever the
sections before it read. -/
def Steps (R : σ → σ → Prop) : Prog σ α → Prop
  | .done _ => True
  | .atomic f k => (∀ s, R s (f s)) ∧ ∀ s, (k s).Steps R

theorem Steps.bind {R : σ → σ → Prop} {p : Prog σ α} (hp : p.Steps R) {g : α → Prog σ β}
    (hg : ∀ a, (g a).Steps R) : (p.bind g).Steps R := by
  induction p with
  | done a => exact hg a
  | atomic f k ih => exact ⟨hp.1, fun s => ih s (hp.2 s)⟩

/-- What every step of the relation keeps, the program keeps. -/
theorem Steps.keeps {R : σ → σ → Prop} {p : Prog σ α} (hp : p.Steps R)
    (hR : ∀ s s', R s s' → I s → I s') : p.Keeps I := by
  induction p with
  | done a => trivial
  | atomic f k ih => exact ⟨fun s => hR s (f s) (hp.1 s), fun s => ih s (hp.2 s)⟩

/-- Whatever the sections read, the result has the property. -/
def Returns (P : α → Prop) : Prog σ α → Prop
  | .done a => P a
  | .atomic _ k => ∀ s, (k s).Returns P

theorem Returns.bind {P : β → Prop} {p : Prog σ α} {g : α → Prog σ β}
    (hg : ∀ a, (g a).Returns P) : (p.bind g).Returns P := by
  induction p with
  | done a => exact hg a
  | atomic f k ih => exact fun s => ih s

theorem Returns.among {P : α → Prop} {p : Prog σ α} (hp : p.Returns P) (others : Nat → σ → σ)
    (s : σ) : P (p.among others s).1 := by
  induction p generalizing others s with
  | done a => exact hp
  | atomic f k ih => exact ih (others 0 s) (hp (others 0 s)) _ _

/-- Stopping a program and then running what is left is running it. -/
theorem run_prefixRun (n : Nat) (p : Prog σ α) (s : σ) :
    (prefixRun n p s).1.run (prefixRun n p s).2 = p.run s := by
  induction n generalizing p s with
  | zero => rfl
  | succ n ih =>
    cases p with
    | done a => rfl
    | atomic f k => exact ih (k s) (f s)

/-! ### Crashes -/

/-- `P` holds of every state that the program leaves when it runs alone and is
stopped, at its start, between two sections or at its end. -/
def During (P : σ → Prop) (p : Prog σ α) (s : σ) : Prop := ∀ n, P (prefixRun n p s).2

variable {P : σ → Prop}

theorem during_done {a : α} {s : σ} : During P (Prog.done a) s ↔ P s := by
  constructor
  · exact fun h => h 0
  · intro hs n
    cases n <;> exact hs

theorem during_atomic {f : σ → σ} {k : σ → Prog σ α} {s : σ} :
    During P (.atomic f k) s ↔ P s ∧ During P (k s) (f s) := by
  constructor
  · exact fun h => ⟨h 0, fun n => h (n + 1)⟩
  · rintro ⟨hs, hrest⟩ n
    cases n with
    | zero => exact hs
    | succ n => exact hrest n

theorem During.start {p : Prog σ α} {s : σ} (h : During P p s) : P s := h 0

theorem During.imp {Q : σ → Prop} (h : ∀ s, P s → Q s) {p : Prog σ α} {s : σ}
    (hp : During P p s) : During Q p s :=
  fun n => h _ (hp n)

theorem during_bind {p : Prog σ α} {g : α → Prog σ β} {s : σ} :
    During P (p.bind g) s ↔ During P p s ∧ During P (g (p.run s).1) (p.run s).2 := by
  induction p generalizing s with
  | done a =>
    rw [during_done]
    exact ⟨fun h => ⟨h.start, h⟩, fun h => h.2⟩
  | atomic f k ih =>
    show During P (.atomic f fun s => (k s).bind g) s ↔ _
    rw [during_atomic, during_atomic, ih, and_assoc]
    rfl

/-- The end of the run is one of the states. -/
theorem During.run {p : Prog σ α} {s : σ} (h : During P p s) : P (p.run s).2 := by
  induction p generalizing s with
  | done a => exact h.start
  | atomic f k ih => exact ih s (during_atomic.mp h).2

theorem Keeps.during {p : Prog σ α} (hp : p.Keeps P) {s : σ} (hs : P s) : During P p s := by
  induction p generalizing s with
  | done a => exact during_done.mpr hs
  | atomic f k ih => exact during_atomic.mpr ⟨hs, ih s (hp.2 s) (hp.1 s hs)⟩

end Prog

/-! ## Handlers: programs with an early exit -/

/-- A program that may leave early with an `ε`. -/
abbrev Handler (σ ε α : Type) := ExceptT ε (Prog σ) α

namespace Handler

variable {σ ε α β : Type}

/-- The handler alone, to its end. -/
def run (h : Handler σ ε α) (s : σ) : Except ε α × σ := Prog.run (ExceptT.run h) s

/-- One atomic section that may leave early. -/
def sec (f : σ → Except ε α × σ) : Handler σ ε α := ExceptT.mk (Prog.sec f)

@[simp] theorem run_sec (f : σ → Except ε α × σ) (s : σ) :
    (sec f : Handler σ ε α).run s = f s := rfl

@[simp] theorem run_pure (a : α) (s : σ) :
    (pure a : Handler σ ε α).run s = (.ok a, s) := rfl

@[simp] theorem run_throw (x : ε) (s : σ) :
    (throw x : Handler σ ε α).run s = (.error x, s) := rfl

theorem run_bind (h : Handler σ ε α) (k : α → Handler σ ε β) (s : σ) :
    (h >>= k).run s = match h.run s with
      | (.ok a, s') => (k a).run s'
      | (.error x, s') => (.error x, s') := by
  have hb : (h >>= k).run s = Prog.run (Prog.bind (ExceptT.run h) (ExceptT.bindCont k)) s := rfl
  have hr : h.run s = Prog.run (ExceptT.run h) s := rfl
  rw [hb, Prog.run_bind, hr]
  rcases Prog.run (ExceptT.run h) s with ⟨_ | a, s'⟩ <;> rfl

/-- Sequencing after a handler that is known to succeed. -/
theorem run_bind_ok {h : Handler σ ε α} {k : α → Handler σ ε β} {s s' : σ} {a : α}
    (hh : h.run s = (.ok a, s')) : (h >>= k).run s = (k a).run s' := by
  rw [run_bind, hh]

/-- Sequencing after a handler that is known to leave early. -/
theorem run_bind_error {h : Handler σ ε α} {k : α → Handler σ ε β} {s s' : σ} {x : ε}
    (hh : h.run s = (.error x, s')) : (h >>= k).run s = (.error x, s') := by
  rw [run_bind, hh]

variable {I : σ → Prop}

/-- Every section of the handler keeps the invariant. -/
def Keeps (I : σ → Prop) (h : Handler σ ε α) : Prop := Prog.Keeps I (ExceptT.run h)

theorem keeps_pure (a : α) : Keeps I (pure a : Handler σ ε α) := trivial

theorem keeps_throw (x : ε) : Keeps I (throw x : Handler σ ε α) := trivial

theorem keeps_sec {f : σ → Except ε α × σ} (hf : ∀ s, I s → I (f s).2) :
    Keeps I (sec f : Handler σ ε α) :=
  ⟨hf, fun _ => trivial⟩

theorem Keeps.bind {h : Handler σ ε α} (hh : Keeps I h) {k : α → Handler σ ε β}
    (hk : ∀ a, Keeps I (k a)) : Keeps I (h >>= k) := by
  have hb : ExceptT.run (h >>= k) = Prog.bind (ExceptT.run h) (ExceptT.bindCont k) := rfl
  rw [Keeps, hb]
  refine Prog.Keeps.bind hh fun r => ?_
  cases r with
  | ok a => exact hk a
  | error x => trivial

/-- Every section of the handler is a step of the relation. -/
def Steps (R : σ → σ → Prop) (h : Handler σ ε α) : Prop := Prog.Steps R (ExceptT.run h)

section Steps

variable {R : σ → σ → Prop}

theorem steps_pure (a : α) : Steps R (pure a : Handler σ ε α) := trivial

theorem steps_throw (x : ε) : Steps R (throw x : Handler σ ε α) := trivial

theorem steps_sec {f : σ → Except ε α × σ} (hf : ∀ s, R s (f s).2) :
    Steps R (sec f : Handler σ ε α) :=
  ⟨hf, fun _ => trivial⟩

theorem Steps.bind {h : Handler σ ε α} (hh : Steps R h) {k : α → Handler σ ε β}
    (hk : ∀ a, Steps R (k a)) : Steps R (h >>= k) := by
  have hb : ExceptT.run (h >>= k) = Prog.bind (ExceptT.run h) (ExceptT.bindCont k) := rfl
  rw [Steps, hb]
  refine Prog.Steps.bind hh fun r => ?_
  cases r with
  | ok a => exact hk a
  | error x => trivial

theorem Steps.keeps {h : Handler σ ε α} (hh : Steps R h) (hR : ∀ s s', R s s' → I s → I s') :
    Keeps I h :=
  Prog.Steps.keeps hh hR

end Steps

/-- Whatever the sections read, a value the handler ends with has the property. -/
def Returns (P : α → Prop) (h : Handler σ ε α) : Prop :=
  Prog.Returns (fun r => ∀ a, r = .ok a → P a) (ExceptT.run h)

section Returns

variable {P : α → Prop}

theorem returns_pure {a : α} (ha : P a) : Returns P (pure a : Handler σ ε α) := by
  intro b hb
  cases hb
  exact ha

theorem returns_throw (x : ε) : Returns P (throw x : Handler σ ε α) := by
  intro b hb
  cases hb

theorem returns_sec {f : σ → Except ε α × σ} (hf : ∀ s a, (f s).1 = .ok a → P a) :
    Returns P (sec f : Handler σ ε α) :=
  fun s => hf s

theorem Returns.bind {Q : β → Prop} {h : Handler σ ε α} {k : α → Handler σ ε β}
    (hk : ∀ a, Returns Q (k a)) : Returns Q (h >>= k) := by
  have hb : ExceptT.run (h >>= k) = Prog.bind (ExceptT.run h) (ExceptT.bindCont k) := rfl
  rw [Returns, hb]
  refine Prog.Returns.bind fun r => ?_
  cases r with
  | ok a => exact hk a
  | error x =>
    intro b hb
    cases hb

end Returns

/-! ### Crashes -/

/-- `P` holds of every state a crash of the handler alone leaves. -/
def During (P : σ → Prop) (h : Handler σ ε α) (s : σ) : Prop := Prog.During P (ExceptT.run h) s

variable {P : σ → Prop} {s s' : σ}

theorem during_pure {a : α} : During P (pure a : Handler σ ε α) s ↔ P s := Prog.during_done

theorem during_throw {x : ε} : During P (throw x : Handler σ ε α) s ↔ P s := Prog.during_done

theorem during_sec {f : σ → Except ε α × σ} :
    During P (sec f : Handler σ ε α) s ↔ P s ∧ P (f s).2 := by
  show Prog.During P (.atomic (fun s => (f s).2) fun s => .done (f s).1) s ↔ _
  rw [Prog.during_atomic, Prog.during_done]

theorem during_bind {h : Handler σ ε α} {k : α → Handler σ ε β} :
    During P (h >>= k) s ↔ During P h s ∧
      ∀ a, (h.run s).1 = .ok a → During P (k a) (h.run s).2 := by
  have hb : During P (h >>= k) s ↔
      Prog.During P (Prog.bind (ExceptT.run h) (ExceptT.bindCont k)) s := Iff.rfl
  have hr : h.run s = Prog.run (ExceptT.run h) s := rfl
  rw [hb, Prog.during_bind, hr]
  show During P h s ∧ _ ↔ _
  refine and_congr_right fun hh => ?_
  cases hres : (Prog.run (ExceptT.run h) s).1 with
  | error x =>
    have hend : P (Prog.run (ExceptT.run h) s).2 := Prog.During.run hh
    constructor
    · intro _ a ha
      cases ha
    · exact fun _ => Prog.during_done.mpr hend
  | ok a =>
    constructor
    · rintro hk b hb
      cases hb
      exact hk
    · exact fun hk => hk a rfl

/-- A section that is known to succeed, and what follows it. -/
theorem during_bind_ok {h : Handler σ ε α} {k : α → Handler σ ε β} {a : α}
    (hrun : h.run s = (.ok a, s')) (hh : During P h s) (hk : During P (k a) s') :
    During P (h >>= k) s := by
  refine during_bind.mpr ⟨hh, fun b hb => ?_⟩
  rw [hrun] at hb ⊢
  cases hb
  exact hk

/-- A section that is known to leave early. -/
theorem during_bind_error {h : Handler σ ε α} {k : α → Handler σ ε β} {x : ε}
    (hrun : h.run s = (.error x, s')) (hh : During P h s) : During P (h >>= k) s := by
  refine during_bind.mpr ⟨hh, fun b hb => ?_⟩
  rw [hrun] at hb
  cases hb

theorem Keeps.during {h : Handler σ ε α} (hh : Keeps P h) (hs : P s) : During P h s :=
  Prog.Keeps.during hh hs

theorem During.imp {Q : σ → Prop} (h : ∀ s, P s → Q s) {p : Handler σ ε α}
    (hp : During P p s) : During Q p s :=
  Prog.During.imp h hp

theorem Keeps.run {h : Handler σ ε α} (hh : Keeps P h) (hs : P s) : P (h.run s).2 :=
  Prog.Keeps.run hh hs

end Handler

/-! ## Pools: several programs over one state -/

/-- Threads that share a state. -/
structure Pool (σ α : Type) where
  threads : List (Prog σ α)
  shared : σ

namespace Pool

variable {σ α : Type}

/-- Thread `i` performs its next section; a finished thread does nothing. -/
def step (p : Pool σ α) (i : Nat) : Pool σ α :=
  match p.threads[i]? with
  | some (.atomic f k) => ⟨p.threads.set i (k p.shared), f p.shared⟩
  | _ => p

/-- The threads run as the schedule says. -/
def run (p : Pool σ α) (schedule : List Nat) : Pool σ α :=
  schedule.foldl step p

/-- The results of the threads, when every one of them is finished. -/
def results (p : Pool σ α) : Option (List α) :=
  p.threads.mapM fun
    | .done a => some a
    | .atomic _ _ => none

@[simp] theorem run_nil (p : Pool σ α) : p.run [] = p := rfl

@[simp] theorem run_cons (p : Pool σ α) (i : Nat) (schedule : List Nat) :
    p.run (i :: schedule) = (p.step i).run schedule := rfl

/-- A pool of one program, scheduled often enough, runs it to its end. -/
theorem exists_run_alone (p : Prog σ α) (s : σ) :
    ∃ n, (Pool.mk [p] s).run (List.replicate n 0) = ⟨[.done (p.run s).1], (p.run s).2⟩ := by
  induction p generalizing s with
  | done a => exact ⟨0, rfl⟩
  | atomic f k ih =>
    obtain ⟨n, hn⟩ := ih s (f s)
    exact ⟨n + 1, hn⟩

theorem keeps_step {I : σ → Prop} {p : Pool σ α} (ht : ∀ t ∈ p.threads, t.Keeps I)
    (hs : I p.shared) (i : Nat) :
    (∀ t ∈ (p.step i).threads, t.Keeps I) ∧ I (p.step i).shared := by
  unfold step
  split
  · next f k hget =>
    have hthread := ht _ (List.mem_of_getElem? hget)
    refine ⟨fun t hmem => ?_, hthread.1 _ hs⟩
    rcases List.mem_or_eq_of_mem_set hmem with hmem | rfl
    · exact ht t hmem
    · exact hthread.2 p.shared
  · exact ⟨ht, hs⟩

/-- Where every section of every thread is a step of the relation, so is every
step of the pool that does something. -/
theorem steps_step {R : σ → σ → Prop} {p : Pool σ α} (ht : ∀ t ∈ p.threads, t.Steps R) (i : Nat) :
    (∀ t ∈ (p.step i).threads, t.Steps R) ∧ (p.step i = p ∨ R p.shared (p.step i).shared) := by
  unfold step
  split
  · next f k hget =>
    have hthread := ht _ (List.mem_of_getElem? hget)
    refine ⟨fun t hmem => ?_, .inr (hthread.1 p.shared)⟩
    rcases List.mem_or_eq_of_mem_set hmem with hmem | rfl
    · exact ht t hmem
    · exact hthread.2 p.shared
  · exact ⟨ht, .inl rfl⟩

/-- A thread that a run of the pool finishes has run among the others. -/
theorem among_run {p : Pool σ α} {i : Nat} {t : Prog σ α} {a : α} (ht : p.threads[i]? = some t)
    {schedule : List Nat} (hend : (p.run schedule).threads[i]? = some (.done a)) :
    ∃ others, (t.among others p.shared).1 = a := by
  -- `before` is what the others have done since the thread's last section
  suffices h : ∀ (before : σ → σ) s, before s = p.shared →
      ∃ others, (t.among others s).1 = a from h id p.shared rfl
  induction schedule generalizing p t with
  | nil =>
    intro _ s _
    rw [run_nil, ht] at hend
    cases hend
    exact ⟨fun _ s => s, rfl⟩
  | cons j rest ih =>
    intro before s hbefore
    rw [run_cons] at hend
    by_cases hj : j = i
    · subst hj
      cases t with
      | done b =>
        have hstep : p.step j = p := by
          unfold step
          rw [ht]
        rw [hstep] at hend
        exact ih ht hend before s hbefore
      | atomic f k =>
        have hstep : p.step j = ⟨p.threads.set j (k p.shared), f p.shared⟩ := by
          unfold step
          rw [ht]
        rw [hstep] at hend
        have hlt : j < p.threads.length := (List.getElem?_eq_some_iff.mp ht).1
        have hget : (p.threads.set j (k p.shared))[j]? = some (k p.shared) :=
          List.getElem?_set_self hlt
        obtain ⟨others, hothers⟩ := ih (p := ⟨_, f p.shared⟩) hget hend id (f p.shared) rfl
        refine ⟨fun n => if n = 0 then before else others (n - 1), ?_⟩
        show ((k (before s)).among others (f (before s))).1 = a
        rw [hbefore]
        exact hothers
    · have hget : (p.step j).threads[i]? = some t := by
        unfold step
        split
        · rw [List.getElem?_set_ne hj]
          exact ht
        · exact ht
      exact ih hget hend (fun s => (Pool.step ⟨p.threads, before s⟩ j).shared) s
        (by rw [hbefore])

/-- An invariant every section of every thread keeps holds after every
schedule. -/
theorem keeps_run {I : σ → Prop} {p : Pool σ α} (ht : ∀ t ∈ p.threads, t.Keeps I)
    (hs : I p.shared) (schedule : List Nat) : I (p.run schedule).shared := by
  induction schedule generalizing p with
  | nil => exact hs
  | cons i rest ih =>
    obtain ⟨ht', hs'⟩ := keeps_step ht hs i
    exact ih ht' hs'

end Pool

end Srrdb.Lib
