/-
Srrdb.Lib.TwoPhase — critical sections that may be read as one step.

A critical section that acquires every lock before it releases the first one,
and touches only what its locks guard, can be taken for one atomic step: the
step happens when the first lock is released. `Follows` relates such a program
(`Locked`) to the program of its atomic sections (`Prog`), and
`Crew.start_simulates` with `Simulates.run` turn every interleaving of the
single steps of a crew into an interleaving of atomic sections of a pool, with
the same results and the same contents behind the locks.

State that no lock guards may change outside the sections as well, but no
section may read it.
-/
import Srrdb.Lib.Locks
import Srrdb.Lib.Prog

namespace Srrdb.Lib

/-! ## What locks guard -/

/-- The part of a state behind each lock, and what nobody changes. -/
structure Guards (σ ι : Type) where
  Part : ι → Type
  part : (r : ι) → σ → Part r
  Fixed : Type
  fixed : σ → Fixed
  /-- The parts behind a set of locks can be taken from another state. -/
  mix : ∀ (held : Set ι) (a b : σ), fixed a = fixed b → ∃ c, fixed c = fixed a ∧
    (∀ r ∈ held, part r c = part r b) ∧ ∀ r ∉ held, part r c = part r a

namespace Guards

variable {σ ι : Type} (S : Guards σ ι)

/-- The states agree on what a holder of the locks may read. -/
def Same (held : Set ι) (a b : σ) : Prop :=
  S.fixed a = S.fixed b ∧ ∀ r ∈ held, S.part r a = S.part r b

/-- The states agree behind every lock. -/
def Alike (a b : σ) : Prop := S.fixed a = S.fixed b ∧ ∀ r, S.part r a = S.part r b

/-- The action reads and changes only what the locks guard. -/
structure ActsOn (held : Set ι) (f : σ → σ) : Prop where
  fixed : ∀ s, S.fixed (f s) = S.fixed s
  frame : ∀ s, ∀ r ∉ held, S.part r (f s) = S.part r s
  reads : ∀ s t, S.Same held s t → ∀ r ∈ held, S.part r (f s) = S.part r (f t)

variable {S} {held : Set ι} {a b c : σ} {f : σ → σ}

theorem Same.refl (held : Set ι) (a : σ) : S.Same held a a := ⟨rfl, fun _ _ => rfl⟩

theorem Same.symm (h : S.Same held a b) : S.Same held b a :=
  ⟨h.1.symm, fun r hr => (h.2 r hr).symm⟩

theorem Same.trans (h : S.Same held a b) (h' : S.Same held b c) : S.Same held a c :=
  ⟨h.1.trans h'.1, fun r hr => (h.2 r hr).trans (h'.2 r hr)⟩

theorem Same.mono {fewer : Set ι} (h : S.Same held a b) (hsub : fewer ⊆ held) :
    S.Same fewer a b :=
  ⟨h.1, fun r hr => h.2 r (hsub hr)⟩

theorem Alike.refl (a : σ) : S.Alike a a := ⟨rfl, fun _ => rfl⟩

theorem Alike.trans (h : S.Alike a b) (h' : S.Alike b c) : S.Alike a c :=
  ⟨h.1.trans h'.1, fun r => (h.2 r).trans (h'.2 r)⟩

theorem Alike.same (h : S.Alike a b) (held : Set ι) : S.Same held a b :=
  ⟨h.1, fun r _ => h.2 r⟩

/-- States that agree behind the locks and outside them are alike. -/
theorem Same.alike (h : S.Same held a b) (hout : ∀ r ∉ held, S.part r a = S.part r b) :
    S.Alike a b := by
  refine ⟨h.1, fun r => ?_⟩
  by_cases hr : r ∈ held
  · exact h.2 r hr
  · exact hout r hr

theorem ActsOn.same (hf : S.ActsOn held f) (h : S.Same held a b) : S.Same held (f a) (f b) :=
  ⟨(hf.fixed a).trans (h.1.trans (hf.fixed b).symm), hf.reads a b h⟩

/-- An action takes states that agree on its locks, and outside them, to alike
states. -/
theorem ActsOn.alike (hf : S.ActsOn held f) (h : S.Same held a b)
    (hout : ∀ r ∉ held, S.part r a = S.part r b) : S.Alike (f a) (f b) :=
  (hf.same h).alike fun r hr =>
    (hf.frame a r hr).trans ((hout r hr).trans (hf.frame b r hr).symm)

/-- An action leaves a state as those who hold other locks see it. -/
theorem ActsOn.same_others {others : Set ι} (hf : S.ActsOn held f)
    (hdisj : ∀ r ∈ others, r ∉ held) (s : σ) : S.Same others s (f s) :=
  ⟨(hf.fixed s).symm, fun r hr => (hf.frame s r (hdisj r hr)).symm⟩

theorem actsOn_id : S.ActsOn held id where
  fixed _ := rfl
  frame _ _ _ := rfl
  reads _ _ h := h.2

end Guards

/-! ## Sections that follow two phases -/

/-- Outside a section, before its first release, and after it. -/
inductive Phase where
  | out
  | grow
  | shrink
  deriving DecidableEq

theorem Phase.grow_ne : Phase.grow ≠ .out := nofun

theorem Phase.shrink_ne : Phase.shrink ≠ .out := nofun

/-- The program, holding the locks, performs the atomic sections that the
function describes: from a state, what the rest of the current section makes
of it, and the sections that follow. -/
inductive Follows {σ ι α : Type} (S : Guards σ ι) :
    Phase → Set ι → Locked σ ι α → (σ → σ × Prog σ α) → Prop where
  | done {a : α} : Follows S .out ∅ (.done a) fun s => (s, .done a)
  /-- An action under no lock, on what no lock guards. -/
  | free {f F : σ → σ} {k : σ → Locked σ ι α} {K : σ → Prog σ α}
      (hf : S.ActsOn ∅ f) (hF : S.ActsOn ∅ F)
      (hk : ∀ s, Follows S .out ∅ (k s) fun s' => (s', K s))
      (hread : ∀ s t, S.Same ∅ s t → k s = k t ∧ K s = K t) :
      Follows S .out ∅ (.act f k) fun s => (s, .atomic F K)
  /-- A look at what is fixed may skip a section that changes nothing guarded. -/
  | look {k : σ → Locked σ ι α} {p : Prog σ α} {q : σ → Prog σ α}
      (hp : ∀ s, q s = p ∨ ∃ F, S.ActsOn ∅ F ∧ p = .atomic F fun _ => q s)
      (hk : ∀ s, Follows S .out ∅ (k s) fun s' => (s', q s)) :
      Follows S .out ∅ (.act id k) fun s => (s, p)
  | enter {r : ι} {k : Locked σ ι α} {F : σ → σ} {K : σ → Prog σ α}
      (h : Follows S .grow {r} k fun s => (F s, K s)) :
      Follows S .out ∅ (.acquire r k) fun s => (s, .atomic F K)
  | acquire {held : Set ι} {r : ι} {k : Locked σ ι α} {G : σ → σ × Prog σ α}
      (hr : r ∉ held) (h : Follows S .grow (insert r held) k G) :
      Follows S .grow held (.acquire r k) G
  | act {phase : Phase} {held : Set ι} {f : σ → σ} {k : σ → Locked σ ι α}
      {G : σ → σ → σ × Prog σ α} (hphase : phase ≠ .out) (hf : S.ActsOn held f)
      (hk : ∀ s, Follows S phase held (k s) (G s))
      (hread : ∀ s t, S.Same held s t → k s = k t ∧ G s = G t) :
      Follows S phase held (.act f k) fun s => G s (f s)
  | release {phase : Phase} {held : Set ι} {r : ι} {k : Locked σ ι α} {G : σ → σ × Prog σ α}
      (hphase : phase ≠ .out) (hr : r ∈ held) (h : Follows S .shrink (held \ {r}) k G) :
      Follows S phase held (.release r k) G
  | leave {l : Locked σ ι α} {p : Prog σ α} (h : Follows S .out ∅ l fun s => (s, p)) :
      Follows S .shrink ∅ l fun s => (s, p)

/-- The program performs the sections of the other one, each in two phases. -/
def TwoPhase {σ ι α : Type} (S : Guards σ ι) (l : Locked σ ι α) (p : Prog σ α) : Prop :=
  Follows S .out ∅ l fun s => (s, p)

namespace Follows

variable {σ ι α β : Type} {S : Guards σ ι} {phase : Phase} {held : Set ι} {l : Locked σ ι α}
  {G : σ → σ × Prog σ α}

/-- Sequencing inside a section. -/
theorem bind (h : Follows S phase held l G) {g : α → Locked σ ι β} {q : α → Prog σ β}
    (hg : ∀ a, TwoPhase S (g a) (q a)) :
    Follows S phase held (l.bind g) fun s => ((G s).1, (G s).2.bind q) := by
  induction h with
  | done => exact hg _
  | free hf hF hk hread ih =>
    exact .free hf hF ih fun s t hst =>
      ⟨by rw [(hread s t hst).1], by rw [(hread s t hst).2]⟩
  | @look k p p' hp hk ih =>
    have hrest : ∀ s, Follows S .out ∅ ((k s).bind g) fun s' => (s', (p' s).bind q) := ih
    have hskip : ∀ s, (p' s).bind q = p.bind q ∨ ∃ F, S.ActsOn ∅ F ∧
        p.bind q = .atomic F fun _ => (p' s).bind q := by
      intro s
      rcases hp s with hp | ⟨F, hF, hp⟩
      · exact .inl (by rw [hp])
      · exact .inr ⟨F, hF, by rw [hp]; rfl⟩
    exact .look hskip hrest
  | enter h ih => exact .enter ih
  | acquire hr h ih => exact .acquire hr ih
  | act hphase hf hk hread ih =>
    exact .act hphase hf ih fun s t hst =>
      ⟨by rw [(hread s t hst).1], by rw [(hread s t hst).2]⟩
  | release hphase hr h ih => exact .release hphase hr ih
  | @leave l p h ih =>
    have hrest : Follows S .out ∅ (l.bind g) fun s => (s, p.bind q) := ih
    exact .leave hrest

/-- Alike states have alike outcomes. -/
theorem alike (h : Follows S phase held l G) {x y : σ} (hxy : S.Alike x y) :
    S.Alike (G x).1 (G y).1 ∧ (G x).2 = (G y).2 := by
  induction h generalizing x y with
  | done => exact ⟨hxy, rfl⟩
  | free hf hF hk hread ih => exact ⟨hxy, rfl⟩
  | look hp hk ih => exact ⟨hxy, rfl⟩
  | enter h ih => exact ⟨hxy, rfl⟩
  | acquire hr h ih => exact ih hxy
  | @act phase held f k G hphase hf hk hread ih =>
    have hG : G x = G y := (hread x y (hxy.same _)).2
    have hfxy : S.Alike (f x) (f y) := hf.alike (hxy.same _) fun r _ => hxy.2 r
    show S.Alike (G x (f x)).1 (G y (f y)).1 ∧ (G x (f x)).2 = (G y (f y)).2
    rw [hG]
    exact ih y hfxy
  | release hphase hr h ih => exact ih hxy
  | leave h ih => exact ⟨hxy, rfl⟩

/-- After its first release a section reads and changes only what the locks it
still holds guard. -/
theorem shrink (h : Follows S phase held l G) (hphase : phase = .shrink) :
    (∀ s, S.fixed (G s).1 = S.fixed s) ∧
    (∀ s, ∀ r ∉ held, S.part r (G s).1 = S.part r s) ∧
    ∀ s t, S.Same held s t →
      (∀ r ∈ held, S.part r (G s).1 = S.part r (G t).1) ∧ (G s).2 = (G t).2 := by
  induction h with
  | done => cases hphase
  | free hf hF hk hread ih => cases hphase
  | look hp hk ih => cases hphase
  | enter h ih => cases hphase
  | acquire hr h ih => cases hphase
  | @act phase held f k G hout hf hk hread ih =>
    refine ⟨fun s => ?_, fun s r hr => ?_, fun s t hst => ?_⟩
    · exact ((ih s hphase).1 (f s)).trans (hf.fixed s)
    · exact ((ih s hphase).2.1 (f s) r hr).trans (hf.frame s r hr)
    · show (∀ r ∈ held, S.part r (G s (f s)).1 = S.part r (G t (f t)).1) ∧
        (G s (f s)).2 = (G t (f t)).2
      rw [(hread s t hst).2]
      exact (ih t hphase).2.2 (f s) (f t) (hf.same hst)
  | @release phase held r k G hout hr h ih =>
    obtain ⟨hfixed, hframe, hreads⟩ := ih rfl
    refine ⟨hfixed, fun s q hq => hframe s q fun hmem => hq hmem.1, fun s t hst => ?_⟩
    have hfewer := hreads s t (hst.mono Set.sdiff_subset)
    refine ⟨fun q hq => ?_, hfewer.2⟩
    by_cases hqr : q = r
    · subst hqr
      have hout : q ∉ held \ {q} := fun hmem => hmem.2 rfl
      rw [hframe s q hout, hframe t q hout]
      exact hst.2 q hq
    · exact hfewer.1 q ⟨hq, hqr⟩
  | leave h ih => exact ⟨fun _ => rfl, fun _ _ _ => rfl, fun s t hst => ⟨hst.2, rfl⟩⟩

end Follows

theorem TwoPhase.bind {σ ι α β : Type} {S : Guards σ ι} {l : Locked σ ι α} {p : Prog σ α}
    (h : TwoPhase S l p) {g : α → Locked σ ι β} {q : α → Prog σ β}
    (hg : ∀ a, TwoPhase S (g a) (q a)) : TwoPhase S (l.bind g) (p.bind q) :=
  Follows.bind h hg

/-- A section that has released nothing yet may as well have. -/
theorem Follows.early {σ ι α : Type} {S : Guards σ ι} {phase : Phase} {held : Set ι}
    {l : Locked σ ι α} {G : σ → σ × Prog σ α} (h : Follows S phase held l G)
    (hphase : phase = .shrink) (hheld : held.Nonempty) : Follows S .grow held l G := by
  induction h with
  | act hout hf hk hread ih =>
    exact .act nofun hf (fun s => ih s hphase hheld) hread
  | release hout hr h ih => exact .release nofun hr h
  | leave h ih => exact absurd hheld Set.not_nonempty_empty
  | _ => cases hphase

theorem Follows.congr {σ ι α : Type} {S : Guards σ ι} {phase : Phase} {held : Set ι}
    {l : Locked σ ι α} {G G' : σ → σ × Prog σ α} (h : Follows S phase held l G)
    (hG : ∀ s, G s = G' s) : Follows S phase held l G' :=
  funext hG ▸ h

/-- An action before the rest of a section. -/
theorem Follows.after {σ ι α : Type} {S : Guards σ ι} {phase : Phase} {held : Set ι}
    {k : Locked σ ι α} {G : σ → σ × Prog σ α} (h : Follows S phase held k G)
    (hphase : phase ≠ .out) {f : σ → σ} (hf : S.ActsOn held f) :
    Follows S phase held (.act f fun _ => k) fun s => G (f s) :=
  @Follows.act _ _ _ S phase held f (fun _ => k) (fun _ => G) hphase hf (fun _ => h)
    fun _ _ _ => ⟨rfl, rfl⟩

/-- The release of the only lock ends the section. -/
theorem Follows.last {σ ι α : Type} {S : Guards σ ι} {phase : Phase} (hphase : phase ≠ .out)
    (r : ι) {k : Locked σ ι α} {p : Prog σ α} (h : TwoPhase S k p) :
    Follows S phase {r} (.release r k) fun s => (s, p) := by
  have hnone : ({r} : Set ι) \ {r} = ∅ := Set.sdiff_self
  exact .release hphase rfl (hnone.symm ▸ .leave h)

/-! ## Inside a section -/

theorem Locked.bind_assoc {σ ι α β γ : Type} (l : Locked σ ι α) (g : α → Locked σ ι β)
    (k : β → Locked σ ι γ) : (l.bind g).bind k = l.bind fun a => (g a).bind k := by
  induction l with
  | done a => rfl
  | acquire r l ih => exact congrArg (Locked.acquire r) ih
  | act f l ih => exact congrArg (Locked.act f) (funext ih)
  | release r l ih => exact congrArg (Locked.release r) ih

/-- A stretch of a section: with the same locks before and after it, it makes
of a state what the function says. -/
def Inside {σ ι β : Type} (S : Guards σ ι) (phase : Phase) (held : Set ι) (l : Locked σ ι β)
    (f : σ → β × σ) (phase' : Phase) : Prop :=
  ∀ {α : Type} (g : β → Locked σ ι α) (G : β → σ → σ × Prog σ α),
    (∀ b, Follows S phase' held (g b) (G b)) →
      Follows S phase held (l.bind g) fun s => G (f s).1 (f s).2

namespace Inside

variable {σ ι β γ : Type} {S : Guards σ ι} {phase phase' phase'' : Phase} {held : Set ι}

theorem done (b : β) : Inside S phase held (.done b) (fun s => (b, s)) phase :=
  fun _ _ h => h b

theorem perform {f : σ → β × σ} (hphase : phase ≠ .out) (hf : S.ActsOn held fun s => (f s).2)
    (hread : ∀ s t, S.Same held s t → (f s).1 = (f t).1) :
    Inside S phase held (.perform f) f phase :=
  fun _ _ h => .act hphase hf (fun s => h (f s).1) fun s t hst =>
    ⟨by simp only [hread s t hst], by simp only [hread s t hst]⟩

theorem bind {l : Locked σ ι β} {f : σ → β × σ} (h : Inside S phase held l f phase')
    {k : β → Locked σ ι γ} {F : β → σ → γ × σ}
    (hk : ∀ b, Inside S phase' held (k b) (F b) phase'') :
    Inside S phase held (l.bind k) (fun s => F (f s).1 (f s).2) phase'' := by
  intro α g G hg
  rw [Locked.bind_assoc]
  exact h _ _ fun b => hk b g G hg

/-- A lock taken and released inside the section ends its first phase. -/
theorem nested {r : ι} {f : σ → σ} (hr : r ∉ held) (hf : S.ActsOn (insert r held) f) :
    Inside S .grow held (.acquire r (.act f fun _ => .release r (.done ())))
      (fun s => ((), f s)) .shrink := by
  intro α g G hg
  have hback : insert r held \ {r} = held := by
    ext q
    by_cases hq : q = r <;> simp [hq, hr]
  have hrelease : Follows S .grow (insert r held) (.release r (g ())) (G ()) :=
    .release nofun (Set.mem_insert r held) (hback.symm ▸ hg ())
  exact .acquire hr (hrelease.after nofun hf)

theorem early {l : Locked σ ι β} {f : σ → β × σ} (h : Inside S phase held l f .grow)
    (hheld : held.Nonempty) : Inside S phase held l f .shrink :=
  fun g G hg => h g G fun b => (hg b).early rfl hheld

theorem congr {l : Locked σ ι β} {f f' : σ → β × σ} (h : Inside S phase held l f phase')
    (hf : ∀ s, f s = f' s) : Inside S phase held l f' phase' :=
  funext hf ▸ h

end Inside

/-! ## The simulation -/

/-- A thread in the middle of its steps, holding the locks in state `c`,
against what is left of its atomic sections in state `a`. Before its first
release the section has not happened in `a`; afterwards it has. -/
inductive Tracks {σ ι α : Type} (S : Guards σ ι) (held : Set ι) (a c : σ) :
    Locked σ ι α → Prog σ α → Prop where
  | out {l : Locked σ ι α} {p : Prog σ α} (hheld : held = ∅) (h : TwoPhase S l p) :
      Tracks S held a c l p
  | grow {l : Locked σ ι α} {F : σ → σ} {K : σ → Prog σ α} {G : σ → σ × Prog σ α}
      (h : Follows S .grow held l G)
      (hrest : ∀ x y, S.Same held x a → S.Same held y c →
        (∀ r ∉ held, S.part r x = S.part r y) → S.Alike (F x) (G y).1 ∧ K x = (G y).2) :
      Tracks S held a c l (.atomic F K)
  | shrink {l : Locked σ ι α} {p : Prog σ α} {G : σ → σ × Prog σ α}
      (h : Follows S .shrink held l G) (hp : p = (G c).2)
      (hrest : ∀ r ∈ held, S.part r a = S.part r (G c).1) :
      Tracks S held a c l p

namespace Tracks

variable {σ ι α : Type} {S : Guards σ ι} {held : Set ι} {a a' c c' : σ} {l : Locked σ ι α}
  {p : Prog σ α}

/-- What others do behind other locks leaves a thread where it was. -/
theorem stable (h : Tracks S held a c l p) (ha : S.Same held a a') (hc : S.Same held c c') :
    Tracks S held a' c' l p := by
  cases h with
  | out hheld h => exact .out hheld h
  | grow h hrest =>
    exact .grow h fun x y hx hy hout => hrest x y (hx.trans ha.symm) (hy.trans hc.symm) hout
  | shrink h hp hrest =>
    have hreads := (h.shrink rfl).2.2 c c' hc
    refine .shrink h (hp.trans hreads.2) fun r hr => ?_
    rw [← ha.2 r hr, hrest r hr, hreads.1 r hr]

end Tracks

/-- A crew against a pool: free locks guard the same, and each thread tracks
its counterpart. -/
structure Simulates {σ ι α : Type} (S : Guards σ ι) (c : Crew σ ι α) (p : Pool σ α) : Prop where
  fixed : S.fixed p.shared = S.fixed c.shared
  free : ∀ r, c.owner r = none → S.part r p.shared = S.part r c.shared
  owners : ∀ r i, c.owner r = some i → i < c.threads.length
  tracks : ∀ i (l : Locked σ ι α), c.threads[i]? = some l → ∃ q, p.threads[i]? = some q ∧
    Tracks S (c.held i) p.shared c.shared l q

namespace Simulates

variable {σ ι α : Type} {S : Guards σ ι} {c c' : Crew σ ι α} {p p' : Pool σ α} {i : Nat}

/-- After a step of thread `i` it is enough to look at that thread, and at what
it did to the state of the others. -/
theorem update (h : Simulates S c p) {l' : Locked σ ι α} {q' : Prog σ α}
    {l : Locked σ ι α} (hi : c.threads[i]? = some l) (hthreads : c'.threads = c.threads.set i l')
    (hq : p'.threads[i]? = some q') (hpool : ∀ j, j ≠ i → p'.threads[j]? = p.threads[j]?)
    (hfixed : S.fixed p'.shared = S.fixed c'.shared)
    (hfree : ∀ r, c'.owner r = none → S.part r p'.shared = S.part r c'.shared)
    (howners : ∀ r j, c'.owner r = some j → c.owner r = some j ∨ j = i)
    (hothers : ∀ j, j ≠ i → c'.held j = c.held j ∧ S.Same (c.held j) p.shared p'.shared ∧
      S.Same (c.held j) c.shared c'.shared)
    (htracks : Tracks S (c'.held i) p'.shared c'.shared l' q') : Simulates S c' p' := by
  have hlt : i < c.threads.length := (List.getElem?_eq_some_iff.mp hi).1
  refine ⟨hfixed, hfree, fun r j hr => ?_, fun j u hu => ?_⟩
  · rw [hthreads, List.length_set]
    rcases howners r j hr with hr | rfl
    · exact h.owners r j hr
    · exact hlt
  · rw [hthreads, Crew.get_set hi] at hu
    by_cases hj : j = i
    · subst hj
      rw [if_pos rfl] at hu
      cases hu
      exact ⟨q', hq, htracks⟩
    · rw [if_neg hj] at hu
      obtain ⟨q, hget, htrack⟩ := h.tracks j u hu
      obtain ⟨hheld, hp, hc⟩ := hothers j hj
      refine ⟨q, (hpool j hj).trans hget, ?_⟩
      rw [hheld]
      exact htrack.stable hp hc

theorem start {threads : List (Locked σ ι α)} {progs : List (Prog σ α)}
    (h : List.Forall₂ (TwoPhase S) threads progs) (s : σ) :
    Simulates S (Crew.start threads s) ⟨progs, s⟩ where
  fixed := rfl
  free _ _ := rfl
  owners r j hr := nomatch hr
  tracks j l hl := by
    have hl : threads[j]? = some l := hl
    rw [Crew.held_start]
    have hlt : j < threads.length := (List.getElem?_eq_some_iff.mp hl).1
    have hlt' : j < progs.length := h.length_eq ▸ hlt
    refine ⟨progs[j], List.getElem?_eq_getElem hlt', .out rfl ?_⟩
    have hget := h.get hlt hlt'
    rw [List.getElem?_eq_getElem hlt] at hl
    cases hl
    exact hget

/-- The locks of two threads are different. -/
theorem held_ne {j : Nat} (hj : j ≠ i) {r : ι} (hr : r ∈ c.held j) : r ∉ c.held i := by
  intro hri
  have hrj : c.owner r = some j := hr
  rw [show c.owner r = some i from hri] at hrj
  exact hj (Option.some.inj hrj).symm

/-- A free lock is not among those of a thread. -/
theorem free_notMem {r : ι} (hr : c.owner r = none) : r ∉ c.held i := by
  intro hri
  rw [show c.owner r = some i from hri] at hr
  cases hr

section Owners

variable [DecidableEq ι] {r q : ι} {j : Nat}

theorem take_owners (hq : Function.update c.owner r (some i) q = some j) :
    c.owner q = some j ∨ j = i := by
  by_cases hqr : q = r
  · subst hqr
    rw [Function.update_self] at hq
    exact .inr (Option.some.inj hq).symm
  · rw [Function.update_of_ne hqr] at hq
    exact .inl hq

theorem take_free (hq : Function.update c.owner r (some i) q = none) : c.owner q = none := by
  by_cases hqr : q = r
  · subst hqr
    rw [Function.update_self] at hq
    cases hq
  · rwa [Function.update_of_ne hqr] at hq

theorem give_owners (hq : Function.update c.owner r none q = some j) : c.owner q = some j := by
  by_cases hqr : q = r
  · subst hqr
    rw [Function.update_self] at hq
    cases hq
  · rwa [Function.update_of_ne hqr] at hq

theorem give_free (hq : Function.update c.owner r none q = none) : q = r ∨ c.owner q = none := by
  by_cases hqr : q = r
  · exact .inl hqr
  · rw [Function.update_of_ne hqr] at hq
    exact .inr hq

end Owners

/-- A thread outside its sections acts on what no lock guards, and so does its
counterpart. -/
theorem step_free [DecidableEq ι] (h : Simulates S c p) {f F : σ → σ} {k : σ → Locked σ ι α}
    {K : σ → Prog σ α} (hi : c.threads[i]? = some (.act f k))
    (hq : p.threads[i]? = some (.atomic F K)) (hf : S.ActsOn ∅ f) (hF : S.ActsOn ∅ F)
    (hk : TwoPhase S (k c.shared) (K p.shared)) (hheld : c.held i = ∅) :
    ∃ steps, Simulates S (c.step i) (p.run steps) := by
  have hstep : p.step i = ⟨p.threads.set i (K p.shared), F p.shared⟩ := by
    unfold Pool.step
    rw [hq]
  have hlt : i < p.threads.length := (List.getElem?_eq_some_iff.mp hq).1
  refine ⟨[i], ?_⟩
  rw [Pool.run_cons, Pool.run_nil, hstep, Crew.step_act hi]
  refine h.update hi rfl (List.getElem?_set_self hlt)
    (fun j hj => List.getElem?_set_ne (Ne.symm hj)) ?_ ?_ (fun r j hr => .inl hr) ?_
    (.out hheld hk)
  · exact (hF.fixed _).trans (h.fixed.trans (hf.fixed _).symm)
  · intro r hr
    exact (hF.frame _ r (Set.notMem_empty r)).trans
      ((h.free r hr).trans (hf.frame _ r (Set.notMem_empty r)).symm)
  · intro j _
    exact ⟨rfl, hF.same_others (fun r _ => Set.notMem_empty r) _,
      hf.same_others (fun r _ => Set.notMem_empty r) _⟩

/-- A thread outside its sections takes a step. -/
theorem step_out [DecidableEq ι] (h : Simulates S c p) {l : Locked σ ι α} {q : Prog σ α}
    (hi : c.threads[i]? = some l) (hq : p.threads[i]? = some q) (hheld : c.held i = ∅)
    (htwo : TwoPhase S l q) : ∃ steps, Simulates S (c.step i) (p.run steps) := by
  obtain ⟨G, hG, hfollows⟩ : ∃ G, (∀ s, G s = (s, q)) ∧ Follows S .out ∅ l G :=
    ⟨_, fun _ => rfl, htwo⟩
  cases hfollows with
  | done =>
    rw [Crew.step_done hi]
    exact ⟨[], h⟩
  | @free f F k K hf hF hk hread =>
    obtain rfl : .atomic F K = q := (Prod.mk.inj (hG c.shared)).2
    have hsame : S.Same ∅ p.shared c.shared := ⟨h.fixed, fun r hr => absurd hr (Set.notMem_empty r)⟩
    have hK : K p.shared = K c.shared := (hread _ _ hsame).2
    exact h.step_free hi hq hf hF (hK ▸ hk c.shared) hheld
  | @look k p₀ p' hp hk =>
    obtain rfl : p₀ = q := (Prod.mk.inj (hG c.shared)).2
    have hid : S.ActsOn ∅ id := Guards.actsOn_id
    rcases hp c.shared with hrest | ⟨F, hF, rfl⟩
    · refine ⟨[], ?_⟩
      rw [Pool.run_nil, Crew.step_act hi]
      exact h.update hi rfl hq (fun j _ => rfl) h.fixed h.free (fun r j hr => .inl hr)
        (fun j _ => ⟨rfl, .refl _ _, .refl _ _⟩) (.out hheld (hrest ▸ hk c.shared))
    · exact h.step_free hi hq hid hF (hk c.shared) hheld
  | @enter r k F K hsec =>
    obtain rfl : .atomic F K = q := (Prod.mk.inj (hG c.shared)).2
    by_cases hfree : c.owner r = none
    · refine ⟨[], ?_⟩
      rw [Pool.run_nil, Crew.step_acquire hi hfree]
      refine h.update hi rfl hq (fun j _ => rfl) h.fixed (fun q hqfree => h.free q (take_free hqfree))
        (fun q j hqj => take_owners hqj) (fun j hj => ⟨?_, .refl _ _, .refl _ _⟩) ?_
      · rw [Crew.held_take c _ _ hfree, if_neg hj]
      · rw [Crew.held_take c _ _ hfree, if_pos rfl, hheld, LawfulSingleton.insert_empty_eq]
        refine .grow hsec fun x y hx hy hout => ?_
        -- the lock was free, so both states have the same behind it
        have hsame : S.Same {r} x y := by
          refine ⟨hx.1.trans (h.fixed.trans hy.1.symm), fun q hq => ?_⟩
          obtain rfl : q = r := hq
          rw [hx.2 q rfl, hy.2 q rfl]
          exact h.free q hfree
        exact hsec.alike (hsame.alike hout)
    · rw [Crew.step_wait hi hfree]
      exact ⟨[], h⟩
  | act hphase _ _ _ => exact absurd rfl hphase
  | release hphase _ _ => exact absurd rfl hphase

/-- A thread before its first release takes a step: a release is the step of
its whole section. -/
theorem step_grow [DecidableEq ι] (h : Simulates S c p) {l : Locked σ ι α} {F : σ → σ}
    {K : σ → Prog σ α} (hi : c.threads[i]? = some l) (hq : p.threads[i]? = some (.atomic F K))
    {G : σ → σ × Prog σ α} (hfollows : Follows S .grow (c.held i) l G)
    (hrest : ∀ x y, S.Same (c.held i) x p.shared → S.Same (c.held i) y c.shared →
      (∀ r ∉ c.held i, S.part r x = S.part r y) → S.Alike (F x) (G y).1 ∧ K x = (G y).2) :
    ∃ steps, Simulates S (c.step i) (p.run steps) := by
  generalize hheld : c.held i = held at hfollows hrest
  cases hfollows with
  | @acquire _ r k _ hr hk =>
    by_cases hfree : c.owner r = none
    · refine ⟨[], ?_⟩
      rw [Pool.run_nil, Crew.step_acquire hi hfree]
      refine h.update hi rfl hq (fun j _ => rfl) h.fixed (fun q hqfree => h.free q (take_free hqfree))
        (fun q j hqj => take_owners hqj) (fun j hj => ⟨?_, .refl _ _, .refl _ _⟩) ?_
      · rw [Crew.held_take c _ _ hfree, if_neg hj]
      rw [Crew.held_take c _ _ hfree, if_pos rfl, hheld]
      refine .grow hk fun x y hx hy hout => ?_
      refine hrest x y (hx.mono (Set.subset_insert r held)) (hy.mono (Set.subset_insert r held))
        fun q hqout => ?_
      by_cases hqr : q = r
      · subst hqr
        rw [hx.2 q (Set.mem_insert q held), hy.2 q (Set.mem_insert q held)]
        exact h.free q hfree
      · exact hout q (fun hmem => hmem.elim hqr hqout)
    · rw [Crew.step_wait hi hfree]
      exact ⟨[], h⟩
  | @act _ _ f k G hphase hf hk hread =>
    refine ⟨[], ?_⟩
    rw [Pool.run_nil, Crew.step_act hi]
    refine h.update hi rfl hq (fun j _ => rfl) (h.fixed.trans (hf.fixed _).symm) ?_
      (fun r j hr => .inl hr) (fun j hj => ⟨rfl, .refl _ _, ?_⟩) ?_
    · exact fun r hr => (h.free r hr).trans (hf.frame _ r (hheld ▸ free_notMem hr)).symm
    · exact hf.same_others (fun r hr => hheld ▸ held_ne hj hr) _
    · have hmine : (Crew.mk (c.threads.set i (k c.shared)) c.owner (f c.shared)).held i = held :=
        hheld
      rw [hmine]
      refine .grow (hk c.shared) fun x y hx hy hout => ?_
      -- the state the section would have met before this action
      obtain ⟨z, hzfixed, hzin, hzout⟩ :=
        S.mix held x c.shared (hx.1.trans h.fixed)
      have hz : S.Same held z c.shared := ⟨hzfixed.trans (hx.1.trans h.fixed), hzin⟩
      obtain ⟨hF, hK⟩ := hrest x z hx hz fun r hr => (hzout r hr).symm
      have hfz : S.Alike (f z) y := by
        refine ((hf.same hz).trans hy.symm).alike fun r hr => ?_
        rw [hf.frame z r hr, hzout r hr]
        exact hout r hr
      have hGz : G z = G c.shared := (hread z c.shared hz).2
      have hF : S.Alike (F x) (G c.shared (f z)).1 := hGz ▸ hF
      have hK : K x = (G c.shared (f z)).2 := hGz ▸ hK
      obtain ⟨hend, hnext⟩ := (hk c.shared).alike hfz
      exact ⟨hF.trans hend, hK.trans hnext⟩
  | @release _ _ r k _ hphase hr hk =>
    have howner : c.owner r = some i := (hheld ▸ hr : r ∈ c.held i)
    have hstep : p.step i = ⟨p.threads.set i (K p.shared), F p.shared⟩ := by
      unfold Pool.step
      rw [hq]
    have hlt : i < p.threads.length := (List.getElem?_eq_some_iff.mp hq).1
    obtain ⟨z, hzfixed, hzin, hzout⟩ := S.mix held p.shared c.shared h.fixed
    have hz : S.Same held z c.shared := ⟨hzfixed.trans h.fixed, hzin⟩
    obtain ⟨hF, hK⟩ := hrest p.shared z (.refl _ _) hz fun q hqout => (hzout q hqout).symm
    obtain ⟨hfixed, hframe, hreads⟩ := hk.shrink rfl
    have hzc := hreads z c.shared (hz.mono Set.sdiff_subset)
    have hrout : r ∉ held \ {r} := fun hmem => hmem.2 rfl
    -- what the section has made of each part
    have hmade : ∀ q ∈ held, S.part q (F p.shared) = S.part q (G c.shared).1 := by
      intro q hqin
      rw [hF.2 q]
      by_cases hqr : q = r
      · subst hqr
        rw [hframe z q hrout, hframe c.shared q hrout]
        exact hzin q hqin
      · exact hzc.1 q ⟨hqin, hqr⟩
    have hkept : ∀ q ∉ held, S.part q (F p.shared) = S.part q p.shared := by
      intro q hqout
      rw [hF.2 q, hframe z q fun hmem => hqout hmem.1]
      exact hzout q hqout
    have hFfixed : S.fixed (F p.shared) = S.fixed p.shared :=
      hF.1.trans ((hfixed z).trans hzfixed)
    refine ⟨[i], ?_⟩
    rw [Pool.run_cons, Pool.run_nil, hstep, Crew.step_release hi]
    refine h.update hi rfl (List.getElem?_set_self hlt)
      (fun j hj => List.getElem?_set_ne (Ne.symm hj)) (hFfixed.trans h.fixed) ?_ ?_ ?_ ?_
    · intro q hqfree
      rcases give_free hqfree with rfl | hqfree
      · exact (hmade q hr).trans (hframe c.shared q hrout)
      · exact (hkept q (hheld ▸ free_notMem hqfree)).trans (h.free q hqfree)
    · exact fun q j hqj => .inl (give_owners hqj)
    · intro j hj
      refine ⟨?_, ⟨hFfixed.symm, fun q hqj => ?_⟩, .refl _ _⟩
      · rw [Crew.held_give c _ _ howner, if_neg hj]
      · exact (hkept q (hheld ▸ held_ne hj hqj)).symm
    · rw [Crew.held_give c _ _ howner, if_pos rfl, hheld]
      exact .shrink hk (hK.trans hzc.2) fun q hqin => hmade q hqin.1

/-- A thread after its first release takes a step. -/
theorem step_shrink [DecidableEq ι] (h : Simulates S c p) {l : Locked σ ι α} {q : Prog σ α}
    (hi : c.threads[i]? = some l) (hq : p.threads[i]? = some q) {G : σ → σ × Prog σ α}
    (hfollows : Follows S .shrink (c.held i) l G) (hrest : q = (G c.shared).2)
    (hmade : ∀ r ∈ c.held i, S.part r p.shared = S.part r (G c.shared).1) :
    ∃ steps, Simulates S (c.step i) (p.run steps) := by
  generalize hheld : c.held i = held at hfollows hmade
  cases hfollows with
  | @leave l p' hout =>
    obtain rfl : q = p' := hrest
    exact h.step_out hi hq hheld hout
  | @act _ _ f k G hphase hf hk hread =>
    refine ⟨[], ?_⟩
    rw [Pool.run_nil, Crew.step_act hi]
    refine h.update hi rfl hq (fun j _ => rfl) (h.fixed.trans (hf.fixed _).symm) ?_
      (fun r j hr => .inl hr) (fun j hj => ⟨rfl, .refl _ _, ?_⟩) ?_
    · exact fun r hr => (h.free r hr).trans (hf.frame _ r (hheld ▸ free_notMem hr)).symm
    · exact hf.same_others (fun r hr => hheld ▸ held_ne hj hr) _
    · have hmine : (Crew.mk (c.threads.set i (k c.shared)) c.owner (f c.shared)).held i = held :=
        hheld
      rw [hmine]
      exact .shrink (hk c.shared) hrest hmade
  | @release _ _ r k _ hphase hr hk =>
    have howner : c.owner r = some i := (hheld ▸ hr : r ∈ c.held i)
    have hrout : r ∉ held \ {r} := fun hmem => hmem.2 rfl
    refine ⟨[], ?_⟩
    rw [Pool.run_nil, Crew.step_release hi]
    refine h.update hi rfl hq (fun j _ => rfl) h.fixed ?_ (fun q j hqj => .inl (give_owners hqj))
      (fun j hj => ⟨?_, .refl _ _, .refl _ _⟩) ?_
    · intro q hqfree
      rcases give_free hqfree with rfl | hqfree
      · exact (hmade q hr).trans ((hk.shrink rfl).2.1 c.shared q hrout)
      · exact h.free q hqfree
    · rw [Crew.held_give c _ _ howner, if_neg hj]
    · rw [Crew.held_give c _ _ howner, if_pos rfl, hheld]
      exact .shrink hk hrest fun q hqin => hmade q hqin.1

/-- Every step of the crew is some steps of the pool. -/
theorem step [DecidableEq ι] (h : Simulates S c p) (i : Nat) :
    ∃ steps, Simulates S (c.step i) (p.run steps) := by
  cases hi : c.threads[i]? with
  | none =>
    rw [Crew.step_none hi]
    exact ⟨[], h⟩
  | some l =>
    obtain ⟨q, hq, htracks⟩ := h.tracks i l hi
    cases htracks with
    | out hheld htwo => exact h.step_out hi hq hheld htwo
    | grow hfollows hrest => exact h.step_grow hi hq hfollows hrest
    | shrink hfollows hrest hmade => exact h.step_shrink hi hq hfollows hrest hmade

/-- Every run of the crew is a run of the pool. -/
theorem run [DecidableEq ι] (h : Simulates S c p) (schedule : List Nat) :
    ∃ coarse, Simulates S (c.run schedule) (p.run coarse) := by
  induction schedule generalizing c p with
  | nil => exact ⟨[], h⟩
  | cons i rest ih =>
    obtain ⟨steps, hsteps⟩ := h.step i
    obtain ⟨coarse, hcoarse⟩ := ih hsteps
    refine ⟨steps ++ coarse, ?_⟩
    rw [Pool.run, List.foldl_append]
    exact hcoarse

/-- A thread that is finished has the result its counterpart has. -/
theorem done (h : Simulates S c p) {a : α} (hi : c.threads[i]? = some (.done a)) :
    p.threads[i]? = some (.done a) ∧ c.held i = ∅ := by
  obtain ⟨q, hq, htracks⟩ := h.tracks i _ hi
  have hout : c.held i = ∅ → TwoPhase S (.done a) q → q = .done a := by
    intro _ htwo
    obtain ⟨G, hG, hfollows⟩ : ∃ G, (∀ s, G s = (s, q)) ∧ Follows S .out ∅ (.done a) G :=
      ⟨_, fun _ => rfl, htwo⟩
    cases hfollows with
    | done => exact (Prod.mk.inj (hG c.shared)).2.symm
  generalize hheld : c.held i = held at htracks
  cases htracks with
  | out hempty htwo =>
    rw [hq, hout (hheld.trans hempty) htwo]
    exact ⟨rfl, hempty⟩
  | grow hfollows hrest => cases hfollows
  | shrink hfollows hrest hmade =>
    cases hfollows with
    | @leave _ p' htwo =>
      obtain rfl : q = p' := hrest
      rw [hq, hout hheld htwo]
      exact ⟨rfl, rfl⟩

/-- When every thread is finished, both have the same behind every lock. -/
theorem alike (h : Simulates S c p) (hall : ∀ t ∈ c.threads, t.isDone = true) :
    S.Alike p.shared c.shared := by
  refine ⟨h.fixed, fun r => h.free r ?_⟩
  cases howner : c.owner r with
  | none => rfl
  | some i =>
    have hlt := h.owners r i howner
    have hget : c.threads[i]? = some c.threads[i] := List.getElem?_eq_getElem hlt
    have hdone := hall _ (List.getElem_mem hlt)
    obtain ⟨a, ha⟩ : ∃ a, c.threads[i] = .done a := by
      cases hi : c.threads[i] with
      | done a => exact ⟨a, rfl⟩
      | _ => rw [hi] at hdone; cases hdone
    have hempty := (h.done (hget.trans (congrArg some ha))).2
    exact absurd (show r ∈ c.held i from howner) (hempty ▸ Set.notMem_empty r)

end Simulates

end Srrdb.Lib
