/-
Srrdb.Engine.LockingTheorems — every handler holds its mutexes in two phases
and takes them in one order.

`Implements` relates a handler that takes its mutexes step by step to the
handler of `Engine.Executor` made of sections: the first performs the sections
of the second, each in two phases, and takes a mutex only while it holds
smaller ones: the catalog before the storage, and both before the log. It is
proved handler by handler along their text (`implements_execute`).
-/
import Srrdb.Engine.Locking
import Srrdb.Lib.TwoPhase

namespace Srrdb.Engine

open Srrdb.Sql Srrdb.Lib

/-! ## What the mutexes guard -/

/-- The order in which the mutexes are taken. -/
def Lock.rank : Lock → Nat
  | .catalog => 0
  | .storage => 1
  | .wal => 2

open Classical in
/-- The catalog, the storage and the log are guarded. The files are not; whether
there is a data directory never changes. -/
noncomputable def guards : Guards Executor Lock where
  Part
    | .catalog => Mutex Catalog
    | .storage => Mutex Storage
    | .wal => List WalEntry
  part
    | .catalog, e => e.catalog
    | .storage, e => e.storage
    | .wal, e => e.wal
  Fixed := Bool
  fixed e := e.persistence.isSome
  mix held a b _ := by
    refine ⟨⟨if .catalog ∈ held then b.catalog else a.catalog,
      if .storage ∈ held then b.storage else a.storage,
      if .wal ∈ held then b.wal else a.wal, a.persistence⟩, rfl, fun r hr => ?_, fun r hr => ?_⟩
    · cases r <;> exact if_pos hr
    · cases r <;> exact if_neg hr

/-- The executors agree behind every mutex. -/
theorem alike_iff {a b : Executor} : guards.Alike a b ↔
    a.persistence.isSome = b.persistence.isSome ∧ a.catalog = b.catalog ∧
      a.storage = b.storage ∧ a.wal = b.wal := by
  constructor
  · exact fun h => ⟨h.1, h.2 .catalog, h.2 .storage, h.2 .wal⟩
  · rintro ⟨hp, hc, hs, hw⟩
    refine ⟨hp, fun r => ?_⟩
    cases r
    · exact hc
    · exact hs
    · exact hw

variable {α β : Type}

/-- A computation that reads the catalog and changes nothing else behind a
mutex. -/
structure OnCatalog (f : Executor → α × Executor) : Prop where
  result : ∀ a b, a.catalog = b.catalog → (f a).1 = (f b).1
  catalog : ∀ a b, a.catalog = b.catalog → (f a).2.catalog = (f b).2.catalog
  storage : ∀ e, (f e).2.storage = e.storage
  wal : ∀ e, (f e).2.wal = e.wal
  durable : ∀ e, (f e).2.persistence.isSome = e.persistence.isSome

/-- A computation that reads the storage and changes nothing else behind a
mutex. -/
structure OnStorage (f : Executor → α × Executor) : Prop where
  result : ∀ a b, a.storage = b.storage → (f a).1 = (f b).1
  storage : ∀ a b, a.storage = b.storage → (f a).2.storage = (f b).2.storage
  catalog : ∀ e, (f e).2.catalog = e.catalog
  wal : ∀ e, (f e).2.wal = e.wal
  durable : ∀ e, (f e).2.persistence.isSome = e.persistence.isSome

/-- A computation that changes files at most, and reads nothing but whether
there are any. -/
structure OnFiles (f : Executor → α × Executor) : Prop where
  result : ∀ a b, a.persistence.isSome = b.persistence.isSome → (f a).1 = (f b).1
  catalog : ∀ e, (f e).2.catalog = e.catalog
  storage : ∀ e, (f e).2.storage = e.storage
  wal : ∀ e, (f e).2.wal = e.wal
  durable : ∀ e, (f e).2.persistence.isSome = e.persistence.isSome

section ActsOn

variable {f : Executor → α × Executor} {held : Set Lock}

theorem OnCatalog.actsOn (h : OnCatalog f) (hheld : Lock.catalog ∈ held) :
    guards.ActsOn held fun e => (f e).2 where
  fixed e := h.durable e
  frame e r hr := by
    cases r
    · exact absurd hheld hr
    · exact h.storage e
    · exact h.wal e
  reads a b hab r hr := by
    cases r
    · exact h.catalog a b (hab.2 .catalog hr)
    · exact (h.storage a).trans ((hab.2 .storage hr).trans (h.storage b).symm)
    · exact (h.wal a).trans ((hab.2 .wal hr).trans (h.wal b).symm)

theorem OnStorage.actsOn (h : OnStorage f) (hheld : Lock.storage ∈ held) :
    guards.ActsOn held fun e => (f e).2 where
  fixed e := h.durable e
  frame e r hr := by
    cases r
    · exact h.catalog e
    · exact absurd hheld hr
    · exact h.wal e
  reads a b hab r hr := by
    cases r
    · exact (h.catalog a).trans ((hab.2 .catalog hr).trans (h.catalog b).symm)
    · exact h.storage a b (hab.2 .storage hr)
    · exact (h.wal a).trans ((hab.2 .wal hr).trans (h.wal b).symm)

theorem OnFiles.actsOn (h : OnFiles f) : guards.ActsOn ∅ fun e => (f e).2 where
  fixed e := h.durable e
  frame e r _ := by
    cases r
    · exact h.catalog e
    · exact h.storage e
    · exact h.wal e
  reads _ _ _ _ hr := absurd hr (Set.notMem_empty _)

theorem actsOn_append (env : Env) (entry : WalEntry) (hheld : Lock.wal ∈ held) :
    guards.ActsOn held fun e => e.append env entry where
  fixed _ := rfl
  frame e r hr := by
    cases r
    · rfl
    · rfl
    · exact absurd hheld hr
  reads a b hab r hr := by
    cases r
    · exact hab.2 .catalog hr
    · exact hab.2 .storage hr
    · exact congrArg (· ++ env.logged entry) (hab.2 .wal hr)

end ActsOn

/-! ## Handlers against their sections -/

/-- The stepwise handler performs the sections of the other one in two phases
and takes its mutexes in rank order. -/
structure Implements (l : Stepwise α) (h : Exec α) : Prop where
  twoPhase : TwoPhase guards (ExceptT.run l) (ExceptT.run h)
  ranked : (ExceptT.run l).Ranked Lock.rank ∅ ∅

namespace Implements

theorem pure (a : α) : Implements (Pure.pure a) (Pure.pure a) := ⟨.done, rfl⟩

theorem throw (x : Stop) :
    Implements (MonadExcept.throw x : Stepwise α) (MonadExcept.throw x : Exec α) :=
  ⟨.done, rfl⟩

theorem bind {l : Stepwise α} {h : Exec α} (hl : Implements l h) {k : α → Stepwise β}
    {q : α → Exec β} (hk : ∀ a, Implements (k a) (q a)) : Implements (l >>= k) (h >>= q) := by
  refine ⟨TwoPhase.bind hl.twoPhase fun r => ?_, hl.ranked.bind fun r => ?_⟩
  · cases r with
    | ok a => exact (hk a).twoPhase
    | error x => exact .done
  · cases r with
    | ok a => exact (hk a).ranked
    | error x => exact rfl

theorem liftOutcome (r : Outcome α) : Implements (Stepwise.liftOutcome r) (Engine.liftOutcome r) := by
  cases r with
  | ok a => exact .pure a
  | error x => exact .throw x

end Implements

/-! ### Scopes of guards -/

/-- The end of a section: a panic poisons the mutex. -/
def settle (poison : Executor → Executor) : Outcome α × Executor → Outcome α × Executor
  | (.error .panic, e) => (.error .panic, poison e)
  | result => result

/-- A section that locks a mutex. -/
def lockSection (poisoned : Executor → Bool) (poison : Executor → Executor)
    (f : Executor → Outcome α × Executor) (e : Executor) : Outcome α × Executor :=
  if poisoned e then (.error (.err lockError), e) else settle poison (f e)

theorem lockCatalog_eq (f : Executor → Outcome α × Executor) :
    lockCatalog f = lockSection (·.catalog.poisoned) (·.poisonCatalog) f := by
  funext e
  unfold lockCatalog lockSection
  rcases f e with ⟨_ | _, e'⟩ <;> rfl

theorem lockStorage_eq (f : Executor → Outcome α × Executor) :
    lockStorage f = lockSection (·.storage.poisoned) (·.poisonStorage) f := by
  funext e
  unfold lockStorage lockSection
  rcases f e with ⟨_ | _, e'⟩ <;> rfl

/-- A stretch of a handler inside a section, holding the mutexes. -/
structure Scope (held : Set Lock) (l : Locked Executor Lock α) (f : Executor → α × Executor)
    (phase : Phase) : Prop where
  inside : Inside guards .grow held l f phase
  ranked : l.Ranked Lock.rank held held

/-- The end of a guard's scope settles the section. -/
theorem follows_dropGuard {lock : Lock} {poison : Executor → Executor}
    (hpoison : guards.ActsOn {lock} poison) (result : Outcome α) :
    Follows guards .shrink {lock} (Stepwise.dropGuard lock poison result) fun e =>
      ((settle poison (result, e)).2, .done (settle poison (result, e)).1) := by
  cases result with
  | ok a => exact .last Phase.shrink_ne lock .done
  | error x =>
    cases x with
    | err msg => exact .last Phase.shrink_ne lock .done
    | panic => exact (Follows.last Phase.shrink_ne lock .done).after Phase.shrink_ne hpoison

theorem ranked_dropGuard {lock : Lock} {poison : Executor → Executor} (result : Outcome α) :
    (Stepwise.dropGuard lock poison result).Ranked Lock.rank ∅ {lock} := by
  have hrelease : ∀ result : Outcome α,
      (Locked.release lock (.done result) : Locked Executor Lock _).Ranked Lock.rank ∅ {lock} :=
    fun result => ⟨rfl, Set.sdiff_self⟩
  cases result with
  | ok a => exact hrelease _
  | error x =>
    cases x with
    | err msg => exact hrelease _
    | panic => exact fun _ => hrelease _

theorem implements_guarded {lock : Lock} {poisoned : Executor → Bool}
    {poison : Executor → Executor} {scope : Locked Executor Lock (Outcome α)}
    {f : Executor → Outcome α × Executor}
    (hpoisoned : ∀ a b, guards.part lock a = guards.part lock b → poisoned a = poisoned b)
    (hpoison : guards.ActsOn {lock} poison) (hscope : Scope {lock} scope f .shrink) :
    Implements (Stepwise.guarded lock poisoned poison scope)
      (Handler.sec (lockSection poisoned poison f)) := by
  have hreleased : ({lock} : Set Lock) \ {lock} = ∅ := Set.sdiff_self
  constructor
  · let G : Executor → Executor → Executor × Prog Executor (Outcome α) := fun e e' =>
      if poisoned e then (e', .done (.error (.err lockError)))
      else ((settle poison (f e')).2, .done (settle poison (f e')).1)
    have hrest : ∀ e, Follows guards .grow {lock} (if poisoned e then
        .release lock (.done (.error (.err lockError)))
        else scope.bind (Stepwise.dropGuard lock poison)) (G e) := by
      intro e
      by_cases hp : poisoned e
      · simp only [G, if_pos hp]
        exact .last Phase.grow_ne lock .done
      · simp only [G, if_neg hp]
        exact hscope.inside _ _ (follows_dropGuard hpoison)
    have hread : ∀ a b, guards.Same {lock} a b → poisoned a = poisoned b := fun a b hab =>
      hpoisoned a b (hab.2 lock rfl)
    refine .enter ((Follows.act Phase.grow_ne Guards.actsOn_id hrest fun a b hab => ?_).congr fun e => ?_)
    · simp only [G, hread a b hab, and_self]
    · simp only [G, id_eq, lockSection]
      split <;> rfl
  · refine ⟨fun q hq => absurd hq (Set.notMem_empty q), fun e => ?_⟩
    rw [LawfulSingleton.insert_empty_eq]
    show Locked.Ranked Lock.rank ∅ {lock} (if poisoned e then _ else _)
    split
    · exact ⟨rfl, hreleased⟩
    · exact hscope.ranked.bind ranked_dropGuard

theorem implements_withCatalog {scope : Locked Executor Lock (Outcome α)}
    {f : Executor → Outcome α × Executor} (hscope : Scope {.catalog} scope f .shrink) :
    Implements (Stepwise.withCatalog scope) (catalogSection f) := by
  have hpoison : OnCatalog fun e => ((), e.poisonCatalog) :=
    ⟨fun _ _ _ => rfl, fun _ _ h => congrArg (fun m : Mutex Catalog => Mutex.mk m.value true) h,
      fun _ => rfl, fun _ => rfl, fun _ => rfl⟩
  rw [catalogSection, lockCatalog_eq]
  exact implements_guarded (fun a b h => congrArg Mutex.poisoned h) (hpoison.actsOn (Set.mem_singleton _)) hscope

theorem implements_withStorage {scope : Locked Executor Lock (Outcome α)}
    {f : Executor → Outcome α × Executor} (hscope : Scope {.storage} scope f .shrink) :
    Implements (Stepwise.withStorage scope) (storageSection f) := by
  have hpoison : OnStorage fun e => ((), e.poisonStorage) :=
    ⟨fun _ _ _ => rfl, fun _ _ h => congrArg (fun m : Mutex Storage => Mutex.mk m.value true) h,
      fun _ => rfl, fun _ => rfl, fun _ => rfl⟩
  rw [storageSection, lockStorage_eq]
  exact implements_guarded (fun a b h => congrArg Mutex.poisoned h) (hpoison.actsOn (Set.mem_singleton _)) hscope

theorem OnCatalog.scope {f : Executor → α × Executor} (h : OnCatalog f) :
    Scope {.catalog} (.perform f) f .grow where
  inside := Inside.perform Phase.grow_ne (h.actsOn (Set.mem_singleton _)) fun a b hab =>
    h.result a b (hab.2 .catalog rfl)
  ranked := fun _ => rfl

theorem OnStorage.scope {f : Executor → α × Executor} (h : OnStorage f) :
    Scope {.storage} (.perform f) f .grow where
  inside := Inside.perform Phase.grow_ne (h.actsOn (Set.mem_singleton _)) fun a b hab =>
    h.result a b (hab.2 .storage rfl)
  ranked := fun _ => rfl

theorem Scope.early {held : Set Lock} {l : Locked Executor Lock α} {f : Executor → α × Executor}
    (h : Scope held l f .grow) (hheld : held.Nonempty) : Scope held l f .shrink :=
  ⟨Inside.early h.inside hheld, h.ranked⟩

theorem OnCatalog.implements {f : Executor → Outcome α × Executor} (h : OnCatalog f) :
    Implements (Stepwise.catalogSection f) (catalogSection f) :=
  implements_withCatalog (h.scope.early (Set.singleton_nonempty _))

theorem OnStorage.implements {f : Executor → Outcome α × Executor} (h : OnStorage f) :
    Implements (Stepwise.storageSection f) (storageSection f) :=
  implements_withStorage (h.scope.early (Set.singleton_nonempty _))

theorem implements_readCatalog (f : Catalog → Except String α) :
    Implements (Stepwise.readCatalog f) (readCatalog f) :=
  OnCatalog.implements ⟨fun a b h => by simp [h], fun a b h => h, fun _ => rfl, fun _ => rfl,
    fun _ => rfl⟩

theorem implements_readStorage (f : Storage → α) :
    Implements (Stepwise.readStorage f) (readStorage f) :=
  OnStorage.implements ⟨fun a b h => by simp [h], fun a b h => h, fun _ => rfl, fun _ => rfl,
    fun _ => rfl⟩

theorem implements_updateStorage (f : Storage → α × Storage) :
    Implements (Stepwise.updateStorage f) (updateStorage f) :=
  OnStorage.implements ⟨fun a b h => by simp [h],
    fun _ _ h => congrArg (fun m : Mutex Storage => Mutex.mk (f m.value).2 m.poisoned) h,
    fun _ => rfl, fun _ => rfl, fun _ => rfl⟩

theorem implements_writeCatalog (f : Catalog → Except String Catalog) :
    Implements (Stepwise.writeCatalog f) (writeCatalog f) := by
  refine OnCatalog.implements ⟨fun a b h => ?_, fun a b h => ?_, fun e => ?_, fun e => ?_,
    fun e => ?_⟩
  · simp only [h]
    cases f b.catalog.value <;> rfl
  · simp only [h]
    cases f b.catalog.value with
    | ok c => exact congrArg (fun m : Mutex Catalog => Mutex.mk c m.poisoned) h
    | error msg => exact h
  all_goals
    cases f e.catalog.value <;> rfl

/-! ### The log and the files -/

theorem implements_logWal (env : Env) (entry : WalEntry) :
    Implements (Stepwise.logWal env entry) (logWal env entry) := by
  have hreleased : ({.wal} : Set Lock) \ {.wal} = ∅ := Set.sdiff_self
  constructor
  · exact .enter ((Follows.last Phase.grow_ne Lock.wal .done).after Phase.grow_ne
      (actsOn_append env entry (Set.mem_singleton _)))
  · refine ⟨fun q hq => absurd hq (Set.notMem_empty q), fun _ => ?_⟩
    rw [LawfulSingleton.insert_empty_eq]
    exact ⟨rfl, hreleased⟩

/-- The log, taken inside a section. -/
theorem scope_appendLog {held : Set Lock} (hwal : Lock.wal ∉ held) (env : Env)
    (entry : WalEntry) :
    Scope held (Stepwise.appendLog env entry) (fun e => ((), e.append env entry)) .shrink where
  inside := Inside.nested hwal (actsOn_append env entry (Set.mem_insert _ _))
  ranked := by
    refine ⟨fun q hq => ?_, fun _ => ⟨Set.mem_insert _ _, ?_⟩⟩
    · cases q
      · exact (by decide : 0 < 2)
      · exact (by decide : 1 < 2)
      · exact absurd hq hwal
    · show insert Lock.wal held \ {Lock.wal} = held
      ext q
      by_cases hq : q = .wal <;> simp [hq, hwal]

theorem OnFiles.implements {f : Executor → α × Executor} (h : OnFiles f) :
    Implements (Stepwise.outside f)
      (Handler.sec fun e => (.ok (f e).1, (f e).2)) := by
  refine ⟨.free h.actsOn h.actsOn (fun _ => .done) fun a b hab => ?_, fun _ => rfl⟩
  have hresult := h.result a b hab.1
  exact ⟨by simp only [hresult], by simp only [hresult]⟩

theorem implements_hasPersistence : Implements Stepwise.hasPersistence hasPersistence :=
  OnFiles.implements ⟨fun _ _ h => h, fun _ => rfl, fun _ => rfl, fun _ => rfl, fun _ => rfl⟩

/-- A write under a mutex, which is no section at all when there is no data
directory. -/
theorem implements_guardedWrite (lock : Lock) {write : Executor → Executor}
    (hwrite : OnFiles fun e => ((), write e)) :
    Implements (Stepwise.guardedWrite lock write)
      (Handler.sec fun e => (.ok (), write e)) := by
  have hreleased : ({lock} : Set Lock) \ {lock} = ∅ := Set.sdiff_self
  have hon : guards.ActsOn {lock} write :=
    ⟨fun e => hwrite.durable e, fun e r _ => hwrite.actsOn.frame e r (Set.notMem_empty r),
      fun a b hab r hr => by
        have ha := hwrite.actsOn.frame a r (Set.notMem_empty r)
        have hb := hwrite.actsOn.frame b r (Set.notMem_empty r)
        exact ha.trans ((hab.2 r hr).trans hb.symm)⟩
  constructor
  · refine .look (q := fun e => if e.persistence.isSome then
      .atomic write fun _ => .done (.ok ()) else .done (.ok ())) (fun e => ?_) fun e => ?_
    · split
      · exact .inl rfl
      · exact .inr ⟨write, hwrite.actsOn, rfl⟩
    · cases hdir : e.persistence.isSome with
      | false =>
        simp only [hdir]
        exact .done
      | true =>
        simp only [hdir]
        exact .enter ((Follows.last Phase.grow_ne lock .done).after Phase.grow_ne hon)
  · intro e
    cases hdir : e.persistence.isSome with
    | false =>
      simp only [hdir]
      exact rfl
    | true =>
      simp only [hdir]
      refine ⟨fun q hq => absurd hq (Set.notMem_empty q), fun _ => ?_⟩
      rw [LawfulSingleton.insert_empty_eq]
      exact ⟨rfl, hreleased⟩

section Handlers

variable [Bincode]

theorem implements_save : Implements Stepwise.save save :=
  implements_guardedWrite .catalog
    ⟨fun _ _ _ => rfl, fun _ => rfl, fun _ => rfl, fun _ => rfl, fun e => by simp⟩

variable [Host]

theorem implements_saveTable (tableName : String) :
    Implements (Stepwise.saveTable tableName) (saveTable tableName) :=
  implements_guardedWrite .storage
    ⟨fun _ _ _ => rfl, fun _ => rfl, fun _ => rfl, fun _ => rfl, fun e => by simp⟩

variable [ExprDebug]

/-! ### Sections that take a second mutex -/

omit [ExprDebug] [Bincode] in
theorem onCatalog_createInCatalog (db tableName : String) (columns : List Column) :
    OnCatalog (Stepwise.createInCatalog db tableName columns) := by
  refine ⟨fun a b h => ?_, fun a b h => ?_, fun e => ?_, fun e => ?_, fun e => ?_⟩
  · simp only [Stepwise.createInCatalog, h]
    cases b.catalog.value.createTable db tableName columns <;> rfl
  · simp only [Stepwise.createInCatalog, h]
    cases b.catalog.value.createTable db tableName columns with
    | ok c => exact congrArg (fun m : Mutex Catalog => Mutex.mk c m.poisoned) h
    | error msg => exact h
  all_goals
    simp only [Stepwise.createInCatalog]
    cases e.catalog.value.createTable db tableName columns <;> rfl

omit [ExprDebug] [Bincode] in
theorem scope_createTable (env : Env) (db tableName : String) (columns : List Column) :
    Scope {.catalog} (Stepwise.createTableScope env db tableName columns)
      (createTableSection env db tableName columns) .shrink := by
  have hwal : Lock.wal ∉ ({.catalog} : Set Lock) := by
    rintro ⟨⟩
  have hcreate := onCatalog_createInCatalog db tableName columns
  have hlog := scope_appendLog hwal env (.createTable tableName columns)
  refine ⟨Inside.congr (Inside.bind hlog.inside fun _ => Inside.perform Phase.shrink_ne
    (hcreate.actsOn (Set.mem_singleton _)) fun a b hab => hcreate.result a b (hab.2 .catalog rfl))
    fun e => rfl, ?_⟩
  exact hlog.ranked.bind fun _ => hcreate.scope.ranked

omit [Bincode] in
theorem onStorage_changeSelected (tableName : String) (columns : List Column)
    (selection : Option Expr) (change : Storage → List Row → Storage) :
    OnStorage (Stepwise.changeSelected tableName columns selection change) := by
  refine ⟨fun a b h => ?_, fun a b h => ?_, fun e => ?_, fun e => ?_, fun e => ?_⟩
  · simp only [Stepwise.changeSelected, h]
    cases b.storage.value.getTable? tableName with
    | none => rfl
    | some t => cases hrows : selectRows columns selection t.entries <;> simp only [hrows]
  · simp only [Stepwise.changeSelected, h]
    cases b.storage.value.getTable? tableName with
    | none => exact h
    | some t =>
      cases hrows : selectRows columns selection t.entries with
      | error x =>
        simp only [hrows]
        exact h
      | ok rows =>
        simp only [hrows]
        show Mutex.mk _ a.storage.poisoned = Mutex.mk _ b.storage.poisoned
        rw [h]
  all_goals
    simp only [Stepwise.changeSelected]
    cases e.storage.value.getTable? tableName with
    | none => rfl
    | some t =>
      cases hrows : selectRows columns selection t.entries with
      | error x => simp only [hrows]
      | ok rows => simp only [hrows, Executor.setStorage]

omit [ExprDebug] [Bincode] in
theorem scope_logTouched (env : Env) (tableName : String) (rows : List Row) :
    Scope {.storage} (Stepwise.logTouched env tableName rows)
      (fun e => (.ok rows.length, logSnapshot env tableName rows e)) .shrink := by
  have hwal : Lock.wal ∉ ({.storage} : Set Lock) := by
    rintro ⟨⟩
  have hread : OnStorage fun e : Executor => (e.storage.value.getRows tableName, e) :=
    ⟨fun a b h => by simp [h], fun a b h => h, fun _ => rfl, fun _ => rfl, fun _ => rfl⟩
  have hlog := fun remaining => scope_appendLog hwal env (.tableSnapshot tableName remaining)
  by_cases hnone : rows.isEmpty
  · simp only [Stepwise.logTouched, logSnapshot, if_pos hnone]
    exact ⟨Inside.early (Inside.done _) (Set.singleton_nonempty _), rfl⟩
  · simp only [Stepwise.logTouched, logSnapshot, if_neg hnone]
    exact ⟨Inside.bind hread.scope.inside fun remaining => Inside.bind (hlog remaining).inside
      fun _ => Inside.done _, hread.scope.ranked.bind fun remaining =>
        (hlog remaining).ranked.bind fun _ => rfl⟩

omit [ExprDebug] [Bincode] in
/-- What the section of UPDATE and DELETE makes of the rows it selected. -/
def settleTouched (env : Env) (tableName : String) :
    Outcome (List Row) → Executor → Outcome Nat × Executor
  | .error x, e => (.error x, e)
  | .ok rows, e => (.ok rows.length, logSnapshot env tableName rows e)

omit [Bincode] in
theorem changeSection_eq (env : Env) (tableName : String) (columns : List Column)
    (selection : Option Expr) (change : Storage → List Row → Storage) :
    changeSection env tableName columns selection change = storageSection fun e =>
      settleTouched env tableName (Stepwise.changeSelected tableName columns selection change e).1
        (Stepwise.changeSelected tableName columns selection change e).2 := by
  unfold changeSection
  congr 1
  funext e
  simp only [Stepwise.changeSelected]
  cases e.storage.value.getTable? tableName with
  | none => rfl
  | some t =>
    cases hrows : selectRows columns selection t.entries <;> simp only [hrows, settleTouched]

omit [Bincode] in
theorem implements_changeSection (env : Env) (tableName : String) (columns : List Column)
    (selection : Option Expr) (change : Storage → List Row → Storage) :
    Implements (Stepwise.withStorage (Stepwise.changeScope env tableName columns selection change))
      (changeSection env tableName columns selection change) := by
  have hselect := onStorage_changeSelected tableName columns selection change
  rw [changeSection_eq]
  refine implements_withStorage ⟨Inside.bind hselect.scope.inside fun selected => ?_,
    hselect.scope.ranked.bind fun selected => ?_⟩
  · cases selected with
    | error x => exact Inside.early (Inside.done _) (Set.singleton_nonempty _)
    | ok rows => exact (scope_logTouched env tableName rows).inside
  · cases selected with
    | error x => exact rfl
    | ok rows => exact (scope_logTouched env tableName rows).ranked

omit [ExprDebug] [Bincode] in
/-- The section inside the section of DROP TABLE. -/
def clearSection (tn : String) : Executor → Outcome Unit × Executor :=
  lockStorage fun e => (.ok (), e.setStorage (e.storage.value.clearTable tn))

omit [ExprDebug] [Bincode] in
theorem follows_clearTable (tn : String) :
    Follows guards .grow {.catalog} (Stepwise.clearTableScope tn)
      fun e => ((clearSection tn e).2, .done (clearSection tn e).1) := by
  let G : Executor → Executor → Executor × Prog Executor (Outcome Unit) := fun e e' =>
    if e.storage.poisoned then (e', .done (.error (.err lockError)))
    else (e'.setStorage (e'.storage.value.clearTable tn), .done (.ok ()))
  have hclear : OnStorage fun e : Executor =>
      ((), e.setStorage (e.storage.value.clearTable tn)) :=
    ⟨fun _ _ _ => rfl,
      fun _ _ h => congrArg (fun m : Mutex Storage => Mutex.mk (m.value.clearTable tn) m.poisoned) h,
      fun _ => rfl, fun _ => rfl, fun _ => rfl⟩
  have hstorage : insert Lock.storage ({.catalog} : Set Lock) \ {.storage} = {.catalog} := by
    ext r
    cases r <;> simp
  have hcatalog : insert Lock.storage ({.catalog} : Set Lock) \ {.catalog} = {.storage} := by
    ext r
    cases r <;> simp
  refine .acquire (by rintro ⟨⟩) ((Follows.act (G := G) Phase.grow_ne Guards.actsOn_id (fun e => ?_)
    fun a b hab => ?_).congr fun e => ?_)
  · by_cases hp : e.storage.poisoned
    · simp only [G, if_pos hp]
      exact .release Phase.grow_ne (Set.mem_insert _ _)
        (hstorage.symm ▸ .last Phase.shrink_ne Lock.catalog .done)
    · simp only [G, if_neg hp]
      have hrelease : Follows guards .grow (insert Lock.storage {.catalog})
          (.release .catalog (.release .storage (.done (.ok () : Outcome Unit))))
          fun e => (e, .done (.ok ())) :=
        .release Phase.grow_ne (Set.mem_insert_of_mem _ rfl)
          (hcatalog.symm ▸ .last Phase.shrink_ne Lock.storage .done)
      exact hrelease.after Phase.grow_ne (hclear.actsOn (Set.mem_insert _ _))
  · have hpoisoned : a.storage.poisoned = b.storage.poisoned :=
      congrArg Mutex.poisoned (hab.2 .storage (Set.mem_insert _ _))
    simp only [G, hpoisoned, and_self]
  · simp only [G, id_eq, clearSection, lockStorage]
    split <;> rfl

omit [ExprDebug] [Bincode] in
theorem ranked_clearTable (tn : String) :
    (Stepwise.clearTableScope tn).Ranked Lock.rank ∅ {.catalog} := by
  have hstorage : Lock.storage ∈ insert Lock.storage ({.catalog} : Set Lock) := Set.mem_insert _ _
  have hcatalog : Lock.catalog ∈ insert Lock.storage ({.catalog} : Set Lock) :=
    Set.mem_insert_of_mem _ rfl
  refine ⟨?_, fun e => ?_⟩
  · rintro q ⟨⟩
    exact (by decide : 0 < 1)
  · show Locked.Ranked Lock.rank ∅ _ (if e.storage.poisoned then _ else _)
    split
    · refine ⟨hstorage, ⟨hcatalog, by simp⟩, ?_⟩
      show _ = (∅ : Set Lock)
      ext r
      cases r <;> simp
    · refine fun _ => ⟨hcatalog, ⟨.inl rfl, by simp⟩, ?_⟩
      show _ = (∅ : Set Lock)
      ext r
      cases r <;> simp

omit [ExprDebug] [Bincode] in
/-- What DROP TABLE does once the catalog has answered. -/
def droppedSection (tn : String) : Except String Catalog → Executor → Outcome Unit × Executor
  | .error msg, e => (.error (.err msg), e)
  | .ok c, e => clearSection tn (e.setCatalog c)

omit [ExprDebug] [Bincode] in
theorem implements_dropTable (db tn : String) :
    Implements (Stepwise.dropTableScope db tn) (Handler.sec (dropTableSection db tn)) := by
  let G : Executor → Executor → Executor × Prog Executor (Outcome Unit) := fun e e' =>
    if e.catalog.poisoned then (e', .done (.error (.err lockError)))
    else ((droppedSection tn (e.catalog.value.dropTable db tn) e').2,
      .done (droppedSection tn (e.catalog.value.dropTable db tn) e').1)
  have hset : ∀ c : Catalog, guards.ActsOn {.catalog} (·.setCatalog c) := fun c =>
    have hon : OnCatalog fun e : Executor => ((), e.setCatalog c) :=
      ⟨fun _ _ _ => rfl, fun _ _ h => congrArg (fun m : Mutex Catalog => Mutex.mk c m.poisoned) h,
        fun _ => rfl, fun _ => rfl, fun _ => rfl⟩
    hon.actsOn rfl
  constructor
  · refine .enter ((Follows.act (G := G) Phase.grow_ne Guards.actsOn_id (fun e => ?_)
      fun a b hab => ?_).congr fun e => ?_)
    · by_cases hp : e.catalog.poisoned
      · simp only [G, if_pos hp]
        exact .last Phase.grow_ne Lock.catalog .done
      · cases hdrop : e.catalog.value.dropTable db tn with
        | error msg =>
          simp only [G, if_neg hp, hdrop]
          exact .last Phase.grow_ne Lock.catalog .done
        | ok c =>
          simp only [G, if_neg hp, hdrop]
          exact (follows_clearTable tn).after Phase.grow_ne (hset c)
    · have hcatalog : a.catalog = b.catalog := hab.2 .catalog rfl
      simp only [G, hcatalog, and_self]
    · simp only [G, id_eq, dropTableSection, lockCatalog]
      split
      · rfl
      · cases hdrop : e.catalog.value.dropTable db tn with
        | error msg => rfl
        | ok c =>
          -- clearing a table does not panic
          have hstop : (clearSection tn (e.setCatalog c)).1 ≠ .error .panic := by
            simp only [clearSection, lockStorage]
            split <;> simp
          have hsection : clearSection tn (e.setCatalog c) = lockStorage
            (fun e => (.ok (), e.setStorage (e.storage.value.clearTable tn))) (e.setCatalog c) := rfl
          simp only [← hsection, droppedSection]
          rcases hres : clearSection tn (e.setCatalog c) with ⟨(msg | _) | _, e'⟩
          · rfl
          · exact absurd (congrArg Prod.fst hres) hstop
          · rfl
  · refine ⟨fun q hq => absurd hq (Set.notMem_empty q), fun e => ?_⟩
    rw [LawfulSingleton.insert_empty_eq]
    have hreleased : ({.catalog} : Set Lock) \ {.catalog} = ∅ := Set.sdiff_self
    show Locked.Ranked Lock.rank ∅ _ (if e.catalog.poisoned then _ else _)
    split
    · exact ⟨rfl, hreleased⟩
    · cases e.catalog.value.dropTable db tn with
      | error msg => exact ⟨rfl, hreleased⟩
      | ok c => exact fun _ => ranked_clearTable tn

omit [Host] [ExprDebug] [Bincode] in
theorem implements_askCatalog (f : Catalog → Bool) :
    Implements (Stepwise.askCatalog f) (askCatalog f) := by
  have hask : OnCatalog fun e => (!e.catalog.poisoned && f e.catalog.value, e) :=
    ⟨fun a b h => by simp [h], fun a b h => h, fun _ => rfl, fun _ => rfl, fun _ => rfl⟩
  refine ⟨.enter (Follows.congr (hask.scope.inside _ _ fun answer =>
    .last Phase.grow_ne Lock.catalog .done) fun e => rfl), fun q hq => absurd hq
      (Set.notMem_empty q), ?_⟩
  rw [LawfulSingleton.insert_empty_eq]
  exact hask.scope.ranked.bind fun answer => ⟨rfl, Set.sdiff_self⟩

/-! ## Every handler -/

theorem implements_createTable (env : Env) (db : String) (ct : CreateTable) :
    Implements (Stepwise.executeCreateTable env db ct) (executeCreateTable env db ct) :=
  (implements_withCatalog (scope_createTable env db _ _)).bind fun _ =>
    implements_save.bind fun _ => .pure _

omit [ExprDebug] [Bincode] in
theorem onCatalog_fill (env : Env) (tableName : String) (columns : List Column)
    (rows : List Row) : OnCatalog fun e : Executor =>
      let (result, c) := fillRows env.now tableName columns 0 rows 0 e.catalog.value
      (result, e.setCatalog c) :=
  ⟨fun a b h => by simp [h], fun _ _ h => congrArg (fun m : Mutex Catalog =>
    Mutex.mk (fillRows env.now tableName columns 0 rows 0 m.value).2 m.poisoned) h,
    fun _ => rfl, fun _ => rfl, fun _ => rfl⟩

theorem implements_insert (env : Env) (db tableName : String) (columns : List String)
    (source : Option Query) :
    Implements (Stepwise.executeInsert env db tableName columns source)
      (executeInsert env db tableName columns source) := by
  refine (implements_readCatalog _).bind fun tableDef => (Implements.liftOutcome _).bind fun rows =>
    (onCatalog_fill env tableName tableDef.columns rows).implements.bind fun filled =>
      (implements_logWal _ _).bind fun _ => (implements_updateStorage _).bind fun ids =>
        (implements_saveTable _).bind fun _ => (implements_readCatalog _).bind fun indexes =>
          Implements.bind ?_ fun _ => .pure _
  unfold Stepwise.indexSection indexSection
  split
  · exact .pure ()
  · exact implements_updateStorage _

theorem implements_delete (env : Env) (db tableName : String) (selection : Option Expr) :
    Implements (Stepwise.executeDelete env db tableName selection)
      (executeDelete env db tableName selection) :=
  (implements_readCatalog _).bind fun _ => (implements_changeSection env tableName _ _ _).bind
    fun _ => (implements_saveTable _).bind fun _ => .pure _

theorem implements_update (env : Env) (db tableName : String) (assignments : List Assignment)
    (selection : Option Expr) :
    Implements (Stepwise.executeUpdate env db tableName assignments selection)
      (executeUpdate env db tableName assignments selection) :=
  (implements_readCatalog _).bind fun _ => (implements_readCatalog _).bind fun _ =>
    (implements_changeSection env tableName _ _ _).bind fun _ =>
      (implements_saveTable _).bind fun _ => .pure _

omit [Bincode] in
theorem implements_query (db : String) (query : Query) :
    Implements (Stepwise.executeQuery db query) (executeQuery db query) := by
  unfold Stepwise.executeQuery executeQuery
  cases query.body with
  | select select =>
    simp only
    cases select.fromTables with
    | nil => exact .pure _
    | cons table rest =>
      exact (implements_readCatalog _).bind fun _ => (implements_readStorage _).bind fun _ =>
        (Implements.liftOutcome _).bind fun _ => .pure _
  | _ => exact .throw _

omit [ExprDebug] [Bincode] in
theorem implements_build (tableName : String) (indexDef : IndexDef) (tableColumns : List Column) :
    Implements (Stepwise.buildSection tableName indexDef tableColumns)
      (buildSection tableName indexDef tableColumns) := by
  refine OnStorage.implements ⟨fun a b h => ?_, fun a b h => ?_, fun e => ?_, fun e => ?_,
    fun e => ?_⟩
  · simp only [h]
    split <;> rfl
  · simp only [h]
    split
    · exact congrArg (fun m : Mutex Storage => Mutex.mk _ m.poisoned) h
    · exact congrArg (fun m : Mutex Storage => Mutex.mk _ m.poisoned) h
  all_goals
    simp only
    split <;> rfl

omit [ExprDebug] in
theorem implements_createIndex (env : Env) (db tableName : String) (ci : CreateIndex) :
    Implements (Stepwise.executeCreateIndex env db tableName ci)
      (executeCreateIndex env db tableName ci) := by
  unfold Stepwise.executeCreateIndex executeCreateIndex
  simp only
  split
  · exact .throw _
  · exact (implements_writeCatalog _).bind fun _ => (implements_logWal _ _).bind fun _ =>
      (implements_readCatalog _).bind fun _ => (implements_build _ _ _).bind fun _ =>
        (implements_saveTable _).bind fun _ => implements_save.bind fun _ => .pure _

omit [ExprDebug] [Bincode] in
theorem implements_dropIndex (env : Env) (db indexName tableName : String) :
    Implements (Stepwise.executeDropIndex env db indexName tableName)
      (executeDropIndex env db indexName tableName) := by
  have hfile : OnFiles fun e : Executor =>
      ((), e.persist (·.removeIndexData (storageKey tableName indexName))) :=
    ⟨fun _ _ _ => rfl, fun _ => rfl, fun _ => rfl, fun _ => rfl, fun e => by simp⟩
  exact (implements_writeCatalog _).bind fun _ => (implements_logWal _ _).bind fun _ =>
    (implements_updateStorage _).bind fun _ => hfile.implements.bind fun _ => .pure _

omit [ExprDebug] in
theorem implements_dropTableFiles (tn : String) :
    Implements (Stepwise.dropTableFiles tn) (dropTableFiles tn) := by
  have hfile : OnFiles fun e : Executor => ((), e.persist (·.removeTableData tn)) :=
    ⟨fun _ _ _ => rfl, fun _ => rfl, fun _ => rfl, fun _ => rfl, fun e => by simp⟩
  have hsave : OnCatalog fun e : Executor => ((.ok () : Outcome Unit),
      e.persist fun p => removeIndexFiles tn (p.saveCatalog e.catalog.value)) :=
    ⟨fun _ _ _ => rfl, fun _ _ h => h, fun _ => rfl, fun _ => rfl, fun e => by simp⟩
  refine implements_hasPersistence.bind fun durable => ?_
  cases durable with
  | false => exact .pure ()
  | true => exact hfile.implements.bind fun _ => hsave.implements

omit [ExprDebug] in
theorem implements_executeDropTable (env : Env) (db tableName : String) :
    Implements (Stepwise.executeDropTable env db tableName) (executeDropTable env db tableName) :=
  (implements_logWal _ _).bind fun _ => (implements_dropTable _ _).bind fun _ =>
    (implements_dropTableFiles _).bind fun _ => .pure _

omit [ExprDebug] in
theorem implements_createDatabase (dbName : ObjectName) :
    Implements (Stepwise.executeCreateDatabase dbName) (executeCreateDatabase dbName) :=
  (implements_writeCatalog _).bind fun _ => implements_save.bind fun _ => .pure _

omit [ExprDebug] in
theorem implements_dropDatabase (dbName : String) :
    Implements (Stepwise.executeDropDatabase dbName) (executeDropDatabase dbName) :=
  (implements_writeCatalog _).bind fun _ => implements_save.bind fun _ => .pure _

omit [ExprDebug] [Bincode] in
theorem implements_use (stmt : Use) : Implements (Stepwise.executeUse stmt) (executeUse stmt) := by
  unfold Stepwise.executeUse executeUse
  cases stmt with
  | database name | object name => exact implements_readCatalog _
  | other => exact .throw _

omit [ExprDebug] [Bincode] in
theorem implements_showTables (db : String) :
    Implements (Stepwise.executeShowTables db) (executeShowTables db) := by
  unfold Stepwise.executeShowTables executeShowTables
  exact implements_readCatalog _

omit [Host] [ExprDebug] [Bincode] in
theorem implements_showDatabases :
    Implements Stepwise.executeShowDatabases executeShowDatabases := by
  unfold Stepwise.executeShowDatabases executeShowDatabases
  exact implements_readCatalog _

omit [ExprDebug] [Bincode] in
theorem implements_describe (db tableName : String) :
    Implements (Stepwise.executeDescribe db tableName) (executeDescribe db tableName) := by
  unfold Stepwise.executeDescribe executeDescribe
  exact implements_readCatalog _

omit [Host] [ExprDebug] [Bincode] in
/-- IF EXISTS and IF NOT EXISTS ask the catalog first. -/
theorem implements_ask {f : Catalog → Bool} {yes no : Stepwise ExecuteResult}
    {yes' no' : Exec ExecuteResult} (hyes : Implements yes yes') (hno : Implements no no') :
    Implements (do if ← Stepwise.askCatalog f then yes else no)
      (do if ← askCatalog f then yes' else no') := by
  refine (implements_askCatalog f).bind fun answer => ?_
  cases answer with
  | false => exact hno
  | true => exact hyes

/-- Every statement performs its sections in two phases and takes its mutexes in
rank order. -/
theorem implements_execute (env : Env) (db : String) (stmt : Statement) :
    Implements (Stepwise.execute env db stmt) (execute env db stmt) := by
  cases stmt with
  | createTable ct =>
    simp only [Stepwise.execute, execute]
    split
    · exact implements_ask (.pure _) (implements_createTable env db ct)
    · exact implements_createTable env db ct
  | insert ins => exact implements_insert env db _ _ _
  | query query => exact implements_query db query
  | delete del => exact implements_delete env db _ _
  | update table assignments selection => exact implements_update env db _ _ _
  | drop objectType names ifExists =>
    cases objectType with
    | table =>
      simp only [Stepwise.execute, execute]
      split
      · exact implements_ask (implements_executeDropTable env db _) (.pure _)
      · exact implements_executeDropTable env db _
    | database =>
      simp only [Stepwise.execute, execute]
      split
      · exact implements_ask (implements_dropDatabase _) (.pure _)
      · exact implements_dropDatabase _
    | index =>
      refine (implements_readCatalog _).bind fun tableName => ?_
      split
      · exact implements_ask (implements_dropIndex env db _ _) (.pure _)
      · exact implements_dropIndex env db _ _
    | other => exact .throw _
  | createDatabase dbName ifNotExists =>
    simp only [Stepwise.execute, execute]
    split
    · exact implements_ask (.pure _) (implements_createDatabase dbName)
    · exact implements_createDatabase dbName
  | showDatabases => exact implements_showDatabases
  | showTables => exact implements_showTables db
  | use stmt => exact implements_use stmt
  | explainTable tableName => exact implements_describe db _
  | createIndex ci =>
    exact implements_ask (implements_createIndex env db _ ci) (.throw _)
  | other => exact .throw _

end Handlers

end Srrdb.Engine
