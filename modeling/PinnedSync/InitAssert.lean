import PinnedSync.Basic

/-!
# The initialization gate

`sys_common::init_assert::InitAssert<T>` is the gate under every sys `Mutex` and
`Condvar` and under the fallback `RwLock`: an atomic `state` (`UNINIT = 0`,
`INIT_IN_PROGRESS = -1`, `INIT = 1`) in front of storage for one `T`.

    init_with: assert_eq!(self.state.swap(INIT_IN_PROGRESS, Acquire), UNINIT);
               f((*self.data.get()).as_mut_ptr());
               self.state.store(INIT, Release);
    get:       assert_eq!(self.state.load(Acquire), INIT);
    drop:      if self.state.load(Acquire) == INIT { drop_in_place(data) }

## The model

`InitAssert α` is the state and the storage (`none` while nothing was written).
Threads see `init_with` in two steps: the swap with its assertion (`initBegin`),
and, once the initializer returned, the store (`initEnd`); between them any other
thread may call anything. `Gate` adds whether an initializer is running, and two
ghost records: how many initializers started, and whether one returned.
`Gate.Step` is one step of any thread: a call of `init`/`init_with` (a failed
assertion panics, and the panic may be caught), or the return or the panic of the
running initializer. `get` and `drop` read the state and change nothing.

## What is proved

* `Gate.Inv` holds in every reachable state: at most one initializer ever starts,
  and `get`/`get_ref` succeed, and `drop` drops a value, only after an initializer
  returned and stored it (`Gate.completed_of_getRef`, `Gate.completed_of_drop`).
* `Gate.init_runs_once`: the same, as one statement with the assertion of `init`,
  which passes exactly for a call made before any initializer started.
* `Gate.stray_init_locks_out`: the swap writes `INIT_IN_PROGRESS` before the
  assertion looks at what it replaced. A call of `init` after a completed one
  panics *and* moves the state from `INIT` to `INIT_IN_PROGRESS`, and no later step
  of any thread brings `INIT` back: every later `get` panics, and dropping the gate
  leaks the value its initializer stored.
-/

namespace PinnedSync

/-- `UNINIT`. -/
def UNINIT : ℤ := 0

/-- `INIT_IN_PROGRESS`. -/
def INIT_IN_PROGRESS : ℤ := -1

/-- `INIT`. -/
def INIT : ℤ := 1

/-- The panic of a failed `assert_eq!`. -/
def ASSERT_EQ_FAILED : String := "assertion failed: left == right"

/-- An `InitAssert<T>`: the atomic `state` and the `MaybeUninit<T>` storage. -/
structure InitAssert (α : Type) where
  /-- `state: AtomicIsize`. -/
  state : ℤ
  /-- `data`: `some v` once `v` was written. -/
  data : Option α
  deriving DecidableEq, Repr

namespace InitAssert

variable {α : Type}

/-- `InitAssert::new()`. -/
def new : InitAssert α := ⟨UNINIT, none⟩

/-- The first half of `init_with`:
`assert_eq!(self.state.swap(INIT_IN_PROGRESS, Acquire), UNINIT)`. The swap writes
whatever the assertion then finds. -/
def initBegin (c : InitAssert α) : Outcome Unit × InitAssert α :=
  (if c.state = UNINIT then .ret () else .panic ASSERT_EQ_FAILED,
    { c with state := INIT_IN_PROGRESS })

/-- The second half, once the initializer wrote `v`: `self.state.store(INIT, Release)`. -/
def initEnd (_ : InitAssert α) (v : α) : InitAssert α := ⟨INIT, some v⟩

/-- `get`: `assert_eq!(self.state.load(Acquire), INIT)`, then the pointer. -/
def get (c : InitAssert α) : Outcome Unit :=
  if c.state = INIT then .ret () else .panic ASSERT_EQ_FAILED

/-- `get_ref`: the assertion of `get`, then a read through the pointer (`none` would be
a read of storage never written). -/
def getRef (c : InitAssert α) : Outcome (Option α) :=
  match c.get with
  | .ret () => .ret c.data
  | .panic m => .panic m

/-- `Drop::drop`: the value dropped in place, if any. -/
def drop (c : InitAssert α) : Option α :=
  if c.state = INIT then c.data else none

theorem get_eq_ret {c : InitAssert α} : c.get = .ret () ↔ c.state = INIT := by
  unfold get; split <;> simp_all

theorem getRef_eq_ret {c : InitAssert α} {x : Option α} :
    c.getRef = .ret x ↔ c.state = INIT ∧ c.data = x := by
  unfold getRef get
  by_cases h : c.state = INIT <;> simp [h]

end InitAssert

/-! ### Threads around one gate -/

/-- One `InitAssert` and the call of `init_with` in flight, if any. -/
structure Gate (α : Type) where
  /-- The `InitAssert`. -/
  cell : InitAssert α
  /-- Some thread passed the assertion and its initializer has not returned yet. -/
  running : Bool
  /-- Ghost: how many initializers started. -/
  started : ℕ
  /-- Ghost: whether an initializer returned. -/
  completed : Bool
  deriving DecidableEq, Repr

namespace Gate

variable {α : Type}

/-- A gate as `InitAssert::new()` leaves it. -/
def new : Gate α := ⟨InitAssert.new, false, 0, false⟩

/-- A call of `init_with` by some thread, up to the start of its initializer: the
assertion's outcome, and the gate after the swap. -/
def callInit (g : Gate α) : Outcome Unit × Gate α :=
  let (r, c) := g.cell.initBegin
  (r, if r = .ret () then { g with cell := c, running := true, started := g.started + 1 }
    else { g with cell := c })

/-- One step of some thread. -/
inductive Step : Gate α → Gate α → Prop
  /-- `init`/`init_with` is called; a failed assertion panics, and the swap stays. -/
  | init (g : Gate α) : Step g g.callInit.2
  /-- The running initializer returns, having written `v`; `INIT` is stored. -/
  | finish (g : Gate α) (v : α) (h : g.running = true) :
      Step g { g with cell := g.cell.initEnd v, running := false, completed := true }
  /-- The running initializer panics: nothing is stored. -/
  | abort (g : Gate α) (h : g.running = true) : Step g { g with running := false }

/-- The gates some run reaches from `new`. -/
def Reachable (g : Gate α) : Prop := Relation.ReflTransGen Step new g

/-- What holds of every reachable gate. -/
structure Inv (g : Gate α) : Prop where
  started_le : g.started ≤ 1
  uninit_iff : g.cell.state = UNINIT ↔ g.started = 0
  running_started : g.running = true → g.started = 1
  running_state : g.running = true → g.cell.state = INIT_IN_PROGRESS
  init_completed : g.cell.state = INIT → g.completed = true ∧ g.cell.data.isSome

@[simp] theorem callInit_fst (g : Gate α) :
    g.callInit.1 = if g.cell.state = UNINIT then .ret () else .panic ASSERT_EQ_FAILED := by
  by_cases h : g.cell.state = UNINIT <;> simp [callInit, InitAssert.initBegin, h]

@[simp] theorem callInit_cell (g : Gate α) :
    g.callInit.2.cell = { g.cell with state := INIT_IN_PROGRESS } := by
  by_cases h : g.cell.state = UNINIT <;> simp [callInit, InitAssert.initBegin, h]

@[simp] theorem callInit_running (g : Gate α) :
    g.callInit.2.running = (decide (g.cell.state = UNINIT) || g.running) := by
  by_cases h : g.cell.state = UNINIT <;> simp [callInit, InitAssert.initBegin, h]

@[simp] theorem callInit_started (g : Gate α) :
    g.callInit.2.started = if g.cell.state = UNINIT then g.started + 1 else g.started := by
  by_cases h : g.cell.state = UNINIT <;> simp [callInit, InitAssert.initBegin, h]

@[simp] theorem callInit_completed (g : Gate α) : g.callInit.2.completed = g.completed := by
  by_cases h : g.cell.state = UNINIT <;> simp [callInit, InitAssert.initBegin, h]

theorem inv_new : Inv (new : Gate α) := by
  constructor <;> simp [new, InitAssert.new, INIT, UNINIT]

theorem Inv.step {g g' : Gate α} (hi : Inv g) (h : Step g g') : Inv g' := by
  have hne : INIT_IN_PROGRESS ≠ UNINIT := by decide
  have hne' : INIT_IN_PROGRESS ≠ INIT := by decide
  cases h with
  | init =>
    by_cases hu : g.cell.state = UNINIT
    · have := hi.uninit_iff.mp hu
      constructor <;> simp [hu, hne, hne', this]
    · have := hi.uninit_iff.not.mp hu
      exact ⟨by simpa [hu] using hi.started_le, by simp [hu, hne, this],
        by simpa [hu] using hi.running_started, by simp, by simp [hne']⟩
  | finish v hr =>
    have := hi.running_started hr
    constructor <;> simp [InitAssert.initEnd, this, INIT, UNINIT]
  | abort hr => exact ⟨hi.started_le, hi.uninit_iff, by simp, by simp, hi.init_completed⟩

theorem Reachable.inv {g : Gate α} (h : Reachable g) : Inv g := by
  induction h with
  | refl => exact inv_new
  | tail _ hs ih => exact ih.step hs

/-- `get_ref` succeeds only after an initializer returned, and then reads what it stored. -/
theorem completed_of_getRef {g : Gate α} {x : Option α} (h : Reachable g)
    (hg : g.cell.getRef = .ret x) : g.completed = true ∧ x.isSome := by
  obtain ⟨hs, rfl⟩ := InitAssert.getRef_eq_ret.mp hg
  exact h.inv.init_completed hs

/-- `drop` drops a value only after an initializer returned. -/
theorem completed_of_drop {g : Gate α} {v : α} (h : Reachable g) (hd : g.cell.drop = some v) :
    g.completed = true := by
  unfold InitAssert.drop at hd
  split at hd
  · exact (h.inv.init_completed ‹_›).1
  · cases hd

/-- **One initializer, and no use before it.** In every run of threads that call
`init`/`init_with` (whose initializers return or panic, with the panics caught or not),
`get`, `get_ref` and `drop` on one gate: at most one initializer ever starts; a call of
`init` passes its assertion iff no initializer started before it; `get` and `get_ref`
return only once an initializer returned, and `get_ref` then reads the value it
stored; and `drop` drops a value only once an initializer returned. -/
theorem init_runs_once {g : Gate α} (h : Reachable g) :
    g.started ≤ 1 ∧ (g.callInit.1 = .ret () ↔ g.started = 0) ∧
    (g.cell.get = .ret () → g.completed = true) ∧
    (∀ x, g.cell.getRef = .ret x → g.completed = true ∧ x.isSome) ∧
    (∀ v, g.cell.drop = some v → g.completed = true) := by
  have hi := h.inv
  refine ⟨hi.started_le, ?_, fun hg => (hi.init_completed (InitAssert.get_eq_ret.mp hg)).1,
    fun _ => completed_of_getRef h, fun _ => completed_of_drop h⟩
  rw [callInit_fst, ← hi.uninit_iff]
  split_ifs with hu <;> simp [hu]

theorem init_runs_once_initialized :
    ∃ g : Gate ℕ, Reachable g ∧ g.cell.get = .ret () ∧ g.cell.getRef = .ret (some 5) ∧
      g.cell.drop = some 5 ∧ g.callInit.1 = .panic ASSERT_EQ_FAILED ∧
      (g.started ≤ 1 ∧ (g.callInit.1 = .ret () ↔ g.started = 0) ∧
        (g.cell.get = .ret () → g.completed = true) ∧
        (∀ x, g.cell.getRef = .ret x → g.completed = true ∧ x.isSome) ∧
        (∀ v, g.cell.drop = some v → g.completed = true)) := by
  have h : Reachable (⟨⟨INIT, some 5⟩, false, 1, true⟩ : Gate ℕ) :=
    (Relation.ReflTransGen.single (Step.init new)).tail (Step.finish _ 5 rfl)
  exact ⟨_, h, rfl, rfl, rfl, rfl, init_runs_once h⟩

/-! ### A stray second `init` -/

/-- The state a stray `init` leaves behind: `INIT_IN_PROGRESS`, with nothing running
that could store `INIT` again. -/
def LockedOut (g : Gate α) : Prop :=
  g.cell.state = INIT_IN_PROGRESS ∧ g.running = false ∧ g.started = 1 ∧ g.completed = true

theorem LockedOut.step {g g' : Gate α} (hl : LockedOut g) (h : Step g g') : LockedOut g' := by
  obtain ⟨hs, hr, hst, hc⟩ := hl
  cases h with
  | init => exact ⟨by simp, by simp [hs, hr, INIT_IN_PROGRESS, UNINIT], by simp [hs, hst, INIT_IN_PROGRESS, UNINIT], by simpa⟩
  | finish _ h' => simp [hr] at h'
  | abort h' => simp [hr] at h'

/-- **A stray `init` locks every later user out.** On a reachable gate whose
initializer completed, a second `init` panics, and from the gate it leaves, every
state any run reaches has `get` panicking and `drop` dropping nothing, although an
initializer completed and stored its value. -/
theorem stray_init_locks_out {g : Gate α} (h : Reachable g) (hs : g.cell.state = INIT) :
    g.callInit.1 = .panic ASSERT_EQ_FAILED ∧
      ∀ g', Relation.ReflTransGen Step g.callInit.2 g' →
        g'.cell.get = .panic ASSERT_EQ_FAILED ∧ g'.cell.drop = none ∧ g'.completed = true := by
  have hi := h.inv
  have hu : g.cell.state ≠ UNINIT := by simp [hs, INIT, UNINIT]
  refine ⟨by simp [hu], fun g' hg' => ?_⟩
  have hl : LockedOut g' := by
    induction hg' with
    | refl =>
      have hr : g.running = false := by
        cases hg : g.running
        · rfl
        · have := hi.running_state hg; simp [hs, INIT, INIT_IN_PROGRESS] at this
      have := hi.uninit_iff.not.mp hu
      have := hi.started_le
      exact ⟨by simp, by simp [hu, hr], by simp [hu]; omega, by simpa using (hi.init_completed hs).1⟩
    | tail _ hs' ih => exact ih.step hs'
  obtain ⟨hs', -, -, hc⟩ := hl
  simp [InitAssert.get, InitAssert.drop, hs', hc, INIT_IN_PROGRESS, INIT]

end Gate

end PinnedSync
