import PinnedSync.Mutex

/-!
# What a `Mutex<T>` user sees

Poisoning is there so that a thread does not take, as if nothing happened, data
that another thread left half-written when it unwound inside its critical section:
`MutexGuard::drop` sets the flag when its thread unwinds, and every later `lock`,
`try_lock`, `into_inner` and `get_mut` returns `Err(PoisonError)`
(`test_mutex_arc_poison`, `test_into_inner_poison`, `test_get_mut_poison`).

## The model

`Mutex` is the model of `PinnedSync.Mutex`, data and condvar waits included. Two
ghost fields record the run. `clean` is the data as the last critical section that
ended with the flag clear left it: a section ends at `MutexGuard::drop` (its
`poison.done`) or when a condvar wait unlocks the mutex. `escaped` records that a
section ended by a panic in the backend wait (`Mutex.Step.waitPanic`), which unlocks
the mutex with no drop of the guard. The ghosts constrain no schedule: every run of
the mutex is the run of some `Step`s (`Reachable.lift`).

## What is proved

* `ok_sees_clean`: while no section has escaped, a thread whose `lock`, `try_lock`
  or condvar re-acquisition returns `Ok` sees the data as the last section ended
  with the flag clear left it (the initial value if none), never a value written in
  a section whose thread unwound; and `into_inner` and `get_mut` return `Ok` with
  that value exactly when `is_poisoned` is false, which is exactly when no guard
  taken while not unwinding was dropped while unwinding. A panic in the backend wait
  breaks this: thread `1`'s `lock` then returns `Ok` with the value thread `0` wrote
  in its section before the wait panicked.
-/

namespace PinnedSync

namespace MutexData

open Poison

/-- The mutex, and the ghosts of the data. -/
structure State (α : Type) where
  /-- `Mutex<T>`, its threads and its ghost log. -/
  m : Mutex.State α
  /-- Ghost: the data as the last critical section that ended with the flag clear
  left it. -/
  clean : α
  /-- Ghost: some critical section ended by a panic in its backend wait. -/
  escaped : Bool

/-- `Mutex::boxed(v)`, before any thread uses it. -/
def init {α : Type} (v : α) : State α := ⟨Mutex.boxed v, v, false⟩

variable {α : Type}

/-- One step of some thread, a step of the mutex, with what it does to the ghosts. -/
inductive Step : State α → State α → Prop
  /-- A step that ends no critical section: every guard live before it is live after. -/
  | keep {s : State α} {m' : Mutex.State α} (h : Mutex.Step s.m m')
      (hk : ∀ t n tok, s.m.pc t = .guard n tok → m'.pc t = .guard n tok) :
      Step s { s with m := m' }
  /-- `MutexGuard::drop`'s `poison.done`, or a condvar wait's unlock: the section of
  `t` ends. -/
  | release {s : State α} {m' : Mutex.State α} {t n : ℕ} {tok : Bool} (h : Mutex.Step s.m m')
      (hp : s.m.pc t = .guard n tok) (hr : m'.pc t = .dropping n tok ∨ m'.pc t = .waiting tok) :
      Step s { s with m := m', clean := if m'.poison.failed then s.clean else m'.data }
  /-- The backend wait panics: the section of `t` ends, and its guard is not dropped. -/
  | escape {s : State α} {m' : Mutex.State α} {t n : ℕ} {tok : Bool} (h : Mutex.Step s.m m')
      (hp : s.m.pc t = .guard n tok) (hi : m'.pc t = .idle) :
      Step s { s with m := m', escaped := true }

/-- The states some run reaches from `init v`. -/
def Reachable (v : α) (s : State α) : Prop := Relation.ReflTransGen Step (init v) s

theorem Step.mutex {s s' : State α} (h : Step s s') : Mutex.Step s.m s'.m := by
  cases h with
  | keep h => exact h
  | release h => exact h
  | escape h => exact h

theorem Reachable.mutex {v : α} {s : State α} (h : Reachable v s) : Mutex.Reachable v s.m := by
  induction h with
  | refl => exact .refl
  | tail _ hst ih => exact ih.tail hst.mutex

/-! ### The ghosts constrain no schedule -/

/-- An update of a thread with no live guard keeps every live guard. -/
theorem keep_update {pc : ℕ → Mutex.Pc} {t : ℕ} (ht : ∀ n tok, pc t ≠ .guard n tok)
    (p : Mutex.Pc) : ∀ u n tok, pc u = .guard n tok → Function.update pc t p u = .guard n tok := by
  intro u n tok hu
  have hut : u ≠ t := by rintro rfl; exact ht n tok hu
  simp [Function.update_noteq hut, hu]

/-- Every step of the mutex is a `Step`, whatever the ghosts. -/
theorem Step.lift (s : State α) {m' : Mutex.State α} (h : Mutex.Step s.m m') :
    ∃ c e, Step s ⟨m', c, e⟩ := by
  cases h with
  | lock hp hl => exact ⟨_, _, .keep (.lock hp hl) (keep_update (by simp [hp]) _)⟩
  | borrow hp => exact ⟨_, _, .keep (.borrow hp) (keep_update (by simp [hp]) _)⟩
  | write v hp => exact ⟨_, _, .keep (.write v hp) fun _ _ _ h => h⟩
  | drop hp => exact ⟨_, _, .release (.drop hp) hp (.inl (by simp))⟩
  | unlock hp => exact ⟨_, _, .keep (.unlock hp) (keep_update (by simp [hp]) _)⟩
  | wait hp => exact ⟨_, _, .release (.wait hp) hp (.inr (by simp))⟩
  | waitPanic hp hpan => exact ⟨_, _, .escape (.waitPanic hp hpan) hp (by simp)⟩
  | reacquire hp hl => exact ⟨_, _, .keep (.reacquire hp hl) (keep_update (by simp [hp]) _)⟩
  | repoison hp => exact ⟨_, _, .keep (.repoison hp) (keep_update (by simp [hp]) _)⟩
  | unwind b hp hd => exact ⟨_, _, .keep (.unwind b hp hd) fun _ _ _ h => h⟩

/-- Every run of the mutex is the run of some `Step`s. -/
theorem Reachable.lift {v : α} {m : Mutex.State α} (h : Mutex.Reachable v m) :
    ∃ c e, Reachable v ⟨m, c, e⟩ := by
  induction h with
  | refl => exact ⟨v, false, .refl⟩
  | tail _ hst ih =>
    obtain ⟨c, e, hr⟩ := ih
    obtain ⟨c', e', hs⟩ := Step.lift ⟨_, c, e⟩ hst
    exact ⟨c', e', hr.tail hs⟩

/-! ### The data a section leaves -/

/-- While no section has escaped, with the flag clear and no guard live, the data is
what the last section left. -/
def Clean (s : State α) : Prop :=
  s.escaped = false → s.m.poison.failed = false → (∀ t n tok, s.m.pc t ≠ .guard n tok) →
    s.m.data = s.clean

theorem Clean.step {s s' : State α} (hc : Clean s) (h : Step s s') : Clean s' := by
  cases h with
  | keep h hk =>
    intro he hf hno
    have hf' : s.m.poison.failed = false := by
      by_contra hs
      simp [h.failed_of_failed (by simpa using hs)] at hf
    rw [h.data_eq hno]
    exact hc he hf' fun t n tok ht => hno t n tok (hk t n tok ht)
  | release =>
    intro _ hf _
    simp only at hf ⊢
    simp [hf]
  | escape => exact fun he => absurd he (by simp)

theorem Reachable.clean {v : α} {s : State α} (h : Reachable v s) : Clean s := by
  induction h with
  | refl => exact fun _ _ _ => rfl
  | tail _ hst ih => exact ih.step hst

/-- **An `Ok` acquisition sees what a section left.** In every run of threads that
lock, write, drop, wait on a condvar and unwind (any interleaving), while no backend
wait has panicked: a thread whose acquisition is about to read a clear flag, so that
its `lock`, `try_lock` or condvar re-acquisition returns `Ok`, sees the data as the
last critical section that ended with the flag clear left it; and once no thread
holds or waits on the mutex, `into_inner` and `get_mut` return `Ok` with that value
when `is_poisoned` is false and `Err` with the data when it is true, and
`is_poisoned` is true exactly when a guard taken while not unwinding was dropped while
unwinding. A panic in the backend wait breaks the first part: thread `0` writes `1`
in its section over the initial `0` and its wait panics, and thread `1`'s `lock` then
reads a clear flag and sees `1`. -/
theorem ok_sees_clean :
    (∀ (v : α) (s : State α), Reachable v s →
      (s.m.isPoisoned = true ↔ ∃ e ∈ s.m.log, e.poisons = true) ∧
      (s.escaped = false →
        (∀ t n, (s.m.pc t).fresh = some n → s.m.poison.failed = false → s.m.data = s.clean) ∧
        ((∀ t, s.m.pc t = .idle) → ∀ pan,
          s.m.intoInner pan = (if s.m.isPoisoned then .poisoned s.m.data else .ok s.clean) ∧
          s.m.getMut pan = (if s.m.isPoisoned then .poisoned s.m.data else .ok s.clean)))) ∧
    ∃ s : State ℤ, Reachable 0 s ∧ s.escaped = true ∧ (s.m.pc 1).fresh = some 1 ∧
      s.m.poison.failed = false ∧ s.m.data = 1 ∧ s.clean = 0 := by
  refine ⟨fun v s h => ?_, ?_⟩
  · have hi := h.mutex.inv
    have hc := h.clean
    refine ⟨hi.consistent.failed_iff, fun he => ⟨fun t n ht hf => ?_, fun hidle pan => ?_⟩⟩
    · -- the thread holds the mutex, so no thread has a live guard
      refine hc he hf fun u n' tok hu => ?_
      have hu' : (s.m.pc u).hold = some n' := by simp [hu, Mutex.Pc.hold]
      obtain rfl := hi.eq_of_hold (Mutex.Pc.hold_of_fresh ht) hu'
      simp [hu, Mutex.Pc.fresh] at ht
    · have hd : s.m.poison.failed = false → s.m.data = s.clean :=
        fun hf => hc he hf fun u n tok hu => by simp [hidle u] at hu
      rw [Mutex.State.intoInner_eq, Mutex.State.getMut_eq]
      cases hp : s.m.isPoisoned
      · simp [hd (by simpa [Mutex.State.isPoisoned, Flag.get] using hp)]
      · simp
  · exact ⟨_, .tail (.tail (.tail (.tail (.tail .refl
      (.keep (@Mutex.Step.lock ℤ _ 0 _ _ rfl rfl) (keep_update (by simp [init, Mutex.boxed]) _)))
      (.keep (@Mutex.Step.borrow ℤ _ 0 _ rfl) (keep_update (by simp) _)))
      (.keep (@Mutex.Step.write ℤ _ 0 0 false 1 rfl) fun _ _ _ h => h))
      (@Step.escape ℤ _ _ 0 0 false (@Mutex.Step.waitPanic ℤ _ 0 0 false rfl rfl) rfl rfl))
      (.keep (@Mutex.Step.lock ℤ _ 1 _ _ rfl rfl) (keep_update (by simp [init, Mutex.boxed]) _)),
      rfl, rfl, rfl, rfl, rfl⟩

end MutexData

end PinnedSync
