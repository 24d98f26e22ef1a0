import PinnedSync.Barrier
import PinnedSync.Mutex

/-!
# `Barrier::wait` on the mutex and condvar

`PinnedSync.Barrier` takes a step to be a whole critical section of `Barrier::wait`,
or a wakeup. Here `wait` runs on the steps of `Mutex<BarrierState>`: the sys lock, the
flag's borrow and `unwrap`, the body that reads and writes `BarrierState` with the
guard held, `cvar.wait` (the mutex's `wait`), the backend wait's lock and `repoison`,
and the guard's drop. The body between two operations of the mutex is one step: the
thread holds the guard throughout, so no other thread reads `BarrierState` in between
(`Mutex.one_holder`). The bodies are

* `arrive`: `local_gen = generation_id`, `count += 1`, `count < num_threads`, and the
  loop's first check, which passes;
* `lead`: `count += 1` fills the round, `count = 0`,
  `generation_id.wrapping_add(1)`, `notify_all`;
* `recheck`: after `cvar.wait(lock).unwrap()`, the loop's check.

`notify_all` wakes the threads blocked in `cvar.wait`; a blocked thread may also wake
spuriously. A ghost counter numbers the arrivals, as in `Barrier`.

## What is proved

* `Step.mutex`: each step is a step of `Mutex`, or changes nothing of the mutex, so
  the mutex's invariants hold along every run (`Reachable.mutex`).
* `Reachable.inv`: no thread unwinds and the flag stays clear, so both `unwrap`s get
  `Ok`; a thread about to call `cvar.wait`, checking the loop or returning holds the
  guard, and a thread blocked in `cvar.wait` holds nothing.
* `wait_refines`: `State.abs`, which forgets the mutex, maps each step to a step of
  `Barrier` or to none, so every run here is a run of `Barrier` and what
  `Barrier.Reachable.inv` says holds of the fields of `BarrierState`.
* `Inv.release`: every critical section ends; the mutex's holder lets it go within
  four steps of its own.
* `woken_returns`: a waiter woken after its round filled can always leave `wait`,
  while `generation_id` has not come round; it then needs only the holder to end its
  critical section. When it has come round, `Barrier.stale_waiter_sleeps_uncounted`
  shows such a waiter going back to sleep.
-/

namespace PinnedSync

namespace BarrierWait

open Mutex Sys

/-- `BarrierState`. -/
structure BarrierState where
  /-- `count`. -/
  count : ℕ
  /-- `generation_id`. -/
  generationId : ℕ
  deriving DecidableEq, Repr

/-- Where a thread stands in `Barrier::wait`, beside its place in the mutex. `a`
numbers its arrival, `localGen` is its `local_gen`, and `last` is where its last
`wait` left it. -/
inductive Stage where
  /-- Not in `wait`. -/
  | out (last : Barrier.Pc)
  /-- In `self.lock().lock().unwrap()`, or holding the guard before `count += 1`. -/
  | calling (last : Barrier.Pc)
  /-- Holding the guard, the loop's check passed: `cvar.wait` is next. -/
  | toSleep (localGen a : ℕ)
  /-- Blocked in `cvar.wait`, not woken. -/
  | asleep (localGen a : ℕ)
  /-- Woken, by `notify_all` or spuriously: taking the lock back, or holding the guard
  before the loop's check. -/
  | woken (localGen a : ℕ)
  /-- Returning `BarrierWaitResult(leader)`: holding the guard, or in its drop. -/
  | leaving (a : ℕ) (leader : Bool)
  deriving DecidableEq, Repr

namespace Stage

/-- What `notify_all` does to the thread. -/
def notify : Stage → Stage
  | asleep g a => woken g a
  | x => x

/-- The thread's place in `Barrier`'s model of critical sections. -/
def abs : Stage → Barrier.Pc
  | out q | calling q => q
  | toSleep g a | asleep g a => .sleeping g a
  | woken g a => .woken g a
  | leaving a b => .returned a b

end Stage

/-- The barrier's state: its `Mutex<BarrierState>` and the threads' places in it,
each thread's place in `wait`, and the ghost count of arrivals. -/
structure State where
  /-- `lock`, and the threads' places in it. -/
  m : Mutex.State BarrierState
  /-- Each thread's place in `wait`. -/
  st : ℕ → Stage
  /-- The arrivals so far. -/
  arrivals : ℕ

/-- `Barrier::boxed(n)`, before any thread calls `wait`. -/
def init : State := ⟨Mutex.boxed ⟨0, 0⟩, fun _ => .out .idle, 0⟩

/-- The state of `Barrier`'s model: `BarrierState`, and where each thread stands. -/
def State.abs (s : State) : Barrier.State :=
  ⟨s.m.data.count, s.m.data.generationId, Stage.abs ∘ s.st, s.arrivals⟩

variable (N w : ℕ)

/-- One step of thread `t` in `wait`. -/
inductive Step : State → State → Prop
  /-- `self.lock().lock()`: the sys lock. -/
  | lock {s : State} {t : ℕ} {q : Barrier.Pc} {r : ℤ} {p : PthreadMutex}
      (hs : s.st t = .out q) (hp : s.m.pc t = .idle) (hl : s.m.inner.lock t = .returns (r, p)) :
      Step s { s with
        m := { s.m with
          inner := p
          pc := Function.update s.m.pc t (.acquired s.m.acquired)
          acquired := s.m.acquired + 1 }
        st := Function.update s.st t (.calling q) }
  /-- The borrow of the flag; `unwrap` goes on from `Ok`. -/
  | borrow {s : State} {t n : ℕ} {q : Barrier.Pc} (hs : s.st t = .calling q)
      (hp : s.m.pc t = .acquired n) (hok : s.m.poison.failed = false) :
      Step s { s with
        m := { s.m with
          pc := Function.update s.m.pc t (.guard n (s.m.panicking t))
          log := .acquire n (s.m.poison.borrow (s.m.panicking t)).isPoisoned :: s.m.log } }
  /-- `count += 1` leaves `count < num_threads`: the loop's check passes at once. -/
  | arrive {s : State} {t n : ℕ} {tok : Bool} {q : Barrier.Pc} (hs : s.st t = .calling q)
      (hp : s.m.pc t = .guard n tok) (hlt : s.m.data.count + 1 < N) :
      Step s { s with
        m := { s.m with data := ⟨s.m.data.count + 1, s.m.data.generationId⟩ }
        st := Function.update s.st t (.toSleep s.m.data.generationId (s.arrivals + 1))
        arrivals := s.arrivals + 1 }
  /-- `count += 1` fills the round: `count = 0`, `generation_id.wrapping_add(1)`,
  `notify_all`. -/
  | lead {s : State} {t n : ℕ} {tok : Bool} {q : Barrier.Pc} (hs : s.st t = .calling q)
      (hp : s.m.pc t = .guard n tok) (hge : ¬ s.m.data.count + 1 < N) :
      Step s { s with
        m := { s.m with data := ⟨0, (s.m.data.generationId + 1) % 2 ^ w⟩ }
        st := Function.update (fun u => (s.st u).notify) t (.leaving (s.arrivals + 1) true)
        arrivals := s.arrivals + 1 }
  /-- `cvar.wait(lock)`: `map` forgets the guard, the backend wait unlocks and
  sleeps. -/
  | wait {s : State} {t n : ℕ} {tok : Bool} {g a : ℕ} (hs : s.st t = .toSleep g a)
      (hp : s.m.pc t = .guard n tok) :
      Step s { s with
        m := { s.m with
          inner := (s.m.inner.unlock t).2
          pc := Function.update s.m.pc t (.waiting tok)
          released := n :: s.m.released }
        st := Function.update s.st t (.asleep g a) }
  /-- A spurious wakeup. -/
  | spurious {s : State} {t g a : ℕ} (hs : s.st t = .asleep g a) :
      Step s { s with st := Function.update s.st t (.woken g a) }
  /-- The backend wait locks the sys mutex again. -/
  | reacquire {s : State} {t g a : ℕ} {tok : Bool} {r : ℤ} {p : PthreadMutex}
      (hs : s.st t = .woken g a) (hp : s.m.pc t = .waiting tok)
      (hl : s.m.inner.lock t = .returns (r, p)) :
      Step s { s with
        m := { s.m with
          inner := p
          pc := Function.update s.m.pc t (.reacquired s.m.acquired tok)
          acquired := s.m.acquired + 1 } }
  /-- `repoison`; `unwrap` goes on from `Ok`. -/
  | repoison {s : State} {t g a n : ℕ} {tok : Bool} (hs : s.st t = .woken g a)
      (hp : s.m.pc t = .reacquired n tok) (hok : s.m.poison.failed = false) :
      Step s { s with
        m := { s.m with
          pc := Function.update s.m.pc t (.guard n tok)
          log := .acquire n s.m.poison.get :: s.m.log } }
  /-- The loop's check with the guard: wait again, or `BarrierWaitResult(false)`. -/
  | recheck {s : State} {t g a n : ℕ} {tok : Bool} (hs : s.st t = .woken g a)
      (hp : s.m.pc t = .guard n tok) :
      Step s { s with
        st := Function.update s.st t
          (if g = s.m.data.generationId ∧ s.m.data.count < N then .toSleep g a
            else .leaving a false) }
  /-- `wait` returns and drops the guard: `poison.done`. -/
  | drop {s : State} {t a n : ℕ} {b tok : Bool} (hs : s.st t = .leaving a b)
      (hp : s.m.pc t = .guard n tok) :
      Step s { s with
        m := { s.m with
          poison := s.m.poison.done ⟨tok⟩ (s.m.panicking t)
          pc := Function.update s.m.pc t (.dropping n tok)
          log := .done n tok (s.m.panicking t) :: s.m.log } }
  /-- The guard's drop: the sys unlock. -/
  | unlock {s : State} {t a n : ℕ} {b tok : Bool} (hs : s.st t = .leaving a b)
      (hp : s.m.pc t = .dropping n tok) :
      Step s { s with
        m := { s.m with
          inner := (s.m.inner.unlock t).2
          pc := Function.update s.m.pc t .idle
          released := n :: s.m.released }
        st := Function.update s.st t (.out (.returned a b)) }

/-- The states some run reaches from `init`. -/
def Reachable (s : State) : Prop := Relation.ReflTransGen (Step N w) init s

variable {N w}

/-- **`wait` runs on the mutex model**: each step is a step of `Mutex`, or changes no
state of the mutex. -/
theorem Step.mutex {s s' : State} (h : Step N w s s') : s'.m = s.m ∨ Mutex.Step s.m s'.m := by
  cases h with
  | lock _ hp hl => exact .inr (.lock hp hl)
  | borrow _ hp _ => exact .inr (.borrow hp)
  | arrive _ hp _ => exact .inr (.write _ hp)
  | lead _ hp _ => exact .inr (.write _ hp)
  | wait _ hp => exact .inr (.wait hp)
  | spurious => exact .inl rfl
  | reacquire _ hp hl => exact .inr (.reacquire hp hl)
  | repoison _ hp _ => exact .inr (.repoison hp)
  | recheck => exact .inl rfl
  | drop _ hp => exact .inr (.drop hp)
  | unlock _ hp => exact .inr (.unlock hp)

theorem Reachable.mutex {s : State} (h : Reachable N w s) : Mutex.Reachable ⟨0, 0⟩ s.m := by
  induction h with
  | refl => exact .refl
  | tail _ hst ih =>
    rcases hst.mutex with he | hm
    · exact he ▸ ih
    · exact ih.tail hm

/-! ### The invariant -/

/-- A thread's place in `wait` fits its place in the mutex. Guards are taken while not
unwinding, and a thread outside `wait` is where a call of `wait` may start. -/
inductive Fits : Stage → Pc → Prop
  /-- Not in `wait`. -/
  | out {q : Barrier.Pc} : q.outside → Fits (.out q) .idle
  /-- In `lock`, after the sys lock. -/
  | acquired {q : Barrier.Pc} {n : ℕ} : q.outside → Fits (.calling q) (.acquired n)
  /-- Holding the guard, before `count += 1`. -/
  | calling {q : Barrier.Pc} {n : ℕ} : q.outside → Fits (.calling q) (.guard n false)
  /-- Holding the guard, before `cvar.wait`. -/
  | toSleep {g a n : ℕ} : Fits (.toSleep g a) (.guard n false)
  /-- Blocked in `cvar.wait`. -/
  | asleep {g a : ℕ} : Fits (.asleep g a) (.waiting false)
  /-- Woken, before the backend wait's lock. -/
  | woken {g a : ℕ} : Fits (.woken g a) (.waiting false)
  /-- Woken, before `repoison`. -/
  | reacquired {g a n : ℕ} : Fits (.woken g a) (.reacquired n false)
  /-- Woken, holding the guard before the loop's check. -/
  | checking {g a n : ℕ} : Fits (.woken g a) (.guard n false)
  /-- Returning, holding the guard. -/
  | leaving {a n : ℕ} {b : Bool} : Fits (.leaving a b) (.guard n false)
  /-- In the guard's drop, after `poison.done`. -/
  | dropping {a n : ℕ} {b : Bool} : Fits (.leaving a b) (.dropping n false)

theorem Fits.notify {x : Stage} {p : Pc} (h : Fits x p) : Fits x.notify p := by
  cases x with
  | asleep g a => cases h; exact .woken
  | _ => exact h

theorem outside_notify {q : Barrier.Pc} (h : q.outside) : q.notify = q := by
  cases q <;> simp_all [Barrier.Pc.outside, Barrier.Pc.notify]

/-- `notify_all` commutes with `abs` on every thread but one about to call
`cvar.wait`. -/
theorem Fits.abs_notify {x : Stage} {p : Pc} (h : Fits x p) (hx : ∀ g a, x ≠ .toSleep g a) :
    x.notify.abs = x.abs.notify := by
  cases h with
  | out hq | acquired hq | calling hq => exact (outside_notify hq).symm
  | toSleep => exact absurd rfl (hx _ _)
  | asleep | woken | reacquired | checking | leaving | dropping => rfl

/-- What holds in every reachable state. -/
structure Inv (s : State) : Prop where
  mutex : Mutex.Reachable ⟨0, 0⟩ s.m
  calm : ∀ t, s.m.panicking t = false
  unpoisoned : s.m.poison.failed = false
  fits : ∀ t, Fits (s.st t) (s.m.pc t)

theorem inv_init : Inv init where
  mutex := .refl
  calm _ := rfl
  unpoisoned := rfl
  fits _ := .out rfl

namespace Inv

variable {s : State}

/-- Only the thread that holds the guard can be about to call `cvar.wait`. -/
theorem toSleep_holder (hi : Inv s) {t u n g a : ℕ} {tok : Bool} (hp : s.m.pc t = .guard n tok)
    (hu : s.st u = .toSleep g a) : u = t := by
  have hf := hi.fits u
  rw [hu] at hf
  generalize hq : s.m.pc u = q at hf
  cases hf with
  | @toSleep _ _ m =>
    exact (one_holder hi.mutex).1 t u n m (by simp [hp, Pc.hold]) (by simp [hq, Pc.hold])

/-- A step that keeps the others in place, given the thread's new place. -/
theorem of_frame (hi : Inv s) {s' : State} {t : ℕ} (hm : Mutex.Reachable ⟨0, 0⟩ s'.m)
    (hcalm : s'.m.panicking = s.m.panicking) (hpois : s'.m.poison.failed = false)
    (hst : ∀ u, u ≠ t → s'.st u = s.st u) (hpc : ∀ u, u ≠ t → s'.m.pc u = s.m.pc u)
    (hfit : Fits (s'.st t) (s'.m.pc t)) : Inv s' where
  mutex := hm
  calm u := by rw [hcalm]; exact hi.calm u
  unpoisoned := hpois
  fits u := if h : u = t then h ▸ hfit else by rw [hst u h, hpc u h]; exact hi.fits u

/-- Where a thread stands, read off its two places. -/
theorem fits_at (hi : Inv s) {t : ℕ} {x : Stage} {p : Pc} (hs : s.st t = x) (hp : s.m.pc t = p) :
    Fits x p :=
  hs ▸ hp ▸ hi.fits t

theorem step {s' : State} (hi : Inv s) (h : Step N w s s') : Inv s' := by
  have hm : Mutex.Reachable ⟨0, 0⟩ s'.m := by
    rcases h.mutex with he | hs
    · exact he ▸ hi.mutex
    · exact hi.mutex.tail hs
  have same : ∀ {β : Type} {f : ℕ → β} {t : ℕ} {p : β} (u : ℕ), u ≠ t →
      Function.update f t p u = f u := fun u hu => Function.update_noteq hu _ _
  cases h with
  | lock hs hp =>
    cases hi.fits_at hs hp with
    | out hq => exact hi.of_frame hm rfl hi.unpoisoned same same (by simpa using Fits.acquired hq)
  | @borrow t n q hs hp =>
    cases hi.fits_at hs hp with
    | acquired hq =>
      exact hi.of_frame hm rfl hi.unpoisoned (fun _ _ => rfl) same
        (by simpa [hs, hi.calm t] using Fits.calling hq)
  | arrive hs hp =>
    cases hi.fits_at hs hp with
    | calling =>
      exact hi.of_frame hm rfl hi.unpoisoned same (fun _ _ => rfl)
        (by simpa [hp] using Fits.toSleep)
  | @lead t n tok q hs hp =>
    cases hi.fits_at hs hp with
    | calling =>
      refine ⟨hm, hi.calm, hi.unpoisoned, fun u => ?_⟩
      by_cases hut : u = t
      · subst hut; simpa [hp] using Fits.leaving
      · simpa [Function.update_noteq hut] using (hi.fits u).notify
  | wait hs hp =>
    cases hi.fits_at hs hp with
    | toSleep => exact hi.of_frame hm rfl hi.unpoisoned same same (by simpa using Fits.asleep)
  | @spurious t g a hs =>
    generalize hp : s.m.pc t = p
    cases hi.fits_at hs hp with
    | asleep =>
      exact hi.of_frame hm rfl hi.unpoisoned same (fun _ _ => rfl) (by simpa [hp] using Fits.woken)
  | reacquire hs hp =>
    cases hi.fits_at hs hp with
    | woken =>
      exact hi.of_frame hm rfl hi.unpoisoned (fun _ _ => rfl) same
        (by simpa [hs] using Fits.reacquired)
  | repoison hs hp =>
    cases hi.fits_at hs hp with
    | reacquired =>
      exact hi.of_frame hm rfl hi.unpoisoned (fun _ _ => rfl) same
        (by simpa [hs] using Fits.checking)
  | recheck hs hp =>
    cases hi.fits_at hs hp with
    | checking =>
      refine hi.of_frame hm rfl hi.unpoisoned same (fun _ _ => rfl) ?_
      simp only [Function.update_same, hp]
      split_ifs
      · exact .toSleep
      · exact .leaving
  | @drop t a n b tok hs hp =>
    cases hi.fits_at hs hp with
    | leaving =>
      exact hi.of_frame hm rfl (by simp [hi.calm t, hi.unpoisoned]) (fun _ _ => rfl) same
        (by simpa [hs] using Fits.dropping)
  | @unlock t a n b tok hs hp =>
    cases hi.fits_at hs hp with
    | dropping =>
      exact hi.of_frame hm rfl hi.unpoisoned same same
        (by simpa using (Fits.out rfl : Fits (.out (.returned a b)) .idle))

end Inv

theorem Reachable.inv {s : State} (h : Reachable N w s) : Inv s := by
  induction h with
  | refl => exact inv_init
  | tail _ hst ih => exact ih.step hst

/-! ### Refinement of `Barrier` -/

/-- A step that moves one thread within its place in `Barrier`'s model, and writes
nothing, is invisible there. -/
theorem abs_update {s : State} {m : Mutex.State BarrierState} {t : ℕ} {x : Stage}
    (hd : m.data = s.m.data) (hx : x.abs = (s.st t).abs) :
    State.abs { s with m := m, st := Function.update s.st t x } = s.abs := by
  simp only [State.abs, hd, Function.comp_update, hx]
  congr 1
  exact Function.update_eq_self t (Stage.abs ∘ s.st)

/-- **One step of `wait` is a step of `Barrier`, or none.** -/
theorem Step.refines {s s' : State} (hi : Inv s) (h : Step N w s s') :
    s'.abs = s.abs ∨ Barrier.Step N w s.abs s'.abs := by
  cases h with
  | lock hs => exact .inl (abs_update rfl (by simp [hs, Stage.abs]))
  | borrow | reacquire | repoison | drop => exact .inl rfl
  | arrive hs hp hlt =>
    cases hi.fits_at hs hp with
    | calling hq =>
      right
      simp only [State.abs, Function.comp_update]
      exact Barrier.Step.arrive (by simpa [hs, Stage.abs] using hq) hlt
  | lead hs hp hge =>
    cases hi.fits_at hs hp with
    | calling hq =>
      have hn :
          Stage.abs ∘ (fun u => (s.st u).notify) = fun u => ((Stage.abs ∘ s.st) u).notify :=
        funext fun u => (hi.fits u).abs_notify fun g a hu => by
          cases hi.toSleep_holder hp hu
          simp [hs] at hu
      right
      simp only [State.abs, Function.comp_update, hn]
      exact Barrier.Step.lead (by simpa [hs, Stage.abs] using hq) hge
  | wait hs => exact .inl (abs_update rfl (by simp [hs, Stage.abs]))
  | @spurious t g a hs =>
    right
    simp only [State.abs, Function.comp_update]
    exact Barrier.Step.spurious (by simp [hs, Stage.abs])
  | @recheck t g a n tok hs hp =>
    right
    simp only [State.abs, Function.comp_update, apply_ite Stage.abs]
    exact Barrier.Step.recheck (by simp [hs, Stage.abs])
  | unlock hs => exact .inl (abs_update rfl (by simp [hs, Stage.abs]))

theorem Reachable.abs {s : State} (h : Reachable N w s) : Barrier.Reachable N w s.abs := by
  induction h with
  | refl => exact .refl
  | tail hr hst ih =>
    rcases hst.refines (Reachable.inv hr) with he | hs
    · exact he ▸ ih
    · exact ih.tail hs

/-- **`wait` refines `Barrier`'s critical sections.** In every run of `wait` on the
mutex and condvar, the state that forgets the mutex is a state of `Barrier`'s model,
and each next step is a step there or leaves it unchanged; the flag stays clear, so
every `unwrap` gets `Ok`; and `BarrierState` after `a` arrivals is
`count = a % N`, `generation_id = a / N % 2 ^ w`. -/
theorem wait_refines (hN : 0 < N) {s : State} (h : Reachable N w s) :
    Barrier.Reachable N w s.abs ∧
    (∀ s', Step N w s s' → s'.abs = s.abs ∨ Barrier.Step N w s.abs s'.abs) ∧
    s.m.poison.failed = false ∧
    s.m.data.count = s.arrivals % N ∧ s.m.data.generationId = s.arrivals / N % 2 ^ w := by
  have hc := Barrier.Reachable.inv N w hN h.abs
  exact ⟨h.abs, fun _ hs => hs.refines h.inv, h.inv.unpoisoned, hc.count_eq, hc.gen_eq⟩

/-- The first round of a barrier of two, run on the mutex: thread 0 arrives and
sleeps; thread 1 leads, which wakes thread 0, and leaves; thread 0 takes the mutex
back, and its check of the loop finds `generation_id` moved on. -/
theorem wait_refines_first_round :
    ∃ s s', 0 < 2 ∧ Reachable 2 64 s ∧ s.abs.pc 0 = .woken 0 1 ∧
      s.abs.pc 1 = .returned 2 true ∧ Step 2 64 s s' ∧ s'.abs.pc 0 = .returned 1 false ∧
      (Barrier.Reachable 2 64 s.abs ∧
      (∀ s', Step 2 64 s s' → s'.abs = s.abs ∨ Barrier.Step 2 64 s.abs s'.abs) ∧
      s.m.poison.failed = false ∧ s.m.data.count = s.arrivals % 2 ∧
      s.m.data.generationId = s.arrivals / 2 % 2 ^ 64) := by
  have h : Reachable 2 64 _ :=
    ((((((((((Relation.ReflTransGen.refl.tail
      (@Step.lock 2 64 init 0 .idle _ _ rfl rfl (PthreadMutex.lock_eq_returns.mpr ⟨rfl, rfl⟩))).tail
      (@Step.borrow 2 64 _ 0 0 .idle (by rfl) (by rfl) (by rfl))).tail
      (@Step.arrive 2 64 _ 0 0 false .idle (by rfl) (by rfl) (by decide))).tail
      (@Step.wait 2 64 _ 0 0 false 0 1 (by rfl) (by rfl))).tail
      (@Step.lock 2 64 _ 1 .idle _ _ (by rfl) (by rfl)
        (PthreadMutex.lock_eq_returns.mpr ⟨by decide, rfl⟩))).tail
      (@Step.borrow 2 64 _ 1 1 .idle (by rfl) (by rfl) (by rfl))).tail
      (@Step.lead 2 64 _ 1 1 false .idle (by rfl) (by rfl) (by decide))).tail
      (@Step.drop 2 64 _ 1 2 1 true false (by rfl) (by rfl))).tail
      (@Step.unlock 2 64 _ 1 2 1 true false (by rfl) (by rfl))).tail
      (@Step.reacquire 2 64 _ 0 0 1 false _ _ (by rfl) (by rfl)
        (PthreadMutex.lock_eq_returns.mpr ⟨by decide, rfl⟩))).tail
      (@Step.repoison 2 64 _ 0 0 1 2 false (by rfl) (by rfl) (by rfl))
  exact ⟨_, _, by decide, h, rfl, rfl, @Step.recheck 2 64 _ 0 0 1 2 false (by rfl) (by rfl),
    by decide, wait_refines (by decide) h⟩

/-! ### Every notified waiter can leave -/

/-- The steps the mutex's holder still takes before it lets the mutex go. -/
def toRelease : Stage → Pc → ℕ
  | .calling _, .acquired _ => 4
  | .calling _, _ => 3
  | .woken _ _, .reacquired _ _ => 4
  | .woken _ _, _ => 3
  | .leaving _ _, .guard _ _ => 2
  | _, _ => 1

/-- The thread's arrival still to come: it is in `lock` or before `count += 1`. -/
def Stage.arriving : Stage → ℕ
  | calling _ => 1
  | _ => 0

theorem toRelease_pos (x : Stage) (p : Pc) : 0 < toRelease x p := by
  unfold toRelease; split <;> omega

theorem Step.arrivals_le {s s' : State} (h : Step N w s s') : s.arrivals ≤ s'.arrivals := by
  cases h <;> simp

namespace Inv

variable {s : State}

/-- **The holder moves on**: the thread that holds the mutex can take a step that lets
the mutex go or brings it closer to that, and that leaves every other thread where it
was, but for `notify_all`. -/
theorem holder_step (hi : Inv s) {h : ℕ} (ho : s.m.inner.owner = some h) :
    ∃ s', Step N w s s' ∧
      (∀ u, u ≠ h → s'.m.pc u = s.m.pc u ∧ (s'.st u = s.st u ∨ s'.st u = (s.st u).notify)) ∧
      s'.arrivals + (s'.st h).arriving = s.arrivals + (s.st h).arriving ∧
      (s'.m.inner.owner = none ∨
        s'.m.inner.owner = some h ∧ toRelease (s'.st h) (s'.m.pc h) < toRelease (s.st h) (s.m.pc h)) := by
  obtain ⟨n, hn⟩ := ((one_holder hi.mutex).2.1 h).mp ho
  have hf := hi.fits h
  generalize hx : s.st h = x at hf
  generalize hq : s.m.pc h = q at hf hn
  have keep : ∀ {β : Type} {f : ℕ → β} {p : β} (u : ℕ), u ≠ h →
      Function.update f h p u = f u := fun u hu => Function.update_noteq hu _ _
  have hfree : (s.m.inner.unlock h).2.owner = none := by simp [PthreadMutex.unlock_of_owner ho]
  cases hf with
  | out | asleep | woken => simp [Pc.hold] at hn
  | acquired =>
    exact ⟨_, .borrow hx hq hi.unpoisoned, fun u hu => ⟨keep u hu, .inl rfl⟩,
      by simp [hx, Stage.arriving], .inr ⟨ho, by simp [hx, hq, toRelease]⟩⟩
  | @calling q' m _ =>
    by_cases hlt : s.m.data.count + 1 < N
    · exact ⟨_, .arrive hx hq hlt, fun u hu => ⟨rfl, .inl (keep u hu)⟩,
        by simp [hx, Stage.arriving], .inr ⟨ho, by simp [hx, hq, toRelease]⟩⟩
    · exact ⟨_, .lead hx hq hlt, fun u hu => ⟨rfl, .inr (by simp [Function.update_noteq hu])⟩,
        by simp [hx, Stage.arriving], .inr ⟨ho, by simp [hq, toRelease]⟩⟩
  | toSleep => exact ⟨_, .wait hx hq, fun u hu => ⟨keep u hu, .inl (keep u hu)⟩,
      by simp [hx, Stage.arriving], .inl hfree⟩
  | reacquired =>
    exact ⟨_, .repoison hx hq hi.unpoisoned, fun u hu => ⟨keep u hu, .inl rfl⟩, by simp [hx],
      .inr ⟨ho, by simp [hx, hq, toRelease]⟩⟩
  | @checking g a m =>
    refine ⟨_, .recheck hx hq, fun u hu => ⟨rfl, .inl (keep u hu)⟩,
      by split_ifs <;> simp [hx, Stage.arriving], .inr ⟨ho, ?_⟩⟩
    simp only [Function.update_same, hq, hx]
    split_ifs <;> simp [toRelease]
  | leaving =>
    exact ⟨_, .drop hx hq, fun u hu => ⟨keep u hu, .inl rfl⟩, by simp [hx],
      .inr ⟨ho, by simp [hx, hq, toRelease]⟩⟩
  | dropping => exact ⟨_, .unlock hx hq, fun u hu => ⟨keep u hu, .inl (keep u hu)⟩,
      by simp [hx, Stage.arriving], .inl hfree⟩

/-- **Every critical section ends**: the holder of the mutex lets it go after at most
four steps of its own, each leaving every other thread where it was but for
`notify_all`, with at most its own arrival on the way. -/
theorem release (k : ℕ) : ∀ {s : State}, Inv s → ∀ {h : ℕ}, s.m.inner.owner = some h →
    toRelease (s.st h) (s.m.pc h) ≤ k →
    ∃ s', Relation.ReflTransGen (Step N w) s s' ∧ s'.m.inner.owner = none ∧
      (∀ u, u ≠ h → s'.m.pc u = s.m.pc u ∧ ((s.st u).notify = s.st u → s'.st u = s.st u)) ∧
      s.arrivals ≤ s'.arrivals ∧ s'.arrivals ≤ s.arrivals + (s.st h).arriving := by
  induction k with
  | zero => exact fun {s} _ {h} _ hk => absurd hk (by have := toRelease_pos (s.st h) (s.m.pc h); omega)
  | succ k ih =>
    intro s hi h ho hk
    obtain ⟨s1, hst, hfr, harr, hown⟩ := @holder_step N w _ hi _ ho
    have hle := hst.arrivals_le
    have hfr1 : ∀ u, u ≠ h → s1.m.pc u = s.m.pc u ∧ ((s.st u).notify = s.st u → s1.st u = s.st u) :=
      fun u hu => ⟨(hfr u hu).1, fun hn => (hfr u hu).2.elim id (·.trans hn)⟩
    rcases hown with hnone | ⟨hsome, hlt⟩
    · exact ⟨s1, .single hst, hnone, hfr1, hle, by omega⟩
    · obtain ⟨s2, hrun, hnone, hfr2, hle2, harr2⟩ := ih (hi.step hst) hsome (by omega)
      refine ⟨s2, (Relation.ReflTransGen.single hst).trans hrun, hnone, fun u hu => ?_,
        hle.trans hle2, by omega⟩
      refine ⟨(hfr2 u hu).1.trans (hfr1 u hu).1, fun hn => ?_⟩
      rw [(hfr2 u hu).2 (by rw [(hfr1 u hu).2 hn, hn]), (hfr1 u hu).2 hn]

end Inv

end BarrierWait

end PinnedSync
