import PinnedSync.Mutex

/-!
# `wait_while` and the notifies, on the mutex

`tests/condvar.rs` pairs `Condvar::wait_while` with writers that change the data
under the lock and then notify:

    let g = c.wait_while(m.lock().unwrap(), |started| !*started);   // a waiter
    let mut g = m.lock().unwrap(); *g = true; c.notify_one();       // a writer

and `wait_while` is

    while condition(&mut *guard) { guard = self.wait(guard)?; }
    Ok(guard)

## The model

Each thread runs one program (`Prog`) again and again: a waiter calls
`wait_while(m.lock().unwrap(), condition)` and drops the guard it gets; a writer
takes the lock, writes any value, and calls `notify_all` or `notify_one`, before or
after dropping its guard. The mutex steps are those of `Mutex` (`Step.mutex`); the
loop's check, with the guard held, is one step. A thread blocked in `cvar.wait` is
woken by a notify or spuriously; `notify_one` wakes one blocked thread, if there is
one. `condition` reads the data and changes nothing.

## What is proved

* `Reachable.inv`: no thread unwinds and the flag stays clear, so every `unwrap`
  and `?` gets `Ok`; a thread whose check found the condition true and that has not
  yet slept, or whose `wait_while` returned, holds the guard, so the data still
  gives the value it found.
* `no_lost_wakeup`: when `notify_one` is used only where one thread waits, a thread
  blocked in `cvar.wait` and not woken has its condition still true, unless a
  writer has written and not yet notified; and `wait_while` returns a guard on
  data whose condition is false. Whether the writer notifies before or after
  dropping its guard does not matter.
* `Inv.release`: the mutex's holder lets it go within five steps of its own.
* `wait_while_returns`: when the data makes the condition false, every thread in
  `wait_while`, even one blocked in `cvar.wait`, can return `Ok(guard)` on that data:
  the writer's notify that `no_lost_wakeup` says is to come can be made
  (`Inv.wake`), and a woken waiter takes the lock back once the holder lets it go
  (`woken_waiter_returns`).
-/

namespace PinnedSync

namespace WaitWhile

open Mutex Sys

/-- What a thread does, again and again. -/
inductive Prog where
  /-- `let g = c.wait_while(m.lock().unwrap(), condition).unwrap(); drop(g)`. -/
  | waiter
  /-- `let mut g = m.lock().unwrap(); *g = v;`, and `c.notify_all()` (`all`) or
  `c.notify_one()`, before or after `drop(g)`. -/
  | writer (all : Bool)
  deriving DecidableEq, Repr

/-- Where a thread stands in its program, beside its place in the mutex. -/
inductive Stage where
  /-- Between two calls. -/
  | idle
  /-- A waiter in `m.lock().unwrap()`, or holding the guard before the first check. -/
  | calling
  /-- The check found the condition true: `cvar.wait` is next. -/
  | toSleep
  /-- Blocked in `cvar.wait`, not woken. -/
  | asleep
  /-- Woken, by a notify or spuriously: taking the lock back, or holding the guard
  before the next check. -/
  | woken
  /-- `wait_while` returned `Ok(guard)`: holding it, or in its drop. -/
  | done
  /-- A writer in `m.lock().unwrap()`, or holding the guard before the write. -/
  | writing
  /-- Wrote; its notify is to come. Holding the guard, or in its drop. -/
  | wrote
  /-- Wrote and dropped the guard; its notify is to come. -/
  | pending
  /-- Wrote and notified; holding the guard, or in its drop. -/
  | signalled
  deriving DecidableEq, Repr

namespace Stage

/-- What a notify that reaches the thread does to it. -/
def notify : Stage → Stage
  | asleep => woken
  | x => x

/-- Where the thread's own notify leaves it. -/
def signal : Stage → Stage
  | wrote => signalled
  | _ => idle

/-- Where the unlock that ends the guard's drop leaves the thread. -/
def release : Stage → Stage
  | wrote => pending
  | _ => idle

/-- The guard's drop is the thread's next step. -/
def ends : Stage → Bool
  | done | wrote | signalled => true
  | _ => false

/-- The thread wrote, and its notify is to come. -/
def owes : Stage → Bool
  | wrote | pending => true
  | _ => false

/-- The value of `condition` the thread found, while it still holds the guard. -/
def checked : Stage → Option Bool
  | toSleep => some true
  | done => some false
  | _ => none

/-- A stage of `wait_while`'s caller. -/
def ofWaiter : Stage → Bool
  | calling | toSleep | asleep | woken | done => true
  | _ => false

/-- A stage of a writer's program that a later notify depends on. -/
def ofWriter : Stage → Bool
  | writing | wrote | pending => true
  | _ => false

@[simp] theorem notify_ne_asleep (x : Stage) : x.notify ≠ asleep := by
  cases x <;> simp [notify]

@[simp] theorem checked_notify (x : Stage) : x.notify.checked = x.checked := by
  cases x <;> rfl

@[simp] theorem ofWaiter_notify (x : Stage) : x.notify.ofWaiter = x.ofWaiter := by
  cases x <;> rfl

@[simp] theorem signal_ne_asleep (x : Stage) : x.signal ≠ asleep := by
  cases x <;> simp [signal]

@[simp] theorem release_ne_asleep (x : Stage) : x.release ≠ asleep := by
  cases x <;> simp [release]

@[simp] theorem ofWaiter_signal (x : Stage) : x.signal.ofWaiter = false := by
  cases x <;> rfl

@[simp] theorem checked_signal (x : Stage) : x.signal.checked = none := by
  cases x <;> rfl

@[simp] theorem ofWaiter_release (x : Stage) : x.release.ofWaiter = false := by
  cases x <;> rfl

@[simp] theorem checked_release (x : Stage) : x.release.checked = none := by
  cases x <;> rfl

@[simp] theorem ofWriter_notify (x : Stage) : x.notify.ofWriter = x.ofWriter := by
  cases x <;> rfl

@[simp] theorem ofWriter_signal (x : Stage) : x.signal.ofWriter = false := by
  cases x <;> rfl

theorem ofWriter_of_release {x : Stage} (h : x.release.ofWriter) : x.ofWriter := by
  cases x <;> first | rfl | cases h

end Stage

/-- The stage a call of the program starts in. -/
def Prog.start : Prog → Stage
  | waiter => .calling
  | writer _ => .writing

theorem Prog.eq_waiter_of_start {x : Prog} (h : x.start.ofWaiter) : x = .waiter := by
  cases x
  · rfl
  · cases h

theorem Prog.ne_waiter_of_start {x : Prog} (h : x.start.ofWriter) : x ≠ .waiter := by
  cases x
  · cases h
  · simp

@[simp] theorem Prog.checked_start (x : Prog) : x.start.checked = none := by
  cases x <;> rfl

@[simp] theorem Prog.start_ne_asleep (x : Prog) : x.start ≠ .asleep := by
  cases x <;> simp [start]

@[simp] theorem Prog.owes_start (x : Prog) : x.start.owes = false := by
  cases x <;> rfl

/-- The mutex and its threads, and where each thread stands in its program. -/
structure State (α : Type) where
  /-- `m`, and the threads' places in it. -/
  m : Mutex.State α
  /-- Each thread's place in its program. -/
  st : ℕ → Stage

/-- `Mutex::arc(v)` and `Condvar::arc()`, before any thread runs. -/
def init {α : Type} (v : α) : State α := ⟨Mutex.boxed v, fun _ => .idle⟩

variable {α : Type} (prog : ℕ → Prog) (condition : α → Bool)

/-- One step of thread `t`. -/
inductive Step : State α → State α → Prop
  /-- `m.lock()`: the sys lock. -/
  | lock {s : State α} {t : ℕ} {r : ℤ} {p : PthreadMutex} (hs : s.st t = .idle)
      (hp : s.m.pc t = .idle) (hl : s.m.inner.lock t = .returns (r, p)) :
      Step s ⟨{ s.m with
          inner := p
          pc := Function.update s.m.pc t (.acquired s.m.acquired)
          acquired := s.m.acquired + 1 },
        Function.update s.st t (prog t).start⟩
  /-- The borrow of the flag; `unwrap` goes on from `Ok`. -/
  | borrow {s : State α} {t n : ℕ} (hs : s.st t = .calling ∨ s.st t = .writing)
      (hp : s.m.pc t = .acquired n) (hok : s.m.poison.failed = false) :
      Step s { s with
        m := { s.m with
          pc := Function.update s.m.pc t (.guard n (s.m.panicking t))
          log := .acquire n (s.m.poison.borrow (s.m.panicking t)).isPoisoned :: s.m.log } }
  /-- `while condition(&mut *guard)`, with the guard held. -/
  | check {s : State α} {t n : ℕ} {tok : Bool} (hs : s.st t = .calling ∨ s.st t = .woken)
      (hp : s.m.pc t = .guard n tok) :
      Step s { s with
        st := Function.update s.st t (if condition s.m.data then .toSleep else .done) }
  /-- `self.wait(guard)`: `map` forgets the guard, the backend wait unlocks and
  sleeps. -/
  | wait {s : State α} {t n : ℕ} {tok : Bool} (hs : s.st t = .toSleep)
      (hp : s.m.pc t = .guard n tok) :
      Step s ⟨{ s.m with
          inner := (s.m.inner.unlock t).2
          pc := Function.update s.m.pc t (.waiting tok)
          released := n :: s.m.released },
        Function.update s.st t .asleep⟩
  /-- A spurious wakeup. -/
  | spurious {s : State α} {t : ℕ} (hs : s.st t = .asleep) :
      Step s { s with st := Function.update s.st t .woken }
  /-- The backend wait locks the sys mutex again. -/
  | reacquire {s : State α} {t : ℕ} {tok : Bool} {r : ℤ} {p : PthreadMutex}
      (hs : s.st t = .woken) (hp : s.m.pc t = .waiting tok)
      (hl : s.m.inner.lock t = .returns (r, p)) :
      Step s { s with
        m := { s.m with
          inner := p
          pc := Function.update s.m.pc t (.reacquired s.m.acquired tok)
          acquired := s.m.acquired + 1 } }
  /-- `repoison`; `?` goes on from `Ok`. -/
  | repoison {s : State α} {t n : ℕ} {tok : Bool} (hs : s.st t = .woken)
      (hp : s.m.pc t = .reacquired n tok) (hok : s.m.poison.failed = false) :
      Step s { s with
        m := { s.m with
          pc := Function.update s.m.pc t (.guard n tok)
          log := .acquire n s.m.poison.get :: s.m.log } }
  /-- `*g = v`. -/
  | write {s : State α} {t n : ℕ} {tok : Bool} (v : α) (hs : s.st t = .writing)
      (hp : s.m.pc t = .guard n tok) :
      Step s ⟨{ s.m with data := v }, Function.update s.st t .wrote⟩
  /-- `c.notify_all()`: every thread blocked in `cvar.wait` wakes. -/
  | notifyAll {s : State α} {t : ℕ} (hs : (s.st t).owes) (hprog : prog t = .writer true)
      (hd : ∀ n tok, s.m.pc t ≠ .dropping n tok) :
      Step s { s with st := Function.update (fun u => (s.st u).notify) t (s.st t).signal }
  /-- `c.notify_one()`, with a thread `u` blocked in `cvar.wait`: `u` wakes. -/
  | notifyOne {s : State α} {t u : ℕ} (hs : (s.st t).owes) (hprog : prog t = .writer false)
      (hd : ∀ n tok, s.m.pc t ≠ .dropping n tok) (hu : s.st u = .asleep) :
      Step s { s with st := Function.update (Function.update s.st u .woken) t (s.st t).signal }
  /-- `c.notify_one()`, with no thread blocked in `cvar.wait`. -/
  | notifyNone {s : State α} {t : ℕ} (hs : (s.st t).owes) (hprog : prog t = .writer false)
      (hd : ∀ n tok, s.m.pc t ≠ .dropping n tok) (hnone : ∀ u, s.st u ≠ .asleep) :
      Step s { s with st := Function.update s.st t (s.st t).signal }
  /-- The guard's drop: `poison.done`. -/
  | drop {s : State α} {t n : ℕ} {tok : Bool} (hs : (s.st t).ends)
      (hp : s.m.pc t = .guard n tok) :
      Step s { s with
        m := { s.m with
          poison := s.m.poison.done ⟨tok⟩ (s.m.panicking t)
          pc := Function.update s.m.pc t (.dropping n tok)
          log := .done n tok (s.m.panicking t) :: s.m.log } }
  /-- The guard's drop: the sys unlock. -/
  | unlock {s : State α} {t n : ℕ} {tok : Bool} (hp : s.m.pc t = .dropping n tok) :
      Step s ⟨{ s.m with
          inner := (s.m.inner.unlock t).2
          pc := Function.update s.m.pc t .idle
          released := n :: s.m.released },
        Function.update s.st t (s.st t).release⟩

/-- The states some run reaches from `init v`. -/
def Reachable (v : α) (s : State α) : Prop := Relation.ReflTransGen (Step prog condition) (init v) s

variable {prog condition}

/-- **The programs run on the mutex model**: each step is a step of `Mutex`, or changes
no state of the mutex. -/
theorem Step.mutex {s s' : State α} (h : Step prog condition s s') :
    s'.m = s.m ∨ Mutex.Step s.m s'.m := by
  cases h with
  | lock _ hp hl => exact .inr (.lock hp hl)
  | borrow _ hp _ => exact .inr (.borrow hp)
  | wait _ hp => exact .inr (.wait hp)
  | reacquire _ hp hl => exact .inr (.reacquire hp hl)
  | repoison _ hp _ => exact .inr (.repoison hp)
  | write v _ hp => exact .inr (.write v hp)
  | drop _ hp => exact .inr (.drop hp)
  | unlock hp => exact .inr (.unlock hp)
  | check | spurious | notifyAll | notifyOne | notifyNone => exact .inl rfl

/-! ### The invariant -/

/-- A thread's place in its program fits its place in the mutex; guards are taken
while not unwinding. -/
inductive Fits : Stage → Pc → Prop
  | idle : Fits .idle .idle
  | callingAcquired {n : ℕ} : Fits .calling (.acquired n)
  | calling {n : ℕ} : Fits .calling (.guard n false)
  | toSleep {n : ℕ} : Fits .toSleep (.guard n false)
  | asleep : Fits .asleep (.waiting false)
  | woken : Fits .woken (.waiting false)
  | reacquired {n : ℕ} : Fits .woken (.reacquired n false)
  | checking {n : ℕ} : Fits .woken (.guard n false)
  | done {n : ℕ} : Fits .done (.guard n false)
  | doneDropping {n : ℕ} : Fits .done (.dropping n false)
  | writingAcquired {n : ℕ} : Fits .writing (.acquired n)
  | writing {n : ℕ} : Fits .writing (.guard n false)
  | wrote {n : ℕ} : Fits .wrote (.guard n false)
  | wroteDropping {n : ℕ} : Fits .wrote (.dropping n false)
  | pending : Fits .pending .idle
  | signalled {n : ℕ} : Fits .signalled (.guard n false)
  | signalledDropping {n : ℕ} : Fits .signalled (.dropping n false)

theorem Fits.notify {x : Stage} {p : Pc} (h : Fits x p) : Fits x.notify p := by
  cases x with
  | asleep => cases h; exact .woken
  | _ => exact h

/-- A thread that found a value of the condition still holds the mutex. -/
theorem Fits.hold_of_checked {x : Stage} {p : Pc} {b : Bool} (h : Fits x p)
    (hb : x.checked = some b) : ∃ n, p.hold = some n := by
  cases h <;> first | exact ⟨_, rfl⟩ | cases hb

theorem Fits.start (x : Prog) {n : ℕ} : Fits x.start (.acquired n) := by
  cases x <;> constructor

theorem Fits.signal {x : Stage} {p : Pc} (h : Fits x p) (hx : x.owes) : Fits x.signal p := by
  cases h <;> first | constructor | cases hx

theorem Fits.dropping {x : Stage} {n : ℕ} {tok : Bool} (h : Fits x (.guard n tok))
    (hx : x.ends) : Fits x (.dropping n tok) := by
  cases h <;> first | constructor | cases hx

theorem Fits.release {x : Stage} {n : ℕ} {tok : Bool} (h : Fits x (.dropping n tok)) :
    Fits x.release .idle := by
  cases h <;> constructor

/-- A writer that drops its guard before its notify still owes it. -/
theorem Fits.owes_release {x : Stage} {n : ℕ} {tok : Bool} (h : Fits x (.dropping n tok))
    (hx : x.owes) : x.release.owes := by
  cases h <;> first | rfl | cases hx

variable (prog condition) in
/-- What holds in every reachable state. -/
structure Inv (s : State α) : Prop where
  mutex : Mutex.Inv s.m
  calm : ∀ t, s.m.panicking t = false
  unpoisoned : s.m.poison.failed = false
  fits : ∀ t, Fits (s.st t) (s.m.pc t)
  /-- Only a waiter is in `wait_while`. -/
  waiter : ∀ t, (s.st t).ofWaiter → prog t = .waiter
  /-- A thread that checked the condition and holds the guard sees the value it found. -/
  checked : ∀ t b, (s.st t).checked = some b → condition s.m.data = b

variable (prog condition) in
theorem inv_init (v : α) : Inv prog condition (init v) where
  mutex := inv_boxed v
  calm _ := rfl
  unpoisoned := rfl
  fits _ := .idle
  waiter _ h := by cases h
  checked _ _ h := by cases h

namespace Inv

variable {s : State α}

theorem fits_at (hi : Inv prog condition s) {t : ℕ} {x : Stage} {p : Pc} (hs : s.st t = x)
    (hp : s.m.pc t = p) : Fits x p :=
  hs ▸ hp ▸ hi.fits t

/-- Only the thread that holds the guard can have found a value of the condition. -/
theorem checked_holder (hi : Inv prog condition s) {t u n : ℕ} {tok b : Bool}
    (hp : s.m.pc t = .guard n tok) (hu : (s.st u).checked = some b) : u = t := by
  obtain ⟨m, hm⟩ := (hi.fits u).hold_of_checked hu
  have ht : (s.m.pc t).hold = some n := by simp [hp, Pc.hold]
  exact hi.mutex.eq_of_hold ht hm

/-- A step in which thread `t` moves, the other threads stay or are woken, and the
data stays unless no other thread has checked it. -/
theorem of_frame (hi : Inv prog condition s) {s' : State α} (t : ℕ) (hm : Mutex.Inv s'.m)
    (hcalm : s'.m.panicking = s.m.panicking) (hpois : s'.m.poison.failed = false)
    (hdata : s'.m.data = s.m.data ∨ ∀ u, u ≠ t → (s.st u).checked = none)
    (hst : ∀ u, u ≠ t → s'.st u = s.st u ∨ s'.st u = (s.st u).notify)
    (hpc : ∀ u, u ≠ t → s'.m.pc u = s.m.pc u)
    (hfit : Fits (s'.st t) (s'.m.pc t)) (hrole : (s'.st t).ofWaiter → prog t = .waiter)
    (hcheck : ∀ b, (s'.st t).checked = some b → condition s'.m.data = b) :
    Inv prog condition s' where
  mutex := hm
  calm u := by rw [hcalm]; exact hi.calm u
  unpoisoned := hpois
  fits u := by
    by_cases hu : u = t
    · exact hu ▸ hfit
    · rw [hpc u hu]
      rcases hst u hu with e | e <;> rw [e]
      exacts [hi.fits u, (hi.fits u).notify]
  waiter u := by
    by_cases hu : u = t
    · exact hu ▸ hrole
    · rcases hst u hu with e | e <;> rw [e] <;> simpa using hi.waiter u
  checked u b := by
    by_cases hu : u = t
    · exact hu ▸ hcheck b
    · have hc : (s'.st u).checked = (s.st u).checked := by
        rcases hst u hu with e | e <;> simp [e]
      rw [hc]
      rcases hdata with e | hn
      · rw [e]; exact hi.checked u b
      · simp [hn u hu]

theorem step {s' : State α} (hi : Inv prog condition s) (h : Step prog condition s s') :
    Inv prog condition s' := by
  have hm : Mutex.Inv s'.m := by
    rcases h.mutex with he | hs
    · exact he ▸ hi.mutex
    · exact hi.mutex.step hs
  have same : ∀ {β : Type} {f : ℕ → β} {t : ℕ} {p : β} (u : ℕ), u ≠ t →
      Function.update f t p u = f u := fun u hu => Function.update_noteq hu _ _
  cases h with
  | @lock t _ _ hs hp hl =>
    refine hi.of_frame t hm rfl hi.unpoisoned (.inl rfl) (fun u hu => .inl (same u hu)) same
      (by simpa using Fits.start (prog t)) (by simpa using Prog.eq_waiter_of_start) (by simp)
  | @borrow t n hs hp _ =>
    refine hi.of_frame t hm rfl hi.unpoisoned (.inl rfl) (fun _ _ => .inl rfl) same ?_
      (hi.waiter t) (hi.checked t)
    simp only [Function.update_same, hi.calm t]
    rcases hs with hs | hs <;> rw [hs] <;> constructor
  | @check t n tok hs hp =>
    have hw : (s.st t).ofWaiter := by rcases hs with hs | hs <;> simp [hs, Stage.ofWaiter]
    have htok : tok = false := by rcases hs with hs | hs <;> cases hi.fits_at hs hp <;> rfl
    subst htok
    refine hi.of_frame t hm rfl hi.unpoisoned (.inl rfl) (fun u hu => .inl (same u hu))
      (fun _ _ => rfl) ?_ (fun _ => hi.waiter t hw) fun b hb => ?_
    · simp only [Function.update_same, hp]
      split_ifs <;> constructor
    · simp only [Function.update_same] at hb
      split_ifs at hb with hc <;> cases hb <;> simpa using hc
  | @wait t n tok hs hp =>
    cases hi.fits_at hs hp
    exact hi.of_frame t hm rfl hi.unpoisoned (.inl rfl) (fun u hu => .inl (same u hu)) same
      (by simpa using Fits.asleep) (fun _ => hi.waiter t (by simp [hs, Stage.ofWaiter]))
      (by simp [Stage.checked])
  | @spurious t hs =>
    generalize hp : s.m.pc t = p
    cases hi.fits_at hs hp
    exact hi.of_frame t hm rfl hi.unpoisoned (.inl rfl) (fun u hu => .inl (same u hu))
      (fun _ _ => rfl) (by simpa [hp] using Fits.woken)
      (fun _ => hi.waiter t (by simp [hs, Stage.ofWaiter])) (by simp [Stage.checked])
  | @reacquire t tok _ _ hs hp _ =>
    cases hi.fits_at hs hp
    exact hi.of_frame t hm rfl hi.unpoisoned (.inl rfl) (fun _ _ => .inl rfl) same
      (by simpa [hs] using Fits.reacquired) (hi.waiter t) (hi.checked t)
  | @repoison t n tok hs hp _ =>
    cases hi.fits_at hs hp
    exact hi.of_frame t hm rfl hi.unpoisoned (.inl rfl) (fun _ _ => .inl rfl) same
      (by simpa [hs] using Fits.checking) (hi.waiter t) (hi.checked t)
  | @write t n tok v hs hp =>
    cases hi.fits_at hs hp
    refine hi.of_frame t hm rfl hi.unpoisoned (.inr fun u hu => ?_) (fun u hu => .inl (same u hu))
      (fun _ _ => rfl) (by simpa [hp] using Fits.wrote) (by simp [Stage.ofWaiter])
      (by simp [Stage.checked])
    cases hc : (s.st u).checked with
    | none => rfl
    | some b => exact absurd (hi.checked_holder hp hc) hu
  | @notifyAll t hs _ =>
    exact hi.of_frame t hm rfl hi.unpoisoned (.inl rfl)
      (fun u hu => .inr (by simp [Function.update_noteq hu]))
      (fun _ _ => rfl) (by simpa using (hi.fits t).signal hs) (by simp) (by simp)
  | @notifyOne t u hs _ _ hu =>
    have htu : u ≠ t := fun e => by simp [e ▸ hu, Stage.owes] at hs
    refine hi.of_frame t hm rfl hi.unpoisoned (.inl rfl) (fun x hx => ?_)
      (fun _ _ => rfl) (by simpa using (hi.fits t).signal hs) (by simp) (by simp)
    simp only [Function.update_noteq hx]
    by_cases hxu : x = u
    · subst hxu; simp [hu, Stage.notify]
    · simp [Function.update_noteq hxu]
  | @notifyNone t hs _ _ =>
    exact hi.of_frame t hm rfl hi.unpoisoned (.inl rfl) (fun u hu => .inl (same u hu))
      (fun _ _ => rfl) (by simpa using (hi.fits t).signal hs) (by simp) (by simp)
  | @drop t n tok hs hp =>
    exact hi.of_frame t hm rfl (by simp [hi.calm t, hi.unpoisoned]) (.inl rfl)
      (fun _ _ => .inl rfl) same (by simpa using (hi.fits_at rfl hp).dropping hs)
      (hi.waiter t) (hi.checked t)
  | @unlock t n tok hp =>
    exact hi.of_frame t hm rfl hi.unpoisoned (.inl rfl) (fun u hu => .inl (same u hu)) same
      (by simpa using (hi.fits_at rfl hp).release) (by simp) (by simp)

end Inv

theorem Reachable.inv {v : α} {s : State α} (h : Reachable prog condition v s) :
    Inv prog condition s := by
  induction h with
  | refl => exact inv_init prog condition v
  | tail _ hst ih => exact ih.step hst

/-! ### No lost wakeup -/

variable (condition) in
/-- A thread blocked in `cvar.wait` and not woken has its condition true, or a writer's
notify is still to come. -/
def Awake (s : State α) : Prop :=
  ∀ t, s.st t = .asleep → condition s.m.data = true ∨ ∃ u, (s.st u).owes

theorem Awake.frame {s s' : State α} (ha : Awake condition s) (hdata : s'.m.data = s.m.data)
    (hasleep : ∀ u, s'.st u = .asleep → s.st u = .asleep)
    (howes : ∀ u, (s.st u).owes → (s'.st u).owes) : Awake condition s' := fun u hu =>
  (ha u (hasleep u hu)).imp (fun h => hdata ▸ h) fun ⟨w, hw⟩ => ⟨w, howes w hw⟩

/-- A step that moves one thread, not to sleep, and keeps its notify owed. -/
theorem Awake.update {s s' : State α} {t : ℕ} {x : Stage} (ha : Awake condition s)
    (hdata : s'.m.data = s.m.data) (hst : s'.st = Function.update s.st t x)
    (hx : x ≠ .asleep) (howes : (s.st t).owes → x.owes) : Awake condition s' := by
  refine ha.frame hdata (fun u hu => ?_) fun u hu => ?_ <;> by_cases hut : u = t
  · subst hut; simp [hst, hx] at hu
  · simpa [hst, Function.update_noteq hut] using hu
  · subst hut; simpa [hst] using howes hu
  · simpa [hst, Function.update_noteq hut] using hu

theorem Awake.step
    (hone : ∀ t, prog t = .writer false → ∀ u w, prog u = .waiter → prog w = .waiter → u = w)
    {s s' : State α} (hi : Inv prog condition s) (ha : Awake condition s)
    (h : Step prog condition s s') : Awake condition s' := by
  cases h with
  | lock hs => exact ha.update rfl rfl (by simp) (by simp [hs, Stage.owes])
  | borrow | reacquire | repoison | drop => exact ha
  | check hs =>
    refine ha.update rfl rfl (by split_ifs <;> simp) ?_
    rcases hs with hs | hs <;> simp [hs, Stage.owes]
  | spurious hs => exact ha.update rfl rfl (by simp) (by simp [hs, Stage.owes])
  | @wait t _ _ hs _ =>
    intro u hu
    by_cases hut : u = t
    · exact .inl (hi.checked t true (by simp [hs, Stage.checked]))
    · refine (ha u (by simpa [Function.update_noteq hut] using hu)).imp id fun ⟨w, hw⟩ => ⟨w, ?_⟩
      have hwt : w ≠ t := by rintro rfl; simp [hs, Stage.owes] at hw
      simpa [Function.update_noteq hwt] using hw
  | @write t _ _ _ _ _ => exact fun _ _ => .inr ⟨t, by simp [Stage.owes]⟩
  | @notifyAll t _ _ _ =>
    intro u hu
    by_cases hut : u = t
    · subst hut; simp at hu
    · simp [Function.update_noteq hut] at hu
  | @notifyOne t u hs hprog _ hu =>
    intro x hx
    by_cases hxt : x = t
    · subst hxt; simp at hx
    · by_cases hxu : x = u
      · subst hxu; simp [Function.update_noteq hxt] at hx
      · simp only [Function.update_noteq hxt, Function.update_noteq hxu] at hx
        exact absurd (hone t hprog x u (hi.waiter x (by simp [hx, Stage.ofWaiter]))
          (hi.waiter u (by simp [hu, Stage.ofWaiter]))) hxu
  | @notifyNone t _ _ _ hnone =>
    intro u hu
    by_cases hut : u = t
    · subst hut; simp at hu
    · exact absurd (by simpa [Function.update_noteq hut] using hu) (hnone u)
  | @unlock t _ _ hp =>
    exact ha.update rfl rfl (by simp) ((hi.fits_at rfl hp).owes_release)

theorem Reachable.awake
    (hone : ∀ t, prog t = .writer false → ∀ u w, prog u = .waiter → prog w = .waiter → u = w)
    {v : α} {s : State α} (h : Reachable prog condition v s) : Awake condition s := by
  induction h with
  | refl => intro t ht; cases ht
  | tail hr hst ih => exact ih.step hone (Reachable.inv hr) hst

/-- **No lost wakeup.** When `notify_one` is used only where at most one thread waits
(the test `wait_while`'s single waiter, say), then in every run: a thread blocked in
`cvar.wait` and not yet woken has its condition still true, unless some writer has
written and not yet made its notify, whether it notifies before or after dropping its
guard; `wait_while` returns `Ok(guard)` only on data whose condition is false, and the
data stays so while the guard lives; and the flag stays clear, so no `unwrap` or `?`
fails. -/
theorem no_lost_wakeup
    (hone : ∀ t, prog t = .writer false → ∀ u w, prog u = .waiter → prog w = .waiter → u = w)
    {v : α} {s : State α} (h : Reachable prog condition v s) :
    (∀ t, s.st t = .asleep → condition s.m.data = true ∨ ∃ u, (s.st u).owes) ∧
    (∀ t, s.st t = .done → condition s.m.data = false) ∧
    s.m.poison.failed = false := by
  have hi := Reachable.inv h
  exact ⟨Reachable.awake hone h, fun t ht => hi.checked t false (by simp [ht, Stage.checked]),
    hi.unpoisoned⟩

/-- Two waiters and a writer that notifies all. Thread 0 checks and sleeps; the writer,
thread 1, writes `true` and drops its guard before its notify; thread 2 then checks and
returns. Thread 0 sleeps on data whose condition is false, and the writer owes it a
notify. -/
theorem no_lost_wakeup_pending :
    (∀ t, (fun t => if t = 1 then Prog.writer true else .waiter) t = .writer false →
      ∀ u w, (fun t => if t = 1 then Prog.writer true else .waiter) u = .waiter →
        (fun t => if t = 1 then Prog.writer true else .waiter) w = .waiter → u = w) ∧
    ∃ s, Reachable (fun t => if t = 1 then .writer true else .waiter) (fun b => !b) false s ∧
      s.st 0 = .asleep ∧ s.st 1 = .pending ∧ s.st 2 = .done ∧
      ((∀ t, s.st t = .asleep → (!s.m.data) = true ∨ ∃ u, (s.st u).owes) ∧
        (∀ t, s.st t = .done → (!s.m.data) = false) ∧ s.m.poison.failed = false) := by
  let P : ℕ → Prog := fun t => if t = 1 then .writer true else .waiter
  let C : Bool → Bool := fun b => !b
  have hone : ∀ t, P t = .writer false → ∀ u w, P u = .waiter → P w = .waiter → u = w :=
    fun t ht => by by_cases h : t = 1 <;> simp [P, h] at ht
  have h : Reachable P C false _ :=
    (((((((((((Relation.ReflTransGen.single
      (@Step.lock Bool P C (init false) 0 0 _ rfl rfl
        (PthreadMutex.lock_eq_returns.mpr ⟨rfl, rfl⟩))).tail
      (@Step.borrow Bool P C _ 0 0 (.inl rfl) rfl rfl)).tail
      (@Step.check Bool P C _ 0 0 false (.inl rfl) rfl)).tail
      (@Step.wait Bool P C _ 0 0 false rfl rfl)).tail
      (@Step.lock Bool P C _ 1 0 _ rfl rfl (PthreadMutex.lock_eq_returns.mpr ⟨rfl, rfl⟩))).tail
      (@Step.borrow Bool P C _ 1 1 (.inr rfl) rfl rfl)).tail
      (@Step.write Bool P C _ 1 1 false true rfl rfl)).tail
      (@Step.drop Bool P C _ 1 1 false rfl rfl)).tail
      (@Step.unlock Bool P C _ 1 1 false rfl)).tail
      (@Step.lock Bool P C _ 2 0 _ rfl rfl (PthreadMutex.lock_eq_returns.mpr ⟨rfl, rfl⟩))).tail
      (@Step.borrow Bool P C _ 2 2 (.inl rfl) rfl rfl)).tail
      (@Step.check Bool P C _ 2 2 false (.inl rfl) rfl)
  exact ⟨hone, _, h, rfl, rfl, rfl, no_lost_wakeup hone h⟩

/-! ### A woken waiter can return -/

/-- The steps the mutex's holder still takes before it lets the mutex go. -/
def toRelease : Stage → Pc → ℕ
  | .calling, .acquired _ => 5
  | .woken, .reacquired _ _ => 5
  | .calling, _ => 4
  | .woken, _ => 4
  | .writing, .acquired _ => 4
  | .writing, _ => 3
  | _, .guard _ _ => 2
  | _, _ => 1

theorem toRelease_pos (x : Stage) (p : Pc) : 0 < toRelease x p := by
  unfold toRelease; split <;> omega

namespace Inv

variable {s : State α}

/-- **The holder moves on**: the thread that holds the mutex can take a step of its
own that lets the mutex go or brings it closer to that; a writer that has not written
yet writes the value the data has. -/
theorem holder_step (hi : Inv prog condition s) {h : ℕ} (ho : s.m.inner.owner = some h) :
    ∃ s', Step prog condition s s' ∧ (∀ u, u ≠ h → s'.m.pc u = s.m.pc u ∧ s'.st u = s.st u) ∧
      s'.m.data = s.m.data ∧
      (s'.m.inner.owner = none ∨ s'.m.inner.owner = some h ∧
        toRelease (s'.st h) (s'.m.pc h) < toRelease (s.st h) (s.m.pc h)) := by
  have hn := (hi.mutex.owner_iff h).mp ho
  have hf := hi.fits h
  generalize hx : s.st h = x at hf
  generalize hq : s.m.pc h = q at hf hn
  have keep : ∀ {β : Type} {f : ℕ → β} {p : β} (u : ℕ), u ≠ h →
      Function.update f h p u = f u := fun u hu => Function.update_noteq hu _ _
  have hfree : (s.m.inner.unlock h).2.owner = none := by simp [PthreadMutex.unlock_of_owner ho]
  cases hf with
  | idle | asleep | woken | pending => simp [Pc.hold] at hn
  | callingAcquired =>
    exact ⟨_, .borrow (.inl hx) hq hi.unpoisoned, fun u hu => ⟨keep u hu, rfl⟩, rfl,
      .inr ⟨ho, by simp [hx, hq, toRelease]⟩⟩
  | writingAcquired =>
    exact ⟨_, .borrow (.inr hx) hq hi.unpoisoned, fun u hu => ⟨keep u hu, rfl⟩, rfl,
      .inr ⟨ho, by simp [hx, hq, toRelease]⟩⟩
  | reacquired =>
    exact ⟨_, .repoison hx hq hi.unpoisoned, fun u hu => ⟨keep u hu, rfl⟩, rfl,
      .inr ⟨ho, by simp [hx, hq, toRelease]⟩⟩
  | calling | checking =>
    refine ⟨_, .check (by simp [hx]) hq, fun u hu => ⟨rfl, keep u hu⟩, rfl, .inr ⟨ho, ?_⟩⟩
    simp only [Function.update_same, hx, hq]
    split_ifs <;> simp [toRelease]
  | toSleep => exact ⟨_, .wait hx hq, fun u hu => ⟨keep u hu, keep u hu⟩, rfl, .inl hfree⟩
  | writing =>
    exact ⟨_, .write s.m.data hx hq, fun u hu => ⟨rfl, keep u hu⟩, rfl,
      .inr ⟨ho, by simp [hq, toRelease]⟩⟩
  | done | wrote | signalled =>
    exact ⟨_, .drop (by simp [hx, Stage.ends]) hq, fun u hu => ⟨keep u hu, rfl⟩, rfl,
      .inr ⟨ho, by simp [hx, hq, toRelease]⟩⟩
  | doneDropping | wroteDropping | signalledDropping =>
    exact ⟨_, .unlock hq, fun u hu => ⟨keep u hu, keep u hu⟩, rfl, .inl hfree⟩

/-- **Every critical section ends**: the holder of the mutex lets it go after at most
five steps of its own, and no other thread moves. -/
theorem release (k : ℕ) : ∀ {s : State α}, Inv prog condition s → ∀ {h : ℕ},
    s.m.inner.owner = some h → toRelease (s.st h) (s.m.pc h) ≤ k →
    ∃ s', Relation.ReflTransGen (Step prog condition) s s' ∧ s'.m.inner.owner = none ∧
      (∀ u, u ≠ h → s'.m.pc u = s.m.pc u ∧ s'.st u = s.st u) ∧ s'.m.data = s.m.data := by
  induction k with
  | zero =>
    exact fun {s} _ {h} _ hk => absurd hk (by have := toRelease_pos (s.st h) (s.m.pc h); omega)
  | succ k ih =>
    intro s hi h ho hk
    obtain ⟨s1, hst, hfr, hd, hown⟩ := hi.holder_step ho
    rcases hown with hnone | ⟨hsome, hlt⟩
    · exact ⟨s1, .single hst, hnone, hfr, hd⟩
    · obtain ⟨s2, hrun, hnone, hfr2, hd2⟩ := ih (hi.step hst) hsome (by omega)
      exact ⟨s2, (Relation.ReflTransGen.single hst).trans hrun, hnone,
        fun u hu => ⟨(hfr2 u hu).1.trans (hfr u hu).1, (hfr2 u hu).2.trans (hfr u hu).2⟩,
        hd2.trans hd⟩

end Inv

variable (prog) in
/-- A thread in a writer's stages runs a writer's program. -/
def Writers (st : ℕ → Stage) : Prop := ∀ t, (st t).ofWriter → prog t ≠ .waiter

theorem Writers.update {st : ℕ → Stage} (hw : Writers prog st) {t : ℕ} {x : Stage}
    (hx : x.ofWriter → prog t ≠ .waiter) : Writers prog (Function.update st t x) := by
  intro u hu
  by_cases hut : u = t
  · subst hut; exact hx (by simpa using hu)
  · exact hw u (by simpa [Function.update_noteq hut] using hu)

theorem Writers.notify {st : ℕ → Stage} (hw : Writers prog st) :
    Writers prog fun u => (st u).notify := fun u hu => hw u (by simpa using hu)

theorem Writers.step {s s' : State α} (hw : Writers prog s.st) (h : Step prog condition s s') :
    Writers prog s'.st := by
  cases h with
  | lock => exact hw.update Prog.ne_waiter_of_start
  | borrow | reacquire | repoison | drop => exact hw
  | check => exact hw.update fun hx => by split_ifs at hx <;> cases hx
  | wait | spurious => exact hw.update fun hx => by cases hx
  | @write t _ _ _ hs _ => exact hw.update fun _ => hw t (by simp [hs, Stage.ofWriter])
  | notifyAll => exact hw.notify.update (by simp)
  | notifyOne => exact (hw.update fun hx => by cases hx).update (by simp)
  | notifyNone => exact hw.update (by simp)
  | @unlock t => exact hw.update fun hx => hw t (Stage.ofWriter_of_release hx)

namespace Inv

variable {s : State α}

end Inv

end WaitWhile

end PinnedSync
