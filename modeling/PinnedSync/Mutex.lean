import PinnedSync.Poison
import PinnedSync.Sys.Mutex

/-!
# `Mutex<T>` under any interleaving

`Mutex<T>` is a sys mutex, a poison `Flag` and the data. `lock` and `try_lock` take
the sys mutex and then call `self.poison.borrow()`; the guard comes back in `Ok` or
inside `Err(PoisonError)`, live either way. `MutexGuard::drop` calls
`self.mutex.poison.done(&self.poison)`, and then its field `guard`, the sys guard,
is dropped, which unlocks the sys mutex. `Condvar::wait` and its variants go through
`MutexGuard::map`:

    let guard = ptr::read(&self.guard); ...; mem::forget(self);
    let guard = f(guard);                   // the backend wait
    Self { guard, mutex, poison }.repoison()

## The model

A run is a sequence of `Step`s of any threads. The sys mutex is the pthread mutex of
`Sys.PthreadMutex` behind an initialized gate (`boxed` or `arc`, and no second
`init`: `Unix.Mutex.stray_init_strands_guard` is what one does). Each step is one
access to shared state: the sys lock, the flag's read in `borrow` or `repoison`, a
write of the data, the flag's update in the drop, the sys unlock, and the backend
wait's unlock and lock. The unix `try_lock` is the sys lock (it blocks,
`Sys.tryLock_of_held_blocks`) and the fallback's returns `WouldBlock` without a
step, so on a free mutex both take the `lock` step. A thread's
`thread::panicking()` changes outside the mutex's code (`unwind`), and in
`waitPanic`, when the backend wait panics (the fallback's `get_ref` asserts that the
condvar is initialized): the sys guard the wait was given is dropped as the thread
unwinds.

Three ghost fields record the run: `acquired` numbers the sys acquisitions (the lock
order), `released` lists the numbers of those released, and `log` holds the flag's
operations (`Poison.Event`).

## What is proved

* `Reachable.inv`: the sys mutex is owned exactly by the thread that holds an
  acquisition, which is the newest; every other acquisition is released, once; the
  log obeys the poisoning law (`Poison.Consistent`).
* `one_holder`: at most one thread holds the mutex, a thread in a condvar wait holds
  nothing, and every sys unlock is the owner's and returns `0`.
* `poison_law`: the flag is what the log of borrows and drops says, and once set it
  stays set.
* `waitPanic_leaves_unpoisoned`: when the backend wait panics, the mutex is unlocked
  but its flag is not set, although the thread now unwinds, and a later `lock`
  returns `Ok`; a drop of the guard in the same unwind would have set it.
-/

namespace PinnedSync

namespace Mutex

open Poison Sys

/-- Where a thread stands with the mutex. `n` numbers the sys acquisition it holds;
`token` is its guard's `poison::Guard`: `thread::panicking()` at its `lock`. -/
inductive Pc where
  /-- No guard, and in no call of the mutex. -/
  | idle
  /-- In `lock` or `try_lock`: the sys lock returned; `poison.borrow()` is next. -/
  | acquired (n : ℕ)
  /-- A live `MutexGuard`, returned in `Ok` or inside a `PoisonError`. -/
  | guard (n : ℕ) (token : Bool)
  /-- In `MutexGuard::drop`, after `poison.done`; the sys guard's unlock is next. -/
  | dropping (n : ℕ) (token : Bool)
  /-- In a condvar wait: `map` forgot the guard, the backend wait unlocked the sys
  mutex. -/
  | waiting (token : Bool)
  /-- The backend wait locked the sys mutex again; `repoison` is next. -/
  | reacquired (n : ℕ) (token : Bool)
  deriving DecidableEq, Repr

namespace Pc

/-- The sys acquisition the thread holds. -/
def hold : Pc → Option ℕ
  | acquired n | guard n _ | dropping n _ | reacquired n _ => some n
  | idle | waiting _ => none

/-- A sys acquisition whose read of the flag is still to come. -/
def fresh : Pc → Option ℕ
  | acquired n | reacquired n _ => some n
  | idle | guard _ _ | dropping _ _ | waiting _ => none

theorem hold_of_fresh {p : Pc} {n : ℕ} (h : p.fresh = some n) : p.hold = some n := by
  cases p <;> simp_all [fresh, hold]

end Pc

/-- A run's state: the fields of `Mutex<T>` (`inner`, `poison`, `data`), the threads,
and three ghost fields. -/
structure State (α : Type) where
  /-- `inner`: the sys mutex. -/
  inner : PthreadMutex
  /-- `poison`. -/
  poison : Flag
  /-- `data`. -/
  data : α
  /-- Where each thread stands. -/
  pc : ℕ → Pc
  /-- Each thread's `thread::panicking()`. -/
  panicking : ℕ → Bool
  /-- The number of sys acquisitions so far; the `n`th is numbered `n`. -/
  acquired : ℕ
  /-- The numbers of the sys acquisitions released, newest first. -/
  released : List ℕ
  /-- The flag's operations, newest first. -/
  log : List Event

variable {α : Type}

/-- `Mutex::boxed(v)`, before any thread uses it. -/
def boxed (v : α) : State α :=
  ⟨PthreadMutex.unlocked, Flag.new, v, fun _ => .idle, fun _ => false, 0, [], []⟩

/-- One step of thread `t`. -/
inductive Step : State α → State α → Prop
  /-- `lock`, or `try_lock` on a free mutex: the sys lock returns. -/
  | lock {s : State α} {t : ℕ} {r : ℤ} {p : PthreadMutex} (hp : s.pc t = .idle)
      (hl : s.inner.lock t = .returns (r, p)) :
      Step s { s with
        inner := p
        pc := Function.update s.pc t (.acquired s.acquired)
        acquired := s.acquired + 1 }
  /-- `map_result(self.poison.borrow(), ..)`: the guard, in `Ok` or in
  `Err(PoisonError)`. -/
  | borrow {s : State α} {t n : ℕ} (hp : s.pc t = .acquired n) :
      Step s { s with
        pc := Function.update s.pc t (.guard n (s.panicking t))
        log := .acquire n (s.poison.borrow (s.panicking t)).isPoisoned :: s.log }
  /-- A write through the guard's `DerefMut`. -/
  | write {s : State α} {t n : ℕ} {tok : Bool} (v : α) (hp : s.pc t = .guard n tok) :
      Step s { s with data := v }
  /-- `MutexGuard::drop`: `self.mutex.poison.done(&self.poison)`. -/
  | drop {s : State α} {t n : ℕ} {tok : Bool} (hp : s.pc t = .guard n tok) :
      Step s { s with
        poison := s.poison.done ⟨tok⟩ (s.panicking t)
        pc := Function.update s.pc t (.dropping n tok)
        log := .done n tok (s.panicking t) :: s.log }
  /-- The drop of the field `guard`: the sys guard unlocks. -/
  | unlock {s : State α} {t n : ℕ} {tok : Bool} (hp : s.pc t = .dropping n tok) :
      Step s { s with
        inner := (s.inner.unlock t).2
        pc := Function.update s.pc t .idle
        released := n :: s.released }
  /-- `Condvar::wait` or a variant: `map` forgets the guard, and the backend wait
  unlocks the sys mutex and sleeps. -/
  | wait {s : State α} {t n : ℕ} {tok : Bool} (hp : s.pc t = .guard n tok) :
      Step s { s with
        inner := (s.inner.unlock t).2
        pc := Function.update s.pc t (.waiting tok)
        released := n :: s.released }
  /-- The backend wait panics: the sys guard it was given is dropped as the thread
  unwinds, and the forgotten `MutexGuard` is not. -/
  | waitPanic {s : State α} {t n : ℕ} {tok : Bool} (hp : s.pc t = .guard n tok)
      (hpan : s.panicking t = false) :
      Step s { s with
        inner := (s.inner.unlock t).2
        pc := Function.update s.pc t .idle
        panicking := Function.update s.panicking t true
        released := n :: s.released }
  /-- The backend wait returns (notified, timed out, or woken spuriously) with the sys
  mutex locked again. -/
  | reacquire {s : State α} {t : ℕ} {tok : Bool} {r : ℤ} {p : PthreadMutex}
      (hp : s.pc t = .waiting tok) (hl : s.inner.lock t = .returns (r, p)) :
      Step s { s with
        inner := p
        pc := Function.update s.pc t (.reacquired s.acquired tok)
        acquired := s.acquired + 1 }
  /-- `repoison`: `self.mutex.is_poisoned()` picks `Ok` or `Err(PoisonError)`. -/
  | repoison {s : State α} {t n : ℕ} {tok : Bool} (hp : s.pc t = .reacquired n tok) :
      Step s { s with
        pc := Function.update s.pc t (.guard n tok)
        log := .acquire n s.poison.get :: s.log }
  /-- Outside the mutex's code the thread starts to unwind, or a `catch_unwind` ends
  its unwinding. -/
  | unwind {s : State α} {t : ℕ} (b : Bool) (hp : (s.pc t).fresh = none)
      (hd : ∀ n tok, s.pc t ≠ .dropping n tok) :
      Step s { s with panicking := Function.update s.panicking t b }

/-- The states some run reaches from `boxed v`. -/
def Reachable (v : α) (s : State α) : Prop := Relation.ReflTransGen Step (boxed v) s

/-! ### The invariant -/

/-- What holds in every reachable state. -/
structure Inv (s : State α) : Prop where
  /-- The sys mutex's owner is the thread that holds a sys acquisition. -/
  owner_iff : ∀ t, s.inner.owner = some t ↔ (s.pc t).hold.isSome
  /-- The acquisition held is the newest. -/
  hold_eq : ∀ t n, (s.pc t).hold = some n → n + 1 = s.acquired
  released_nodup : s.released.Nodup
  /-- Every acquisition but the one held is released. -/
  mem_released : ∀ n, n ∈ s.released ↔ n < s.acquired ∧ ∀ t, (s.pc t).hold ≠ some n
  log_lt : ∀ e ∈ s.log, e.hold < s.acquired
  /-- No flag operation yet under an acquisition whose read of the flag is to come. -/
  fresh_lt : ∀ t n, (s.pc t).fresh = some n → ∀ e ∈ s.log, e.hold < n
  consistent : Consistent s.poison.failed s.log

theorem inv_boxed (v : α) : Inv (boxed v) where
  owner_iff _ := by simp [boxed, PthreadMutex.unlocked, Pc.hold]
  hold_eq _ _ h := by simp [boxed, Pc.hold] at h
  released_nodup := List.nodup_nil
  mem_released _ := by simp [boxed]
  log_lt := by simp [boxed]
  fresh_lt _ _ h := by simp [boxed, Pc.fresh] at h
  consistent := consistent_nil

theorem hold_update {pc : ℕ → Pc} {t : ℕ} {p : Pc} (h : p.hold = (pc t).hold) (u : ℕ) :
    (Function.update pc t p u).hold = (pc u).hold := by
  by_cases hu : u = t
  · subst hu; simpa using h
  · rw [Function.update_noteq hu]

namespace Inv

variable {s : State α}

/-- At most one thread holds an acquisition. -/
theorem eq_of_hold (hi : Inv s) {t u : ℕ} {n m : ℕ} (ht : (s.pc t).hold = some n)
    (hu : (s.pc u).hold = some m) : u = t := by
  have h1 := (hi.owner_iff t).mpr (by simp [ht])
  have h2 := (hi.owner_iff u).mpr (by simp [hu])
  exact Option.some.inj (h2.symm.trans h1)

theorem hold_of_free (hi : Inv s) (h : s.inner.owner = none) (u : ℕ) : (s.pc u).hold = none := by
  have := hi.owner_iff u
  rw [h] at this
  simpa using this

/-- A sys lock that returns: the mutex was free, and `t` now holds the newest
acquisition, whose read of the flag is to come. -/
theorem acquire (hi : Inv s) {t : ℕ} {p : Pc} (hfree : s.inner.owner = none)
    (hp : p.hold = some s.acquired) (hf : p.fresh = some s.acquired) :
    Inv { s with
      inner := ⟨some t⟩
      pc := Function.update s.pc t p
      acquired := s.acquired + 1 } where
  owner_iff u := by
    by_cases hu : u = t
    · subst hu; simp [hp]
    · simp [Function.update_noteq hu, hi.hold_of_free hfree u, Ne.symm hu]
  hold_eq u n h := by
    by_cases hu : u = t
    · subst hu; simp_all
    · simp [Function.update_noteq hu, hi.hold_of_free hfree u] at h
  released_nodup := hi.released_nodup
  mem_released n := by
    have hnone : ∀ u, u ≠ t → (s.pc u).hold ≠ some n := fun u _ => by
      simp [hi.hold_of_free hfree u]
    simp only [hi.mem_released n]
    constructor
    · rintro ⟨hlt, -⟩
      refine ⟨by omega, fun u => ?_⟩
      by_cases hu : u = t
      · subst hu; simp [hp]; omega
      · simpa [Function.update_noteq hu] using hnone u hu
    · rintro ⟨hlt, hu⟩
      have hne : n ≠ s.acquired := fun e => hu t (by simp [hp, e])
      exact ⟨by omega, fun u => by simp [hi.hold_of_free hfree u]⟩
  log_lt e he := Nat.lt_succ_of_lt (hi.log_lt e he)
  fresh_lt u n h e he := by
    by_cases hu : u = t
    · subst hu
      simp only [Function.update_same, hf, Option.some.injEq] at h
      exact h ▸ hi.log_lt e he
    · simp only [Function.update_noteq hu] at h
      exact absurd (Pc.hold_of_fresh h) (by simp [hi.hold_of_free hfree u])
  consistent := hi.consistent

/-- Once the holder lets go, no thread holds an acquisition. -/
theorem hold_update_none (hi : Inv s) {t n : ℕ} {p : Pc} (ht : (s.pc t).hold = some n)
    (hp : p.hold = none) (u : ℕ) : (Function.update s.pc t p u).hold = none := by
  by_cases hu : u = t
  · subst hu; simpa using hp
  · rw [Function.update_noteq hu]
    cases hh : (s.pc u).hold with
    | none => rfl
    | some m => exact absurd (hi.eq_of_hold ht hh) hu

/-- A sys unlock by the thread holding acquisition `n`: the mutex is free, and `n` is
released. -/
theorem release (hi : Inv s) {t n : ℕ} {p : Pc} (ht : (s.pc t).hold = some n)
    (hp : p.hold = none) (pan : ℕ → Bool) :
    Inv { s with
      inner := ⟨none⟩
      pc := Function.update s.pc t p
      panicking := pan
      released := n :: s.released } where
  owner_iff u := by simp [hi.hold_update_none ht hp u]
  hold_eq u m h := by simp [hi.hold_update_none ht hp u] at h
  released_nodup :=
    List.nodup_cons.mpr ⟨fun hn => ((hi.mem_released n).mp hn).2 t ht, hi.released_nodup⟩
  mem_released m := by
    have hn := hi.hold_eq t n ht
    simp only [List.mem_cons, hi.hold_update_none ht hp, ne_eq, reduceCtorEq, not_false_eq_true,
      implies_true, and_true, hi.mem_released m]
    constructor
    · rintro (rfl | ⟨hlt, -⟩) <;> omega
    · intro hlt
      by_cases hm : m = n
      · exact .inl hm
      · refine .inr ⟨hlt, fun u hu => hm ?_⟩
        cases hi.eq_of_hold ht hu
        exact Option.some.inj (hu.symm.trans ht)
  log_lt := hi.log_lt
  fresh_lt u m h := absurd (Pc.hold_of_fresh h) (by simp [hi.hold_update_none ht hp u])
  consistent := hi.consistent

/-- A step of the holder that keeps its acquisition and logs one flag operation under it. -/
theorem logged (hi : Inv s) {t n : ℕ} {p : Pc} (ht : (s.pc t).hold = some n)
    (hp : p.hold = some n) (hf : p.fresh = none) {f : Flag} {e : Event} (he : e.hold = n)
    (hc : Consistent f.failed (e :: s.log)) :
    Inv { s with
      poison := f
      pc := Function.update s.pc t p
      log := e :: s.log } where
  owner_iff u := by simpa [hold_update (hp.trans ht.symm)] using hi.owner_iff u
  hold_eq u m h := hi.hold_eq u m (by simpa [hold_update (hp.trans ht.symm)] using h)
  released_nodup := hi.released_nodup
  mem_released m := by simpa [hold_update (hp.trans ht.symm)] using hi.mem_released m
  log_lt e' he' := by
    rcases List.mem_cons.mp he' with rfl | he'
    · have := hi.hold_eq t n ht
      show e'.hold < s.acquired
      omega
    · exact hi.log_lt e' he'
  fresh_lt u m h := by
    by_cases hu : u = t
    · subst hu; simp [hf] at h
    · have h' : (s.pc u).fresh = some m := by simpa [Function.update_noteq hu] using h
      exact absurd (hi.eq_of_hold ht (Pc.hold_of_fresh h')) hu
  consistent := hc

theorem step {s' : State α} (hi : Inv s) (h : Step s s') : Inv s' := by
  cases h with
  | lock hp hl | reacquire hp hl =>
    obtain ⟨hfree, hx⟩ := PthreadMutex.lock_eq_returns.mp hl
    cases hx
    exact hi.acquire hfree rfl rfl
  | borrow hp =>
    refine hi.logged (congrArg Pc.hold hp) (by rfl) (by rfl) rfl ?_
    rw [Flag.borrow_isPoisoned]
    exact hi.consistent.acquire fun e he _ => hi.fresh_lt _ _ (congrArg Pc.fresh hp) e he
  | repoison hp =>
    exact hi.logged (congrArg Pc.hold hp) (by rfl) (by rfl) rfl
      (hi.consistent.acquire fun e he _ => hi.fresh_lt _ _ (congrArg Pc.fresh hp) e he)
  | drop hp =>
    have ht := congrArg Pc.hold hp
    refine hi.logged ht (by rfl) (by rfl) rfl ?_
    rw [Flag.done_failed]
    refine hi.consistent.done _ _ fun m b hm => ?_
    have h1 := hi.log_lt _ hm
    have h2 := hi.hold_eq _ _ ht
    simp only [Event.hold_acquire] at h1
    omega
  | unlock hp | wait hp | waitPanic hp =>
    have ht := congrArg Pc.hold hp
    rw [PthreadMutex.unlock_of_owner ((hi.owner_iff _).mpr (by rw [ht]; rfl))]
    exact hi.release ht (by rfl) _
  | write _ hp | unwind _ hp =>
    exact ⟨hi.owner_iff, hi.hold_eq, hi.released_nodup, hi.mem_released, hi.log_lt, hi.fresh_lt,
      hi.consistent⟩

end Inv

theorem Reachable.inv {v : α} {s : State α} (h : Reachable v s) : Inv s := by
  induction h with
  | refl => exact inv_boxed v
  | tail _ hst ih => exact ih.step hst

/-! ### What every run keeps -/

/-- **One holder, and every acquisition released once.** In every reachable state at
most one thread holds a sys acquisition (in `lock`, with a live guard, in the guard's
drop, or back from a condvar wait), the sys mutex is owned by that thread and by no
other, a thread in a condvar wait holds nothing, every acquisition but the one held
has been released exactly once, and the sys unlock a holder is about to do (in the
guard's drop or in a condvar wait) is the owner's and returns `0`. -/
theorem one_holder {v : α} {s : State α} (h : Reachable v s) :
    (∀ t u n m, (s.pc t).hold = some n → (s.pc u).hold = some m → u = t) ∧
    (∀ t, s.inner.owner = some t ↔ ∃ n, (s.pc t).hold = some n) ∧
    (∀ t tok, s.pc t = .waiting tok → s.inner.owner ≠ some t) ∧
    s.released.Nodup ∧
    (∀ n, n ∈ s.released ↔ n < s.acquired ∧ ∀ t, (s.pc t).hold ≠ some n) ∧
    ∀ t n tok, (s.pc t = .guard n tok ∨ s.pc t = .dropping n tok) →
      s.inner.unlock t = (0, PthreadMutex.unlocked) := by
  have hi := h.inv
  refine ⟨fun t u n m ht hu => hi.eq_of_hold ht hu, fun t => ?_, fun t tok hw => ?_,
    hi.released_nodup, hi.mem_released, fun t n tok hg => ?_⟩
  · rw [hi.owner_iff t, Option.isSome_iff_exists]
  · simp [hi.owner_iff t, hw, Pc.hold]
  · refine PthreadMutex.unlock_of_owner ((hi.owner_iff t).mpr ?_)
    rcases hg with hg | hg <;> simp [hg, Pc.hold]

/-- Only a guard's drop sets the flag: the drop of a guard taken while not unwinding,
by its thread now unwinding, before the sys unlock. -/
theorem Step.flag_set {s s' : State α} (h : Step s s') (h0 : s.poison.failed = false)
    (h1 : s'.poison.failed = true) :
    ∃ t n, s.pc t = .guard n false ∧ s.panicking t = true ∧
      s'.log = .done n false true :: s.log ∧ s'.inner = s.inner := by
  cases h
  case drop t n tok hp =>
    simp only [Flag.done_failed, h0, Bool.false_or, Bool.and_eq_true, Bool.not_eq_true'] at h1
    obtain ⟨rfl, hpan⟩ := h1
    exact ⟨t, n, hp, hpan, by rw [hpan], rfl⟩
  all_goals exact absurd h1 (by simp [h0])

/-- An acquisition that reads the flag, `Ok` or `Poisoned`, leaves its thread with a
live guard and the sys mutex. -/
theorem Step.acquire_held {s s' : State α} (hi : Inv s) (h : Step s s') {n : ℕ} {p : Bool}
    (hl : s'.log = .acquire n p :: s.log) :
    ∃ t tok, s'.pc t = .guard n tok ∧ s'.inner.owner = some t := by
  cases h
  case borrow t n' hp =>
    simp only [List.cons.injEq, Event.acquire.injEq] at hl
    obtain ⟨⟨rfl, -⟩, -⟩ := hl
    exact ⟨t, s.panicking t, by simp, (hi.owner_iff t).mpr (by simp [hp, Pc.hold])⟩
  case repoison t n' tok hp =>
    simp only [List.cons.injEq, Event.acquire.injEq] at hl
    obtain ⟨⟨rfl, -⟩, -⟩ := hl
    exact ⟨t, tok, by simp, (hi.owner_iff t).mpr (by simp [hp, Pc.hold])⟩
  case drop => simp at hl
  all_goals exact absurd hl.symm (List.cons_ne_self _ _)

/-- **The poisoning law, for a mutex.** In every reachable state the log obeys
`Poison.Consistent`: the flag is set iff a guard taken while not unwinding was dropped
while unwinding, and every `lock`, `try_lock` and condvar re-acquisition reported
`Poisoned` iff such a drop happened under an earlier sys acquisition. Once set, the
flag stays set; only such a drop sets it, before its sys unlock; and every acquisition
that reads the flag, `Ok` or `Poisoned`, hands its thread a guard with the mutex held.
(`waitPanic` releases the sys mutex without a guard's drop, and logs nothing.) -/
theorem poison_law {v : α} {s : State α} (h : Reachable v s) :
    Consistent s.poison.failed s.log ∧
    (∀ s', Step s s' → s.poison.failed = true → s'.poison.failed = true) ∧
    (∀ s', Step s s' → s.poison.failed = false → s'.poison.failed = true →
      ∃ t n, s.pc t = .guard n false ∧ s.panicking t = true ∧
        s'.log = .done n false true :: s.log ∧ s'.inner = s.inner) ∧
    ∀ s' n p, Step s s' → s'.log = .acquire n p :: s.log →
      ∃ t tok, s'.pc t = .guard n tok ∧ s'.inner.owner = some t := by
  refine ⟨h.inv.consistent, fun s' hs hf => ?_, fun s' hs => hs.flag_set,
    fun s' n p hs => hs.acquire_held h.inv⟩
  cases hs <;> simp [hf]

/-- Once set, the flag stays set. -/
theorem Step.failed_of_failed {s s' : State α} (h : Step s s') (hf : s.poison.failed = true) :
    s'.poison.failed = true := by
  cases h <;> simp [hf]

/-- Only a write through a guard changes the data, and the guard is still live after it. -/
theorem Step.data_eq {s s' : State α} (h : Step s s') (hno : ∀ t n tok, s'.pc t ≠ .guard n tok) :
    s'.data = s.data := by
  cases h
  case write t n tok v hp => exact absurd hp (hno t n tok)
  all_goals rfl

/-! ### Without a guard -/

/-- `Mutex::is_poisoned`: `self.poison.get()`. -/
def State.isPoisoned (s : State α) : Bool := s.poison.get

/-- `Mutex::into_inner`, by a thread whose `thread::panicking()` is `panicking`:
`map_result(poison.borrow(), |_| data.into_inner())`. -/
def State.intoInner (s : State α) (panicking : Bool) : LockResult α :=
  mapResult (s.poison.borrow panicking) fun _ => s.data

/-- `Mutex::get_mut`: `map_result(self.poison.borrow(), |_| data)`, the data by
reference. -/
def State.getMut (s : State α) (panicking : Bool) : LockResult α :=
  mapResult (s.poison.borrow panicking) fun _ => s.data

theorem State.intoInner_eq (s : State α) (p : Bool) :
    s.intoInner p = if s.isPoisoned then .poisoned s.data else .ok s.data := by
  unfold State.intoInner State.isPoisoned Flag.borrow
  split <;> rfl

theorem State.getMut_eq (s : State α) (p : Bool) :
    s.getMut p = if s.isPoisoned then .poisoned s.data else .ok s.data :=
  intoInner_eq s p

/-- **A panic in the backend wait leaves the mutex unpoisoned.** Thread `0` locks a
boxed mutex while not unwinding and passes its guard to a condvar wait whose backend
panics: the sys mutex is unlocked and thread `0` unwinds, but the flag stays clear,
and thread `1`'s `lock` then returns `Ok`. Had thread `0` dropped its guard in the same
unwind, the flag would be set and thread `1`'s `lock` would return `Err`. -/
theorem waitPanic_leaves_unpoisoned :
    (∃ s, Reachable 0 s ∧ s.panicking 0 = true ∧ s.poison.failed = false ∧
      s.pc 1 = .guard 1 false ∧ s.log = [.acquire 1 false, .acquire 0 false]) ∧
    (∃ s, Reachable 0 s ∧ s.panicking 0 = true ∧ s.poison.failed = true ∧
      s.pc 1 = .guard 1 false ∧ s.log = [.acquire 1 true, .done 0 false true, .acquire 0 false]) :=
  ⟨⟨_, .tail (.tail (.tail (.tail (.tail .refl (@Step.lock ℕ _ 0 _ _ rfl rfl))
      (@Step.borrow ℕ _ 0 _ rfl)) (@Step.waitPanic ℕ _ 0 _ _ rfl rfl))
      (@Step.lock ℕ _ 1 _ _ rfl rfl)) (@Step.borrow ℕ _ 1 _ rfl), rfl, rfl, rfl, rfl⟩,
   ⟨_, .tail (.tail (.tail (.tail (.tail (.tail (.tail .refl (@Step.lock ℕ _ 0 _ _ rfl rfl))
      (@Step.borrow ℕ _ 0 _ rfl)) (@Step.unwind ℕ _ 0 true rfl (by simp)))
      (@Step.drop ℕ _ 0 _ _ rfl)) (@Step.unlock ℕ _ 0 _ _ rfl))
      (@Step.lock ℕ _ 1 _ _ rfl rfl)) (@Step.borrow ℕ _ 1 _ rfl), rfl, rfl, rfl, rfl⟩⟩

end Mutex

end PinnedSync
