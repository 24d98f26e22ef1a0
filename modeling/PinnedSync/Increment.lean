import PinnedSync.Mutex
import Mathlib.Algebra.Order.BigOperators.Group.Finset

/-!
# `lots_and_lots`: increments under a `Mutex<u32>`

`tests/mutex.rs` runs threads that each do

    fn inc(m: Pin<&Mutex<u32>>) {
        for _ in 0..J { *m.lock().unwrap() += 1; }
    }

on one `Mutex<u32>` that starts at `0`, and asserts that the value is then the number
of increments. `+= 1` reads the value through the guard and writes the sum back: two
accesses, with the guard held.

## The model

`K` threads, `0` to `K - 1`, run `inc` on `Mutex.boxed 0`. Each thread's place in
`inc` is a `Cl`, beside its place in the mutex (`Mutex.Pc`). A client step is the
mutex step the thread takes there, or its read of the value, which changes no shared
state (`Step.mutex`). `unwrap` goes on only from `Ok`. The value is a `u32`, so the
write stores `(v + 1) % 2 ^ 32`.

## What is proved

* `Step.mutex`: each client step is a step of `Mutex` or none, so every invariant of
  `Mutex` holds along the client's runs (`Reachable.mutex`).
* `Reachable.inv`: no thread unwinds and the flag stays clear, so every `unwrap`
  gets `Ok`; a thread that read `v` holds the guard and `v` is still the value; and
  the value is the number of increments written so far.
* `value_of_stuck`, `work_step`: with `K * J < 2 ^ 32`, a run stops only when every
  thread has done its `J` increments, so with the value `K * J`, and every step adds
  one to a measure bounded by `K * (6 * J)`, so every run stops.
-/

namespace PinnedSync

namespace Increment

open Mutex Sys

/-- Where a thread stands in `inc`, beside its place in the mutex. -/
inductive Cl where
  /-- `k` increments done: between two, in `lock`, or holding the guard before the
  read. -/
  | run (k : ℕ)
  /-- `+= 1` read `v` through the guard. -/
  | loaded (k v : ℕ)
  /-- `+= 1` wrote the sum back; the guard's drop is next, or under way. -/
  | stored (k : ℕ)
  deriving DecidableEq, Repr

/-- The increments the thread has written. -/
def Cl.count : Cl → ℕ
  | .run k | .loaded k _ => k
  | .stored k => k + 1

/-- The client's state: the mutex's run, and each thread's place in `inc`. -/
structure State where
  /-- The `Mutex<u32>` and the threads' places in it. -/
  m : Mutex.State ℕ
  /-- Each thread's place in `inc`. -/
  cl : ℕ → Cl

/-- `Mutex::arc(0)`, before any thread runs. -/
def init : State := ⟨Mutex.boxed 0, fun _ => .run 0⟩

variable (K J : ℕ)

/-- One step of thread `t < K` in `inc`. -/
inductive Step : State → State → Prop
  /-- `m.lock()`: the sys lock. -/
  | lock {c : State} {t k : ℕ} {r : ℤ} {p : PthreadMutex} (ht : t < K) (hc : c.cl t = .run k)
      (hk : k < J) (hp : c.m.pc t = .idle) (hl : c.m.inner.lock t = .returns (r, p)) :
      Step c { c with
        m := { c.m with
          inner := p
          pc := Function.update c.m.pc t (.acquired c.m.acquired)
          acquired := c.m.acquired + 1 } }
  /-- `m.lock()`: the borrow of the flag; `unwrap` goes on from `Ok`. -/
  | borrow {c : State} {t k n : ℕ} (ht : t < K) (hc : c.cl t = .run k)
      (hp : c.m.pc t = .acquired n) (hok : c.m.poison.failed = false) :
      Step c { c with
        m := { c.m with
          pc := Function.update c.m.pc t (.guard n (c.m.panicking t))
          log := .acquire n (c.m.poison.borrow (c.m.panicking t)).isPoisoned :: c.m.log } }
  /-- `+= 1` reads the value. -/
  | load {c : State} {t k n : ℕ} {tok : Bool} (ht : t < K) (hc : c.cl t = .run k)
      (hp : c.m.pc t = .guard n tok) :
      Step c { c with cl := Function.update c.cl t (.loaded k c.m.data) }
  /-- `+= 1` writes the sum back. -/
  | store {c : State} {t k v n : ℕ} {tok : Bool} (ht : t < K) (hc : c.cl t = .loaded k v)
      (hp : c.m.pc t = .guard n tok) :
      Step c { c with
        m := { c.m with data := (v + 1) % 2 ^ 32 }
        cl := Function.update c.cl t (.stored k) }
  /-- The guard's drop: `poison.done`. -/
  | drop {c : State} {t k n : ℕ} {tok : Bool} (ht : t < K) (hc : c.cl t = .stored k)
      (hp : c.m.pc t = .guard n tok) :
      Step c { c with
        m := { c.m with
          poison := c.m.poison.done ⟨tok⟩ (c.m.panicking t)
          pc := Function.update c.m.pc t (.dropping n tok)
          log := .done n tok (c.m.panicking t) :: c.m.log } }
  /-- The guard's drop: the sys unlock; the increment is done. -/
  | unlock {c : State} {t k n : ℕ} {tok : Bool} (ht : t < K) (hc : c.cl t = .stored k)
      (hp : c.m.pc t = .dropping n tok) :
      Step c { c with
        m := { c.m with
          inner := (c.m.inner.unlock t).2
          pc := Function.update c.m.pc t .idle
          released := n :: c.m.released }
        cl := Function.update c.cl t (.run (k + 1)) }

/-- The states some run of the client reaches. -/
def Reachable (c : State) : Prop := Relation.ReflTransGen (Step K J) init c

/-- A thread's place in `inc` fits its place in the mutex; `v` is the value. The guard
was taken while not unwinding. -/
inductive Fits (J v : ℕ) : Cl → Pc → Prop
  /-- Between two increments. -/
  | idle {k : ℕ} : k ≤ J → Fits J v (.run k) .idle
  /-- In `lock`, after the sys lock. -/
  | acquired {k n : ℕ} : k < J → Fits J v (.run k) (.acquired n)
  /-- Holding the guard, before the read. -/
  | guard {k n : ℕ} : k < J → Fits J v (.run k) (.guard n false)
  /-- Holding the guard, having read the value. -/
  | loaded {k n : ℕ} : k < J → Fits J v (.loaded k v) (.guard n false)
  /-- Holding the guard, having written. -/
  | stored {k n : ℕ} : k < J → Fits J v (.stored k) (.guard n false)
  /-- In the guard's drop, after `poison.done`. -/
  | dropping {k n : ℕ} : k < J → Fits J v (.stored k) (.dropping n false)

/-- What holds in every reachable state of the client. -/
structure Inv (c : State) : Prop where
  mutex : Mutex.Reachable 0 c.m
  calm : ∀ t, c.m.panicking t = false
  unpoisoned : c.m.poison.failed = false
  fits : ∀ t < K, Fits J c.m.data (c.cl t) (c.m.pc t)
  outside : ∀ t, K ≤ t → c.cl t = .run 0 ∧ c.m.pc t = .idle
  /-- The value is the number of increments written. -/
  value : c.m.data = ∑ t ∈ Finset.range K, (c.cl t).count

variable {K J}

/-- **The client runs on the mutex model**: each of its steps is a step of `Mutex`, or
changes no state of the mutex. -/
theorem Step.mutex {c c' : State} (h : Step K J c c') : c'.m = c.m ∨ Mutex.Step c.m c'.m := by
  cases h with
  | lock _ _ _ hp hl => exact .inr (.lock hp hl)
  | borrow _ _ hp _ => exact .inr (.borrow hp)
  | load => exact .inl rfl
  | store _ _ hp => exact .inr (.write _ hp)
  | drop _ _ hp => exact .inr (.drop hp)
  | unlock _ _ hp => exact .inr (.unlock hp)

theorem Reachable.mutex {c : State} (h : Reachable K J c) : Mutex.Reachable 0 c.m := by
  induction h with
  | refl => exact .refl
  | tail _ hst ih =>
    rcases hst.mutex with he | hm
    · exact he ▸ ih
    · exact ih.tail hm

/-! ### The invariant -/

theorem Fits.count_le {v : ℕ} {c : Cl} {p : Pc} (h : Fits J v c p) : c.count ≤ J := by
  cases h <;> simp only [Cl.count] <;> omega

/-- Only a thread that read the value cares what the value is. -/
theorem Fits.with_data {v v' : ℕ} {c : Cl} {p : Pc} (h : Fits J v c p)
    (hc : ∀ k w, c ≠ .loaded k w) : Fits J v' c p := by
  cases h with
  | idle hk => exact .idle hk
  | acquired hk => exact .acquired hk
  | guard hk => exact .guard hk
  | loaded => exact absurd rfl (hc _ _)
  | stored hk => exact .stored hk
  | dropping hk => exact .dropping hk

theorem inv_init : Inv K J init where
  mutex := .refl
  calm _ := rfl
  unpoisoned := rfl
  fits _ _ := .idle (Nat.zero_le J)
  outside _ _ := ⟨rfl, rfl⟩
  value := by simp [init, boxed, Cl.count]

/-! ### Sums over the threads -/

theorem sum_update_eq (f g : ℕ → ℕ) (t : ℕ) (hg : g t = f t) (he : ∀ u, u ≠ t → g u = f u) :
    ∑ u ∈ Finset.range K, g u = ∑ u ∈ Finset.range K, f u :=
  Finset.sum_congr rfl fun u _ => if h : u = t then h ▸ hg else he u h

theorem sum_update_succ (f g : ℕ → ℕ) {t : ℕ} (ht : t < K) (hg : g t = f t + 1)
    (he : ∀ u, u ≠ t → g u = f u) :
    ∑ u ∈ Finset.range K, g u = ∑ u ∈ Finset.range K, f u + 1 := by
  have hmem := Finset.mem_range.mpr ht
  rw [Finset.sum_eq_add_sum_diff_singleton hmem, Finset.sum_eq_add_sum_diff_singleton hmem f, hg,
    Finset.sum_congr rfl fun u hu => he u (by simpa using (Finset.mem_sdiff.mp hu).2)]
  exact Nat.add_right_comm _ _ _

/-- With every thread's count at most `J` and one below, the total is below `K * J`. -/
theorem sum_lt_of_lt {f : ℕ → ℕ} {t : ℕ} (ht : t < K) (hle : ∀ u < K, f u ≤ J) (hlt : f t < J) :
    ∑ u ∈ Finset.range K, f u < K * J := by
  calc ∑ u ∈ Finset.range K, f u < ∑ _u ∈ Finset.range K, J :=
        Finset.sum_lt_sum (fun u hu => hle u (Finset.mem_range.mp hu))
          ⟨t, Finset.mem_range.mpr ht, hlt⟩
    _ = K * J := by simp

namespace Inv

variable {c : State}

/-- Where a thread below `K` stands. -/
theorem fits_at (hi : Inv K J c) {u : ℕ} {x : Cl} (hu : c.cl u = x) (hx : x ≠ .run 0) :
    u < K ∧ Fits J c.m.data x (c.m.pc u) := by
  have huK : u < K := by
    by_contra h
    exact hx (hu.symm.trans (hi.outside u (by omega)).1)
  exact ⟨huK, hu ▸ hi.fits u huK⟩

/-- The thread that read the value is the one that holds the guard. -/
theorem loaded_holder (hi : Inv K J c) {t u k v n : ℕ} {tok : Bool}
    (hp : c.m.pc t = .guard n tok) (hu : c.cl u = .loaded k v) : u = t := by
  have hf := (hi.fits_at hu (by simp)).2
  generalize hq : c.m.pc u = q at hf
  cases hf with
  | @loaded _ m _ =>
    exact (one_holder hi.mutex).1 t u n m (by simp [hp, Pc.hold]) (by simp [hq, Pc.hold])

/-- A step of thread `t < K` that leaves the other threads where they were. -/
theorem of_frame (hi : Inv K J c) {c' : State} {t : ℕ} (ht : t < K)
    (hm : Mutex.Reachable 0 c'.m) (hcalm : c'.m.panicking = c.m.panicking)
    (hpois : c'.m.poison.failed = false)
    (hcl : ∀ u, u ≠ t → c'.cl u = c.cl u) (hpc : ∀ u, u ≠ t → c'.m.pc u = c.m.pc u)
    (hothers : ∀ u < K, u ≠ t → Fits J c'.m.data (c.cl u) (c.m.pc u))
    (hfit : Fits J c'.m.data (c'.cl t) (c'.m.pc t))
    (hval : c'.m.data = ∑ u ∈ Finset.range K, (c'.cl u).count) : Inv K J c' where
  mutex := hm
  calm u := by rw [hcalm]; exact hi.calm u
  unpoisoned := hpois
  fits u hu := if h : u = t then h ▸ hfit else by rw [hcl u h, hpc u h]; exact hothers u hu h
  outside u hu := by rw [hcl u (by omega), hpc u (by omega)]; exact hi.outside u hu
  value := hval

theorem step (hKJ : K * J < 2 ^ 32) {c' : State} (hi : Inv K J c) (h : Step K J c c') :
    Inv K J c' := by
  have hm : Mutex.Reachable 0 c'.m := by
    rcases h.mutex with he | hs
    · exact he ▸ hi.mutex
    · exact hi.mutex.tail hs
  have same : ∀ {β : Type} {f : ℕ → β} {t : ℕ} {p : β} (u : ℕ), u ≠ t → Function.update f t p u = f u :=
    fun u hu => Function.update_noteq hu _ _
  cases h with
  | @lock t k _ _ ht hc hk hp hl =>
    refine hi.of_frame ht hm rfl hi.unpoisoned (fun _ _ => rfl) same
      (fun u hu _ => hi.fits u hu) ?_ hi.value
    simpa [hc] using Fits.acquired hk
  | @borrow t k n ht hc hp hok =>
    have hf := hi.fits t ht
    rw [hc, hp] at hf
    cases hf with
    | acquired hk =>
      refine hi.of_frame ht hm rfl hi.unpoisoned (fun _ _ => rfl) same
        (fun u hu _ => hi.fits u hu) ?_ hi.value
      simpa [hc, hi.calm t] using Fits.guard hk
  | @load t k n tok ht hc hp =>
    have hf := hi.fits t ht
    rw [hc, hp] at hf
    cases hf with
    | guard hk =>
      refine hi.of_frame ht hm rfl hi.unpoisoned same (fun _ _ => rfl)
        (fun u hu _ => hi.fits u hu) (by simpa [hp] using Fits.loaded hk) ?_
      exact hi.value.trans (sum_update_eq (fun u => (c.cl u).count)
        (fun u => (Function.update c.cl t (.loaded k c.m.data) u).count) t
        (by simp [hc, Cl.count]) fun u hu => by simp [Function.update_noteq hu]).symm
  | @store t k v n tok ht hc hp =>
    have hf := hi.fits t ht
    rw [hc, hp] at hf
    cases hf with
    | loaded hk =>
      have hsum := sum_update_succ (fun u => (c.cl u).count)
        (fun u => (Function.update c.cl t (.stored k) u).count) ht (by simp [hc, Cl.count])
        fun u hu => by simp [Function.update_noteq hu]
      have hlt : ∑ u ∈ Finset.range K, (c.cl u).count < K * J :=
        sum_lt_of_lt ht (fun u hu => (hi.fits u hu).count_le) (by simp [hc, Cl.count, hk])
      refine hi.of_frame ht hm rfl hi.unpoisoned same (fun _ _ => rfl)
        (fun u hu hne => (hi.fits u hu).with_data fun _ _ hl => hne (hi.loaded_holder hp hl))
        (by simpa [hp] using Fits.stored hk) ?_
      simp only [hsum, ← hi.value]
      exact Nat.mod_eq_of_lt (by rw [hi.value]; omega)
  | @drop t k n tok ht hc hp =>
    have hf := hi.fits t ht
    rw [hc, hp] at hf
    cases hf with
    | stored hk =>
      refine hi.of_frame ht hm rfl (by simp [hi.calm t, hi.unpoisoned]) (fun _ _ => rfl) same
        (fun u hu _ => hi.fits u hu) (by simpa [hc] using Fits.dropping hk) hi.value
  | @unlock t k n tok ht hc hp =>
    have hf := hi.fits t ht
    rw [hc, hp] at hf
    cases hf with
    | dropping hk =>
      refine hi.of_frame ht hm rfl hi.unpoisoned same same
        (fun u hu _ => hi.fits u hu) (by simpa using Fits.idle hk) ?_
      exact hi.value.trans (sum_update_eq (fun u => (c.cl u).count)
        (fun u => (Function.update c.cl t (.run (k + 1)) u).count) t
        (by simp [hc, Cl.count]) fun u hu => by simp [Function.update_noteq hu]).symm

/-- A thread that holds the mutex can always take its next step. -/
theorem holder_moves (hi : Inv K J c) {u : ℕ} (hu : u < K) (hh : (c.m.pc u).hold.isSome) :
    ∃ c', Step K J c c' := by
  have hf := hi.fits u hu
  generalize hx : c.cl u = x at hf
  generalize hq : c.m.pc u = q at hf
  cases hf with
  | idle => simp [hq, Pc.hold] at hh
  | acquired => exact ⟨_, .borrow hu hx hq hi.unpoisoned⟩
  | guard => exact ⟨_, .load hu hx hq⟩
  | loaded => exact ⟨_, .store hu hx hq⟩
  | stored => exact ⟨_, .drop hu hx hq⟩
  | dropping => exact ⟨_, .unlock hu hx hq⟩

/-- **No deadlock**: while a thread has increments left, some thread can step. -/
theorem can_step (hi : Inv K J c) {t : ℕ} (ht : t < K)
    (hnot : ¬ (c.cl t = .run J ∧ c.m.pc t = .idle)) : ∃ c', Step K J c c' := by
  have hf := hi.fits t ht
  generalize hx : c.cl t = x at hf
  generalize hq : c.m.pc t = q at hf
  cases hf with
  | @idle k hk =>
    have hkJ : k < J := lt_of_le_of_ne hk fun e => hnot ⟨e ▸ hx, hq⟩
    cases hown : c.m.inner.owner with
    | none => exact ⟨_, .lock ht hx hkJ hq (PthreadMutex.lock_eq_returns.mpr ⟨hown, rfl⟩)⟩
    | some u =>
      obtain ⟨n, hn⟩ := ((one_holder hi.mutex).2.1 u).mp hown
      have hu : u < K := by
        by_contra h
        simp [(hi.outside u (by omega)).2, Pc.hold] at hn
      exact hi.holder_moves hu (by simp [hn])
  | acquired | guard | loaded | stored | dropping =>
    exact hi.holder_moves ht (by simp [hq, Pc.hold])

end Inv

theorem Reachable.inv (hKJ : K * J < 2 ^ 32) {c : State} (h : Reachable K J c) : Inv K J c := by
  induction h with
  | refl => exact inv_init
  | tail _ hst ih => exact ih.step hKJ hst

/-! ### Every run stops -/

/-- How far a thread is through `inc`: six steps an increment. -/
def progress : Cl → Pc → ℕ
  | .run k, .idle => 6 * k
  | .run k, .acquired _ => 6 * k + 1
  | .run k, _ => 6 * k + 2
  | .loaded k _, _ => 6 * k + 3
  | .stored k, .dropping _ _ => 6 * k + 5
  | .stored k, _ => 6 * k + 4

/-- The steps the threads have taken. -/
def work (K : ℕ) (c : State) : ℕ := ∑ t ∈ Finset.range K, progress (c.cl t) (c.m.pc t)

theorem Fits.progress_le {v : ℕ} {x : Cl} {p : Pc} (h : Fits J v x p) : progress x p ≤ 6 * J := by
  cases h <;> simp only [progress] <;> omega

theorem work_le {c : State} (hi : Inv K J c) : work K c ≤ K * (6 * J) := by
  calc work K c ≤ (Finset.range K).card • (6 * J) :=
        Finset.sum_le_card_nsmul _ _ _ fun t ht => (hi.fits t (Finset.mem_range.mp ht)).progress_le
    _ = K * (6 * J) := by simp

/-- Each step is one more step of one thread. -/
theorem work_step {c c' : State} (h : Step K J c c') : work K c' = work K c + 1 := by
  cases h with
  | @lock t k _ _ ht hc hk hp hl =>
    exact sum_update_succ _ _ ht (by simp [hc, hp, progress])
      fun u hu => by simp [Function.update_noteq hu]
  | @borrow t k n ht hc hp hok =>
    exact sum_update_succ _ _ ht (by simp [hc, hp, progress])
      fun u hu => by simp [Function.update_noteq hu]
  | @load t k n tok ht hc hp =>
    exact sum_update_succ _ _ ht (by simp [hc, hp, progress])
      fun u hu => by simp [Function.update_noteq hu]
  | @store t k v n tok ht hc hp =>
    exact sum_update_succ _ _ ht (by simp [hc, hp, progress])
      fun u hu => by simp [Function.update_noteq hu]
  | @drop t k n tok ht hc hp =>
    exact sum_update_succ _ _ ht (by simp [hc, hp, progress])
      fun u hu => by simp [Function.update_noteq hu]
  | @unlock t k n tok ht hc hp =>
    exact sum_update_succ _ _ ht (by simp [hc, hp, progress]; omega)
      fun u hu => by simp [Function.update_noteq hu]

/-- A run that stops has every thread through its `J` increments, and the value is
`K * J`. -/
theorem value_of_stuck {c : State} (hKJ : K * J < 2 ^ 32) (h : Reachable K J c)
    (hstuck : ∀ c', ¬ Step K J c c') : c.m.data = K * J := by
  have hi := Reachable.inv hKJ h
  have hdone : ∀ t < K, c.cl t = .run J := fun t ht =>
    (not_not.mp fun hn => (hi.can_step ht hn).elim hstuck).1
  rw [hi.value, Finset.sum_congr rfl fun t ht => by rw [hdone t (Finset.mem_range.mp ht)]]
  simp [Cl.count]

/-- **Mutual exclusion, and `lots_and_lots`.** For every `Mutex<T>` and every run: at
most one thread holds the mutex, which is owned by that thread alone; a thread in a
condvar wait holds nothing; every sys acquisition but the one held was released
exactly once; and each sys unlock is the owner's and returns `0`. For every `K` and `J`
with `K * J < 2 ^ 32`, a run of `K` threads that each do `J` increments stops only
with the value `K * J`, and every run stops: each step adds one to a measure bounded
by `K * (6 * J)`. -/
theorem lots_and_lots_exact :
    (∀ (α : Type) (v : α) (s : Mutex.State α), Mutex.Reachable v s →
      (∀ t u n m, (s.pc t).hold = some n → (s.pc u).hold = some m → u = t) ∧
      (∀ t, s.inner.owner = some t ↔ ∃ n, (s.pc t).hold = some n) ∧
      (∀ t tok, s.pc t = .waiting tok → s.inner.owner ≠ some t) ∧
      s.released.Nodup ∧
      (∀ n, n ∈ s.released ↔ n < s.acquired ∧ ∀ t, (s.pc t).hold ≠ some n) ∧
      ∀ t n tok, (s.pc t = .guard n tok ∨ s.pc t = .dropping n tok) →
        s.inner.unlock t = (0, PthreadMutex.unlocked)) ∧
    ∀ K J, K * J < 2 ^ 32 → ∀ c, Reachable K J c →
      ((∀ c', ¬ Step K J c c') → c.m.data = K * J) ∧
      work K c ≤ K * (6 * J) ∧ ∀ c', Step K J c c' → work K c' = work K c + 1 :=
  ⟨fun _ _ _ h => one_holder h, fun _ _ hKJ _ h =>
    ⟨value_of_stuck hKJ h, work_le (Reachable.inv hKJ h), fun _ hs => work_step hs⟩⟩

/-- One thread, one increment: lock, borrow, read, write, drop, unlock, and the run
stops with the value `1` and the one acquisition released. -/
theorem lots_and_lots_one_increment :
    ∃ c, Reachable 1 1 c ∧ (∀ c', ¬ Step 1 1 c c') ∧ c.m.data = 1 ∧ c.m.released = [0] ∧
      ((∀ t u n m, (c.m.pc t).hold = some n → (c.m.pc u).hold = some m → u = t) ∧
      (∀ t, c.m.inner.owner = some t ↔ ∃ n, (c.m.pc t).hold = some n) ∧
      (∀ t tok, c.m.pc t = .waiting tok → c.m.inner.owner ≠ some t) ∧
      c.m.released.Nodup ∧
      (∀ n, n ∈ c.m.released ↔ n < c.m.acquired ∧ ∀ t, (c.m.pc t).hold ≠ some n) ∧
      ∀ t n tok, (c.m.pc t = .guard n tok ∨ c.m.pc t = .dropping n tok) →
        c.m.inner.unlock t = (0, PthreadMutex.unlocked)) ∧
      (((∀ c', ¬ Step 1 1 c c') → c.m.data = 1 * 1) ∧
      work 1 c ≤ 1 * (6 * 1) ∧ ∀ c', Step 1 1 c c' → work 1 c' = work 1 c + 1) := by
  have h : Reachable 1 1 _ :=
    (((((Relation.ReflTransGen.single
      (@Step.lock 1 1 init 0 0 _ _ Nat.one_pos rfl Nat.one_pos rfl
        (PthreadMutex.lock_eq_returns.mpr ⟨rfl, rfl⟩))).tail
      (@Step.borrow 1 1 _ 0 0 0 Nat.one_pos rfl rfl rfl)).tail
      (@Step.load 1 1 _ 0 0 0 false Nat.one_pos rfl rfl)).tail
      (@Step.store 1 1 _ 0 0 0 0 false Nat.one_pos rfl rfl)).tail
      (@Step.drop 1 1 _ 0 0 0 false Nat.one_pos rfl rfl)).tail
      (@Step.unlock 1 1 _ 0 0 0 false Nat.one_pos rfl rfl)
  refine ⟨_, h, fun c' hs => ?_, rfl, rfl, lots_and_lots_exact.1 _ _ _ h.mutex,
    lots_and_lots_exact.2 1 1 (by decide) _ h⟩
  cases hs with
  | lock ht hc hk => obtain rfl := Nat.lt_one_iff.mp ht; simp at hc; omega
  | borrow ht _ hp | load ht _ hp => obtain rfl := Nat.lt_one_iff.mp ht; simp at hp
  | store ht hc | drop ht hc | unlock ht hc => obtain rfl := Nat.lt_one_iff.mp ht; simp at hc

end Increment

end PinnedSync
