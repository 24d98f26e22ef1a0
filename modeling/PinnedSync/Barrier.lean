import Mathlib.Logic.Relation
import Mathlib.Order.Interval.Finset.Nat
import Mathlib.Data.Nat.Defs

/-!
# `Barrier`

`Barrier::wait`:

    let mut lock = self.lock().lock().unwrap();
    let local_gen = lock.generation_id;
    lock.count += 1;
    if lock.count < self.num_threads {
        while local_gen == lock.generation_id && lock.count < self.num_threads {
            lock = self.cvar().wait(lock).unwrap();
        }
        BarrierWaitResult(false)
    } else {
        lock.count = 0;
        lock.generation_id = lock.generation_id.wrapping_add(1);
        self.cvar().notify_all();
        BarrierWaitResult(true)
    }

## The model

Every access to `BarrierState` happens with the barrier's mutex held, and
`Mutex.one_holder` shows one thread holds it at a time; `cvar.wait` releases it and
sleeps in one step (`Mutex.Step.wait`), and `notify_all` runs with it held. So a
`Step` is one whole critical section: an arrival, up to its first `cvar.wait` or to
its return as the leader; the loop's check after a wakeup; or a wakeup, by the
leader's `notify_all` or spurious. `PinnedSync.BarrierWait` runs `wait` on the
mutex's own steps and proves that this model is what those runs do.
`num_threads` is `N` and `usize` has `w` bits.
A ghost counter numbers the arrivals `1, 2, …` in the order of their sections, and
each thread keeps the number of its arrival.

## What is proved

* `barrier_rounds`: after `a` arrivals, `count = a % N` and
  `generation_id = a / N % 2 ^ w`; arrival `a` returns `leader = true` iff `N ∣ a`;
  and an arrival that is not the leader returns only once arrival `N * ⌈a / N⌉`, the
  last of its round, has run.
* `sleepers_current`: every thread asleep in `cvar.wait` has `local_gen` equal to
  `generation_id`, and arrived in the current round if its own round began fewer
  than `2 ^ w` rounds ago; a step that changes `generation_id` leaves no thread
  asleep; and the sleepers that arrived in the current round are at most `count`.
* `stale_waiter_sleeps_uncounted`: with three threads and `N = 2`, a thread notified at
  the end of its round that checks the loop only after `2 ^ 64` more rounds finds
  `generation_id` back at its `local_gen` and sleeps again, with `count = 0`.
-/

namespace PinnedSync

namespace Barrier

/-- Where a thread stands in `Barrier::wait`: `a` numbers its arrival, `localGen` is
its `local_gen`. -/
inductive Pc where
  /-- Not in `wait`. -/
  | idle
  /-- Blocked in `cvar.wait`, not notified. -/
  | sleeping (localGen a : ℕ)
  /-- Woken, by `notify_all` or spuriously; it checks the loop once it has the lock. -/
  | woken (localGen a : ℕ)
  /-- `wait` returned `BarrierWaitResult(leader)`. -/
  | returned (a : ℕ) (leader : Bool)
  deriving DecidableEq, Repr

namespace Pc

/-- What `notify_all` does to the thread. -/
def notify : Pc → Pc
  | sleeping g a => woken g a
  | p => p

/-- The thread's arrival. -/
def arrival : Pc → Option ℕ
  | idle => none
  | sleeping _ a | woken _ a | returned a _ => some a

/-- The thread is not in `wait`, so it may call it. -/
def outside : Pc → Bool
  | idle | returned _ _ => true
  | sleeping _ _ | woken _ _ => false

@[simp] theorem notify_ne_sleeping (p : Pc) (g a : ℕ) : p.notify ≠ sleeping g a := by
  cases p <;> simp [notify]

@[simp] theorem arrival_notify (p : Pc) : p.notify.arrival = p.arrival := by
  cases p <;> rfl

theorem notify_eq_woken {p : Pc} {g a : ℕ} :
    p.notify = woken g a ↔ p = sleeping g a ∨ p = woken g a := by
  cases p <;> simp [notify]

theorem notify_eq_returned {p : Pc} {a : ℕ} {b : Bool} :
    p.notify = returned a b ↔ p = returned a b := by
  cases p <;> simp [notify]

end Pc

/-- `BarrierState` (`count`, `generation_id`), the threads, and the ghost count of
arrivals. -/
structure State where
  /-- `count`. -/
  count : ℕ
  /-- `generation_id`. -/
  generationId : ℕ
  /-- Where each thread stands. -/
  pc : ℕ → Pc
  /-- The arrivals so far. -/
  arrivals : ℕ

/-- `Barrier::boxed(n)`, before any thread calls `wait`. -/
def init : State := ⟨0, 0, fun _ => .idle, 0⟩

variable (N w : ℕ)

/-- One critical section, or one wakeup. -/
inductive Step : State → State → Prop
  /-- An arrival with `count < num_threads` after `count += 1`: the loop's check
  passes at once and the thread sleeps. -/
  | arrive {s : State} {t : ℕ} (hp : (s.pc t).outside) (hlt : s.count + 1 < N) :
      Step s { s with
        count := s.count + 1
        pc := Function.update s.pc t (.sleeping s.generationId (s.arrivals + 1))
        arrivals := s.arrivals + 1 }
  /-- The arrival that fills the round: `count = 0`, `generation_id.wrapping_add(1)`,
  `notify_all`, and `BarrierWaitResult(true)`. -/
  | lead {s : State} {t : ℕ} (hp : (s.pc t).outside) (hge : ¬ s.count + 1 < N) :
      Step s { s with
        count := 0
        generationId := (s.generationId + 1) % 2 ^ w
        pc := Function.update (fun u => (s.pc u).notify) t (.returned (s.arrivals + 1) true)
        arrivals := s.arrivals + 1 }
  /-- A spurious wakeup. -/
  | spurious {s : State} {t g a : ℕ} (hp : s.pc t = .sleeping g a) :
      Step s { s with pc := Function.update s.pc t (.woken g a) }
  /-- Back from `cvar.wait` with the lock, the loop's check: wait again, or return
  `BarrierWaitResult(false)`. -/
  | recheck {s : State} {t g a : ℕ} (hp : s.pc t = .woken g a) :
      Step s { s with
        pc := Function.update s.pc t
          (if g = s.generationId ∧ s.count < N then .sleeping g a else .returned a false) }

/-- The states some run reaches from `init`. -/
def Reachable (s : State) : Prop := Relation.ReflTransGen (Step N w) init s

/-! ### Arithmetic of one arrival -/

theorem succ_mod_div_of_lt {n : ℕ} (h : n % N + 1 < N) :
    (n + 1) % N = n % N + 1 ∧ (n + 1) / N = n / N := by
  have e := Nat.mod_add_div n N
  have := (Nat.div_mod_unique (by omega : 0 < N)).mpr
    (⟨by omega, h⟩ : n % N + 1 + N * (n / N) = n + 1 ∧ n % N + 1 < N)
  exact ⟨this.2, this.1⟩

theorem succ_mod_div_of_eq {n : ℕ} (h : n % N + 1 = N) :
    (n + 1) % N = 0 ∧ (n + 1) / N = n / N + 1 := by
  have hN : 0 < N := by omega
  have e := Nat.mod_add_div n N
  have := (Nat.div_mod_unique hN).mpr
    (⟨by rw [Nat.mul_succ]; omega, hN⟩ : 0 + N * (n / N + 1) = n + 1 ∧ 0 < N)
  exact ⟨this.2, this.1⟩

/-- A waiter whose `local_gen` is no longer its round's generation returns after the
round's last arrival, `N * ⌈a / N⌉`. -/
theorem round_done {a n : ℕ} (hN : 0 < N) (ha : 0 < a) (hle : a ≤ n)
    (hne : (a - 1) / N ≠ n / N) : N * ((a + N - 1) / N) ≤ n := by
  have h1 : (a - 1) / N ≤ n / N := Nat.div_le_div_right (by omega)
  have h2 : (a + N - 1) / N = (a - 1) / N + 1 := by
    rw [show a + N - 1 = a - 1 + N by omega, Nat.add_div_right _ hN]
  calc N * ((a + N - 1) / N) ≤ N * (n / N) := Nat.mul_le_mul_left _ (by omega)
    _ ≤ n := Nat.mul_div_le n N

/-! ### The invariant -/

/-- What holds in every reachable state. -/
structure Inv (s : State) : Prop where
  count_eq : s.count = s.arrivals % N
  gen_eq : s.generationId = s.arrivals / N % 2 ^ w
  /-- A waiter's `local_gen` is the generation of its arrival's round, and it was not
  the round's last arrival. -/
  waiting : ∀ t g a, (s.pc t = .sleeping g a ∨ s.pc t = .woken g a) →
    g = (a - 1) / N % 2 ^ w ∧ ¬ N ∣ a
  /-- A sleeper waits on the current generation. -/
  asleep : ∀ t g a, s.pc t = .sleeping g a → g = s.generationId
  leader_iff : ∀ t a b, s.pc t = .returned a b → (b = true ↔ N ∣ a)
  returned_after : ∀ t a, s.pc t = .returned a false → N * ((a + N - 1) / N) ≤ s.arrivals
  arrival_le : ∀ t a, (s.pc t).arrival = some a → 0 < a ∧ a ≤ s.arrivals
  /-- Each arrival is one thread's. -/
  unique : ∀ t u a, (s.pc t).arrival = some a → (s.pc u).arrival = some a → t = u

theorem inv_init : Inv N w init where
  count_eq := rfl
  gen_eq := by simp [init]
  waiting _ _ _ h := by simp [init] at h
  asleep _ _ _ h := by simp [init] at h
  leader_iff _ _ _ h := by simp [init] at h
  returned_after _ _ h := by simp [init] at h
  arrival_le _ _ h := by simp [init, Pc.arrival] at h
  unique _ _ _ h := by simp [init, Pc.arrival] at h

namespace Inv

variable {N w} {s : State}

/-- Thread `t` takes the next arrival's number and every other thread keeps its own. -/
theorem fresh (hi : Inv N w s) (pc : ℕ → Pc) (t : ℕ) (ht : (pc t).arrival = some (s.arrivals + 1))
    (ho : ∀ u, u ≠ t → (pc u).arrival = (s.pc u).arrival) :
    (∀ u a, (pc u).arrival = some a → 0 < a ∧ a ≤ s.arrivals + 1) ∧
    ∀ u v a, (pc u).arrival = some a → (pc v).arrival = some a → u = v := by
  have old : ∀ u a, u ≠ t → (pc u).arrival = some a → 0 < a ∧ a ≤ s.arrivals :=
    fun u a hu h => hi.arrival_le u a ((ho u hu).symm.trans h)
  refine ⟨fun u a h => ?_, fun u v a hu hv => ?_⟩
  · by_cases hut : u = t
    · subst hut; rw [ht] at h; cases h; omega
    · have := old u a hut h; omega
  · by_cases hut : u = t <;> by_cases hvt : v = t
    · rw [hut, hvt]
    · subst hut; rw [ht] at hu; cases hu; have := old v _ hvt hv; omega
    · subst hvt; rw [ht] at hv; cases hv; have := old u _ hut hu; omega
    · exact hi.unique u v a ((ho u hut).symm.trans hu) ((ho v hvt).symm.trans hv)

theorem arrive (hi : Inv N w s) {t : ℕ} (hlt : s.count + 1 < N) :
    Inv N w { s with
      count := s.count + 1
      pc := Function.update s.pc t (.sleeping s.generationId (s.arrivals + 1))
      arrivals := s.arrivals + 1 } := by
  obtain ⟨hmod, hdiv⟩ := succ_mod_div_of_lt N (hi.count_eq ▸ hlt)
  have hf := hi.fresh (Function.update s.pc t (.sleeping s.generationId (s.arrivals + 1))) t
    (by simp [Pc.arrival]) fun u hu => by simp [Function.update_noteq hu]
  refine ⟨by simp [hmod, hi.count_eq], by simp [hdiv, hi.gen_eq], fun u g a h => ?_,
    fun u g a h => ?_, fun u a b h => ?_, fun u a h => ?_, hf.1, hf.2⟩
  all_goals by_cases hut : u = t
  · subst hut
    simp only [Function.update_same, Pc.sleeping.injEq, reduceCtorEq, or_false] at h
    obtain ⟨rfl, rfl⟩ := h
    refine ⟨by simp [hi.gen_eq], fun hd => ?_⟩
    rw [Nat.dvd_iff_mod_eq_zero, hmod] at hd
    omega
  · exact hi.waiting u g a (by simpa [Function.update_noteq hut] using h)
  · subst hut; simp at h; exact h.1.symm
  · exact hi.asleep u g a (by simpa [Function.update_noteq hut] using h)
  · subst hut; simp at h
  · exact hi.leader_iff u a b (by simpa [Function.update_noteq hut] using h)
  · subst hut; simp at h
  · have := hi.returned_after u a (by simpa [Function.update_noteq hut] using h)
    simp only; omega

theorem lead (hN : 0 < N) (hi : Inv N w s) {t : ℕ} (hge : ¬ s.count + 1 < N) :
    Inv N w { s with
      count := 0
      generationId := (s.generationId + 1) % 2 ^ w
      pc := Function.update (fun u => (s.pc u).notify) t (.returned (s.arrivals + 1) true)
      arrivals := s.arrivals + 1 } := by
  have hc : s.arrivals % N + 1 = N := by
    have := Nat.mod_lt s.arrivals hN
    rw [hi.count_eq] at hge
    omega
  obtain ⟨hmod, hdiv⟩ := succ_mod_div_of_eq N hc
  have hf := hi.fresh (Function.update (fun u => (s.pc u).notify) t
    (.returned (s.arrivals + 1) true)) t (by simp [Pc.arrival])
    fun u hu => by simp [Function.update_noteq hu]
  refine ⟨hmod.symm, by simp [hdiv, hi.gen_eq, Nat.mod_add_mod], fun u g a h => ?_,
    fun u g a h => ?_, fun u a b h => ?_, fun u a h => ?_, hf.1, hf.2⟩
  all_goals by_cases hut : u = t
  · subst hut; simp at h
  · simp only [Function.update_noteq hut, Pc.notify_ne_sleeping, false_or,
      Pc.notify_eq_woken] at h
    exact hi.waiting u g a h
  · subst hut; simp at h
  · simp [Function.update_noteq hut] at h
  · subst hut
    simp only [Function.update_same, Pc.returned.injEq] at h
    obtain ⟨rfl, rfl⟩ := h
    simp [Nat.dvd_iff_mod_eq_zero, hmod]
  · exact hi.leader_iff u a b
      (Pc.notify_eq_returned.mp (by simpa [Function.update_noteq hut] using h))
  · subst hut; simp at h
  · have := hi.returned_after u a
      (Pc.notify_eq_returned.mp (by simpa [Function.update_noteq hut] using h))
    simp only; omega

/-- Thread `t` moves to `p` and keeps its arrival: the invariant holds again once `p`
keeps the clauses about one thread. -/
theorem update (hi : Inv N w s) (t : ℕ) (p : Pc) (hpa : p.arrival = (s.pc t).arrival)
    (hw : ∀ g a, (p = .sleeping g a ∨ p = .woken g a) → g = (a - 1) / N % 2 ^ w ∧ ¬ N ∣ a)
    (hs : ∀ g a, p = .sleeping g a → g = s.generationId)
    (hl : ∀ a b, p = .returned a b → (b = true ↔ N ∣ a))
    (hr : ∀ a, p = .returned a false → N * ((a + N - 1) / N) ≤ s.arrivals) :
    Inv N w { s with pc := Function.update s.pc t p } := by
  have hsame : ∀ u, (Function.update s.pc t p u).arrival = (s.pc u).arrival := fun u => by
    by_cases hut : u = t
    · subst hut; simpa using hpa
    · simp [Function.update_noteq hut]
  refine ⟨hi.count_eq, hi.gen_eq, fun u g a h => ?_, fun u g a h => ?_, fun u a b h => ?_,
    fun u a h => ?_, fun u a h => hi.arrival_le u a ((hsame u).symm.trans h),
    fun u v a hu hv => hi.unique u v a ((hsame u).symm.trans hu) ((hsame v).symm.trans hv)⟩ <;>
    simp only [Function.update_apply] at h <;> split_ifs at h
  · exact hw g a h
  · exact hi.waiting u g a h
  · exact hs g a h
  · exact hi.asleep u g a h
  · exact hl a b h
  · exact hi.leader_iff u a b h
  · exact hr a h
  · exact hi.returned_after u a h

/-- A sleeper woken, by a spurious wakeup. -/
theorem spurious (hi : Inv N w s) {t g a : ℕ} (hp : s.pc t = .sleeping g a) :
    Inv N w { s with pc := Function.update s.pc t (.woken g a) } := by
  refine hi.update t _ (by simp [hp, Pc.arrival]) (fun g' a' h => ?_) (fun _ _ h => by simp at h)
    (fun _ _ h => by simp at h) (fun _ h => by simp at h)
  simp only [reduceCtorEq, Pc.woken.injEq, false_or] at h
  obtain ⟨rfl, rfl⟩ := h
  exact hi.waiting t g a (.inl hp)

/-- The loop's check finds the same generation: the thread sleeps again. -/
theorem resleep (hi : Inv N w s) {t g a : ℕ} (hp : s.pc t = .woken g a)
    (hg : g = s.generationId) :
    Inv N w { s with pc := Function.update s.pc t (.sleeping g a) } := by
  refine hi.update t _ (by simp [hp, Pc.arrival]) (fun g' a' h => ?_)
    (fun g' a' h => by simp only [Pc.sleeping.injEq] at h; exact h.1 ▸ hg)
    (fun _ _ h => by simp at h) (fun _ h => by simp at h)
  simp only [Pc.sleeping.injEq, reduceCtorEq, or_false] at h
  obtain ⟨rfl, rfl⟩ := h
  exact hi.waiting t g a (.inr hp)

/-- The loop's check finds a new generation: `wait` returns `false`, after the last
arrival of the thread's round. -/
theorem leave (hN : 0 < N) (hi : Inv N w s) {t g a : ℕ} (hp : s.pc t = .woken g a)
    (hg : g ≠ s.generationId) :
    Inv N w { s with pc := Function.update s.pc t (.returned a false) } := by
  have hw := hi.waiting t g a (.inr hp)
  have hal := hi.arrival_le t a (by simp [hp, Pc.arrival])
  refine hi.update t _ (by simp [hp, Pc.arrival]) (fun _ _ h => by simp at h)
    (fun _ _ h => by simp at h) (fun a' b h => ?_) (fun a' h => ?_)
  · simp only [Pc.returned.injEq] at h
    obtain ⟨rfl, rfl⟩ := h
    simpa using hw.2
  · simp only [Pc.returned.injEq, and_true] at h
    subst h
    exact round_done N hN hal.1 hal.2 fun he => hg (by rw [hw.1, hi.gen_eq, he])

/-- **Every step keeps the invariant.** -/
theorem step (hN : 0 < N) {s' : State} (hi : Inv N w s) (h : Step N w s s') : Inv N w s' := by
  cases h with
  | arrive _ hlt => exact hi.arrive hlt
  | lead _ hge => exact hi.lead hN hge
  | spurious hp => exact hi.spurious hp
  | @recheck t g a hp =>
    have hcN : s.count < N := hi.count_eq ▸ Nat.mod_lt _ hN
    by_cases hg : g = s.generationId
    · rw [if_pos ⟨hg, hcN⟩]
      exact hi.resleep hp hg
    · rw [if_neg fun h => hg h.1]
      exact hi.leave hN hp hg

end Inv

theorem Reachable.inv (hN : 0 < N) {s : State} (h : Reachable N w s) : Inv N w s := by
  induction h with
  | refl => exact inv_init N w
  | tail _ hst ih => exact ih.step hN hst

/-! ### Rounds -/

/-- Only the loop's check makes a thread return `false`, and it takes no arrival. -/
theorem Step.arrivals_of_return {s s' : State} {t a : ℕ} (h : Step N w s s')
    (hne : s.pc t ≠ .returned a false) (he : s'.pc t = .returned a false) :
    s'.arrivals = s.arrivals := by
  cases h with
  | @arrive u _ _ =>
    by_cases htu : t = u
    · subst htu; simp at he
    · exact absurd (by simpa [Function.update_noteq htu] using he) hne
  | @lead u _ _ =>
    by_cases htu : t = u
    · subst htu; simp at he
    · exact absurd (by simpa [Function.update_noteq htu, Pc.notify_eq_returned] using he) hne
  | @spurious u _ _ _ =>
    by_cases htu : t = u
    · subst htu; simp at he
    · exact absurd (by simpa [Function.update_noteq htu] using he) hne
  | recheck _ => rfl

/-- **The rounds of `Barrier::wait`.** After `a` arrivals, `count = a % N < N` and
`generation_id = a / N % 2 ^ w`; arrival `a` returns `leader = true` iff `N ∣ a`; and
the step in which arrival `a` returns `false` runs once arrival `N * ⌈a / N⌉` has. -/
theorem barrier_rounds (hN : 0 < N) {s : State} (h : Reachable N w s) :
    s.count = s.arrivals % N ∧ s.count < N ∧ s.generationId = s.arrivals / N % 2 ^ w ∧
    (∀ t a b, s.pc t = .returned a b → (b = true ↔ N ∣ a)) ∧
    ∀ s' t a, Step N w s s' → s.pc t ≠ .returned a false → s'.pc t = .returned a false →
      N * ((a + N - 1) / N) ≤ s.arrivals := by
  have hi := h.inv N w hN
  refine ⟨hi.count_eq, hi.count_eq ▸ Nat.mod_lt _ hN, hi.gen_eq, hi.leader_iff,
    fun s' t a hst hne he => ?_⟩
  rw [← hst.arrivals_of_return N w hne he]
  exact (Reachable.inv N w hN (h.tail hst)).returned_after t a he

/-- The first round of a barrier of two: thread 0 arrives and sleeps, thread 2 leads
and returns `true`, and thread 0, woken, finds `generation_id` moved on and returns
`false`. -/
theorem barrier_rounds_first_round :
    ∃ s s', 0 < 2 ∧ Reachable 2 64 s ∧ s.pc 2 = .returned 2 true ∧ Step 2 64 s s' ∧
      s.pc 0 ≠ .returned 1 false ∧ s'.pc 0 = .returned 1 false ∧
      (s.count = s.arrivals % 2 ∧ s.count < 2 ∧ s.generationId = s.arrivals / 2 % 2 ^ 64 ∧
      (∀ t a b, s.pc t = .returned a b → (b = true ↔ 2 ∣ a)) ∧
      ∀ s' t a, Step 2 64 s s' → s.pc t ≠ .returned a false → s'.pc t = .returned a false →
        2 * ((a + 2 - 1) / 2) ≤ s.arrivals) :=
  have h := (Relation.ReflTransGen.single (@Step.arrive 2 64 init 0 rfl (by decide))).tail
    (@Step.lead 2 64 _ 2 rfl (by decide))
  ⟨_, _, by decide, h, rfl, @Step.recheck 2 64 _ 0 0 1 rfl, by decide, rfl,
    barrier_rounds 2 64 (by decide) h⟩

/-! ### Sleepers -/

namespace Inv

variable {N w} {s : State}

/-- A sleeper whose round began fewer than `2 ^ w` rounds ago arrived in the current
round: its `local_gen` and `generation_id` agree mod `2 ^ w`, and the rounds between
them are fewer than `2 ^ w`. -/
theorem sleeper_current (hi : Inv N w s) {t g a : ℕ}
    (hp : s.pc t = .sleeping g a) (hage : s.arrivals / N < (a - 1) / N + 2 ^ w) :
    s.arrivals - s.count < a := by
  have hw := hi.waiting t g a (.inl hp)
  have hal := hi.arrival_le t a (by simp [hp, Pc.arrival])
  have hle : (a - 1) / N ≤ s.arrivals / N := Nat.div_le_div_right (by omega)
  have hround : (a - 1) / N = s.arrivals / N := by
    have hmod : s.arrivals / N % 2 ^ w = (a - 1) / N % 2 ^ w := by
      rw [← hi.gen_eq, ← hi.asleep t g a hp, hw.1]
    have := Nat.eq_zero_of_dvd_of_lt
      (Nat.dvd_of_mod_eq_zero (Nat.sub_mod_eq_zero_of_mod_eq hmod)) (by omega)
    omega
  have hlow := hround ▸ Nat.mul_div_le (a - 1) N
  have := Nat.mod_add_div s.arrivals N
  rw [hi.count_eq]
  omega

/-- The sleepers that arrived in the current round are at most `count`: their arrivals
are distinct and among the last `count`. -/
theorem current_sleepers_le (hi : Inv N w s) (T : Finset ℕ)
    (hT : ∀ t ∈ T, ∃ g a, s.pc t = .sleeping g a ∧ s.arrivals - s.count < a) :
    T.card ≤ s.count := by
  have hc : s.count ≤ s.arrivals := hi.count_eq ▸ Nat.mod_le _ _
  have hmem : ∀ t ∈ T, ∃ a, (s.pc t).arrival = some a ∧ s.arrivals - s.count < a := by
    intro t ht
    obtain ⟨g, a, hp, hlt⟩ := hT t ht
    exact ⟨a, by simp [hp, Pc.arrival], hlt⟩
  calc T.card ≤ (Finset.Ioc (s.arrivals - s.count) s.arrivals).card := by
        refine Finset.card_le_card_of_injOn (fun t => ((s.pc t).arrival).getD 0)
          (fun t ht => ?_) fun t ht u hu htu => ?_
        · obtain ⟨a, ha, hlt⟩ := hmem t ht
          simp only [ha, Option.getD_some, Finset.mem_Ioc]
          exact ⟨hlt, (hi.arrival_le t a ha).2⟩
        · obtain ⟨a, ha, -⟩ := hmem t ht
          obtain ⟨b, hb, -⟩ := hmem u hu
          simp only [ha, hb, Option.getD_some] at htu
          exact hi.unique t u a ha (htu ▸ hb)
    _ = s.count := by rw [Nat.card_Ioc]; omega

end Inv

/-- An arrival that fills a round is the leader's, whose `notify_all` wakes every
sleeper. -/
theorem Step.no_sleeper_of_round {s s' : State} (hi : Inv N w s) (h : Step N w s s')
    (ha : s'.arrivals = s.arrivals + 1) (hd : N ∣ s'.arrivals) (t g a : ℕ) :
    s'.pc t ≠ .sleeping g a := by
  cases h with
  | arrive _ hlt =>
    rw [hi.count_eq] at hlt
    have := (succ_mod_div_of_lt N hlt).1
    have := Nat.mod_eq_zero_of_dvd hd
    simp only at this
    omega
  | @lead u _ _ =>
    by_cases htu : t = u
    · subst htu; simp
    · simp [Function.update_noteq htu]
  | spurious _ => simp at ha
  | recheck _ => simp at ha

/-- **Sleepers wait on the current generation.** Every thread asleep in `cvar.wait`
has `local_gen = generation_id`, and, if its round began fewer than `2 ^ w` rounds
ago (as every round has while fewer than `N * 2 ^ w` arrivals have run), it arrived in
the current round; the sleepers of the current round are at most `count`; and the
arrival that fills a round leaves no thread asleep. -/
theorem sleepers_current (hN : 0 < N) {s : State} (h : Reachable N w s) :
    (∀ t g a, s.pc t = .sleeping g a → g = s.generationId ∧
      (s.arrivals / N < (a - 1) / N + 2 ^ w → s.arrivals - s.count < a)) ∧
    (∀ T : Finset ℕ, (∀ t ∈ T, ∃ g a, s.pc t = .sleeping g a ∧ s.arrivals - s.count < a) →
      T.card ≤ s.count) ∧
    ∀ s', Step N w s s' → s'.arrivals = s.arrivals + 1 → N ∣ s'.arrivals →
      ∀ t g a, s'.pc t ≠ .sleeping g a := by
  have hi := h.inv N w hN
  exact ⟨fun t g a hp => ⟨hi.asleep t g a hp, hi.sleeper_current hp⟩,
    hi.current_sleepers_le, fun s' hst => hst.no_sleeper_of_round N w hi⟩

/-- One arrival into a barrier of two: thread 0 sleeps. -/
theorem sleepers_current_one_arrival :
    0 < 2 ∧ Reachable 2 64 { init with
      count := 1
      pc := Function.update init.pc 0 (.sleeping 0 1)
      arrivals := 1 } ∧
    ((∀ t g a, Function.update init.pc 0 (.sleeping 0 1) t = .sleeping g a → g = 0 ∧
      (1 / 2 < (a - 1) / 2 + 2 ^ 64 → 1 - 1 < a)) ∧
    (∀ T : Finset ℕ, (∀ t ∈ T, ∃ g a,
      Function.update init.pc 0 (.sleeping 0 1) t = .sleeping g a ∧ 1 - 1 < a) → T.card ≤ 1) ∧
    ∀ s', Step 2 64 { init with
      count := 1
      pc := Function.update init.pc 0 (.sleeping 0 1)
      arrivals := 1 } s' → s'.arrivals = 1 + 1 → 2 ∣ s'.arrivals →
      ∀ t g a, s'.pc t ≠ .sleeping g a) :=
  have h : Reachable 2 64 { init with
      count := 1
      pc := Function.update init.pc 0 (.sleeping 0 1)
      arrivals := 1 } := .single (@Step.arrive 2 64 init 0 rfl (by decide))
  ⟨by decide, h, sleepers_current 2 64 (by decide) h⟩

/-! ### A waiter outlived by `2 ^ 64` rounds -/

/-- The run of `stale_waiter_sleeps_uncounted` after its round `j`: thread 0 (arrival 1)
was notified by the leader of round 0 and has not checked the loop since; threads 1
and 2 are outside `wait`. -/
structure Stale (j : ℕ) (s : State) : Prop where
  count : s.count = 0
  gen : s.generationId = (j + 1) % 2 ^ 64
  arrivals : s.arrivals = 2 * (j + 1)
  waiter : s.pc 0 = .woken 0 1
  one : (s.pc 1).outside
  two : (s.pc 2).outside

/-- Round 0: thread 0 arrives and sleeps, thread 2 leads. -/
theorem stale_start : ∃ s, Reachable 2 64 s ∧ Stale 0 s :=
  ⟨_, (Relation.ReflTransGen.single (@Step.arrive 2 64 init 0 rfl (by decide))).tail
      (@Step.lead 2 64 _ 2 rfl (by decide)),
    ⟨rfl, rfl, rfl, rfl, rfl, rfl⟩⟩

/-- One more round: thread 1 arrives and sleeps, thread 2 leads, thread 1 returns. -/
theorem stale_round {j : ℕ} {s : State} (h : Reachable 2 64 s) (hs : Stale j s) :
    ∃ s', Reachable 2 64 s' ∧ Stale (j + 1) s' := by
  have hg : s.generationId ≠ (s.generationId + 1) % 2 ^ 64 := by
    rw [hs.gen]; omega
  refine ⟨_, ((h.tail (@Step.arrive 2 64 s 1 hs.one (by rw [hs.count]; decide))).tail
      (@Step.lead 2 64 _ 2 hs.two (by simp [hs.count]))).tail
      (@Step.recheck 2 64 _ 1 s.generationId (s.arrivals + 1) rfl), ?_⟩
  refine ⟨rfl, ?_, ?_, ?_, ?_, rfl⟩
  · show (s.generationId + 1) % 2 ^ 64 = _
    rw [hs.gen]; omega
  · show s.arrivals + 1 + 1 = _
    rw [hs.arrivals]; omega
  · simp [hs.waiter, Pc.notify]
  · simp [hg, Pc.outside, -Nat.reducePow]

theorem stale_after (j : ℕ) : ∃ s, Reachable 2 64 s ∧ Stale j s := by
  induction j with
  | zero => exact stale_start
  | succ j ih =>
    obtain ⟨s, h, hs⟩ := ih
    exact stale_round h hs

/-- **A stale waiter sleeps uncounted.** In a barrier of two, thread 0 arrives and sleeps
and is notified by the round's leader, but checks the loop only after `2 ^ 64 - 1` more
rounds of threads 1 and 2: `generation_id` has wrapped back to its `local_gen` and
`count = 0 < N`, so it sleeps again, although its round is long over and `count` counts
no sleeper. -/
theorem stale_waiter_sleeps_uncounted :
    ∃ s, Reachable 2 64 s ∧ s.pc 0 = .sleeping 0 1 ∧ s.count = 0 ∧ s.arrivals = 2 ^ 65 := by
  obtain ⟨s, h, hs⟩ := stale_after (2 ^ 64 - 1)
  have hg : 0 = s.generationId ∧ s.count < 2 := ⟨by rw [hs.gen]; omega, by rw [hs.count]; decide⟩
  refine ⟨_, h.tail (@Step.recheck 2 64 s 0 0 1 hs.waiter), by simp [hg], hs.count, ?_⟩
  show s.arrivals = _
  rw [hs.arrivals]; omega

end Barrier

end PinnedSync
