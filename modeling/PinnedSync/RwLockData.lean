import PinnedSync.RwLock

/-!
# What an `RwLock<T>` reader sees

`tests/rwlock.rs` (`test_rw_arc`) has a writer that leaves the data in a state no
reader should see while it holds the write guard,

    let mut lock = arc2.as_ref().write().unwrap();
    for _ in 0..10 { let tmp = *lock; *lock = -1; thread::yield_now(); *lock = tmp + 1; }

and readers that "try to catch the writer in the act": `assert!(*lock >= 0)`.
A writer that panics inside its section leaves such a state for good, and
`RwLockWriteGuard::drop` then sets the flag, so that every later `read` returns
`Err(PoisonError)`.

## The model

`RwLock` is the crate's lock with its flag (`PinnedSync.RwLock`), and the data is a
value of any type. A step is a step of the lock, or a write of any value through a
live write guard (`DerefMut`); reads through `Deref` change nothing. A ghost field
`clean` keeps the data as the last write guard whose drop left the flag clear left it
(at first, the initial value).

## What is proved

* `Step.rwlock`: every step is a step of `RwLock` or leaves the lock as it was.
* `ReadersAfter`: a read guard was granted after every poisoning drop so far, so the
  `Ok` or `Err` its `read` returned is what the flag says for as long as it lives.
* `readers_see_clean`: a live read guard whose `read` returned `Ok` sees the data as
  a write section left it when its guard was dropped without poisoning the lock, or
  the initial value; never a state from inside a section.
* `into_inner_clean`: with no guard left, `into_inner` and `get_mut` return `Ok` with
  that value exactly when `is_poisoned` is false, which is exactly when no write guard
  was dropped by an unwinding thread that was not unwinding when it took it.
-/

namespace PinnedSync

namespace RwLockData

open Poison Sys

/-! ### Read guards and the flag -/

/-- Every poisoning drop so far happened under a hold granted before each read guard. -/
def ReadersAfter (s : RwLock.State) : Prop :=
  ∀ n g, s.guards n = some g → g.mode = .read → ∀ e ∈ s.log, e.poisons = true → e.hold < n

theorem readersAfter_boxed : ReadersAfter RwLock.boxed := fun _ _ h => by simp [RwLock.boxed] at h

theorem ReadersAfter.step {s s' : RwLock.State} (hi : RwLock.Inv s) (hr : ReadersAfter s)
    (h : RwLock.Step s s') : ReadersAfter s' := by
  cases h with
  | grant _ hm =>
    intro n g hg hmode e he hp
    rcases RwLock.update_eq_some hg with ⟨rfl, -⟩ | ⟨-, hg⟩
    · exact hi.log_lt e he
    · exact hr n g hg hmode e he hp
  | @borrow n' g' hg' _ =>
    intro n g hg hmode e he hp
    have he' : e ∈ s.log := by
      rcases List.mem_cons.mp he with rfl | he
      · simp at hp
      · exact he
    rcases RwLock.update_eq_some hg with ⟨rfl, ho⟩ | ⟨-, hg⟩
    · cases Option.some.inj ho; exact hr n g' hg' hmode e he' hp
    · exact hr n g hg hmode e he' hp
  | dropRead | unlock =>
    intro n g hg
    rcases RwLock.update_eq_some hg with ⟨-, ho⟩ | ⟨-, hg⟩
    · cases ho
    · exact hr n g hg
  | @dropWrite n' g' hg' hw _ _ =>
    intro n g hg hmode
    rcases RwLock.update_eq_some hg with ⟨rfl, ho⟩ | ⟨hne, hg⟩
    · cases Option.some.inj ho; simp [hw] at hmode
    · simp [(hi.write_alone n' g' hg' hw).2 n hne] at hg
  | unwind => exact hr

theorem readersAfter_of_reachable {s : RwLock.State} (h : RwLock.Reachable s) :
    ReadersAfter s := by
  induction h with
  | refl => exact readersAfter_boxed
  | tail hr hst ih => exact ih.step (RwLock.Reachable.inv hr) hst

/-- **A read guard's answer stays true while it lives**: the flag is set iff its `read`
returned `Poisoned`. -/
theorem read_result_eq_flag {s : RwLock.State} (h : RwLock.Reachable s) {n : ℕ} {g : RwLock.Guard}
    (hg : s.guards n = some g) (hm : g.mode = .read) {p : Bool} (hp : .acquire n p ∈ s.log) :
    p = s.poison.failed := by
  have hc := (RwLock.Reachable.inv h).consistent
  rw [Bool.eq_iff_iff, hc.acquire_iff n p hp, hc.failed_iff]
  exact ⟨fun ⟨e, he, hpe, _⟩ => ⟨e, he, hpe⟩,
    fun ⟨e, he, hpe⟩ => ⟨e, he, hpe, readersAfter_of_reachable h n g hg hm e he hpe⟩⟩

/-! ### The data -/

/-- The lock, the data, and the ghost of the data as the last clean release left it. -/
structure State (α : Type) where
  /-- The lock, its flag and its guards. -/
  rw : RwLock.State
  /-- `data`. -/
  data : α
  /-- Ghost: the data as the last write guard whose drop left the flag clear left it. -/
  clean : α

/-- `RwLock::arc(v)`, before any thread uses it. -/
def init {α : Type} (v : α) : State α := ⟨RwLock.boxed, v, v⟩

variable {α : Type}

/-- One step of some thread. -/
inductive Step : State α → State α → Prop
  /-- A step of the lock other than `RwLockWriteGuard::drop`'s `poison.done` (which
  alone logs a `done`): a grant, a borrow, a read guard's drop, an unlock, the start
  or the end of an unwinding. -/
  | lock {s : State α} {rw' : RwLock.State} (h : RwLock.Step s.rw rw')
      (hd : ∀ n tok pan, rw'.log ≠ .done n tok pan :: s.rw.log) :
      Step s { s with rw := rw' }
  /-- `RwLockWriteGuard::drop`: `self.lock.poison.done(&self.poison)`; the section
  ends. -/
  | dropWrite {s : State α} {n : ℕ} {g : RwLock.Guard} (hg : s.rw.guards n = some g)
      (hm : g.mode = .write) (hs : g.stage = .live) (ht : RwLock.Free s.rw g.tid) :
      Step s ⟨{ s.rw with
          guards := Function.update s.rw.guards n (some { g with stage := .dropping })
          poison := s.rw.poison.done ⟨g.token⟩ (s.rw.panicking g.tid)
          log := .done n g.token (s.rw.panicking g.tid) :: s.rw.log },
        s.data,
        if (s.rw.poison.done ⟨g.token⟩ (s.rw.panicking g.tid)).failed then s.clean else s.data⟩
  /-- A write through a live write guard's `DerefMut`. -/
  | write {s : State α} {n : ℕ} {g : RwLock.Guard} (v : α) (hg : s.rw.guards n = some g)
      (hm : g.mode = .write) (hs : g.stage = .live) :
      Step s { s with data := v }

/-- The states some run reaches from `init v`. -/
def Reachable (v : α) (s : State α) : Prop := Relation.ReflTransGen Step (init v) s

/-- **The data lives in the lock**: each step is a step of `RwLock`, or leaves the lock
as it was. -/
theorem Step.rwlock {s s' : State α} (h : Step s s') : s'.rw = s.rw ∨ RwLock.Step s.rw s'.rw := by
  cases h with
  | lock h => exact .inr h
  | dropWrite hg hm hs ht => exact .inr (.dropWrite hg hm hs ht)
  | write => exact .inl rfl

theorem Reachable.rwlock {v : α} {s : State α} (h : Reachable v s) : RwLock.Reachable s.rw := by
  induction h with
  | refl => exact .refl
  | tail _ hst ih =>
    rcases hst.rwlock with he | hs
    · exact he ▸ ih
    · exact ih.tail hs

/-- A step of the lock that drops no write guard leaves the flag, and every live write
guard, as they were. -/
theorem lock_keeps {s s' : RwLock.State} (h : RwLock.Step s s')
    (hd : ∀ n tok pan, s'.log ≠ .done n tok pan :: s.log) :
    s'.poison = s.poison ∧
      ∀ n g, s.guards n = some g → g.mode = .write → g.stage = .live → s'.guards n = some g := by
  cases h with
  | grant _ hm => exact ⟨rfl, fun n g hg hw _ => by simp [hm.read_of_some hg] at hw⟩
  | @borrow n' g' hg' hs' =>
    refine ⟨rfl, fun n g hg _ hs => ?_⟩
    have hn : n ≠ n' := by
      rintro rfl
      cases Option.some.inj (hg.symm.trans hg')
      simp [hs'] at hs
    simpa [Function.update_noteq hn] using hg
  | @dropRead n' g' hg' hm' _ _ =>
    refine ⟨rfl, fun n g hg hw _ => ?_⟩
    have hn : n ≠ n' := by
      rintro rfl
      cases Option.some.inj (hg.symm.trans hg')
      simp [hm'] at hw
    simpa [Function.update_noteq hn] using hg
  | dropWrite => exact absurd rfl (hd _ _ _)
  | @unlock n' g' hg' hs' =>
    refine ⟨rfl, fun n g hg _ hs => ?_⟩
    have hn : n ≠ n' := by
      rintro rfl
      cases Option.some.inj (hg.symm.trans hg')
      simp [hs'] at hs
    simpa [Function.update_noteq hn] using hg
  | unwind => exact ⟨rfl, fun _ _ hg _ _ => hg⟩

/-- With the flag clear and no write guard live, the data is what the last clean
release left. -/
def Clean (s : State α) : Prop :=
  s.rw.poison.failed = false →
    (∀ n g, s.rw.guards n = some g → g.mode = .write → g.stage ≠ .live) → s.data = s.clean

theorem Clean.step {s s' : State α} (hc : Clean s) (h : Step s s') : Clean s' := by
  cases h with
  | lock h hd =>
    obtain ⟨hp, hkeep⟩ := lock_keeps h hd
    intro hf hno
    exact hc (hp ▸ hf) fun n g hg hw hs => hno n g (hkeep n g hg hw hs) hw hs
  | dropWrite => exact fun hf _ => (if_neg (ne_true_of_eq_false hf)).symm
  | write _ hg hm hs => exact fun _ hno => absurd hs (hno _ _ hg hm)

theorem Reachable.clean {v : α} {s : State α} (h : Reachable v s) : Clean s := by
  induction h with
  | refl => exact fun _ _ => rfl
  | tail _ hst ih => exact ih.step hst

/-- **Readers see only what a section left.** In every run of threads that read and
write an `RwLock<T>` through its guards (any values written, any unwinding, any
interleaving): a live read guard whose `read` returned `Ok` sees the data as the last
write guard dropped without poisoning the lock left it (the initial value if there was
none), never a value written inside a section; its `Ok` stays true while it lives;
and with the flag clear and no write guard live, the data is that value too. -/
theorem readers_see_clean {v : α} {s : State α} (h : Reachable v s) :
    (∀ n g, s.rw.guards n = some g → g.mode = .read → g.stage = .live →
      .acquire n false ∈ s.rw.log → s.rw.poison.failed = false ∧ s.data = s.clean) ∧
    (s.rw.poison.failed = false →
      (∀ n g, s.rw.guards n = some g → g.mode = .write → g.stage ≠ .live) → s.data = s.clean) := by
  have hc := h.clean
  have hrw := h.rwlock
  refine ⟨fun n g hg hm _ hok => ?_, hc⟩
  have hf := (read_result_eq_flag hrw hg hm hok).symm
  refine ⟨hf, hc hf fun k x hx hw _ => ?_⟩
  have hkn : n ≠ k := by
    rintro rfl
    cases Option.some.inj (hg.symm.trans hx)
    simp [hm] at hw
  simp [(RwLock.Reachable.inv hrw |>.write_alone k x hx hw).2 n hkn] at hg

/-- Thread `0` takes the write lock, writes `5` and drops its guard, not unwinding: one
section, finished clean, and no guard left. -/
theorem section_finished :
    ∃ s : State ℤ, Reachable 0 s ∧ (∀ n, s.rw.guards n = none) ∧ s.rw.acquired = 1 ∧
      s.rw.poison = Flag.new ∧ s.rw.panicking = (fun _ => false) ∧ s.data = 5 ∧
      s.clean = 5 := by
  have h : Reachable (0 : ℤ) _ :=
    ((((Relation.ReflTransGen.single
      (@Step.lock ℤ (init 0) _
        (@RwLock.Step.grant _ 0 .write (fun _ _ hg => by simp [init, RwLock.boxed] at hg)
          fun _ => rfl)
        fun _ _ _ he => List.cons_ne_self _ _ he.symm)).tail
      (@Step.lock ℤ _ _ (@RwLock.Step.borrow _ 0 _ rfl rfl) fun _ _ _ he => by simp at he)).tail
      (@Step.write ℤ _ 0 _ 5 rfl rfl rfl)).tail
      (@Step.dropWrite ℤ _ 0 _ rfl rfl rfl fun n _ hg _ => by
        by_cases hn : n = 0 <;> simp [Function.update, hn, init, RwLock.boxed] at hg
        exact hg ▸ rfl)).tail
      (@Step.lock ℤ _ _ (@RwLock.Step.unlock _ 0 _ rfl rfl)
        fun _ _ _ he => List.cons_ne_self _ _ he.symm)
  refine ⟨_, h, fun n => ?_, rfl, rfl, rfl, rfl, rfl⟩
  by_cases hn : n = 0 <;> simp [Function.update, hn, init, RwLock.boxed]

/-- After that section, thread `1` takes a read guard, which comes back `Ok`. -/
theorem readers_see_clean_section :
    ∃ s : State ℤ, Reachable 0 s ∧ s.rw.guards 1 = some ⟨1, .read, false, .live⟩ ∧
      .acquire 1 false ∈ s.rw.log ∧ s.clean = 5 ∧
      ((∀ n g, s.rw.guards n = some g → g.mode = .read → g.stage = .live →
        .acquire n false ∈ s.rw.log → s.rw.poison.failed = false ∧ s.data = s.clean) ∧
      (s.rw.poison.failed = false →
        (∀ n g, s.rw.guards n = some g → g.mode = .write → g.stage ≠ .live) →
          s.data = s.clean)) := by
  obtain ⟨s, h, hno, hacq, hp, hpan, -, hc⟩ := section_finished
  have h' := (h.tail (@Step.lock ℤ _ _
      (@RwLock.Step.grant _ 1 .read (fun n _ hg => by simp [hno n] at hg)
        fun n _ hg => by simp [hno n] at hg)
      fun _ _ _ he => List.cons_ne_self _ _ he.symm)).tail
    (@Step.lock ℤ _ _ (@RwLock.Step.borrow _ 1 ⟨1, .read, false, .granted⟩
        (by rw [hacq]; exact Function.update_same 1 _ s.rw.guards) rfl)
      fun _ _ _ he => by simp at he)
  exact ⟨_, h', by simp [hacq, hpan], by simp [hp, Flag.new], hc, readers_see_clean h'⟩

/-! ### Without a guard -/

/-- `RwLock::is_poisoned`: `self.poison.get()`. -/
def State.isPoisoned (s : State α) : Bool := s.rw.poison.get

/-- `RwLock::into_inner`, by a thread whose `thread::panicking()` is `panicking`:
`map_result(poison.borrow(), |_| data.into_inner())`. -/
def State.intoInner (s : State α) (panicking : Bool) : LockResult α :=
  mapResult (s.rw.poison.borrow panicking) fun _ => s.data

/-- `RwLock::get_mut`: `map_result(self.poison.borrow(), |_| data)`, the data by
reference. -/
def State.getMut (s : State α) (panicking : Bool) : LockResult α :=
  mapResult (s.rw.poison.borrow panicking) fun _ => s.data

theorem State.intoInner_eq (s : State α) (p : Bool) :
    s.intoInner p = if s.isPoisoned then .poisoned s.data else .ok s.data := by
  unfold State.intoInner State.isPoisoned Flag.borrow
  split <;> rfl

/-- **`into_inner` and `get_mut` return what a section left.** In every run of threads
that read and write an `RwLock<T>` through its guards (any values, any unwinding, any
interleaving), once no guard is left (as `into_inner` and `get_mut` need, by
ownership): `is_poisoned` is true exactly when a write guard taken while not
unwinding was dropped while unwinding, and `into_inner` and `get_mut` return `Err`
with the data when it is, and otherwise `Ok` with the data as the last write guard
dropped without poisoning the lock left it (the initial value if there was none). -/
theorem into_inner_clean {v : α} {s : State α} (h : Reachable v s)
    (hno : ∀ n, s.rw.guards n = none) (pan : Bool) :
    (s.isPoisoned = true ↔ ∃ e ∈ s.rw.log, e.poisons = true) ∧
    s.intoInner pan = (if s.isPoisoned then .poisoned s.data else .ok s.clean) ∧
    s.getMut pan = (if s.isPoisoned then .poisoned s.data else .ok s.clean) := by
  have hd : s.rw.poison.failed = false → s.data = s.clean :=
    fun hf => h.clean hf fun n g hg => by simp [hno n] at hg
  have hio : s.intoInner pan = (if s.isPoisoned then .poisoned s.data else .ok s.clean) := by
    rw [State.intoInner_eq]
    cases hp : s.isPoisoned
    · simp [hd (by simpa [State.isPoisoned, Flag.get] using hp)]
    · simp
  exact ⟨(RwLock.Reachable.inv h.rwlock).consistent.failed_iff, hio, hio⟩

/-- After that section, `into_inner` and `get_mut` return `Ok` with what it wrote. -/
theorem into_inner_clean_section :
    ∃ s : State ℤ, Reachable 0 s ∧ (∀ n, s.rw.guards n = none) ∧ s.isPoisoned = false ∧
      s.clean = 5 ∧
      ((s.isPoisoned = true ↔ ∃ e ∈ s.rw.log, e.poisons = true) ∧
      s.intoInner false = (if s.isPoisoned then .poisoned s.data else .ok s.clean) ∧
      s.getMut false = (if s.isPoisoned then .poisoned s.data else .ok s.clean)) := by
  obtain ⟨s, h, hno, -, hp, -, -, hc⟩ := section_finished
  exact ⟨s, h, hno, by simp [State.isPoisoned, hp, Flag.get, Flag.new], hc,
    into_inner_clean h hno false⟩

end RwLockData

end PinnedSync
