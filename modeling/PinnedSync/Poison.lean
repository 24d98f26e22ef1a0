import PinnedSync.Basic

/-!
# Poisoning

`sys_common::poison`: one `Flag` per lock, and a `Guard` (the poison token) per
exclusive acquisition.

    borrow: let ret = Guard { panicking: thread::panicking() };
            if self.get() { Err(PoisonError::new(ret)) } else { Ok(ret) }
    done:   if !guard.panicking && thread::panicking() { self.failed.store(true) }

## The model

`thread::panicking()` is the calling thread's own state, so it is an argument of
`Flag.borrow` and `Flag.done`. To state *when* a lock is poisoned, the lock models
keep a ghost log of the flag operations (`Event`), newest first, each under the
number of the native acquisition it happened in: the lock order. `Consistent` is
the poisoning law over such a log: the flag is set iff some release poisoned it
(an exclusive guard dropped by an unwinding thread that was not unwinding when it
acquired), and an acquisition reports `Poisoned` iff such a release happened under
an earlier native acquisition.

## What is proved

`Consistent.acquire` and `Consistent.done` are the two ways a log grows; the Mutex
and RwLock models show that each of their steps is one of them, under the side
conditions these lemmas ask for, which is where mutual exclusion comes in.
-/

namespace PinnedSync

namespace Poison

/-- `poison::Guard`: whether the thread was unwinding when it acquired. -/
structure Guard where
  /-- `panicking`. -/
  panicking : Bool
  deriving DecidableEq, Repr

/-- `poison::Flag`. -/
structure Flag where
  /-- `failed: AtomicBool`. -/
  failed : Bool
  deriving DecidableEq, Repr

namespace Flag

/-- `Flag::new()`. -/
def new : Flag := ⟨false⟩

/-- `Flag::get`. -/
def get (f : Flag) : Bool := f.failed

/-- `Flag::borrow`, called by a thread whose `thread::panicking()` is `panicking`. -/
def borrow (f : Flag) (panicking : Bool) : LockResult Guard :=
  let ret : Guard := ⟨panicking⟩
  if f.get then .poisoned ret else .ok ret

/-- `Flag::done`, called by a thread whose `thread::panicking()` is `panicking`. -/
def done (f : Flag) (guard : Guard) (panicking : Bool) : Flag :=
  if !guard.panicking && panicking then ⟨true⟩ else f

@[simp] theorem borrow_inner (f : Flag) (p : Bool) : (f.borrow p).inner = ⟨p⟩ := by
  unfold borrow; split <;> rfl

@[simp] theorem borrow_isPoisoned (f : Flag) (p : Bool) : (f.borrow p).isPoisoned = f.failed := by
  unfold borrow get; split <;> simp_all

@[simp] theorem done_failed (f : Flag) (g : Guard) (p : Bool) :
    (f.done g p).failed = (f.failed || (!g.panicking && p)) := by
  unfold done; split <;> simp_all

end Flag

/-- `map_result`. -/
def mapResult {α β : Type} (result : LockResult α) (f : α → β) : LockResult β :=
  match result with
  | .ok t => .ok (f t)
  | .poisoned e => .poisoned (f e)

@[simp] theorem mapResult_inner {α β : Type} (r : LockResult α) (f : α → β) :
    (mapResult r f).inner = f r.inner := by
  cases r <;> rfl

@[simp] theorem mapResult_isPoisoned {α β : Type} (r : LockResult α) (f : α → β) :
    (mapResult r f).isPoisoned = r.isPoisoned := by
  cases r <;> rfl

/-! ### The ghost log -/

/-- A flag operation; `hold` numbers the native acquisition it happened under. -/
inductive Event where
  /-- An acquisition (`Flag::borrow`, or `repoison` after a condvar wait) that came
  back `Poisoned` or not. -/
  | acquire (hold : ℕ) (poisoned : Bool)
  /-- `Flag::done` for a guard with token `token`, by a thread whose
  `thread::panicking()` is `panicking`. -/
  | done (hold : ℕ) (token panicking : Bool)
  deriving DecidableEq, Repr

namespace Event

/-- The native acquisition the operation happened under. -/
def hold : Event → ℕ
  | acquire n _ => n
  | done n _ _ => n

/-- Whether the operation is a release that poisons: the guard was taken by a thread
that was not unwinding, and is dropped by it while unwinding. -/
def poisons : Event → Bool
  | acquire _ _ => false
  | done _ token panicking => !token && panicking

@[simp] theorem hold_acquire (n : ℕ) (p : Bool) : (acquire n p).hold = n := rfl
@[simp] theorem hold_done (n : ℕ) (t p : Bool) : (done n t p).hold = n := rfl
@[simp] theorem poisons_acquire (n : ℕ) (p : Bool) : (acquire n p).poisons = false := rfl
@[simp] theorem poisons_done (n : ℕ) (t p : Bool) : (done n t p).poisons = (!t && p) := rfl

end Event

/-- A poisoning release happened under a native acquisition before the `n`th. -/
def PoisonedBefore (log : List Event) (n : ℕ) : Prop :=
  ∃ e ∈ log, e.poisons = true ∧ e.hold < n

/-- **The poisoning law** over a log: the flag is set iff some release poisoned it,
and every acquisition reported `Poisoned` iff a poisoning release happened under an
earlier native acquisition. -/
structure Consistent (failed : Bool) (log : List Event) : Prop where
  failed_iff : failed = true ↔ ∃ e ∈ log, e.poisons = true
  acquire_iff : ∀ n p, Event.acquire n p ∈ log → (p = true ↔ PoisonedBefore log n)

theorem consistent_nil : Consistent false [] := ⟨by simp, by simp⟩

theorem PoisonedBefore.cons_of_not_poisons {log : List Event} {e : Event} {n : ℕ}
    (he : e.poisons = false) : PoisonedBefore (e :: log) n ↔ PoisonedBefore log n := by
  simp [PoisonedBefore, he]

/-- An acquisition under native acquisition `n` reads the flag; the log stays
consistent when every poisoning release so far happened under an earlier one. -/
theorem Consistent.acquire {f : Bool} {log : List Event} {n : ℕ} (h : Consistent f log)
    (hlt : ∀ e ∈ log, e.poisons = true → e.hold < n) :
    Consistent f (.acquire n f :: log) := by
  refine ⟨by simpa using h.failed_iff, fun m p hm => ?_⟩
  rw [PoisonedBefore.cons_of_not_poisons (e := .acquire n f) rfl]
  rcases List.mem_cons.mp hm with hm | hm
  · cases hm
    exact h.failed_iff.trans ⟨fun ⟨e, he, hp⟩ => ⟨e, he, hp, hlt e he hp⟩,
      fun ⟨e, he, hp, _⟩ => ⟨e, he, hp⟩⟩
  · exact h.acquire_iff m p hm

/-- A release under native acquisition `n` reports to the flag; the log stays
consistent when no acquisition so far happened under a later one. -/
theorem Consistent.done {f : Bool} {log : List Event} {n : ℕ} (tok pan : Bool)
    (h : Consistent f log) (hle : ∀ m p, Event.acquire m p ∈ log → m ≤ n) :
    Consistent (f || (!tok && pan)) (.done n tok pan :: log) := by
  refine ⟨?_, fun m p hm => ?_⟩
  · rw [Bool.or_eq_true, h.failed_iff]
    constructor
    · rintro (⟨e, he, hp⟩ | hp)
      · exact ⟨e, List.mem_cons_of_mem _ he, hp⟩
      · exact ⟨_, List.mem_cons_self _ _, hp⟩
    · rintro ⟨e, he, hp⟩
      rcases List.mem_cons.mp he with rfl | he
      · exact .inr hp
      · exact .inl ⟨e, he, hp⟩
  · have hm' : Event.acquire m p ∈ log := by simpa using hm
    rw [h.acquire_iff m p hm']
    have := hle m p hm'
    simp only [PoisonedBefore, List.mem_cons, exists_eq_or_imp, Event.poisons_done,
      Event.hold_done]
    constructor
    · exact Or.inr
    · rintro (⟨-, hlt⟩ | h)
      · omega
      · exact h

end Poison

end PinnedSync
