import PinnedSync.Sys.Mutex
import Mathlib.Data.Multiset.Basic

/-!
# The unix read-write lock shim

`sys::unix::rwlock::RwLock` puts its own bookkeeping over a `pthread_rwlock_t`:
`write_locked` and `num_readers`, checked after every native acquisition, because a
native lock may grant a thread a second, conflicting hold instead of deadlocking
(glibc before 2.25 does). A grant that fails the check is undone with
`pthread_rwlock_unlock`, and the call returns `None` or panics.

## The model

The native lock is a list of holds, newest first. A request of thread `t` may be
granted (`0`) only when no *other* thread holds the lock in a conflicting mode;
when `t` itself holds it in a conflicting mode, the request may be granted anyway,
fail with `EDEADLK`, or block (`PthreadRwlock.LockReturns`, `TryReturns`); a read
may fail with `EAGAIN`. `pthread_rwlock_unlock` releases the caller's newest hold,
so an unlock right after a wrong grant takes back that grant.

`RwLock.tryRead`, `read`, `tryWrite`, `write`, `dropRead`, `dropWrite` are the
source's functions, run without interruption. Threads interleave them at every
access to shared state: `Step` cuts a call into the native grant, the check of
`write_locked`/`num_readers`, and then the update that makes the guard (`fetch_add`,
or the store of `write_locked`) or the undoing `unlock`; and a guard's drop into its
update of the bookkeeping and its `unlock`. Each call's pieces are the functions'
own (`tryRead_zero`, ...). A call that does not get a `0` from the native lock ends
in its first step and changes nothing.

## What is proved

* `tryRead_none`, `read_panic`, `tryWrite_none`, `write_panic`: a call that returns
  `None` or panics leaves `write_locked`, `num_readers` and the native holds as they
  were, for every state and every native answer.
* `Inv` holds in every reachable state (`Reachable.inv`): `write_locked` is set iff
  a write guard is live, `num_readers` counts the live read guards, and a live write
  guard is the only guard. The native lock's exclusion of *other* threads is what
  keeps a check and the update after it together.
* `tryWrite_beside_reader`: while a read guard is live, `try_write` returns `None`
  whatever the native lock answers, and changes nothing.
* `refusals_reentrant`: the checks refuse only a thread that holds a guard of the lock
  already (`ReentrantUndo`); a thread that holds nothing never gets the "would result
  in deadlock" panics, nor a `None` from a refused grant.
-/

namespace PinnedSync.Sys

/-- `EAGAIN` (Linux). -/
def EAGAIN : ℤ := 11

/-- `EDEADLK` (Linux). -/
def EDEADLK : ℤ := 35

/-- The panic of a failed `debug_assert!`. -/
def ASSERT_FAILED : String := "assertion failed"

/-- `panic!("rwlock maximum reader count exceeded")`. -/
def MAX_READERS : String := "rwlock maximum reader count exceeded"

/-- `panic!("rwlock read lock would result in deadlock")`. -/
def READ_DEADLOCK : String := "rwlock read lock would result in deadlock"

/-- `panic!("rwlock write lock would result in deadlock")`. -/
def WRITE_DEADLOCK : String := "rwlock write lock would result in deadlock"

/-- How a read-write lock is held. -/
inductive Mode where
  /-- Shared. -/
  | read
  /-- Exclusive. -/
  | write
  deriving DecidableEq, Repr

/-- A `pthread_rwlock_t`: its holds, newest first. -/
structure PthreadRwlock where
  /-- Who holds it, and how. -/
  holds : List (ℕ × Mode)
  deriving DecidableEq, Repr

namespace PthreadRwlock

/-- `PTHREAD_RWLOCK_INITIALIZER`. -/
def initializer : PthreadRwlock := ⟨[]⟩

/-- A grant of a hold in mode `m` to `t`. -/
def grant (l : PthreadRwlock) (t : ℕ) (m : Mode) : PthreadRwlock := ⟨(t, m) :: l.holds⟩

/-- `pthread_rwlock_unlock` by `t`: releases `t`'s newest hold; `EPERM` if it has none. -/
def unlock (l : PthreadRwlock) (t : ℕ) : ℤ × PthreadRwlock :=
  if l.holds.any (·.1 == t) then (0, ⟨l.holds.eraseP (·.1 == t)⟩) else (EPERM, l)

/-- Another thread holds the lock in a way a request of `t` in mode `m` conflicts with. -/
def OthersConflict (l : PthreadRwlock) (t : ℕ) (m : Mode) : Prop :=
  ∃ h ∈ l.holds, h.1 ≠ t ∧ (m = .write ∨ h.2 = .write)

/-- `t` itself holds the lock in a way its request in mode `m` conflicts with. -/
def SelfConflict (l : PthreadRwlock) (t : ℕ) (m : Mode) : Prop :=
  ∃ h ∈ l.holds, h.1 = t ∧ (m = .write ∨ h.2 = .write)

/-- What `pthread_rwlock_rdlock` (`m = read`) or `pthread_rwlock_wrlock` (`m = write`)
may return to `t`, when it returns at all: a grant unless another thread holds the
lock in a conflicting mode (a grant despite `t`'s own conflicting hold is the
nonconforming one), `EAGAIN` for a read, `EDEADLK` on `t`'s own conflicting hold. -/
inductive LockReturns (l : PthreadRwlock) (t : ℕ) : Mode → ℤ → Prop
  /-- `0`. -/
  | grant (m : Mode) : ¬ l.OthersConflict t m → LockReturns l t m 0
  /-- `EAGAIN`. -/
  | eagain : LockReturns l t .read EAGAIN
  /-- `EDEADLK`. -/
  | edeadlk (m : Mode) : l.SelfConflict t m → LockReturns l t m EDEADLK

/-- What `pthread_rwlock_tryrdlock`/`pthread_rwlock_trywrlock` may return to `t`: a
grant, on the same terms, or any error. -/
inductive TryReturns (l : PthreadRwlock) (t : ℕ) : Mode → ℤ → Prop
  /-- `0`. -/
  | grant (m : Mode) : ¬ l.OthersConflict t m → TryReturns l t m 0
  /-- An error. -/
  | fail (m : Mode) (r : ℤ) : r ≠ 0 → TryReturns l t m r

theorem LockReturns.zero {l : PthreadRwlock} {t : ℕ} {m : Mode} (h : LockReturns l t m 0) :
    ¬ l.OthersConflict t m := by
  generalize hz : (0 : ℤ) = z at h
  cases h with
  | grant _ h => exact h
  | eagain => exact absurd hz (by decide)
  | edeadlk => exact absurd hz (by decide)

theorem TryReturns.zero {l : PthreadRwlock} {t : ℕ} {m : Mode} (h : TryReturns l t m 0) :
    ¬ l.OthersConflict t m := by
  generalize hz : (0 : ℤ) = z at h
  cases h with
  | grant h => exact h
  | fail _ h => exact absurd hz.symm h

@[simp] theorem unlock_grant (l : PthreadRwlock) (t : ℕ) (m : Mode) :
    (l.grant t m).unlock t = (0, l) := by
  simp [unlock, grant]

/-! #### The holds, newest first -/

theorem find?_grant_ne (l : PthreadRwlock) {t u : ℕ} (m : Mode) (h : u ≠ t) :
    (l.grant u m).holds.find? (·.1 == t) = l.holds.find? (·.1 == t) := by
  simp [grant, h]

theorem find?_eraseP_ne (hs : List (ℕ × Mode)) {t u : ℕ} (h : u ≠ t) :
    (hs.eraseP (·.1 == u)).find? (·.1 == t) = hs.find? (·.1 == t) := by
  induction hs with
  | nil => rfl
  | cons x hs ih =>
    by_cases hx : x.1 = u
    · simp [hx, h]
    · by_cases hx' : x.1 = t <;> simp [List.eraseP_cons, hx, hx', ih, Ne.symm h]

theorem eraseP_eq_erase {hs : List (ℕ × Mode)} {t : ℕ} {k : ℕ × Mode}
    (h : hs.find? (·.1 == t) = some k) :
    ((hs.eraseP (·.1 == t) : List _) : Multiset (ℕ × Mode)) = (hs : Multiset _).erase k := by
  induction hs with
  | nil => cases h
  | cons x hs ih =>
    by_cases hx : x.1 = t
    · have : x = k := by simpa [hx] using h
      subst this
      rw [List.eraseP_cons_of_pos (by simpa using hx), ← Multiset.cons_coe, Multiset.erase_cons_head]
    · have hk : x ≠ k := fun e => hx (by simpa [e] using List.find?_some h)
      have h' : hs.find? (·.1 == t) = some k := by simpa [List.find?_cons, hx] using h
      rw [List.eraseP_cons_of_neg (by simpa using hx), ← Multiset.cons_coe, ← Multiset.cons_coe,
        ih h', Multiset.erase_cons_tail _ hk]

/-- `pthread_rwlock_unlock` by a thread with a hold returns `0` and drops its newest one. -/
theorem unlock_of_find {l : PthreadRwlock} {t : ℕ} {k : ℕ × Mode}
    (h : l.holds.find? (·.1 == t) = some k) : l.unlock t = (0, ⟨l.holds.eraseP (·.1 == t)⟩) := by
  have hk := List.find?_some h
  have : l.holds.any (·.1 == t) = true :=
    List.any_eq_true.mpr ⟨k, List.mem_of_find?_eq_some h, hk⟩
  simp [unlock, this]

theorem find?_of_forall {hs : List (ℕ × Mode)} {t : ℕ} {k : ℕ × Mode} (hk : k ∈ hs)
    (hkt : k.1 = t) (h : ∀ x ∈ hs, x.1 = t → x = k) : hs.find? (·.1 == t) = some k := by
  cases hf : hs.find? (·.1 == t) with
  | none => exact absurd (List.find?_eq_none.mp hf k hk) (by simp [hkt])
  | some x => rw [h x (List.mem_of_find?_eq_some hf) (by simpa using List.find?_some hf)]

/-- The native exclusion: beside a write hold there is no hold of another thread. -/
def Exclusive (l : PthreadRwlock) : Prop :=
  ∀ a ∈ l.holds, a.2 = .write → ∀ b ∈ l.holds, b.1 = a.1

theorem Exclusive.grant {l : PthreadRwlock} {t : ℕ} {m : Mode} (he : l.Exclusive)
    (hc : ¬ l.OthersConflict t m) : (l.grant t m).Exclusive := by
  have other : ∀ b ∈ l.holds, (m = .write ∨ b.2 = .write) → b.1 = t := fun b hb hw =>
    by_contra fun hne => hc ⟨b, hb, hne, hw⟩
  intro a ha hw b hb
  simp only [PthreadRwlock.grant, List.mem_cons] at ha hb
  rcases ha with rfl | ha <;> rcases hb with rfl | hb
  · rfl
  · exact other b hb (.inl hw)
  · exact (other a ha (.inr hw)).symm
  · exact he a ha hw b hb

theorem Exclusive.of_subset {l l' : PthreadRwlock} (he : l.Exclusive)
    (hs : ∀ x ∈ l'.holds, x ∈ l.holds) : l'.Exclusive :=
  fun a ha hw b hb => he a (hs a ha) hw b (hs b hb)

end PthreadRwlock

namespace Unix

/-- `sys::unix::rwlock::RwLock`. -/
structure RwLock where
  /-- `lock: UnsafeCell<pthread_rwlock_t>`. -/
  lock : PthreadRwlock
  /-- `write_locked: UnsafeCell<bool>`. -/
  writeLocked : Bool
  /-- `num_readers: AtomicUsize`. -/
  numReaders : ℕ
  deriving DecidableEq, Repr

namespace RwLock

/-- `RwLock::uninit()`. -/
def uninit : RwLock := ⟨PthreadRwlock.initializer, false, 0⟩

/-- The native grant of a hold in mode `m` to `t`. -/
def grant (s : RwLock) (t : ℕ) (m : Mode) : RwLock := { s with lock := s.lock.grant t m }

/-- `RwLock::unlock` by `t`: `pthread_rwlock_unlock`, then `debug_assert_eq!(result, 0)`. -/
def unlock (s : RwLock) (t : ℕ) : Outcome Unit × RwLock :=
  let (result, l) := s.lock.unlock t
  (if result = 0 then .ret () else .panic ASSERT_EQ_FAILED, { s with lock := l })

/-- `RwLock::try_read` by `t`, `pthread_rwlock_tryrdlock` having returned `r`: whether
a `ReadGuard` is returned. -/
def tryRead (s : RwLock) (t : ℕ) (r : ℤ) : Outcome Bool × RwLock :=
  if r = 0 then
    let s := s.grant t .read
    if s.writeLocked then
      let (o, s) := s.unlock t
      (o.andThen (.ret false), s)
    else (.ret true, { s with numReaders := s.numReaders + 1 })
  else (.ret false, s)

/-- `RwLock::read` by `t`, `pthread_rwlock_rdlock` having returned `r`. -/
def read (s : RwLock) (t : ℕ) (r : ℤ) : Outcome Unit × RwLock :=
  if r = EAGAIN then (.panic MAX_READERS, s)
  else if r = EDEADLK ∨ (r = 0 ∧ s.writeLocked = true) then
    if r = 0 then
      let (o, s) := (s.grant t .read).unlock t
      (o.andThen (.panic READ_DEADLOCK), s)
    else (.panic READ_DEADLOCK, s)
  else if r = 0 then (.ret (), { s.grant t .read with numReaders := s.numReaders + 1 })
  else (.panic ASSERT_EQ_FAILED, s)

/-- `RwLock::try_write` by `t`, `pthread_rwlock_trywrlock` having returned `r`: whether
a `WriteGuard` is returned. -/
def tryWrite (s : RwLock) (t : ℕ) (r : ℤ) : Outcome Bool × RwLock :=
  if r = 0 then
    let s := s.grant t .write
    if s.writeLocked = true ∨ s.numReaders ≠ 0 then
      let (o, s) := s.unlock t
      (o.andThen (.ret false), s)
    else (.ret true, { s with writeLocked := true })
  else (.ret false, s)

/-- `RwLock::write` by `t`, `pthread_rwlock_wrlock` having returned `r`. -/
def write (s : RwLock) (t : ℕ) (r : ℤ) : Outcome Unit × RwLock :=
  if r = EDEADLK ∨ (r = 0 ∧ s.writeLocked = true) ∨ s.numReaders ≠ 0 then
    if r = 0 then
      let (o, s) := (s.grant t .write).unlock t
      (o.andThen (.panic WRITE_DEADLOCK), s)
    else (.panic WRITE_DEADLOCK, s)
  else if r = 0 then (.ret (), { s.grant t .write with writeLocked := true })
  else (.panic ASSERT_EQ_FAILED, s)

/-- What a guard's drop does before its `unlock`: for a `ReadGuard`,
`debug_assert!(!*write_locked)` and `num_readers.fetch_sub(1)`; for a `WriteGuard`,
`debug_assert_eq!(num_readers, 0)`, `debug_assert!(*write_locked)` and
`*write_locked = false`. -/
def dropStart (s : RwLock) : Mode → Outcome Unit × RwLock
  | .read => if s.writeLocked then (.panic ASSERT_FAILED, s)
      else (.ret (), { s with numReaders := s.numReaders - 1 })
  | .write => if s.numReaders ≠ 0 then (.panic ASSERT_EQ_FAILED, s)
      else if !s.writeLocked then (.panic ASSERT_FAILED, s)
      else (.ret (), { s with writeLocked := false })

/-- `Drop` for a guard of mode `m` held by `t`: `dropStart`, then `unlock`. -/
def dropGuard (s : RwLock) (t : ℕ) (m : Mode) : Outcome Unit × RwLock :=
  match s.dropStart m with
  | (.ret (), s) => s.unlock t
  | (.panic msg, s) => (.panic msg, s)

/-- What the check after a grant in mode `m` lets through: `!write_locked` for a read,
`!(write_locked || num_readers != 0)` for a write. -/
def admits (s : RwLock) : Mode → Bool
  | .read => !s.writeLocked
  | .write => !s.writeLocked && s.numReaders == 0

/-- The update that makes the guard: `num_readers.fetch_add(1)` for a read,
`*write_locked = true` for a write. -/
def commit (s : RwLock) : Mode → RwLock
  | .read => { s with numReaders := s.numReaders + 1 }
  | .write => { s with writeLocked := true }

@[simp] theorem grant_writeLocked (s : RwLock) (t : ℕ) (m : Mode) :
    (s.grant t m).writeLocked = s.writeLocked := rfl
@[simp] theorem grant_numReaders (s : RwLock) (t : ℕ) (m : Mode) :
    (s.grant t m).numReaders = s.numReaders := rfl

@[simp] theorem admits_grant (s : RwLock) (t : ℕ) (m m' : Mode) :
    (s.grant t m).admits m' = s.admits m' := by
  cases m' <;> rfl

@[simp] theorem unlock_grant (s : RwLock) (t : ℕ) (m : Mode) :
    (s.grant t m).unlock t = (.ret (), s) := by
  simp [unlock, grant]

@[simp] theorem dropStart_lock (s : RwLock) (m : Mode) : (s.dropStart m).2.lock = s.lock := by
  cases m <;> simp only [dropStart] <;> split_ifs <;> rfl

@[simp] theorem commit_lock (s : RwLock) (m : Mode) : (s.commit m).lock = s.lock := by
  cases m <;> rfl

theorem unlock_of_find {s : RwLock} {t : ℕ} {k : ℕ × Mode}
    (h : s.lock.holds.find? (·.1 == t) = some k) :
    s.unlock t = (.ret (), { s with lock := ⟨s.lock.holds.eraseP (·.1 == t)⟩ }) := by
  simp [unlock, PthreadRwlock.unlock_of_find h]

theorem dropStart_read {s : RwLock} (h : s.writeLocked = false) :
    s.dropStart .read = (.ret (), { s with numReaders := s.numReaders - 1 }) := by
  simp [dropStart, h]

theorem dropStart_write {s : RwLock} (hn : s.numReaders = 0) (hw : s.writeLocked = true) :
    s.dropStart .write = (.ret (), { s with writeLocked := false }) := by
  simp [dropStart, hn, hw]

/-! ### Failed calls change nothing -/

/-- A `try_read` that returns `None` leaves the lock as it was. -/
theorem tryRead_none (s : RwLock) (t : ℕ) (r : ℤ) (h : (s.tryRead t r).1 ≠ .ret true) :
    (s.tryRead t r).2 = s := by
  unfold tryRead at *
  by_cases hr : r = 0 <;> by_cases hw : s.writeLocked <;> simp_all

/-- A `read` that panics leaves the lock as it was. -/
theorem read_panic (s : RwLock) (t : ℕ) (r : ℤ) (h : (s.read t r).1 ≠ .ret ()) :
    (s.read t r).2 = s := by
  unfold read at *
  split_ifs at * <;> simp_all

/-- A `try_write` that returns `None` leaves the lock as it was. -/
theorem tryWrite_none (s : RwLock) (t : ℕ) (r : ℤ) (h : (s.tryWrite t r).1 ≠ .ret true) :
    (s.tryWrite t r).2 = s := by
  unfold tryWrite at *
  by_cases hr : r = 0 <;> by_cases hw : s.writeLocked = true ∨ s.numReaders ≠ 0 <;> simp_all

/-- A `write` that panics leaves the lock as it was. -/
theorem write_panic (s : RwLock) (t : ℕ) (r : ℤ) (h : (s.write t r).1 ≠ .ret ()) :
    (s.write t r).2 = s := by
  unfold write at *
  split_ifs at * <;> simp_all

/-! ### The calls, cut at their shared accesses -/

theorem tryRead_zero (s : RwLock) (t : ℕ) :
    s.tryRead t 0 = if (s.grant t .read).admits .read then (.ret true, (s.grant t .read).commit .read)
      else (((s.grant t .read).unlock t).1.andThen (.ret false), ((s.grant t .read).unlock t).2) := by
  cases h : s.writeLocked <;> simp [tryRead, admits, commit, h]

theorem read_zero (s : RwLock) (t : ℕ) :
    s.read t 0 = if (s.grant t .read).admits .read then (.ret (), (s.grant t .read).commit .read)
      else (((s.grant t .read).unlock t).1.andThen (.panic READ_DEADLOCK),
        ((s.grant t .read).unlock t).2) := by
  cases h : s.writeLocked <;> simp [read, admits, commit, h, EAGAIN, EDEADLK, grant]

theorem tryWrite_zero (s : RwLock) (t : ℕ) :
    s.tryWrite t 0 = if (s.grant t .write).admits .write then
        (.ret true, (s.grant t .write).commit .write)
      else (((s.grant t .write).unlock t).1.andThen (.ret false),
        ((s.grant t .write).unlock t).2) := by
  cases h : s.writeLocked <;> by_cases h' : s.numReaders = 0 <;>
    simp [tryWrite, admits, commit, h, h']

theorem write_zero (s : RwLock) (t : ℕ) :
    s.write t 0 = if (s.grant t .write).admits .write then
        (.ret (), (s.grant t .write).commit .write)
      else (((s.grant t .write).unlock t).1.andThen (.panic WRITE_DEADLOCK),
        ((s.grant t .write).unlock t).2) := by
  cases h : s.writeLocked <;> by_cases h' : s.numReaders = 0 <;>
    simp [write, admits, commit, h, h', EDEADLK, grant]

end RwLock

/-! ### Threads interleaving the calls -/

/-- Where a hold of the native lock stands, for the thread that has it. -/
inductive Phase where
  /-- Granted to a call (`tries`: `try_read`/`try_write`); the check is next. -/
  | check (tries : Bool)
  /-- The check let the grant through; the update that makes the guard is next. -/
  | commit (tries : Bool)
  /-- The check refused the grant; the `unlock` is next, then `None` or the panic. -/
  | undo (tries : Bool)
  /-- A live `ReadGuard` or `WriteGuard`. -/
  | live
  /-- A guard whose drop updated the bookkeeping; its `unlock` is next. -/
  | release
  deriving DecidableEq, Repr

namespace Phase

/-- The hold belongs to a call still in progress. -/
def inCall : Phase → Bool
  | check _ | commit _ | undo _ => true
  | live | release => false

/-- The hold is a guard: live, or being dropped. -/
def isGuard : Phase → Bool
  | live | release => true
  | check _ | commit _ | undo _ => false

/-- The hold's check let it through. -/
def isCommit : Phase → Bool
  | commit _ => true
  | _ => false

end Phase

/-- A hold of the native lock: the thread that has it, how, and where it stands. -/
structure Hold where
  /-- The thread. -/
  tid : ℕ
  /-- The mode. -/
  mode : Mode
  /-- Where it stands. -/
  phase : Phase
  deriving DecidableEq, Repr

/-- The native hold a `Hold` is. -/
def Hold.key (h : Hold) : ℕ × Mode := (h.tid, h.mode)

/-- The shim, and the holds of its native lock as the threads see them. -/
structure Shim where
  /-- The `RwLock`. -/
  rw : RwLock
  /-- The holds: calls in progress and guards. -/
  held : Multiset Hold

namespace Shim

/-- A lock as `RwLock::uninit()` leaves it, held by no one. -/
def init : Shim := ⟨RwLock.uninit, 0⟩

/-- Thread `t`'s holds in `m` are all live guards: `t` is in no call and no drop. -/
def AllLive (m : Multiset Hold) (t : ℕ) : Prop := ∀ b ∈ m, b.tid = t → b.phase = .live

/-- One step of some thread. Each is one access to the shared state: the native call
that returns `0` (an error ends the call at once and changes nothing), the check
after it, the update that makes the guard or the `unlock` that undoes the grant, and
a guard's drop in two. -/
inductive Step : Shim → Shim → Prop
  /-- `t`, in no call, gets `0` from `pthread_rwlock_(try)(rd|wr)lock`. -/
  | grant {s : Shim} {t : ℕ} {m : Mode} (tries : Bool)
      (hr : if tries then s.rw.lock.TryReturns t m 0 else s.rw.lock.LockReturns t m 0)
      (ht : AllLive s.held t) :
      Step s ⟨s.rw.grant t m, ⟨t, m, .check tries⟩ ::ₘ s.held⟩
  /-- The check: `write_locked` (and, for a write, `num_readers`). -/
  | check {s : Shim} {h : Hold} {rest : Multiset Hold} {tries : Bool} (hs : s.held = h ::ₘ rest)
      (hp : h.phase = .check tries) :
      Step s ⟨s.rw, ⟨h.tid, h.mode,
        if s.rw.admits h.mode then .commit tries else .undo tries⟩ ::ₘ rest⟩
  /-- `fetch_add`, or the store of `write_locked`: the guard is made. -/
  | commit {s : Shim} {h : Hold} {rest : Multiset Hold} {tries : Bool} (hs : s.held = h ::ₘ rest)
      (hp : h.phase = .commit tries) :
      Step s ⟨s.rw.commit h.mode, ⟨h.tid, h.mode, .live⟩ ::ₘ rest⟩
  /-- The `unlock` of a refused grant; the call returns `None` or panics. -/
  | undo {s : Shim} {h : Hold} {rest : Multiset Hold} {tries : Bool} (hs : s.held = h ::ₘ rest)
      (hp : h.phase = .undo tries) :
      Step s ⟨(s.rw.unlock h.tid).2, rest⟩
  /-- A guard's drop, up to its `unlock`, by a thread in no call. -/
  | dropStart {s : Shim} {h : Hold} {rest : Multiset Hold} (hs : s.held = h ::ₘ rest)
      (hp : h.phase = .live) (ht : AllLive rest h.tid) :
      Step s ⟨(s.rw.dropStart h.mode).2, ⟨h.tid, h.mode, .release⟩ ::ₘ rest⟩
  /-- The `unlock` that ends a guard's drop. -/
  | release {s : Shim} {h : Hold} {rest : Multiset Hold} (hs : s.held = h ::ₘ rest)
      (hp : h.phase = .release) :
      Step s ⟨(s.rw.unlock h.tid).2, rest⟩

/-- The states some run reaches from `init`. -/
def Reachable (s : Shim) : Prop := Relation.ReflTransGen Step init s

/-! ### Two properties of the holds -/

/-- A thread has at most one call or drop in progress. -/
def OneBusy (m : Multiset Hold) : Prop :=
  ∀ a rest, m = a ::ₘ rest → a.phase ≠ .live → AllLive rest a.tid

/-- A write guard is the only guard. -/
def GuardExcl (m : Multiset Hold) : Prop :=
  ∀ a rest, m = a ::ₘ rest → a.mode = .write → a.phase.isGuard → ∀ b ∈ rest, b.phase.isGuard = false

theorem OneBusy.allLive {a : Hold} {rest : Multiset Hold} (h : OneBusy (a ::ₘ rest))
    (ha : a.phase ≠ .live) : AllLive rest a.tid := h a rest rfl ha

theorem OneBusy.of_cons {a : Hold} {rest : Multiset Hold} (h : OneBusy (a ::ₘ rest)) :
    OneBusy rest := by
  rintro x r rfl hx b hb hbt
  have hs : a ::ₘ x ::ₘ r = x ::ₘ a ::ₘ r := Multiset.cons_swap _ _ _
  exact h x _ hs hx b (Multiset.mem_cons_of_mem hb) hbt

theorem OneBusy.cons {a : Hold} {rest : Multiset Hold} (h : OneBusy rest)
    (ha : a.phase ≠ .live → AllLive rest a.tid)
    (hother : ∀ b ∈ rest, b.phase ≠ .live → b.tid = a.tid → a.phase = .live) :
    OneBusy (a ::ₘ rest) := by
  intro x r hx hxl
  rcases Multiset.cons_eq_cons.mp hx with ⟨rfl, rfl⟩ | ⟨hne, cs, rfl, rfl⟩
  · exact ha hxl
  · intro b hb hbt
    rcases Multiset.mem_cons.mp hb with rfl | hb
    · exact hother x (Multiset.mem_cons_self _ _) hxl hbt.symm
    · exact h x cs rfl hxl b hb hbt

theorem OneBusy.cons_of_allLive {a : Hold} {rest : Multiset Hold} (h : OneBusy rest)
    (hr : AllLive rest a.tid) : OneBusy (a ::ₘ rest) :=
  h.cons (fun _ => hr) fun b hb hbl hbt => absurd (hr b hb hbt) hbl

theorem OneBusy.cons_live {a : Hold} {rest : Multiset Hold} (h : OneBusy rest)
    (ha : a.phase = .live) : OneBusy (a ::ₘ rest) :=
  h.cons (fun h' => absurd ha h') fun _ _ _ _ => ha

theorem GuardExcl.of_cons {a : Hold} {rest : Multiset Hold} (h : GuardExcl (a ::ₘ rest)) :
    GuardExcl rest := by
  rintro x r rfl hx hg b hb
  exact h x _ (Multiset.cons_swap _ _ _) hx hg b (Multiset.mem_cons_of_mem hb)

theorem GuardExcl.cons {a : Hold} {rest : Multiset Hold} (h : GuardExcl rest)
    (ha : a.mode = .write → a.phase.isGuard → ∀ b ∈ rest, b.phase.isGuard = false)
    (hother : ∀ b ∈ rest, b.mode = .write → b.phase.isGuard → a.phase.isGuard = false) :
    GuardExcl (a ::ₘ rest) := by
  intro x r hx hxw hxg
  rcases Multiset.cons_eq_cons.mp hx with ⟨rfl, rfl⟩ | ⟨hne, cs, rfl, rfl⟩
  · exact ha hxw hxg
  · intro b hb
    rcases Multiset.mem_cons.mp hb with rfl | hb
    · exact hother x (Multiset.mem_cons_self _ _) hxw hxg
    · exact h x cs rfl hxw hxg b hb

theorem GuardExcl.cons_of_not_guard {a : Hold} {rest : Multiset Hold} (h : GuardExcl rest)
    (ha : a.phase.isGuard = false) : GuardExcl (a ::ₘ rest) :=
  h.cons (fun _ hg => absurd hg (by simp [ha])) fun _ _ _ _ => ha

/-- Beside a write guard, no other hold is a guard, seen from the other side. -/
theorem GuardExcl.not_guard_of_mem {a b : Hold} {rest : Multiset Hold} (h : GuardExcl (a ::ₘ rest))
    (hb : b ∈ rest) (hw : b.mode = .write) (hg : b.phase.isGuard) : a.phase.isGuard = false := by
  have hs : a ::ₘ rest = b ::ₘ a ::ₘ rest.erase b := by
    rw [Multiset.cons_swap, Multiset.cons_erase hb]
  exact h b _ hs hw hg a (Multiset.mem_cons_self _ _)

/-- Two guards side by side are read guards. -/
theorem GuardExcl.read_of_guard {a b : Hold} {rest : Multiset Hold} (h : GuardExcl (a ::ₘ rest))
    (hb : b ∈ rest) (hag : a.phase.isGuard) (hbg : b.phase.isGuard) :
    a.mode = .read ∧ b.mode = .read := by
  constructor
  · cases hm : a.mode
    · rfl
    · simp [h a rest rfl hm hag b hb] at hbg
  · cases hm : b.mode
    · rfl
    · simp [h.not_guard_of_mem hb hm hbg] at hag

theorem GuardExcl.eq_of_mem {m : Multiset Hold} {a b : Hold} (h : GuardExcl m) (ha : a ∈ m)
    (hw : a.mode = .write) (hg : a.phase.isGuard) (hb : b ∈ m) (hbg : b.phase.isGuard) :
    b = a := by
  by_contra hne
  have hs := (Multiset.cons_erase ha).symm
  have := h a _ hs hw hg b ((Multiset.mem_erase_of_ne hne).mpr hb)
  simp [hbg] at this

/-! ### The invariant -/

/-- What holds in every reachable state. -/
structure Inv (s : Shim) : Prop where
  /-- The native lock's holds are the threads' holds. -/
  native : (s.rw.lock.holds : Multiset (ℕ × Mode)) = s.held.map Hold.key
  /-- The native lock keeps other threads away from a write hold. -/
  exclusive : s.rw.lock.Exclusive
  one_busy : OneBusy s.held
  /-- A call's grant is its thread's newest native hold. -/
  newest : ∀ a ∈ s.held, a.phase.inCall → s.rw.lock.holds.find? (·.1 == a.tid) = some a.key
  writeLocked_iff : s.rw.writeLocked = true ↔ ∃ a ∈ s.held, a.mode = .write ∧ a.phase = .live
  numReaders_eq : s.rw.numReaders = s.held.countP (fun a => a.mode = .read ∧ a.phase = .live)
  commit_read : ∀ a ∈ s.held, a.mode = .read → a.phase.isCommit → s.rw.writeLocked = false
  commit_write : ∀ a ∈ s.held, a.mode = .write → a.phase.isCommit →
    s.rw.writeLocked = false ∧ s.rw.numReaders = 0
  guard_excl : GuardExcl s.held

theorem inv_init : Inv init where
  native := rfl
  exclusive := by simp [PthreadRwlock.Exclusive, init, RwLock.uninit, PthreadRwlock.initializer]
  one_busy := by intro a rest h; simp [init] at h
  newest := by simp [init]
  writeLocked_iff := by simp [init, RwLock.uninit]
  numReaders_eq := rfl
  commit_read := by simp [init]
  commit_write := by simp [init]
  guard_excl := by intro a rest h; simp [init] at h

namespace Inv

variable {s : Shim}

theorem key_mem (hi : Inv s) {a : Hold} (ha : a ∈ s.held) : a.key ∈ s.rw.lock.holds := by
  have : a.key ∈ s.held.map Hold.key := Multiset.mem_map_of_mem _ ha
  rwa [← hi.native, Multiset.mem_coe] at this

/-- Beside a write hold, every hold is the same thread's. -/
theorem same_tid (hi : Inv s) {a b : Hold} (ha : a ∈ s.held) (hw : a.mode = .write)
    (hb : b ∈ s.held) : b.tid = a.tid :=
  hi.exclusive _ (hi.key_mem ha) hw _ (hi.key_mem hb)

/-- No live write guard while a read guard is live or dropping. -/
theorem writeLocked_false_of_read (hi : Inv s) {a : Hold} (ha : a ∈ s.held)
    (hr : a.mode = .read) (hg : a.phase.isGuard) : s.rw.writeLocked = false := by
  by_contra hw
  obtain ⟨b, hb, hbw, hbl⟩ := hi.writeLocked_iff.mp (by simpa using hw)
  cases hi.guard_excl.eq_of_mem hb hbw (by simp [hbl, Phase.isGuard]) ha hg
  simp [hr] at hbw

/-- Every live read guard is counted: `num_readers.fetch_sub(1)` never underflows. -/
theorem numReaders_pos (hi : Inv s) {a : Hold} (ha : a ∈ s.held) (hr : a.mode = .read)
    (hl : a.phase = .live) : 0 < s.rw.numReaders := by
  rw [hi.numReaders_eq]
  exact Multiset.countP_pos.mpr ⟨a, ha, hr, hl⟩

/-- With `write_locked` clear and `num_readers` zero, no guard is live. -/
theorem not_live (hi : Inv s) (hw : s.rw.writeLocked = false) (hn : s.rw.numReaders = 0)
    {a : Hold} (ha : a ∈ s.held) : a.phase ≠ .live := by
  intro hl
  cases hm : a.mode
  · exact absurd (hi.numReaders_pos ha hm hl) (by omega)
  · simp [hi.writeLocked_iff.mpr ⟨a, ha, hm, hl⟩] at hw

theorem grant {t : ℕ} {m : Mode} {tries : Bool} (hi : Inv s) (hc : ¬ s.rw.lock.OthersConflict t m)
    (ht : AllLive s.held t) : Inv ⟨s.rw.grant t m, ⟨t, m, .check tries⟩ ::ₘ s.held⟩ where
  native := by
    rw [Multiset.map_cons, ← hi.native]
    simp [RwLock.grant, PthreadRwlock.grant, Hold.key]
  exclusive := hi.exclusive.grant hc
  one_busy := hi.one_busy.cons_of_allLive ht
  newest := by
    intro a ha hca
    rcases Multiset.mem_cons.mp ha with rfl | ha
    · simp [RwLock.grant, PthreadRwlock.grant, Hold.key]
    · have hne : t ≠ a.tid := fun e => by simp [ht a ha e.symm, Phase.inCall] at hca
      simpa [RwLock.grant, PthreadRwlock.find?_grant_ne _ _ hne] using hi.newest a ha hca
  writeLocked_iff := by simpa [RwLock.grant] using hi.writeLocked_iff
  numReaders_eq := by simp [RwLock.grant, Multiset.countP_cons, hi.numReaders_eq]
  commit_read := fun a ha => by
    rcases Multiset.mem_cons.mp ha with rfl | ha
    · simp [Phase.isCommit]
    · simpa [RwLock.grant] using hi.commit_read a ha
  commit_write := fun a ha => by
    rcases Multiset.mem_cons.mp ha with rfl | ha
    · simp [Phase.isCommit]
    · simpa [RwLock.grant] using hi.commit_write a ha
  guard_excl := hi.guard_excl.cons_of_not_guard rfl

theorem check {h : Hold} {rest : Multiset Hold} {tries : Bool} (hi : Inv s)
    (hs : s.held = h ::ₘ rest) (hp : h.phase = .check tries) :
    Inv ⟨s.rw, ⟨h.tid, h.mode, if s.rw.admits h.mode then .commit tries else .undo tries⟩ ::ₘ rest⟩ := by
  have hh : h ∈ s.held := hs ▸ Multiset.mem_cons_self _ _
  have hob := hs ▸ hi.one_busy
  have hnl : ∀ c : Bool, (if c then Phase.commit tries else .undo tries) ≠ .live := by
    intro c; split <;> simp
  refine ⟨?_, hi.exclusive, hob.of_cons.cons_of_allLive (hob.allLive (by simp [hp])), ?_, ?_, ?_,
    ?_, ?_, (hs ▸ hi.guard_excl).of_cons.cons_of_not_guard (by split <;> rfl)⟩
  · simp [hi.native, hs, Hold.key]
  · intro a ha hca
    rcases Multiset.mem_cons.mp ha with rfl | ha
    · simpa [Hold.key] using hi.newest h hh (by simp [hp, Phase.inCall])
    · exact hi.newest a (hs ▸ Multiset.mem_cons_of_mem ha) hca
  · simpa [hs, hp, hnl] using hi.writeLocked_iff
  · simpa [hs, hp, hnl, Multiset.countP_cons] using hi.numReaders_eq
  · intro a ha hr hc
    rcases Multiset.mem_cons.mp ha with rfl | ha
    · by_cases hadm : s.rw.admits h.mode
      · simp only at hr; simpa [RwLock.admits, hr] using hadm
      · simp [hadm, Phase.isCommit] at hc
    · exact hi.commit_read a (hs ▸ Multiset.mem_cons_of_mem ha) hr hc
  · intro a ha hw hc
    rcases Multiset.mem_cons.mp ha with rfl | ha
    · by_cases hadm : s.rw.admits h.mode
      · simp only at hw; simpa [RwLock.admits, hw] using hadm
      · simp [hadm, Phase.isCommit] at hc
    · exact hi.commit_write a (hs ▸ Multiset.mem_cons_of_mem ha) hw hc

theorem commit {h : Hold} {rest : Multiset Hold} {tries : Bool} (hi : Inv s)
    (hs : s.held = h ::ₘ rest) (hp : h.phase = .commit tries) :
    Inv ⟨s.rw.commit h.mode, ⟨h.tid, h.mode, .live⟩ ::ₘ rest⟩ := by
  have hh : h ∈ s.held := hs ▸ Multiset.mem_cons_self _ _
  have hmem : ∀ {a}, a ∈ rest → a ∈ s.held := fun ha => hs ▸ Multiset.mem_cons_of_mem ha
  have hob := hs ▸ hi.one_busy
  have hrest : AllLive rest h.tid := hob.allLive (by simp [hp])
  have hc : h.phase.isCommit := by simp [hp, Phase.isCommit]
  -- beside a write, every hold is the same thread's, so it is a live guard
  have hlive : ∀ a ∈ rest, (a.mode = .write ∨ h.mode = .write) → a.phase = .live := by
    rintro a ha (hw | hw)
    · exact hrest a ha (hi.same_tid (hmem ha) hw hh).symm
    · exact hrest a ha (hi.same_tid hh hw (hmem ha))
  have hwl : s.rw.writeLocked = false := by
    cases hm : h.mode
    · exact hi.commit_read h hh hm hc
    · exact (hi.commit_write h hh hm hc).1
  refine ⟨by simp [hi.native, hs, Hold.key], by simpa using hi.exclusive,
    hob.of_cons.cons_live rfl, ?_, ?_, ?_, ?_, ?_, ?_⟩
  · intro a ha hca
    rcases Multiset.mem_cons.mp ha with rfl | ha
    · simp [Phase.inCall] at hca
    · simpa using hi.newest a (hmem ha) hca
  · cases hm : h.mode
    · simpa [hs, hp, hm, RwLock.commit] using hi.writeLocked_iff
    · simp [RwLock.commit, hm]
  · cases hm : h.mode <;>
      simp [hs, hp, hm, RwLock.commit, Multiset.countP_cons, hi.numReaders_eq]
  · intro a ha hr hac
    rcases Multiset.mem_cons.mp ha with rfl | ha
    · simp [Phase.isCommit] at hac
    · cases hm : h.mode
      · simpa [RwLock.commit] using hi.commit_read a (hmem ha) hr hac
      · simp [hlive a ha (.inr hm), Phase.isCommit] at hac
  · intro a ha hw hac
    rcases Multiset.mem_cons.mp ha with rfl | ha
    · simp [Phase.isCommit] at hac
    · simp [hlive a ha (.inl hw), Phase.isCommit] at hac
  · refine (hs ▸ hi.guard_excl).of_cons.cons (fun hw _ b hb => ?_) fun b hb hw _ => ?_
    · have hn := (hi.commit_write h hh hw hc).2
      exact absurd (hlive b hb (.inr hw)) (hi.not_live hwl hn (hmem hb))
    · simp [hi.writeLocked_iff.mpr ⟨b, hmem hb, hw, hlive b hb (.inl hw)⟩] at hwl

/-- The `unlock` of a hold that is no live guard and is its thread's newest: the
undo of a refused grant, and the end of a guard's drop. -/
theorem unlock {h : Hold} {rest : Multiset Hold} (hi : Inv s) (hs : s.held = h ::ₘ rest)
    (hl : h.phase ≠ .live) (hf : s.rw.lock.holds.find? (·.1 == h.tid) = some h.key) :
    Inv ⟨(s.rw.unlock h.tid).2, rest⟩ := by
  have hmem : ∀ {a}, a ∈ rest → a ∈ s.held := fun ha => hs ▸ Multiset.mem_cons_of_mem ha
  have hob := hs ▸ hi.one_busy
  have hrest : AllLive rest h.tid := hob.allLive hl
  rw [RwLock.unlock_of_find hf]
  refine ⟨?_, hi.exclusive.of_subset fun x hx => (List.eraseP_subset _) hx, hob.of_cons, ?_,
    by simpa [hs, hl] using hi.writeLocked_iff, by simpa [hs, hl] using hi.numReaders_eq,
    fun a ha => hi.commit_read a (hmem ha), fun a ha => hi.commit_write a (hmem ha),
    (hs ▸ hi.guard_excl).of_cons⟩
  · show ((s.rw.lock.holds.eraseP _ : List _) : Multiset _) = rest.map Hold.key
    rw [PthreadRwlock.eraseP_eq_erase hf, hi.native, hs, Multiset.map_cons, Multiset.erase_cons_head]
  · intro a ha hca
    have hne : h.tid ≠ a.tid := fun e => by simp [hrest a ha e.symm, Phase.inCall] at hca
    simpa [PthreadRwlock.find?_eraseP_ne _ hne] using hi.newest a (hmem ha) hca

theorem dropStart {h : Hold} {rest : Multiset Hold} (hi : Inv s) (hs : s.held = h ::ₘ rest)
    (hp : h.phase = .live) (ht : AllLive rest h.tid) :
    Inv ⟨(s.rw.dropStart h.mode).2, ⟨h.tid, h.mode, .release⟩ ::ₘ rest⟩ := by
  have hh : h ∈ s.held := hs ▸ Multiset.mem_cons_self _ _
  have hmem : ∀ {a}, a ∈ rest → a ∈ s.held := fun ha => hs ▸ Multiset.mem_cons_of_mem ha
  have hg : h.phase.isGuard := by simp [hp, Phase.isGuard]
  have hge := hs ▸ hi.guard_excl
  -- the drop's debug assertions hold; it clears `write_locked` and uncounts its guard
  have hstart : (s.rw.dropStart h.mode).2.writeLocked = false ∧
      (s.rw.dropStart h.mode).2.numReaders =
        rest.countP (fun a => a.mode = .read ∧ a.phase = .live) := by
    have hcount := hi.numReaders_eq
    rw [hs, Multiset.countP_cons] at hcount
    cases hm : h.mode
    · have hw := hi.writeLocked_false_of_read hh hm hg
      simp [RwLock.dropStart_read hw, hw, hcount, hm, hp]
    · have hr0 : rest.countP (fun a => a.mode = .read ∧ a.phase = .live) = 0 :=
        Multiset.countP_eq_zero.mpr fun b hb hbr => by
          simpa [hbr.2, Phase.isGuard] using hge h rest rfl hm hg b hb
      have hn : s.rw.numReaders = 0 := by simp [hcount, hr0, hm]
      simp [RwLock.dropStart_write hn (hi.writeLocked_iff.mpr ⟨h, hh, hm, hp⟩), hn, hr0]
  refine ⟨by simp [hi.native, hs, Hold.key], by simpa using hi.exclusive,
    (hs ▸ hi.one_busy).of_cons.cons_of_allLive ht, ?_, ?_, by simp [hstart.2, Multiset.countP_cons],
    fun _ _ _ _ => hstart.1, ?_, hge.of_cons.cons (fun hw _ b hb => hge h rest rfl hw hg b hb)
      fun b hb hw hbg => absurd hg (by simp [hge.not_guard_of_mem hb hw hbg])⟩
  · intro a ha hca
    rcases Multiset.mem_cons.mp ha with rfl | ha
    · simp [Phase.inCall] at hca
    · simpa using hi.newest a (hmem ha) hca
  · simp only [hstart.1, Bool.false_eq_true, false_iff, not_exists, not_and]
    intro a ha haw hal
    rcases Multiset.mem_cons.mp ha with rfl | ha
    · simp at hal
    · simp [hge.not_guard_of_mem ha haw (by simp [hal, Phase.isGuard])] at hg
  · intro a ha hw hac
    rcases Multiset.mem_cons.mp ha with rfl | ha
    · simp [Phase.isCommit] at hac
    · simp [ht a ha (hi.same_tid (hmem ha) hw hh).symm, Phase.isCommit] at hac

/-- A guard being dropped is its thread's newest native hold: the thread's other holds
are live guards, and two guards side by side are read guards. -/
theorem find_of_release {h : Hold} {rest : Multiset Hold} (hi : Inv s) (hs : s.held = h ::ₘ rest)
    (hp : h.phase = .release) : s.rw.lock.holds.find? (·.1 == h.tid) = some h.key := by
  have hrest : AllLive rest h.tid := (hs ▸ hi.one_busy).allLive (by simp [hp])
  refine PthreadRwlock.find?_of_forall (hi.key_mem (hs ▸ Multiset.mem_cons_self _ _)) rfl
    fun x hx hxt => ?_
  have : x ∈ s.held.map Hold.key := by rw [← hi.native]; exact hx
  obtain ⟨b, hb, rfl⟩ := Multiset.mem_map.mp this
  simp only [Hold.key] at hxt
  rcases Multiset.mem_cons.mp (hs ▸ hb) with rfl | hb
  · rfl
  · have hm := (hs ▸ hi.guard_excl).read_of_guard hb (by simp [hp, Phase.isGuard])
      (by simp [hrest b hb hxt, Phase.isGuard])
    simp [Hold.key, hxt, hm.1, hm.2]

theorem step {s' : Shim} (hi : Inv s) (h : Step s s') : Inv s' := by
  cases h with
  | grant tries hr ht =>
    refine hi.grant ?_ ht
    cases tries
    · exact PthreadRwlock.LockReturns.zero (by simpa using hr)
    · exact PthreadRwlock.TryReturns.zero (by simpa using hr)
  | check hs hp => exact hi.check hs hp
  | commit hs hp => exact hi.commit hs hp
  | undo hs hp =>
    exact hi.unlock hs (by simp [hp])
      (hi.newest _ (hs ▸ Multiset.mem_cons_self _ _) (by simp [hp, Phase.inCall]))
  | dropStart hs hp ht => exact hi.dropStart hs hp ht
  | release hs hp => exact hi.unlock hs (by simp [hp]) (hi.find_of_release hs hp)

end Inv

theorem Reachable.inv {s : Shim} (h : Reachable s) : Inv s := by
  induction h with
  | refl => exact inv_init
  | tail _ hst ih => exact ih.step hst

/-- **The shim's bookkeeping is exact.** In every reachable state, whatever the
threads and however the native lock answers: `write_locked` is set iff a write guard
is live; `num_readers` is the number of live read guards, and is positive while one
is, so a drop's `fetch_sub` never underflows; a write guard is the only guard; and
the `unlock` of a refused grant returns `0`, leaves `write_locked` and `num_readers`
alone and takes back exactly that grant's native hold. Run whole, a call that
returns `None` or panics changes nothing. -/
theorem bookkeeping_exact :
    (∀ s, Reachable s →
      (s.rw.writeLocked = true ↔ ∃ a ∈ s.held, a.mode = .write ∧ a.phase = .live) ∧
      s.rw.numReaders = s.held.countP (fun a => a.mode = .read ∧ a.phase = .live) ∧
      (∀ a ∈ s.held, a.mode = .read → a.phase = .live → 0 < s.rw.numReaders) ∧
      GuardExcl s.held ∧
      ∀ h rest tries, s.held = h ::ₘ rest → h.phase = .undo tries →
        (s.rw.unlock h.tid).1 = .ret () ∧
        (s.rw.unlock h.tid).2.writeLocked = s.rw.writeLocked ∧
        (s.rw.unlock h.tid).2.numReaders = s.rw.numReaders ∧
        ((s.rw.unlock h.tid).2.lock.holds : Multiset (ℕ × Mode)) =
          (s.rw.lock.holds : Multiset (ℕ × Mode)).erase h.key) ∧
    ∀ (s : RwLock) (t : ℕ) (r : ℤ),
      ((s.tryRead t r).1 ≠ .ret true → (s.tryRead t r).2 = s) ∧
      ((s.read t r).1 ≠ .ret () → (s.read t r).2 = s) ∧
      ((s.tryWrite t r).1 ≠ .ret true → (s.tryWrite t r).2 = s) ∧
      ((s.write t r).1 ≠ .ret () → (s.write t r).2 = s) := by
  refine ⟨fun s hr => ?_, fun s t r => ⟨RwLock.tryRead_none s t r, RwLock.read_panic s t r,
    RwLock.tryWrite_none s t r, RwLock.write_panic s t r⟩⟩
  have hi := hr.inv
  refine ⟨hi.writeLocked_iff, hi.numReaders_eq, fun a ha => hi.numReaders_pos ha, hi.guard_excl,
    fun h rest tries hs hp => ?_⟩
  have hf := hi.newest h (hs ▸ Multiset.mem_cons_self _ _) (by simp [hp, Phase.inCall])
  rw [RwLock.unlock_of_find hf]
  exact ⟨rfl, rfl, rfl, PthreadRwlock.eraseP_eq_erase hf⟩

/-- **`try_write` beside a live read guard.** In every reachable state with a live
`ReadGuard`, a `try_write` by any thread returns `None` (so the crate's `try_write`
returns `WouldBlock`), whatever `pthread_rwlock_trywrlock` answers: it neither panics
nor makes a guard, and leaves the lock as it was. -/
theorem tryWrite_beside_reader {s : Shim} (h : Reachable s)
    (hr : ∃ a ∈ s.held, a.mode = .read ∧ a.phase = .live) (t : ℕ) (r : ℤ) :
    s.rw.tryWrite t r = (.ret false, s.rw) := by
  obtain ⟨a, ha, hm, hp⟩ := hr
  have hn : s.rw.numReaders ≠ 0 := (h.inv.numReaders_pos ha hm hp).ne'
  by_cases hr0 : r = 0 <;> simp [RwLock.tryWrite, hr0, hn]

/-- Thread `0` holds a read guard, which `read` gave it at once. -/
theorem reachable_one_reader : Reachable ⟨⟨⟨[(0, .read)]⟩, false, 1⟩, {⟨0, .read, .live⟩}⟩ :=
  ((Relation.ReflTransGen.single
    (@Step.grant init 0 .read false (.grant _ fun ⟨_, hh, _⟩ => by
        simp [init, RwLock.uninit, PthreadRwlock.initializer] at hh)
      fun _ hb => by simp [init] at hb)).tail
    (@Step.check _ ⟨0, .read, .check false⟩ 0 false rfl rfl)).tail
    (@Step.commit _ ⟨0, .read, .commit false⟩ 0 false rfl rfl)

/-- Thread `0`, holding that read guard, calls `try_write`: the native lock grants the
write (no other thread holds anything), and the check refuses it. -/
theorem reachable_refused_write :
    Reachable ⟨⟨⟨[(0, .write), (0, .read)]⟩, false, 1⟩,
      ⟨0, .write, .undo true⟩ ::ₘ {⟨0, .read, .live⟩}⟩ :=
  (reachable_one_reader.tail
    (@Step.grant _ 0 .write true (.grant _ fun ⟨_, hh, hne, _⟩ => hne (by simp at hh; simp [hh]))
      fun _ hb _ => by simp at hb; simp [hb])).tail
    (@Step.check _ ⟨0, .write, .check true⟩ _ true rfl rfl)

/-- Thread `0` holds a read guard; thread `1`'s `try_write` gets `None`. -/
theorem tryWrite_beside_one_reader :
    Reachable ⟨⟨⟨[(0, .read)]⟩, false, 1⟩, {⟨0, .read, .live⟩}⟩ ∧
    (∃ a ∈ ({⟨0, .read, .live⟩} : Multiset Hold), a.mode = .read ∧ a.phase = .live) ∧
    RwLock.tryWrite ⟨⟨[(0, .read)]⟩, false, 1⟩ 1 0 = (.ret false, ⟨⟨[(0, .read)]⟩, false, 1⟩) :=
  have hr : ∃ a ∈ ({⟨0, .read, .live⟩} : Multiset Hold), a.mode = .read ∧ a.phase = .live :=
    ⟨_, Multiset.mem_singleton_self _, rfl, rfl⟩
  ⟨reachable_one_reader, hr, tryWrite_beside_reader reachable_one_reader hr 1 0⟩

/-- The refused grant above, undone: the `unlock` takes back exactly the write grant,
and thread `0`'s `try_write`, run whole, returns `None` and leaves the lock as it was. -/
theorem bookkeeping_exact_refused_grant :
    ∃ s, Reachable s ∧ s.held = ⟨0, .write, .undo true⟩ ::ₘ {⟨0, .read, .live⟩} ∧
      Step s ⟨⟨⟨[(0, .read)]⟩, false, 1⟩, {⟨0, .read, .live⟩}⟩ ∧
      (RwLock.tryWrite ⟨⟨[(0, .read)]⟩, false, 1⟩ 0 0).2 = ⟨⟨[(0, .read)]⟩, false, 1⟩ ∧
      ((s.rw.writeLocked = true ↔ ∃ a ∈ s.held, a.mode = .write ∧ a.phase = .live) ∧
      s.rw.numReaders = s.held.countP (fun a => a.mode = .read ∧ a.phase = .live) ∧
      (∀ a ∈ s.held, a.mode = .read → a.phase = .live → 0 < s.rw.numReaders) ∧
      GuardExcl s.held ∧
      ∀ h rest tries, s.held = h ::ₘ rest → h.phase = .undo tries →
        (s.rw.unlock h.tid).1 = .ret () ∧
        (s.rw.unlock h.tid).2.writeLocked = s.rw.writeLocked ∧
        (s.rw.unlock h.tid).2.numReaders = s.rw.numReaders ∧
        ((s.rw.unlock h.tid).2.lock.holds : Multiset (ℕ × Mode)) =
          (s.rw.lock.holds : Multiset (ℕ × Mode)).erase h.key) :=
  have h := reachable_refused_write
  ⟨_, h, rfl, @Step.undo _ ⟨0, .write, .undo true⟩ _ true rfl rfl,
    (bookkeeping_exact.2 _ 0 0).2.2.1 (by decide), bookkeeping_exact.1 _ h⟩

/-! ### Only a reentrant request is refused

The checks are there for a thread that asks for the lock while it holds it: a
native lock that is not POSIX's may grant that. For any other request they never
fire, since a grant already keeps every other thread's conflicting hold away. -/

namespace Inv

variable {s : Shim}

/-- The native lock keeps every other thread's conflicting hold away from a hold. -/
theorem not_othersConflict (hi : Inv s) {a : Hold} (ha : a ∈ s.held) :
    ¬ s.rw.lock.OthersConflict a.tid a.mode := by
  rintro ⟨b, hb, hne, hw | hw⟩
  · exact hne (hi.exclusive _ (hi.key_mem ha) hw b hb)
  · exact hne (hi.exclusive b hb hw _ (hi.key_mem ha)).symm

/-- A thread with no hold of its own has no native hold to conflict with. -/
theorem not_selfConflict (hi : Inv s) {t : ℕ} (ht : ∀ b ∈ s.held, b.tid ≠ t) (m : Mode) :
    ¬ s.rw.lock.SelfConflict t m := by
  rintro ⟨k, hk, rfl, -⟩
  have hk' : k ∈ s.held.map Hold.key := by rw [← hi.native]; exact Multiset.mem_coe.mpr hk
  obtain ⟨b, hb, rfl⟩ := Multiset.mem_map.mp hk'
  exact ht b hb rfl

/-- The check lets a grant through unless the thread has a live guard itself. -/
theorem admits_of_unheld (hi : Inv s) {t : ℕ} {m : Mode}
    (ht : ∀ b ∈ s.held, b.phase = .live → b.tid ≠ t) (hc : ¬ s.rw.lock.OthersConflict t m) :
    s.rw.admits m = true := by
  have other : ∀ b ∈ s.held, b.phase = .live → ¬ (m = .write ∨ b.mode = .write) :=
    fun b hb hl hw => hc ⟨b.key, hi.key_mem hb, ht b hb hl, hw⟩
  have hw : s.rw.writeLocked = false := by
    by_contra hw
    obtain ⟨b, hb, hbw, hbl⟩ := hi.writeLocked_iff.mp (by simpa using hw)
    exact other b hb hbl (.inr hbw)
  cases m with
  | read => simp [RwLock.admits, hw]
  | write =>
    have hn : s.rw.numReaders = 0 := by
      rw [hi.numReaders_eq, Multiset.countP_eq_zero]
      exact fun b hb hl => other b hb hl.2 (.inl rfl)
    simp [RwLock.admits, hw, hn]

end Inv

/-- A refused grant belongs to a thread that holds a live guard already. -/
def ReentrantUndo (m : Multiset Hold) : Prop :=
  ∀ a ∈ m, ∀ tries, a.phase = .undo tries → ∃ b ∈ m, b.tid = a.tid ∧ b.phase = .live

theorem mem_rest_of_phase {m rest : Multiset Hold} {h b : Hold} (hs : m = h ::ₘ rest)
    (hb : b ∈ m) (hp : b.phase ≠ h.phase) : b ∈ rest :=
  (Multiset.mem_cons.mp (hs ▸ hb)).resolve_left fun e => hp (e ▸ rfl)

/-- Taking away a hold that is no live guard keeps the fact. -/
theorem ReentrantUndo.rest {m rest : Multiset Hold} {h : Hold} (hu : ReentrantUndo m)
    (hs : m = h ::ₘ rest) (hh : h.phase ≠ .live) : ReentrantUndo rest := fun a ha tries hp => by
  obtain ⟨b, hb, hbt, hbl⟩ := hu a (hs ▸ Multiset.mem_cons_of_mem ha) tries hp
  exact ⟨b, mem_rest_of_phase hs hb (hbl ▸ Ne.symm hh), hbt, hbl⟩

/-- A hold added beside others keeps the fact if, refused, its thread has a live
guard among them. -/
theorem ReentrantUndo.cons {rest : Multiset Hold} (hu : ReentrantUndo rest) {h : Hold}
    (hh : ∀ tries, h.phase = .undo tries → ∃ b ∈ rest, b.tid = h.tid ∧ b.phase = .live) :
    ReentrantUndo (h ::ₘ rest) := fun a ha tries hp => by
  have : ∃ b ∈ rest, b.tid = a.tid ∧ b.phase = .live := by
    rcases Multiset.mem_cons.mp ha with rfl | ha
    exacts [hh tries hp, hu a ha tries hp]
  obtain ⟨b, hb, hbt, hbl⟩ := this
  exact ⟨b, Multiset.mem_cons_of_mem hb, hbt, hbl⟩

theorem ReentrantUndo.step {s s' : Shim} (hi : Inv s) (hu : ReentrantUndo s.held)
    (h : Step s s') : ReentrantUndo s'.held := by
  cases h with
  | grant => exact hu.cons fun _ hp => by cases hp
  | @check h rest _ hs hp =>
    refine (hu.rest hs (by simp [hp])).cons fun _ hpa => ?_
    -- the check refused: by `admits_of_unheld`, the thread has a live guard
    have hr : s.rw.admits h.mode = false := by by_contra hr; simp [hr] at hpa
    obtain ⟨b, hb, hbl, hbt⟩ : ∃ b ∈ s.held, b.phase = .live ∧ b.tid = h.tid := by
      by_contra hno
      push_neg at hno
      simp [hi.admits_of_unheld hno (hi.not_othersConflict (hs ▸ Multiset.mem_cons_self _ _))] at hr
    exact ⟨b, mem_rest_of_phase hs hb (by simp [hbl, hp]), hbt, hbl⟩
  | commit hs hp => exact (hu.rest hs (by simp [hp])).cons fun _ hpa => by cases hpa
  | undo hs hp | release hs hp => exact hu.rest hs (by simp [hp])
  | @dropStart h rest hs hp ht =>
    -- `h` is a live guard, but its thread is in no call: a refused grant is another's
    refine ReentrantUndo.cons (fun a ha tries hpa => ?_) fun _ hpa => by cases hpa
    obtain ⟨b, hb, hbt, hbl⟩ := hu a (hs ▸ Multiset.mem_cons_of_mem ha) tries hpa
    rcases Multiset.mem_cons.mp (hs ▸ hb) with hbh | hb
    · simp [ht a ha (hbh ▸ hbt).symm] at hpa
    · exact ⟨b, hb, hbt, hbl⟩

/-- **The checks fire only for reentrant use.** In every reachable state, whatever the
threads and however the native lock answers: a grant the check refused belongs to a
thread that holds a live guard of the lock already; and a thread that holds nothing of
the lock gets from `read` a guard or the `EAGAIN` panic, from `write` a guard, and from
`try_read` or `try_write` a guard exactly when the native call returns `0`: never the
"would result in deadlock" panics nor a `None` from a refused grant. -/
theorem refusals_reentrant {s : Shim} (h : Reachable s) :
    (∀ a ∈ s.held, ∀ tries, a.phase = .undo tries →
      ∃ b ∈ s.held, b.tid = a.tid ∧ b.phase = .live) ∧
    ∀ t, (∀ b ∈ s.held, b.tid ≠ t) → ∀ r,
      (s.rw.lock.LockReturns t .read r → r = EAGAIN ∨ (s.rw.read t r).1 = .ret ()) ∧
      (s.rw.lock.LockReturns t .write r → (s.rw.write t r).1 = .ret ()) ∧
      (s.rw.lock.TryReturns t .read r → (s.rw.tryRead t r).1 = .ret (decide (r = 0))) ∧
      (s.rw.lock.TryReturns t .write r → (s.rw.tryWrite t r).1 = .ret (decide (r = 0))) := by
  have hi := h.inv
  refine ⟨?_, fun t ht r => ?_⟩
  · induction h with
    | refl => intro a ha; simp [init] at ha
    | tail hr hst ih => exact ReentrantUndo.step (Reachable.inv hr) (ih (Reachable.inv hr)) hst
  have admits : ∀ m, ¬ s.rw.lock.OthersConflict t m → s.rw.admits m = true :=
    fun m => hi.admits_of_unheld fun b hb _ => ht b hb
  have self := hi.not_selfConflict ht
  refine ⟨fun hr => ?_, fun hr => ?_, fun hr => ?_, fun hr => ?_⟩
  · cases hr with
    | grant _ hc => exact .inr (by simp [RwLock.read_zero, admits _ hc])
    | eagain => exact .inl rfl
    | edeadlk _ hc => exact absurd hc (self _)
  · cases hr with
    | grant _ hc => simp [RwLock.write_zero, admits _ hc]
    | edeadlk _ hc => exact absurd hc (self _)
  · cases hr with
    | grant hc => simp [RwLock.tryRead_zero, admits _ hc]
    | fail _ hr => simp [RwLock.tryRead, hr]
  · cases hr with
    | grant hc => simp [RwLock.tryWrite_zero, admits _ hc]
    | fail _ hr => simp [RwLock.tryWrite, hr]

/-- At the refused grant of thread `0`, which holds a read guard; thread `1` holds
nothing. -/
theorem refusals_reentrant_refused_grant :
    ∃ s, Reachable s ∧ ⟨0, .write, .undo true⟩ ∈ s.held ∧ (∀ b ∈ s.held, b.tid ≠ 1) ∧
    ((∀ a ∈ s.held, ∀ tries, a.phase = .undo tries →
      ∃ b ∈ s.held, b.tid = a.tid ∧ b.phase = .live) ∧
    ∀ t, (∀ b ∈ s.held, b.tid ≠ t) → ∀ r,
      (s.rw.lock.LockReturns t .read r → r = EAGAIN ∨ (s.rw.read t r).1 = .ret ()) ∧
      (s.rw.lock.LockReturns t .write r → (s.rw.write t r).1 = .ret ()) ∧
      (s.rw.lock.TryReturns t .read r → (s.rw.tryRead t r).1 = .ret (decide (r = 0))) ∧
      (s.rw.lock.TryReturns t .write r → (s.rw.tryWrite t r).1 = .ret (decide (r = 0)))) :=
  have h := reachable_refused_write
  ⟨_, h, by simp, by simp, refusals_reentrant h⟩

end Shim

end Unix

end PinnedSync.Sys
