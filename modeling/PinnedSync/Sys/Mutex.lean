import PinnedSync.InitAssert

/-!
# The sys mutexes

`sys::unix::mutex::Mutex` is a `pthread_mutex_t` of kind `PTHREAD_MUTEX_NORMAL`
kept in an `InitAssert`; every call goes through `self.lock.get()`, whose assertion
panics unless the gate is `INIT`. `sys::fallback::mutex::Mutex` keeps a
`std::sync::Mutex<()>` in an `InitAssert` and drops its poisoning
(`ignore_poison`, `try_ignore_poison`).

    unix   try_lock: let result = libc::pthread_mutex_lock(self.lock.get());
                     if result == 0 { Some(MutexGuard { mutex: self }) } else { None }
    fallback try_lock: try_ignore_poison(self.get_ref().mutex.get_ref().try_lock())

## The model

A native call either returns or blocks its caller (`Call`). A NORMAL mutex is its
owner; `pthread_mutex_lock` on an owned mutex blocks until the owner unlocks it,
which for a caller that is the owner is never. `std::sync::Mutex<()>::try_lock` never
blocks.

## What is proved

* `tryLock_of_held_blocks`: the unix `try_lock` calls `pthread_mutex_lock`, not
  `pthread_mutex_trylock`, so on an owned mutex it blocks, whoever calls it
  (`Unix.Mutex.tryLock_blocks`), where the fallback `try_lock` returns `None` at once
  (`Fallback.Mutex.tryLock_owned`).
* `Unix.Mutex.tryLock_ne_none`: the `None` branch of the unix `try_lock` is dead.
* `Unix.Mutex.stray_init_panics_after`: after a stray second `init` on an initialized
  mutex (see `Gate.stray_init_locks_out`), every later drop of a guard and every
  later `lock` panic in `get`; `Unix.Mutex.stray_init_strands_guard` is one such run,
  in which a live guard's drop panics before it unlocks, and the pthread mutex stays
  locked.
-/

namespace PinnedSync.Sys

/-- What a native call does for its caller: it returns now, or it blocks until
another thread's step changes what it waits for. -/
inductive Call (α : Type) where
  /-- The call returns `a`. -/
  | returns (a : α)
  /-- The call blocks. -/
  | blocks
  deriving DecidableEq, Repr

/-- `EPERM` (Linux). -/
def EPERM : ℤ := 1

/-- Stands for undefined behaviour: a read of `InitAssert` storage never written,
which `Gate.Inv` rules out once the state is `INIT`. -/
def UNINIT_READ : String := "read of uninitialized storage"

/-- A `pthread_mutex_t` of kind `PTHREAD_MUTEX_NORMAL`: the thread that owns it. -/
structure PthreadMutex where
  /-- The owner. -/
  owner : Option ℕ
  deriving DecidableEq, Repr

namespace PthreadMutex

/-- What `pthread_mutex_init` leaves. -/
def unlocked : PthreadMutex := ⟨none⟩

/-- `pthread_mutex_lock` by thread `t`: an owned mutex blocks the caller (for good
when the caller owns it: a NORMAL mutex does not detect the deadlock). -/
def lock (m : PthreadMutex) (t : ℕ) : Call (ℤ × PthreadMutex) :=
  match m.owner with
  | none => .returns (0, ⟨some t⟩)
  | some _ => .blocks

/-- `pthread_mutex_unlock` by thread `t`; `EPERM` when `t` does not own it. -/
def unlock (m : PthreadMutex) (t : ℕ) : ℤ × PthreadMutex :=
  if m.owner = some t then (0, ⟨none⟩) else (EPERM, m)

theorem lock_eq_returns {m : PthreadMutex} {t : ℕ} {x : ℤ × PthreadMutex} :
    m.lock t = .returns x ↔ m.owner = none ∧ x = (0, ⟨some t⟩) := by
  unfold lock
  cases m.owner <;> simp [eq_comm]

theorem unlock_of_owner {m : PthreadMutex} {t : ℕ} (h : m.owner = some t) :
    m.unlock t = (0, ⟨none⟩) := by
  simp [unlock, h]

end PthreadMutex

namespace Unix

/-- `sys::unix::mutex::Mutex`. -/
structure Mutex where
  /-- The field `lock: InitAssert<pthread_mutex_t>` (named `cell` here, apart from the
  method `lock`). -/
  cell : InitAssert PthreadMutex
  deriving DecidableEq, Repr

namespace Mutex

/-- `Mutex::uninit()`. -/
def uninit : Mutex := ⟨InitAssert.new⟩

/-- `Mutex::init`: `init_with` around `pthread_mutex_init` of a NORMAL mutex (the
attribute calls succeed), both halves of `init_with` at once. -/
def init (m : Mutex) : Outcome Unit × Mutex :=
  let (r, c) := m.cell.initBegin
  match r with
  | .ret () => (.ret (), ⟨c.initEnd PthreadMutex.unlocked⟩)
  | .panic msg => (.panic msg, ⟨c⟩)

/-- `self.lock.get()`, dereferenced: the native mutex. -/
def raw (m : Mutex) : Outcome PthreadMutex :=
  match m.cell.getRef with
  | .ret (some p) => .ret p
  | .ret none => .panic UNINIT_READ
  | .panic msg => .panic msg

/-- The native mutex written back through the pointer. -/
def set (m : Mutex) (p : PthreadMutex) : Mutex := ⟨{ m.cell with data := some p }⟩

/-- `Mutex::lock`: `lock_inner(self.lock.get())`, i.e. `pthread_mutex_lock`. -/
def lock (m : Mutex) (t : ℕ) : Outcome (Call Mutex) :=
  match m.raw with
  | .panic msg => .panic msg
  | .ret p =>
    match p.lock t with
    | .returns (_, p') => .ret (.returns (m.set p'))
    | .blocks => .ret .blocks

/-- `Mutex::try_lock`: `pthread_mutex_lock`, then `Some` on `0` and `None` otherwise. -/
def tryLock (m : Mutex) (t : ℕ) : Outcome (Call (Option Unit × Mutex)) :=
  match m.raw with
  | .panic msg => .panic msg
  | .ret p =>
    match p.lock t with
    | .returns (result, p') => .ret (.returns (if result = 0 then some () else none, m.set p'))
    | .blocks => .ret .blocks

/-- `MutexGuard::drop` by thread `t`: `pthread_mutex_unlock(self.as_raw())`, with
`as_raw` going through `get`, and `debug_assert_eq!(result, 0)`. -/
def dropGuard (m : Mutex) (t : ℕ) : Outcome Mutex :=
  match m.raw with
  | .panic msg => .panic msg
  | .ret p =>
    let (result, p') := p.unlock t
    if result = 0 then .ret (m.set p') else .panic ASSERT_EQ_FAILED

theorem raw_of_init {m : Mutex} {p : PthreadMutex} (hs : m.cell.state = INIT)
    (hd : m.cell.data = some p) : m.raw = .ret p := by
  simp [raw, InitAssert.getRef, InitAssert.get, hs, hd]

/-- **The unix `try_lock` blocks** on an owned mutex, for every caller: another
thread waits for the owner, and the owner itself waits for good. -/
theorem tryLock_blocks {m : Mutex} {u : ℕ} (hs : m.cell.state = INIT)
    (hd : m.cell.data = some ⟨some u⟩) (t : ℕ) : m.tryLock t = .ret .blocks := by
  simp [tryLock, raw_of_init hs hd, PthreadMutex.lock]

/-- What `Mutex::boxed`/`Mutex::arc` leave: an initialized, unowned mutex. -/
def boxed : Mutex := uninit.init.2

theorem raw_of_get_panic {m : Mutex} {msg : String} (h : m.cell.get = .panic msg) :
    m.raw = .panic msg := by
  simp [raw, InitAssert.getRef, h]

/-- **After a stray `init`, every drop and every lock panics.** On any reachable gate
whose initializer completed, a second `init` panics and leaves the gate
`INIT_IN_PROGRESS`; in every state a run of the gate reaches from there, the drop of a
guard by any thread, and `lock` by any thread, panic in `get`
(`Gate.stray_init_locks_out`). -/
theorem stray_init_panics_after {g : Gate PthreadMutex} (h : Gate.Reachable g)
    (hs : g.cell.state = INIT) :
    (mk g.cell).init = (.panic ASSERT_EQ_FAILED, ⟨g.callInit.2.cell⟩) ∧
      ∀ g', Relation.ReflTransGen Gate.Step g.callInit.2 g' → ∀ t,
        (mk g'.cell).dropGuard t = .panic ASSERT_EQ_FAILED ∧
          (mk g'.cell).lock t = .panic ASSERT_EQ_FAILED := by
  refine ⟨by simp [init, InitAssert.initBegin, hs, INIT, UNINIT], fun g' hg' t => ?_⟩
  have hr := raw_of_get_panic (m := mk g'.cell) ((Gate.stray_init_locks_out h hs).2 g' hg').1
  exact ⟨by simp [dropGuard, hr], by simp [lock, hr]⟩

/-- **A stray `init` strands a live guard.** Thread `0` locks a boxed mutex; a second
`init` panics and leaves the gate `INIT_IN_PROGRESS`; the drop of thread `0`'s guard
then panics in `get` before it can unlock, the pthread mutex stays owned by thread
`0`, and every later `lock` panics. -/
theorem stray_init_strands_guard :
    boxed.lock 0 = .ret (.returns ⟨⟨INIT, some ⟨some 0⟩⟩⟩) ∧
    (mk ⟨INIT, some ⟨some 0⟩⟩).init =
      (.panic ASSERT_EQ_FAILED, ⟨⟨INIT_IN_PROGRESS, some ⟨some 0⟩⟩⟩) ∧
    (mk ⟨INIT_IN_PROGRESS, some ⟨some 0⟩⟩).dropGuard 0 = .panic ASSERT_EQ_FAILED ∧
    (mk ⟨INIT_IN_PROGRESS, some ⟨some 0⟩⟩).lock 1 = .panic ASSERT_EQ_FAILED := by
  have hg : Gate.Reachable (⟨⟨INIT, some ⟨some 0⟩⟩, false, 1, true⟩ : Gate PthreadMutex) :=
    (Relation.ReflTransGen.single (Gate.Step.init Gate.new)).tail (Gate.Step.finish _ _ rfl)
  obtain ⟨hinit, hlater⟩ := stray_init_panics_after hg rfl
  exact ⟨by decide, hinit, (hlater _ .refl 0).1, (hlater _ .refl 1).2⟩

end Mutex

end Unix

namespace Fallback

/-- `std::sync::Mutex<()>`, as the fallback sees it: its owner. -/
structure StdMutex where
  /-- The owner. -/
  owner : Option ℕ
  deriving DecidableEq, Repr

/-- `std::sync::Mutex::try_lock` by thread `t`: never blocks. (Its own poisoning is
dropped by the caller, so it is not kept.) -/
def StdMutex.tryLock (m : StdMutex) (t : ℕ) : TryLockResult StdMutex :=
  match m.owner with
  | none => .ok ⟨some t⟩
  | some _ => .wouldBlock

/-- `try_ignore_poison`. -/
def tryIgnorePoison {α : Type} (result : TryLockResult α) : Option α :=
  match result with
  | .ok lock => some lock
  | .poisoned error => some error
  | .wouldBlock => none

/-- `sys::fallback::mutex::Mutex`: `mutex: InitAssert<sync::Mutex<()>>`. -/
structure Mutex where
  /-- `mutex`. -/
  mutex : InitAssert StdMutex
  deriving DecidableEq, Repr

/-- `Mutex::try_lock`: `try_ignore_poison(self.get_ref().mutex.get_ref().try_lock())`;
the guard is the `std` guard, so a successful call leaves the `std` mutex owned. -/
def Mutex.tryLock (m : Mutex) (t : ℕ) : Outcome (Option Unit × Mutex) :=
  match m.mutex.getRef with
  | .ret (some p) =>
    match tryIgnorePoison (p.tryLock t) with
    | some p' => .ret (some (), ⟨{ m.mutex with data := some p' }⟩)
    | none => .ret (none, m)
  | .ret none => .panic UNINIT_READ
  | .panic msg => .panic msg

/-- The fallback `try_lock` on an owned mutex returns `None` at once. -/
theorem Mutex.tryLock_owned {m : Mutex} {u : ℕ} (hs : m.mutex.state = INIT)
    (hd : m.mutex.data = some ⟨some u⟩) (t : ℕ) : m.tryLock t = .ret (none, m) := by
  simp [Mutex.tryLock, InitAssert.getRef, InitAssert.get, hs, hd, StdMutex.tryLock,
    tryIgnorePoison]

end Fallback

/-- **`try_lock` on a held mutex**: thread `0` holds a boxed unix mutex; `try_lock`
by thread `0` itself or by thread `1` blocks instead of returning `None`, where the
fallback backend returns `None` at once. -/
theorem tryLock_of_held_blocks :
    Unix.Mutex.boxed.lock 0 = .ret (.returns ⟨⟨INIT, some ⟨some 0⟩⟩⟩) ∧
    (Unix.Mutex.mk ⟨INIT, some ⟨some 0⟩⟩).tryLock 0 = .ret .blocks ∧
    (Unix.Mutex.mk ⟨INIT, some ⟨some 0⟩⟩).tryLock 1 = .ret .blocks ∧
    (Fallback.Mutex.mk ⟨INIT, some ⟨some 0⟩⟩).tryLock 1 =
      .ret (none, ⟨⟨INIT, some ⟨some 0⟩⟩⟩) :=
  ⟨by decide, Unix.Mutex.tryLock_blocks rfl rfl 0, Unix.Mutex.tryLock_blocks rfl rfl 1,
    Fallback.Mutex.tryLock_owned rfl rfl 1⟩

end PinnedSync.Sys
