import Mathlib.Logic.Relation

/-!
# Calls that panic, and what an acquisition returns

The vocabulary the modules share. A call of the crate either returns or panics
(`Outcome`); a panic unwinds the calling thread, and whatever the call wrote to
shared state before it panicked stays written. An acquisition of a `Mutex` or an
`RwLock` returns `std::sync::LockResult`, whose error variant still carries the
guard (`PoisonError::into_inner`), and a `try_*` acquisition returns
`std::sync::TryLockResult`, which adds `WouldBlock`.

Threads are named by natural numbers: any number of them may take part in a run.
-/

namespace PinnedSync

/-- What a call does for its caller: it returns, or it panics and the caller unwinds. -/
inductive Outcome (α : Type) where
  /-- The call returned `a`. -/
  | ret (a : α)
  /-- The call panicked with this message. -/
  | panic (msg : String)
  deriving DecidableEq, Repr

/-- `o`, then `k`: `k` runs only when `o` returned. -/
def Outcome.andThen {α : Type} (o : Outcome Unit) (k : Outcome α) : Outcome α :=
  match o with
  | .ret () => k
  | .panic msg => .panic msg

@[simp] theorem Outcome.ret_andThen {α : Type} (k : Outcome α) : (Outcome.ret ()).andThen k = k :=
  rfl

/-- `std::sync::LockResult<T>`: `Ok(t)`, or `Err(PoisonError::new(t))`, which still
carries `t`. -/
inductive LockResult (α : Type) where
  /-- `Ok(t)`. -/
  | ok (a : α)
  /-- `Err(PoisonError::new(t))`. -/
  | poisoned (a : α)
  deriving DecidableEq, Repr

namespace LockResult

/-- The value either way: `PoisonError::into_inner` on the error. -/
def inner : LockResult α → α
  | ok a => a
  | poisoned a => a

/-- Whether the result is the `Err` variant. -/
def isPoisoned : LockResult α → Bool
  | ok _ => false
  | poisoned _ => true

@[simp] theorem inner_ok (a : α) : (ok a).inner = a := rfl
@[simp] theorem inner_poisoned (a : α) : (poisoned a).inner = a := rfl
@[simp] theorem isPoisoned_ok (a : α) : (ok a).isPoisoned = false := rfl
@[simp] theorem isPoisoned_poisoned (a : α) : (poisoned a).isPoisoned = true := rfl

end LockResult

/-- `std::sync::TryLockResult<T>`. -/
inductive TryLockResult (α : Type) where
  /-- `Ok(t)`. -/
  | ok (a : α)
  /-- `Err(TryLockError::Poisoned(PoisonError::new(t)))`. -/
  | poisoned (a : α)
  /-- `Err(TryLockError::WouldBlock)`. -/
  | wouldBlock
  deriving DecidableEq, Repr

end PinnedSync
