import PinnedSync.Mutex
import PinnedSync.Sys.RwLock

/-!
# `RwLock` poisoning

The crate's `RwLock<T>` over its sys lock:

    read:  let guard = self.inner().read();
           poison::map_result(self.poison.borrow(), |_| RwLockReadGuard { _guard: guard, lock: self })
    write: let guard = self.inner().write();
           poison::map_result(self.poison.borrow(), |poison| RwLockWriteGuard { _guard: guard, lock: self, poison })

    impl Drop for RwLockWriteGuard { fn drop(&mut self) { self.lock.poison.done(&self.poison); } }

`try_read` and `try_write` do the same once their sys call returns a guard.
`RwLockReadGuard` has no `Drop` of its own: dropping one drops its sys guard, which
unlocks. Dropping a write guard runs `done`, and then drops its sys guard.

## The model

The sys lock is a readers-writer lock: it grants a read while no write is held, and a
write while nothing is (`Admits`): `shim_refines` shows the unix shim's guards keep
to that rule. A sys call that returns `None` or panics changes nothing
(`Sys.Unix.Shim.bookkeeping_exact`), so it is no step here. The native holds are
numbered in the order the sys lock grants them (the lock order), and `State.guards`
maps a number to the guard built on that hold. `thread::panicking()` of each thread is
`panicking`; a thread starts or stops unwinding only outside a call and a drop of the
lock. The flag's operations are logged as in `Mutex`.

## What is proved

* `Reachable.inv`: a write guard is the only hold and the newest; the log obeys the
  poisoning law (`Poison.Consistent`).
* `shim_refines`: every step of the unix shim moves its guards' holds as a
  readers-writer lock does (`LockStep`).
* `poison_flag_law`: for a `Mutex` and an `RwLock`, in every reachable state the flag
  is set iff an exclusive guard taken while not unwinding was dropped while unwinding,
  and each acquisition reported `Poisoned` iff such a drop happened under an earlier
  hold; once set the flag stays set; only such a drop sets it (never a read guard's),
  while the lock is still held; and every acquisition, `Ok` or `Poisoned`, leaves its
  thread a live guard on the lock.
-/

namespace PinnedSync

namespace RwLock

open Poison Sys

/-- Where a guard stands. -/
inductive Stage where
  /-- The sys lock granted the hold; `poison.borrow()` is next. -/
  | granted
  /-- A live `RwLockReadGuard` or `RwLockWriteGuard`, returned in `Ok` or inside a
  `PoisonError`. -/
  | live
  /-- A write guard's `drop` ran `poison.done`; the drop of its sys guard, which
  unlocks, is next. -/
  | dropping
  deriving DecidableEq, Repr

/-- A guard, on the native hold of its number. -/
structure Guard where
  /-- The thread that holds it. -/
  tid : ℕ
  /-- Shared or exclusive. -/
  mode : Mode
  /-- The `poison::Guard` that `borrow` made: the field `poison` of a write guard (a
  read's is dropped at once and never read). -/
  token : Bool
  /-- Where it stands. -/
  stage : Stage
  deriving DecidableEq, Repr

/-- An `RwLock` (`poison`, over its sys lock) and the threads using it. -/
structure State where
  /-- The guard on each native hold, by the hold's number. -/
  guards : ℕ → Option Guard
  /-- `poison`. -/
  poison : Flag
  /-- Each thread's `thread::panicking()`. -/
  panicking : ℕ → Bool
  /-- The number of native holds granted so far; the `n`th is numbered `n`. -/
  acquired : ℕ
  /-- The flag's operations, newest first. -/
  log : List Event

/-- `RwLock::boxed(value)`, before any thread uses it. -/
def boxed : State := ⟨fun _ => none, Flag.new, fun _ => false, 0, []⟩

/-- The sys lock grants a hold in mode `m`: a read while no write is held, a write
while nothing is. -/
def Admits (guards : ℕ → Option Guard) : Mode → Prop
  | .read => ∀ n g, guards n = some g → g.mode = .read
  | .write => ∀ n, guards n = none

/-- Thread `t` is in no call and no drop of the lock: its guards are all live. -/
def Free (s : State) (t : ℕ) : Prop :=
  ∀ n g, s.guards n = some g → g.tid = t → g.stage = .live

/-- One step of some thread. -/
inductive Step : State → State → Prop
  /-- `self.inner().read()` or `write()`, or a `try_` form, gets the native lock. -/
  | grant {s : State} {t : ℕ} {m : Mode} (ht : Free s t) (hm : Admits s.guards m) :
      Step s { s with
        guards := Function.update s.guards s.acquired (some ⟨t, m, false, .granted⟩)
        acquired := s.acquired + 1 }
  /-- `map_result(self.poison.borrow(), ..)`: the guard, in `Ok` or in
  `Err(PoisonError)`. -/
  | borrow {s : State} {n : ℕ} {g : Guard} (hg : s.guards n = some g) (hs : g.stage = .granted) :
      Step s { s with
        guards := Function.update s.guards n
          (some { g with token := s.panicking g.tid, stage := .live })
        log := .acquire n (s.poison.borrow (s.panicking g.tid)).isPoisoned :: s.log }
  /-- The drop of an `RwLockReadGuard`: its sys guard unlocks. -/
  | dropRead {s : State} {n : ℕ} {g : Guard} (hg : s.guards n = some g) (hm : g.mode = .read)
      (hs : g.stage = .live) (ht : Free s g.tid) :
      Step s { s with guards := Function.update s.guards n none }
  /-- `RwLockWriteGuard::drop`: `self.lock.poison.done(&self.poison)`. -/
  | dropWrite {s : State} {n : ℕ} {g : Guard} (hg : s.guards n = some g) (hm : g.mode = .write)
      (hs : g.stage = .live) (ht : Free s g.tid) :
      Step s { s with
        guards := Function.update s.guards n (some { g with stage := .dropping })
        poison := s.poison.done ⟨g.token⟩ (s.panicking g.tid)
        log := .done n g.token (s.panicking g.tid) :: s.log }
  /-- The drop of a write guard's field `_guard`: its sys guard unlocks. -/
  | unlock {s : State} {n : ℕ} {g : Guard} (hg : s.guards n = some g) (hs : g.stage = .dropping) :
      Step s { s with guards := Function.update s.guards n none }
  /-- Outside the lock's code the thread starts to unwind, or a `catch_unwind` ends its
  unwinding. -/
  | unwind {s : State} {t : ℕ} (b : Bool) (ht : Free s t) :
      Step s { s with panicking := Function.update s.panicking t b }

/-- The states some run reaches from `boxed`. -/
def Reachable (s : State) : Prop := Relation.ReflTransGen Step boxed s

/-! ### The invariant -/

/-- What holds in every reachable state. -/
structure Inv (s : State) : Prop where
  hold_lt : ∀ n g, s.guards n = some g → n < s.acquired
  /-- A write hold is the newest hold, and the only one. -/
  write_alone : ∀ n g, s.guards n = some g → g.mode = .write →
    n + 1 = s.acquired ∧ ∀ m, m ≠ n → s.guards m = none
  log_lt : ∀ e ∈ s.log, e.hold < s.acquired
  /-- Every poisoning drop so far happened under an earlier hold than any whose read of
  the flag is to come. -/
  granted_after : ∀ n g, s.guards n = some g → g.stage = .granted →
    ∀ e ∈ s.log, e.poisons = true → e.hold < n
  consistent : Consistent s.poison.failed s.log

theorem inv_boxed : Inv boxed where
  hold_lt _ _ h := by simp [boxed] at h
  write_alone _ _ h := by simp [boxed] at h
  log_lt _ h := by simp [boxed] at h
  granted_after _ _ h := by simp [boxed] at h
  consistent := consistent_nil

/-- A guard seen after an update of one hold: the new one, or one that was there. -/
theorem update_eq_some {f : ℕ → Option Guard} {n m : ℕ} {o : Option Guard} {x : Guard}
    (h : Function.update f n o m = some x) : (m = n ∧ o = some x) ∨ (m ≠ n ∧ f m = some x) := by
  by_cases hmn : m = n
  · subst hmn; exact .inl ⟨rfl, by simpa using h⟩
  · exact .inr ⟨hmn, by simpa [Function.update_noteq hmn] using h⟩

/-- While the sys lock admits a hold, every hold is a read. -/
theorem Admits.read_of_some {gs : ℕ → Option Guard} {m : Mode} (hm : Admits gs m) {n : ℕ}
    {g : Guard} (hg : gs n = some g) : g.mode = .read := by
  cases m with
  | read => exact hm n g hg
  | write => simp [hm n] at hg

namespace Inv

variable {s : State}

/-- A step that changes one guard in place, keeping its mode and past its `borrow`,
with the count and the flag's operations as they were, keeps the invariant. -/
theorem update_some (hi : Inv s) {n : ℕ} {g : Guard} (hg : s.guards n = some g) (g' : Guard)
    (hm : g'.mode = g.mode) (hs : g'.stage ≠ .granted) :
    Inv { s with guards := Function.update s.guards n (some g') } := by
  refine ⟨fun m x hx => ?_, fun m x hx hw => ?_, hi.log_lt, fun m x hx hgr => ?_, hi.consistent⟩
  · rcases update_eq_some hx with ⟨rfl, -⟩ | ⟨-, hx⟩
    · exact hi.hold_lt m g hg
    · exact hi.hold_lt m x hx
  · obtain ⟨y, hy, hyw⟩ : ∃ y, s.guards m = some y ∧ y.mode = .write := by
      rcases update_eq_some hx with ⟨rfl, ho⟩ | ⟨-, hx⟩
      · cases Option.some.inj ho; exact ⟨g, hg, hm ▸ hw⟩
      · exact ⟨x, hx, hw⟩
    obtain ⟨h1, h2⟩ := hi.write_alone m y hy hyw
    refine ⟨h1, fun k hk => ?_⟩
    have hkn : k ≠ n := by rintro rfl; simp [h2 k hk] at hg
    simpa [Function.update_noteq hkn] using h2 k hk
  · rcases update_eq_some hx with ⟨rfl, ho⟩ | ⟨-, hx⟩
    · cases Option.some.inj ho; exact absurd hgr hs
    · exact hi.granted_after m x hx hgr

/-- Releasing a hold keeps the invariant. -/
theorem update_none (hi : Inv s) (n : ℕ) :
    Inv { s with guards := Function.update s.guards n none } := by
  have hold : ∀ m x, Function.update s.guards n none m = some x → s.guards m = some x :=
    fun m x hx => by rcases update_eq_some hx with ⟨-, h⟩ | ⟨-, h⟩ <;> simp_all
  refine ⟨fun m x hx => hi.hold_lt m x (hold m x hx), fun m x hx hw => ?_, hi.log_lt,
    fun m x hx => hi.granted_after m x (hold m x hx), hi.consistent⟩
  obtain ⟨h1, h2⟩ := hi.write_alone m x (hold m x hx) hw
  refine ⟨h1, fun k hk => ?_⟩
  by_cases hkn : k = n
  · rw [hkn]; exact Function.update_same _ _ _
  · simpa [Function.update_noteq hkn] using h2 k hk

/-- A flag operation under a hold that is held is under a hold granted so far. -/
theorem log_lt_cons (hi : Inv s) {n : ℕ} {g : Guard} (hg : s.guards n = some g) {e : Event}
    (he : e.hold = n) : ∀ x ∈ e :: s.log, x.hold < s.acquired := by
  intro x hx
  rcases List.mem_cons.mp hx with rfl | hx
  · exact he ▸ hi.hold_lt n g hg
  · exact hi.log_lt x hx

theorem grant (hi : Inv s) {t : ℕ} {m : Mode} (hm : Admits s.guards m) :
    Inv { s with
      guards := Function.update s.guards s.acquired (some ⟨t, m, false, .granted⟩)
      acquired := s.acquired + 1 } := by
  refine ⟨fun k x hx => ?_, fun k x hx hw => ?_, fun e he => Nat.lt_succ_of_lt (hi.log_lt e he),
    fun k x hx hgr e he hp => ?_, hi.consistent⟩
  · rcases update_eq_some hx with ⟨rfl, -⟩ | ⟨-, hx⟩
    · exact Nat.lt_succ_self _
    · exact Nat.lt_succ_of_lt (hi.hold_lt k x hx)
  · rcases update_eq_some hx with ⟨rfl, ho⟩ | ⟨-, hx⟩
    · cases Option.some.inj ho
      refine ⟨rfl, fun j hj => ?_⟩
      cases m with
      | read => simp at hw
      | write => simpa [Function.update_noteq hj] using hm j
    · exact absurd (hm.read_of_some hx) (by simp [hw])
  · rcases update_eq_some hx with ⟨rfl, -⟩ | ⟨-, hx⟩
    · exact hi.log_lt e he
    · exact hi.granted_after k x hx hgr e he hp

theorem borrow (hi : Inv s) {n : ℕ} {g : Guard} (hg : s.guards n = some g)
    (hs : g.stage = .granted) :
    Inv { s with
      guards := Function.update s.guards n
        (some { g with token := s.panicking g.tid, stage := .live })
      log := .acquire n (s.poison.borrow (s.panicking g.tid)).isPoisoned :: s.log } := by
  have hu := hi.update_some hg { g with token := s.panicking g.tid, stage := .live }
    rfl (by simp)
  refine ⟨hu.hold_lt, hu.write_alone, hi.log_lt_cons hg rfl, fun k x hx hgr e he hp => ?_, ?_⟩
  · rcases List.mem_cons.mp he with rfl | he
    · simp at hp
    · exact hu.granted_after k x hx hgr e he hp
  · rw [Flag.borrow_isPoisoned]
    exact hi.consistent.acquire fun e he hp => hi.granted_after n g hg hs e he hp

theorem dropWrite (hi : Inv s) {n : ℕ} {g : Guard} (hg : s.guards n = some g)
    (hm : g.mode = .write) :
    Inv { s with
      guards := Function.update s.guards n (some { g with stage := .dropping })
      poison := s.poison.done ⟨g.token⟩ (s.panicking g.tid)
      log := .done n g.token (s.panicking g.tid) :: s.log } := by
  have hu := hi.update_some hg { g with stage := .dropping } rfl (by simp)
  obtain ⟨hn, halone⟩ := hi.write_alone n g hg hm
  refine ⟨hu.hold_lt, hu.write_alone, hi.log_lt_cons hg rfl, fun k x hx hgr e he hp => ?_, ?_⟩
  · rcases List.mem_cons.mp he with rfl | he
    · rcases update_eq_some hx with ⟨rfl, ho⟩ | ⟨hkn, hx⟩
      · cases Option.some.inj ho; simp at hgr
      · simp [halone k hkn] at hx
    · exact hu.granted_after k x hx hgr e he hp
  · have := @Consistent.done _ _ n g.token (s.panicking g.tid) hi.consistent fun m p hmp => by
      have := hi.log_lt _ hmp
      simp only [Event.hold_acquire] at this
      omega
    simpa using this

end Inv

/-- **Every step keeps the invariant.** -/
theorem Inv.step {s s' : State} (hi : Inv s) (h : Step s s') : Inv s' := by
  cases h with
  | grant _ hm => exact hi.grant hm
  | borrow hg hs => exact hi.borrow hg hs
  | dropRead _ _ _ _ | unlock _ _ => exact hi.update_none _
  | dropWrite hg hm _ _ => exact hi.dropWrite hg hm
  | unwind _ _ => exact ⟨hi.hold_lt, hi.write_alone, hi.log_lt, hi.granted_after, hi.consistent⟩

theorem Reachable.inv {s : State} (h : Reachable s) : Inv s := by
  induction h with
  | refl => exact inv_boxed
  | tail _ hst ih => exact ih.step hst

/-! ### The unix shim is a readers-writer lock -/

/-- A readers-writer lock, as the threads and modes of its holds show it: a step grants
a read while no write is held, grants a write while nothing is held, releases a hold,
or leaves the holds as they were. `Admits` is its rule for a grant. -/
inductive LockStep : Multiset (ℕ × Mode) → Multiset (ℕ × Mode) → Prop
  /-- A read, beside reads only. -/
  | read {ks : Multiset (ℕ × Mode)} (t : ℕ) (h : ∀ k ∈ ks, k.2 = .read) :
      LockStep ks ((t, .read) ::ₘ ks)
  /-- A write, alone. -/
  | write (t : ℕ) : LockStep 0 ((t, .write) ::ₘ 0)
  /-- A release. -/
  | release (k : ℕ × Mode) (ks : Multiset (ℕ × Mode)) : LockStep (k ::ₘ ks) ks
  /-- No grant and no release. -/
  | stay (ks : Multiset (ℕ × Mode)) : LockStep ks ks

/-- The holds of the unix shim's guards (live, or in their drop): the sys lock's holds
as the crate sees them. -/
def guardKeys (held : Multiset Unix.Hold) : Multiset (ℕ × Mode) :=
  (held.filter fun a => a.phase.isGuard).map Unix.Hold.key

theorem guardKeys_cons_of_guard {a : Unix.Hold} (m : Multiset Unix.Hold)
    (h : a.phase.isGuard = true) : guardKeys (a ::ₘ m) = a.key ::ₘ guardKeys m := by
  simp [guardKeys, h]

theorem guardKeys_cons_of_not_guard {a : Unix.Hold} (m : Multiset Unix.Hold)
    (h : a.phase.isGuard = false) : guardKeys (a ::ₘ m) = guardKeys m := by
  simp [guardKeys, h]

/-- **The unix shim refines a readers-writer lock.** Every step of a run of the shim
moves the holds of its guards as `LockStep` allows: the update that makes a guard is
a grant the lock admits, the `unlock` that ends a guard's drop is a release, and every
other step (a native grant still to be checked, the check, the undoing of a refused
grant, the start of a drop) changes no guard's hold. -/
theorem shim_refines {sh sh' : Unix.Shim} (h : Unix.Shim.Reachable sh)
    (hst : Unix.Shim.Step sh sh') : LockStep (guardKeys sh.held) (guardKeys sh'.held) := by
  have hex := (Unix.Shim.Reachable.inv (h.tail hst)).guard_excl
  cases hst with
  | grant _ _ _ =>
    rw [guardKeys_cons_of_not_guard _ (by rfl)]
    exact .stay _
  | check hs hp =>
    rw [hs, guardKeys_cons_of_not_guard _ (by simp [hp, Unix.Phase.isGuard]),
      guardKeys_cons_of_not_guard _ (by split <;> rfl)]
    exact .stay _
  | @commit a rest _ hs hp =>
    rw [hs, guardKeys_cons_of_not_guard _ (by simp [hp, Unix.Phase.isGuard]),
      guardKeys_cons_of_guard _ (by rfl)]
    show LockStep _ ((a.tid, a.mode) ::ₘ _)
    cases hm : a.mode with
    | read =>
      refine .read _ fun k hk => ?_
      obtain ⟨b, hb, rfl⟩ := Multiset.mem_map.mp hk
      rw [Multiset.mem_filter] at hb
      exact (hex.read_of_guard hb.1 rfl hb.2).2
    | write =>
      have hz : guardKeys rest = 0 := by
        rw [guardKeys, Multiset.map_eq_zero, Multiset.filter_eq_nil]
        exact fun b hb => by simp [hex _ rest rfl hm rfl b hb]
      rw [hz]
      exact .write _
  | undo hs hp =>
    rw [hs, guardKeys_cons_of_not_guard _ (by simp [hp, Unix.Phase.isGuard])]
    exact .stay _
  | dropStart hs hp _ =>
    rw [hs, guardKeys_cons_of_guard _ (by simp [hp, Unix.Phase.isGuard]),
      guardKeys_cons_of_guard _ (by rfl)]
    exact .stay _
  | release hs hp =>
    rw [hs, guardKeys_cons_of_guard _ (by simp [hp, Unix.Phase.isGuard])]
    exact .release _ _

/-- The commit of thread `0`'s first read grant makes a read guard beside none. -/
theorem shim_refines_first_read :
    Unix.Shim.Reachable ⟨⟨⟨[(0, .read)]⟩, false, 0⟩, {⟨0, .read, .commit false⟩}⟩ ∧
    Unix.Shim.Step ⟨⟨⟨[(0, .read)]⟩, false, 0⟩, {⟨0, .read, .commit false⟩}⟩
      ⟨⟨⟨[(0, .read)]⟩, false, 1⟩, {⟨0, .read, .live⟩}⟩ ∧
    LockStep (guardKeys {⟨0, .read, .commit false⟩}) (guardKeys {⟨0, .read, .live⟩}) :=
  have h : Unix.Shim.Reachable ⟨⟨⟨[(0, .read)]⟩, false, 0⟩, {⟨0, .read, .commit false⟩}⟩ :=
    (Relation.ReflTransGen.single (@Unix.Shim.Step.grant Unix.Shim.init 0 .read false
      (.grant _ fun ⟨_, hh, _⟩ => by
        simp [Unix.Shim.init, Unix.RwLock.uninit, PthreadRwlock.initializer] at hh)
      fun _ hb => by simp [Unix.Shim.init] at hb)).tail
      (@Unix.Shim.Step.check _ ⟨0, .read, .check false⟩ 0 false rfl rfl)
  have hst : Unix.Shim.Step ⟨⟨⟨[(0, .read)]⟩, false, 0⟩, {⟨0, .read, .commit false⟩}⟩
      ⟨⟨⟨[(0, .read)]⟩, false, 1⟩, {⟨0, .read, .live⟩}⟩ :=
    @Unix.Shim.Step.commit _ ⟨0, .read, .commit false⟩ 0 false rfl rfl
  ⟨h, hst, shim_refines h hst⟩

/-! ### The flag -/

/-- Only a write guard's drop sets the flag: the drop of one taken while not unwinding,
by its thread now unwinding, before the sys unlock. -/
theorem Step.flag_set {s s' : State} (h : Step s s') (h0 : s.poison.failed = false)
    (h1 : s'.poison.failed = true) :
    ∃ n g, s.guards n = some g ∧ g.mode = .write ∧ g.stage = .live ∧ g.token = false ∧
      s.panicking g.tid = true ∧ s'.log = .done n false true :: s.log ∧ s'.guards n ≠ none := by
  cases h
  case dropWrite n g hg hm hs _ =>
    simp only [Flag.done_failed, h0, Bool.false_or, Bool.and_eq_true, Bool.not_eq_true'] at h1
    exact ⟨n, g, hg, hm, hs, h1.1, h1.2, by rw [h1.1, h1.2], by simp⟩
  all_goals exact absurd h1 (by simp [h0])

/-- Once set, the flag stays set. -/
theorem Step.flag_stays {s s' : State} (h : Step s s') (h1 : s.poison.failed = true) :
    s'.poison.failed = true := by
  cases h <;> simp [h1]

/-- An acquisition that reads the flag, `Ok` or `Poisoned`, leaves a live guard on its
hold. -/
theorem Step.acquire_held {s s' : State} (h : Step s s') {n : ℕ} {p : Bool}
    (hl : s'.log = .acquire n p :: s.log) : ∃ g, s'.guards n = some g ∧ g.stage = .live := by
  cases h
  case borrow n' g _ _ =>
    simp only [List.cons.injEq, Event.acquire.injEq] at hl
    obtain ⟨⟨rfl, -⟩, -⟩ := hl
    exact ⟨{ g with token := s.panicking g.tid, stage := .live }, by simp, rfl⟩
  case dropWrite => simp at hl
  all_goals exact absurd hl.symm (List.cons_ne_self _ _)

/-- **The poisoning law, for a `Mutex` and for an `RwLock`.** In every reachable state
the log obeys `Poison.Consistent`: the flag is set iff an exclusive guard (a
`MutexGuard` or an `RwLockWriteGuard`) taken while not unwinding was dropped while
unwinding, and each acquisition reported `Poisoned` iff such a drop happened under an
earlier hold, in lock order. Once set, the flag stays set. Only such a drop sets it,
and while its lock is still held, so never the drop of a read guard. Every acquisition,
`Ok` or `Poisoned`, leaves its thread a live guard on the lock. -/
theorem poison_flag_law :
    (∀ (α : Type) (v : α) (s : Mutex.State α), Mutex.Reachable v s →
      Consistent s.poison.failed s.log ∧
      (∀ s', Mutex.Step s s' → s.poison.failed = true → s'.poison.failed = true) ∧
      (∀ s', Mutex.Step s s' → s.poison.failed = false → s'.poison.failed = true →
        ∃ t n, s.pc t = .guard n false ∧ s.panicking t = true ∧
          s'.log = .done n false true :: s.log ∧ s'.inner = s.inner) ∧
      ∀ s' n p, Mutex.Step s s' → s'.log = .acquire n p :: s.log →
        ∃ t tok, s'.pc t = .guard n tok ∧ s'.inner.owner = some t) ∧
    ∀ s, Reachable s →
      Consistent s.poison.failed s.log ∧
      (∀ s', Step s s' → s.poison.failed = true → s'.poison.failed = true) ∧
      (∀ s', Step s s' → s.poison.failed = false → s'.poison.failed = true →
        ∃ n g, s.guards n = some g ∧ g.mode = .write ∧ g.stage = .live ∧ g.token = false ∧
          s.panicking g.tid = true ∧ s'.log = .done n false true :: s.log ∧ s'.guards n ≠ none) ∧
      ∀ s' n p, Step s s' → s'.log = .acquire n p :: s.log →
        ∃ g, s'.guards n = some g ∧ g.stage = .live :=
  ⟨fun _ _ _ h => Mutex.poison_law h, fun _ h => ⟨h.inv.consistent, fun _ hs => hs.flag_stays,
    fun _ hs => hs.flag_set, fun _ _ _ hs => hs.acquire_held⟩⟩

/-- Thread `0` takes the write lock, starts to unwind, and drops its guard: the drop
sets the flag. Thread `1` then takes a read guard, which comes back `Poisoned`. -/
theorem poison_flag_law_unwound_writer :
    ∃ s₀ s₁ s, Reachable s₀ ∧ Step s₀ s₁ ∧ Relation.ReflTransGen Step s₁ s ∧
      s₀.poison.failed = false ∧ s₁.poison.failed = true ∧
      (∃ n g, s₀.guards n = some g ∧ g.mode = .write ∧ g.stage = .live ∧ g.token = false ∧
        s₀.panicking g.tid = true ∧ s₁.log = .done n false true :: s₀.log ∧ s₁.guards n ≠ none) ∧
      s.log = [.acquire 1 true, .done 0 false true, .acquire 0 false] ∧
      (Consistent s.poison.failed s.log ∧
      (∀ s', Step s s' → s.poison.failed = true → s'.poison.failed = true) ∧
      (∀ s', Step s s' → s.poison.failed = false → s'.poison.failed = true →
        ∃ n g, s.guards n = some g ∧ g.mode = .write ∧ g.stage = .live ∧ g.token = false ∧
          s.panicking g.tid = true ∧ s'.log = .done n false true :: s.log ∧ s'.guards n ≠ none) ∧
      ∀ s' n p, Step s s' → s'.log = .acquire n p :: s.log →
        ∃ g, s'.guards n = some g ∧ g.stage = .live) := by
  let s₀ : State := ⟨Function.update (Function.update (fun _ => none) 0
    (some ⟨0, .write, false, .granted⟩)) 0 (some ⟨0, .write, false, .live⟩), Flag.new,
    Function.update (fun _ => false) 0 true, 1, [.acquire 0 false]⟩
  let s₁ : State := { s₀ with
    guards := Function.update s₀.guards 0 (some ⟨0, .write, false, .dropping⟩)
    poison := ⟨true⟩, log := .done 0 false true :: s₀.log }
  have free₀ : Free s₀ 0 := fun n _ hg _ => by
    by_cases h : n = 0 <;> simp [s₀, Function.update, h] at hg
    exact hg ▸ rfl
  have h₀ : Reachable s₀ := ((Relation.ReflTransGen.single
    (@Step.grant boxed 0 .write (fun _ _ hg => by simp [boxed] at hg) fun _ => rfl)).tail
    (@Step.borrow _ 0 _ rfl rfl)).tail (@Step.unwind _ 0 true free₀)
  have hst : Step s₀ s₁ := @Step.dropWrite s₀ 0 _ rfl rfl rfl free₀
  let s₂ : State := { s₁ with guards := Function.update s₁.guards 0 none }
  have hnone : ∀ n, s₂.guards n = none := fun n => by
    by_cases h : n = 0 <;> simp [s₂, s₁, s₀, Function.update, h]
  have hrun := ((Relation.ReflTransGen.single (@Step.unlock s₁ 0 _ rfl rfl : Step s₁ s₂)).tail
    (@Step.grant s₂ 1 .read (fun n _ hg _ => by cases (hnone n).symm.trans hg)
      fun n _ hg => by cases (hnone n).symm.trans hg)).tail
    (@Step.borrow _ 1 _ rfl rfl)
  exact ⟨s₀, s₁, _, h₀, hst, hrun, rfl, rfl, (poison_flag_law.2 _ h₀).2.2.1 _ hst rfl rfl, rfl,
    poison_flag_law.2 _ ((h₀.tail hst).trans hrun)⟩

end RwLock

end PinnedSync
