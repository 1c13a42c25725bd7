import GearmanServer.Basic

/-!
# Waking and stopping the processing thread

`_proc` waits on `proc_cond` under `proc_lock` until `proc_wakeup` is set, and returns once it
finds `proc_shutdown` set instead. A thread that queues work for it takes `proc_lock`, sets
`proc_wakeup` and signals; `_proc_thread_kill` sets `proc_shutdown` without the lock, then
takes the lock to signal, and joins the thread.

Each thread is a program counter, and each step of `procSyncStep` is one atomic action:
a mutex operation, one read or write of a flag, or a condition-variable operation. A signal
with no waiter is lost, and `pthread_cond_wait` may also return with no signal. The wakers
are numbered by `Nat`, so a run may involve any number of them.

The safety result is `no_lost_signal`: whenever `_proc` sleeps on `proc_cond`, whoever set the
flag it is waiting for still holds `proc_lock` and has yet to signal. In particular a
`_proc_thread_kill` blocked in `pthread_join` never waits for a `_proc` asleep on the
condition variable.
-/

namespace Gearman

/-- Where `_proc` is in its outer `while (1)` loop. -/
inductive ProcPc where
  /-- `pthread_mutex_lock(&(server->proc_lock))` at the top of the loop. -/
  | lock
  /-- Holding `proc_lock`: `while (server->proc_wakeup == false)`. -/
  | testWakeup
  /-- Holding `proc_lock`: `if (server->proc_shutdown)`. -/
  | testShutdown
  /-- Holding `proc_lock`, about to call `pthread_cond_wait`. -/
  | condWait
  /-- In `pthread_cond_wait` with `proc_lock` released, not yet signalled. -/
  | waiting
  /-- In `pthread_cond_wait`, signalled, taking `proc_lock` back. -/
  | woken
  /-- `proc_lock` released, running the queued packets of every connection. -/
  | dispatch
  /-- Returned `NULL`. -/
  | exited
  deriving DecidableEq, Repr

/-- Where the thread in `_proc_thread_kill` is; `idle` outside the call. -/
inductive KillPc where
  | idle
  /-- Past the guard: `server->proc_shutdown= true`. -/
  | setShutdown
  | lock
  | signal
  | unlock
  /-- `pthread_join(server->proc_id, NULL)`: returns once `_proc` has exited. -/
  | join
  deriving DecidableEq, Repr

/-- Where a thread waking `_proc` is: it locks `proc_lock`, sets `proc_wakeup`, signals
`proc_cond` and unlocks. `idle` is anywhere outside that critical section, blocked in
`pthread_mutex_lock` included. -/
inductive WakerPc where
  | idle
  | set
  | signal
  | unlock
  deriving DecidableEq, Repr

/-- The threads that use `proc_lock`. -/
inductive Actor where
  | proc
  | kill
  | waker (i : Nat)
  deriving DecidableEq, Repr

/-- The flags guarded by `proc_lock`, the owner of the lock, and where every thread is. -/
structure ProcSync where
  procWakeup : Bool
  procShutdown : Bool
  holder : Option Actor
  proc : ProcPc
  kill : KillPc
  wakers : Nat → WakerPc

/-- One scheduling decision: a thread takes its next step, or `pthread_cond_wait` returns
spuriously. -/
inductive SyncMove where
  | act (a : Actor)
  | spurious

namespace ProcPc

/-- `pthread_cond_signal(&(server->proc_cond))`: wakes `_proc` if it waits; otherwise lost. -/
def signal : ProcPc → ProcPc
  | .waiting => .woken
  | pc => pc

/-- The program points of `_proc` between taking and releasing `proc_lock`. -/
def HoldsLock (pc : ProcPc) : Prop := pc = .testWakeup ∨ pc = .testShutdown ∨ pc = .condWait

@[simp] theorem signal_ne_waiting (pc : ProcPc) : pc.signal ≠ .waiting := by
  cases pc <;> simp [signal]

@[simp] theorem signal_eq_self {pc : ProcPc} (h : pc ≠ .waiting) : pc.signal = pc := by
  cases pc <;> simp_all [signal]

@[simp] theorem signal_eq_testWakeup (pc : ProcPc) :
    pc.signal = .testWakeup ↔ pc = .testWakeup := by
  cases pc <;> simp [signal]

@[simp] theorem signal_eq_testShutdown (pc : ProcPc) :
    pc.signal = .testShutdown ↔ pc = .testShutdown := by
  cases pc <;> simp [signal]

@[simp] theorem holdsLock_signal (pc : ProcPc) : pc.signal.HoldsLock ↔ pc.HoldsLock := by
  cases pc <;> simp [signal, HoldsLock]

@[simp] theorem signal_eq_condWait (pc : ProcPc) : pc.signal = .condWait ↔ pc = .condWait := by
  cases pc <;> simp [signal]

end ProcPc

def KillPc.HoldsLock (pc : KillPc) : Prop := pc = .signal ∨ pc = .unlock

/-- The program points of `_proc_thread_kill` after `proc_shutdown` was written. -/
def KillPc.PastWrite (pc : KillPc) : Prop := pc = .lock ∨ pc = .signal ∨ pc = .unlock ∨ pc = .join

def WakerPc.HoldsLock (pc : WakerPc) : Prop := pc = .set ∨ pc = .signal ∨ pc = .unlock

namespace ProcSync

def setWaker (s : ProcSync) (i : Nat) (pc : WakerPc) : ProcSync :=
  { s with wakers := Function.update s.wakers i pc }

@[simp] theorem setWaker_wakers (s : ProcSync) (i : Nat) (pc : WakerPc) (j : Nat) :
    (s.setWaker i pc).wakers j = if j = i then pc else s.wakers j := Function.update_apply ..

@[simp] theorem setWaker_holder (s : ProcSync) (i : Nat) (pc : WakerPc) :
    (s.setWaker i pc).holder = s.holder := rfl

@[simp] theorem setWaker_proc (s : ProcSync) (i : Nat) (pc : WakerPc) :
    (s.setWaker i pc).proc = s.proc := rfl

@[simp] theorem setWaker_kill (s : ProcSync) (i : Nat) (pc : WakerPc) :
    (s.setWaker i pc).kill = s.kill := rfl

@[simp] theorem setWaker_procWakeup (s : ProcSync) (i : Nat) (pc : WakerPc) :
    (s.setWaker i pc).procWakeup = s.procWakeup := rfl

@[simp] theorem setWaker_procShutdown (s : ProcSync) (i : Nat) (pc : WakerPc) :
    (s.setWaker i pc).procShutdown = s.procShutdown := rfl

def procStep (s : ProcSync) : ProcSync :=
  match s.proc with
  | .lock | .woken =>
    if s.holder = none then { s with holder := some .proc, proc := .testWakeup } else s
  | .testWakeup =>
    if s.procWakeup then { s with procWakeup := false, holder := none, proc := .dispatch }
    else { s with proc := .testShutdown }
  | .testShutdown =>
    if s.procShutdown then { s with holder := none, proc := .exited }
    else { s with proc := .condWait }
  | .condWait => { s with holder := none, proc := .waiting }
  | .dispatch => { s with proc := .lock }
  | .waiting | .exited => s

def killStep (s : ProcSync) : ProcSync :=
  match s.kill with
  | .idle => if s.procShutdown then s else { s with kill := .setShutdown }
  | .setShutdown => { s with procShutdown := true, kill := .lock }
  | .lock => if s.holder = none then { s with holder := some .kill, kill := .signal } else s
  | .signal => { s with proc := s.proc.signal, kill := .unlock }
  | .unlock => { s with holder := none, kill := .join }
  | .join => if s.proc = .exited then { s with kill := .idle } else s

def wakerStep (i : Nat) (s : ProcSync) : ProcSync :=
  match s.wakers i with
  | .idle => if s.holder = none then { s.setWaker i .set with holder := some (.waker i) } else s
  | .set => { s.setWaker i .signal with procWakeup := true }
  | .signal => { s.setWaker i .unlock with proc := s.proc.signal }
  | .unlock => { s.setWaker i .idle with holder := none }

/-- A spurious return from `pthread_cond_wait`. -/
def spuriousStep (s : ProcSync) : ProcSync :=
  if s.proc = .waiting then { s with proc := .woken } else s

end ProcSync

def procSyncStep (s : ProcSync) : SyncMove → ProcSync
  | .act .proc => s.procStep
  | .act .kill => s.killStep
  | .act (.waker i) => s.wakerStep i
  | .spurious => s.spuriousStep

namespace ProcSync

/-- What holds in every reachable state: `proc_lock` is held by exactly the thread at a program
point between its lock and unlock, the flags are as the lock discipline makes them, and no
flag that `_proc` is waiting for has been signalled already. -/
structure Inv (s : ProcSync) : Prop where
  proc_holder : s.holder = some .proc ↔ s.proc.HoldsLock
  kill_holder : s.holder = some .kill ↔ s.kill.HoldsLock
  waker_holder : ∀ i, s.holder = some (.waker i) ↔ (s.wakers i).HoldsLock
  shutdown_set : s.kill.PastWrite → s.procShutdown = true
  wakeup_clear : s.proc = .testShutdown ∨ s.proc = .condWait → s.procWakeup = false
  wakeup_pending : s.proc = .waiting → s.procWakeup = true →
    ∃ i, s.holder = some (.waker i) ∧ s.wakers i = .signal
  shutdown_window : s.proc = .condWait → s.procShutdown = true → s.kill = .lock
  shutdown_pending : s.proc = .waiting → s.procShutdown = true → s.kill = .lock ∨ s.kill = .signal
  kill_signalled : s.kill = .unlock ∨ s.kill = .join → s.proc ≠ .condWait ∧ s.proc ≠ .waiting

variable {s : ProcSync}

theorem Inv.free (h : s.Inv) (hn : s.holder = none) :
    ¬ s.proc.HoldsLock ∧ ¬ s.kill.HoldsLock ∧ ∀ i, ¬ (s.wakers i).HoldsLock := by
  refine ⟨fun hp => ?_, fun hk => ?_, fun i hw => ?_⟩
  · simpa [hn] using h.proc_holder.2 hp
  · simpa [hn] using h.kill_holder.2 hk
  · simpa [hn] using (h.waker_holder i).2 hw

/-- While one thread holds `proc_lock`, no other is in a critical section. -/
theorem Inv.others {a : Actor} (h : s.Inv) (ha : s.holder = some a) :
    (a ≠ .proc → ¬ s.proc.HoldsLock) ∧ (a ≠ .kill → ¬ s.kill.HoldsLock) ∧
      ∀ i, a ≠ .waker i → ¬ (s.wakers i).HoldsLock := by
  refine ⟨fun hne hp => hne ?_, fun hne hk => hne ?_, fun i hne hw => hne ?_⟩
  · simpa [ha] using h.proc_holder.2 hp
  · simpa [ha] using h.kill_holder.2 hk
  · simpa [ha] using (h.waker_holder i).2 hw

theorem Inv.procStep (h : s.Inv) : s.procStep.Inv := by
  obtain ⟨h1, h2, h3, h4, h5, h6, h7, h8, h9⟩ := id h
  unfold ProcSync.procStep
  cases hp : s.proc <;> simp only [hp]
  case lock | woken =>
    split
    · next hn =>
      obtain ⟨-, nk, nw⟩ := h.free hn
      exact ⟨by simp [ProcPc.HoldsLock], by simpa using nk, fun j => by simpa using nw j, h4,
        by simp, by simp, by simp, by simp, fun _ => by simp⟩
    · exact h
  case waiting | exited => exact h
  case dispatch =>
    exact ⟨by simpa [hp, ProcPc.HoldsLock] using h1, h2, h3, h4, by simp, by simp, by simp, by simp,
      fun _ => by simp⟩
  case testWakeup =>
    have ho : s.holder = some .proc := h1.2 (by simp [hp, ProcPc.HoldsLock])
    obtain ⟨-, nk, nw⟩ := h.others ho
    split
    · exact ⟨by simp [ProcPc.HoldsLock], by simpa using nk (by simp),
        fun j => by simpa using nw j (by simp), h4, by simp, by simp, by simp, by simp,
        fun _ => by simp⟩
    · next hw =>
      exact ⟨by simp [ho, ProcPc.HoldsLock], h2, h3, h4, fun _ => by simpa using hw, by simp,
        by simp, by simp, fun _ => by simp⟩
  case testShutdown =>
    have ho : s.holder = some .proc := h1.2 (by simp [hp, ProcPc.HoldsLock])
    obtain ⟨-, nk, nw⟩ := h.others ho
    split
    · exact ⟨by simp [ProcPc.HoldsLock], by simpa using nk (by simp),
        fun j => by simpa using nw j (by simp), h4, by simp, by simp, by simp, by simp,
        fun _ => by simp⟩
    · next hs =>
      refine ⟨by simp [ho, ProcPc.HoldsLock], h2, h3, h4, fun _ => h5 (.inl hp), by simp,
        fun _ hs' => absurd hs' (by simpa using hs), by simp, fun hk => ?_⟩
      have : s.kill.PastWrite := by
        rcases hk with hk | hk
        exacts [.inr (.inr (.inl hk)), .inr (.inr (.inr hk))]
      exact absurd (h4 this) (by simpa using hs)
  case condWait =>
    have ho : s.holder = some .proc := h1.2 (by simp [hp, ProcPc.HoldsLock])
    obtain ⟨-, nk, nw⟩ := h.others ho
    refine ⟨by simp [ProcPc.HoldsLock], by simpa using nk (by simp),
      fun j => by simpa using nw j (by simp), h4, by simp,
      fun _ hw => absurd hw (by simp [h5 (.inr hp)]), by simp,
      fun _ hs => .inl (h7 hp hs), fun hk => ?_⟩
    exact absurd hp (h9 hk).1

theorem Inv.killStep (h : s.Inv) : s.killStep.Inv := by
  obtain ⟨h1, h2, h3, h4, h5, h6, h7, h8, h9⟩ := id h
  unfold ProcSync.killStep
  cases hk : s.kill <;> simp only [hk]
  case idle =>
    split
    · exact h
    · next hs =>
      exact ⟨h1, by simpa [hk, KillPc.HoldsLock] using h2, h3, by simp [KillPc.PastWrite], h5, h6,
        fun _ hs' => absurd hs' (by simpa using hs), fun _ hs' => absurd hs' (by simpa using hs),
        by simp⟩
  case setShutdown =>
    exact ⟨h1, by simpa [hk, KillPc.HoldsLock] using h2, h3, fun _ => rfl, h5, h6, fun _ _ => rfl,
      fun _ _ => .inl rfl, by simp⟩
  case lock =>
    split
    · next hn =>
      obtain ⟨np, -, nw⟩ := h.free hn
      refine ⟨by simpa using np, by simp [KillPc.HoldsLock], fun j => by simpa using nw j,
        fun _ => h4 (by simp [hk, KillPc.PastWrite]), h5, fun hp hw => ?_,
        fun hp => absurd (.inr (.inr hp)) np, fun _ _ => .inr rfl, by simp⟩
      obtain ⟨i, hi', -⟩ := h6 hp hw
      simp [hn] at hi'
    · exact h
  case signal =>
    have ho : s.holder = some .kill := h2.2 (by simp [hk, KillPc.HoldsLock])
    obtain ⟨np, -, -⟩ := h.others ho
    have hc : s.proc ≠ .condWait := fun hc => np (by simp) (by simp [hc, ProcPc.HoldsLock])
    refine ⟨by simpa [ho] using np (by simp), by simp [ho, KillPc.HoldsLock], h3,
      fun _ => h4 (by simp [hk, KillPc.PastWrite]), fun hp => h5 (by simpa using hp), by simp,
      fun hp => absurd (by simpa using hp) hc, by simp, fun _ => by simp [hc]⟩
  case unlock =>
    have ho : s.holder = some .kill := h2.2 (by simp [hk, KillPc.HoldsLock])
    obtain ⟨np, -, nw⟩ := h.others ho
    obtain ⟨hc, hw⟩ := h9 (.inl hk)
    exact ⟨by simpa using np (by simp), by simp [KillPc.HoldsLock],
      fun j => by simpa using nw j (by simp), fun _ => h4 (by simp [hk, KillPc.PastWrite]), h5,
      fun hp => absurd hp hw, fun hp => absurd hp hc,
      fun hp => absurd hp hw, fun _ => ⟨hc, hw⟩⟩
  case join =>
    split
    · next he =>
      exact ⟨h1, by simpa [hk, KillPc.HoldsLock] using h2, h3, by simp [KillPc.PastWrite], h5, h6,
        by simp [he], by simp [he], by simp⟩
    · exact h

theorem Inv.wakerStep (i : Nat) (h : s.Inv) : (s.wakerStep i).Inv := by
  obtain ⟨h1, h2, h3, h4, h5, h6, h7, h8, h9⟩ := id h
  unfold ProcSync.wakerStep
  cases hw : s.wakers i <;> simp only [hw]
  case idle =>
    split
    · next hn =>
      obtain ⟨np, nk, nw⟩ := h.free hn
      refine ⟨by simpa using np, by simpa using nk, fun j => ?_, h4, h5, fun hp hu => ?_, h7, h8,
        h9⟩
      · by_cases hj : j = i
        · simp [hj, WakerPc.HoldsLock]
        · simpa [hj, Ne.symm hj] using nw j
      · obtain ⟨k, hk, -⟩ := h6 hp hu
        simp [hn] at hk
    · exact h
  case set =>
    have hh : s.holder = some (.waker i) := (h3 i).2 (by simp [hw, WakerPc.HoldsLock])
    obtain ⟨np, -, -⟩ := h.others hh
    refine ⟨h1, h2, fun j => ?_, h4, fun hp => absurd (?_ : s.proc.HoldsLock) (np (by simp)),
      fun _ _ => ⟨i, by simp [hh]⟩, h7, h8, h9⟩
    · by_cases hj : j = i
      · simp [hj, hh, WakerPc.HoldsLock]
      · simpa [hj] using h3 j
    · rcases hp with hp | hp
      exacts [.inr (.inl hp), .inr (.inr hp)]
  case signal =>
    have hh : s.holder = some (.waker i) := (h3 i).2 (by simp [hw, WakerPc.HoldsLock])
    obtain ⟨np, -, -⟩ := h.others hh
    refine ⟨by simpa [hh] using np (by simp), h2, fun j => ?_, h4, by simpa using h5, by simp,
      by simpa using h7, by simp, fun hk => by simpa using (h9 hk).1⟩
    by_cases hj : j = i
    · simp [hj, hh, WakerPc.HoldsLock]
    · simpa [hj] using h3 j
  case unlock =>
    have hh : s.holder = some (.waker i) := (h3 i).2 (by simp [hw, WakerPc.HoldsLock])
    obtain ⟨np, nk, -⟩ := h.others hh
    refine ⟨by simpa using np (by simp), by simpa using nk (by simp), fun j => ?_, h4, h5,
      fun hp hu => ?_, h7, h8, h9⟩
    · by_cases hj : j = i
      · simp [hj, WakerPc.HoldsLock]
      · simpa [hh, hj, Ne.symm hj] using h3 j
    · obtain ⟨k, hk, hs⟩ := h6 hp hu
      obtain rfl : k = i := by simpa [hh] using hk.symm
      simp [hw] at hs

theorem Inv.spuriousStep (h : s.Inv) : s.spuriousStep.Inv := by
  unfold ProcSync.spuriousStep
  split
  · next hp =>
    obtain ⟨h1, h2, h3, h4, -, -, -, -, -⟩ := h
    exact ⟨by simpa [hp, ProcPc.HoldsLock] using h1, h2, h3, h4, by simp, by simp, by simp, by simp,
      fun _ => by simp⟩
  · exact h

end ProcSync

/-- A freshly started `_proc`, with `proc_lock` free and no other thread in a critical section;
the two flags may hold anything. -/
def ProcSync.start (wakeup shutdown : Bool) : ProcSync :=
  ⟨wakeup, shutdown, none, .lock, .idle, fun _ => .idle⟩

inductive ProcSync.Reachable : ProcSync → Prop where
  | start (wakeup shutdown : Bool) : Reachable (.start wakeup shutdown)
  | step {s : ProcSync} (m : SyncMove) : Reachable s → Reachable (procSyncStep s m)

namespace ProcSync

variable {s : ProcSync}

theorem Inv.start (wakeup shutdown : Bool) : (ProcSync.start wakeup shutdown).Inv := by
  constructor <;> simp [ProcSync.start, ProcPc.HoldsLock, KillPc.HoldsLock, KillPc.PastWrite,
    WakerPc.HoldsLock]

theorem Inv.step (h : s.Inv) : ∀ m, (procSyncStep s m).Inv
  | .act .proc => h.procStep
  | .act .kill => h.killStep
  | .act (.waker i) => h.wakerStep i
  | .spurious => h.spuriousStep

theorem Reachable.run (h : s.Reachable) (moves : List SyncMove) :
    (moves.foldl procSyncStep s).Reachable := by
  induction moves generalizing s with
  | nil => exact h
  | cons m rest ih => exact ih (.step m h)

theorem Reachable.inv (h : s.Reachable) : s.Inv := by
  induction h with
  | start wakeup shutdown => exact Inv.start wakeup shutdown
  | step m _ ih => exact ih.step m

end ProcSync

/-- No wake-up of `_proc` is lost: in every reachable state where `_proc` sleeps in
`pthread_cond_wait` with no signal delivered, a set `proc_wakeup` was set by a waker that holds
`proc_lock` and has still to signal, and a set `proc_shutdown` was set by a `_proc_thread_kill`
that has still to signal. Hence `_proc_thread_kill` never waits in `pthread_join` for a `_proc`
asleep on `proc_cond`. -/
theorem no_lost_signal {s : ProcSync} (h : s.Reachable) :
    (s.proc = .waiting → s.procWakeup = true →
      ∃ i, s.holder = some (.waker i) ∧ s.wakers i = .signal) ∧
    (s.proc = .waiting → s.procShutdown = true → s.kill = .lock ∨ s.kill = .signal) ∧
    ¬ (s.kill = .join ∧ s.proc = .waiting) := by
  have hi := h.inv
  exact ⟨hi.wakeup_pending, hi.shutdown_pending,
    fun ⟨hk, hp⟩ => (hi.kill_signalled (.inr hk)).2 hp⟩

/-- `_proc` asleep after finding both flags clear, while a waker has just set `proc_wakeup`
under the lock: the waker is the one still to signal. -/
theorem no_lost_signal_asleep :
    let s := [.act .proc, .act .proc, .act .proc, .act .proc, .act (.waker 3),
      .act (.waker 3)].foldl procSyncStep (ProcSync.start false false)
    s.proc = .waiting ∧ s.procWakeup = true ∧
    ((s.proc = .waiting → s.procWakeup = true →
      ∃ i, s.holder = some (.waker i) ∧ s.wakers i = .signal) ∧
    (s.proc = .waiting → s.procShutdown = true → s.kill = .lock ∨ s.kill = .signal) ∧
    ¬ (s.kill = .join ∧ s.proc = .waiting)) :=
  ⟨rfl, rfl, no_lost_signal ((ProcSync.Reachable.start false false).run _)⟩

end Gearman
