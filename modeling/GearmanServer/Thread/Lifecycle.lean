import GearmanServer.Basic

/-!
# Creating and freeing server threads

`gearman_server_thread_create` adds an I/O thread to the server; when the second one is
added the server becomes multi-threaded and `_proc_thread_start` starts the processing
thread. `gearman_server_thread_free` removes a thread and, while more than one is left,
stops the processing thread with `_proc_thread_kill`.

The model keeps the fields these functions read and write: the thread list, whose length
`GEARMAN_LIST_ADD` and `GEARMAN_LIST_DEL` keep in `thread_count`, the `proc_shutdown` flag,
and the processing threads. `proc_id` always names the thread started last, so the started
threads are kept newest first and `proc_id` is the head of that list. A `pthread_join` of a
`proc_id` that names no running thread (none was ever started, or it was joined already) is
undefined; the model counts such joins in `strayJoins`.

Each call may fail at each of its failure points; a `CreateFaults` value says which do, and
the first in program order decides the call.
-/

namespace Gearman

/-- A `gearman_server_thread_st`: the memory it lives in and whether the server allocated it
(`GEARMAN_SERVER_THREAD_ALLOCATED`). -/
structure ThreadRef where
  addr : Nat
  allocated : Bool
  deriving DecidableEq, Repr

/-- One processing thread started by `_proc_thread_start`. -/
inductive ProcThread where
  | running
  | joined
  deriving DecidableEq, Repr

/-- The part of `gearman_server_st` that thread creation and teardown touch. -/
structure Server where
  threadList : List ThreadRef
  procShutdown : Bool
  /-- Every processing thread started, newest first; `proc_id` names the head. -/
  procThreads : List ProcThread
  strayJoins : Nat
  heapNext : Nat
  deriving DecidableEq, Repr

namespace Server

def threadCount (s : Server) : Nat := s.threadList.length

/-- The state of the processing thread `proc_id` names: `none` if none was ever started. -/
def procState (s : Server) : Option ProcThread := s.procThreads.head?

/-- A server as `gearman_server_create` leaves it: no threads, `proc_shutdown` clear. -/
def empty : Server := ⟨[], false, [], 0, 0⟩

end Server

/-- The failure points of one `gearman_server_thread_create` call. -/
structure CreateFaults where
  procThreadStart : Bool
  malloc : Bool
  mutexInit : Bool
  gearmanCreate : Bool
  deriving DecidableEq, Repr

def CreateFaults.none : CreateFaults := ⟨false, false, false, false⟩

/-- `_proc_thread_start`: one of its five `pthread` calls may fail, and then no thread is
created. -/
def procThreadStart (fails : Bool) (s : Server) : GearmanReturn × Server :=
  if fails then (.pthread, s) else (.success, { s with procThreads := .running :: s.procThreads })

/-- `_proc_thread_kill`: past the `proc_shutdown` guard it sets the flag, signals, and joins
the thread `proc_id` names. -/
def procThreadKill (s : Server) : Server :=
  if s.procShutdown then s
  else
    match s.procThreads with
    | .running :: older => { s with procShutdown := true, procThreads := .joined :: older }
    | _ => { s with procShutdown := true, strayJoins := s.strayJoins + 1 }

/-- `gearman_server_thread_free`; the connection and free lists it empties are not modelled. -/
def serverThreadFree (thread : ThreadRef) (s : Server) : Server :=
  let s := if 1 < s.threadCount then procThreadKill s else s
  { s with threadList := s.threadList.erase thread }

/-- `gearman_server_thread_create`. `storage` is the caller's `thread` argument, `none` for
`NULL`; the result is the new thread, or `none` for a `NULL` return. -/
def serverThreadCreate (f : CreateFaults) (storage : Option Nat) (s : Server) :
    Option ThreadRef × Server :=
  match if s.threadCount = 1 then procThreadStart f.procThreadStart s else (.success, s) with
  | (.success, s) =>
    if storage.isNone ∧ f.malloc then (none, procThreadKill s)
    else
      let thread : ThreadRef := ⟨storage.getD s.heapNext, storage.isNone⟩
      let s := if storage.isNone then { s with heapNext := s.heapNext + 1 } else s
      if f.mutexInit then (none, s)
      else
        let s := { s with threadList := thread :: s.threadList }
        if f.gearmanCreate then (none, serverThreadFree thread s) else (some thread, s)
  | (_, s) => (none, s)

namespace Server

/-- The mode `gearman_server_thread_run` and `_thread_packet_read` choose from `thread_count`
agrees with the processing thread: one runs, and will stop when told, exactly when the server
is multi-threaded; and `proc_shutdown` is still clear, so that a later start gives a thread that
runs. -/
def Consistent (s : Server) : Prop :=
  s.procShutdown = false ∧ (s.procState = some .running ↔ 1 < s.threadCount)

instance : DecidablePred Consistent := fun _ => inferInstanceAs (Decidable (_ ∧ _))

@[simp] theorem threadCount_mk (l : List ThreadRef) (b : Bool) (p : List ProcThread) (j h : Nat) :
    (⟨l, b, p, j, h⟩ : Server).threadCount = l.length := rfl

@[simp] theorem procState_mk (l : List ThreadRef) (b : Bool) (p : List ProcThread) (j h : Nat) :
    (⟨l, b, p, j, h⟩ : Server).procState = p.head? := rfl

end Server

/-- A call in which nothing fails keeps the server consistent: it starts the processing
thread exactly when it adds the second thread. -/
theorem serverThreadCreate_consistent {s : Server} (storage : Option Nat) (h : s.Consistent) :
    (serverThreadCreate .none storage s).2.Consistent := by
  obtain ⟨hs, hr⟩ := h
  by_cases h1 : s.threadCount = 1
  · cases s
    cases storage <;> simp_all [serverThreadCreate, CreateFaults.none, procThreadStart,
      Server.Consistent]
  · cases s
    cases storage <;> simp_all [serverThreadCreate, CreateFaults.none, Server.Consistent] <;>
      omega

/-- Creates in which nothing fails keep a consistent server consistent, however many. -/
theorem createRun_consistent (storages : List (Option Nat)) {s : Server} (h : s.Consistent) :
    (storages.foldl (fun s storage => (serverThreadCreate .none storage s).2) s).Consistent := by
  induction storages generalizing s with
  | nil => exact h
  | cons storage rest ih => exact ih (serverThreadCreate_consistent storage h)

/-- Three creates from an empty server: the processing thread starts with the second. -/
theorem createRun_consistent_three :
    Server.empty.Consistent ∧
      ([none, some 7, none].foldl (fun s storage => (serverThreadCreate .none storage s).2)
        Server.empty).Consistent :=
  ⟨by decide, createRun_consistent _ (by decide)⟩

/-- A call on the server: `gearman_server_thread_create` with the faults it meets and its
`thread` argument, or `gearman_server_thread_free`. -/
inductive LifecycleOp where
  | create (f : CreateFaults) (storage : Option Nat)
  | free (thread : ThreadRef)

def Server.apply (s : Server) : LifecycleOp → Server
  | .create f storage => (serverThreadCreate f storage s).2
  | .free thread => serverThreadFree thread s

def Server.oneThread : Server := (serverThreadCreate .none none Server.empty).2

def Server.twoThreads : Server := (serverThreadCreate .none none Server.oneThread).2

/-- Each failure point past the start changes the processing thread although the call returns
`NULL`. A third create whose `malloc` fails calls `_proc_thread_kill` unguarded and joins the
running processing thread of a server that stays multi-threaded. A second create that starts
the processing thread and then fails in `pthread_mutex_init` returns without stopping it, so a
processing thread runs beside a single I/O thread. One that fails in `gearman_create` frees the
thread it added while `thread_count` is still 2, so the processing thread is joined and
`proc_shutdown` is left set. -/
theorem serverThreadCreate_null_changes_proc_thread :
    Server.twoThreads.Consistent ∧ Server.oneThread.Consistent ∧
      serverThreadCreate ⟨false, true, false, false⟩ none Server.twoThreads =
        (none, { Server.twoThreads with procShutdown := true, procThreads := [.joined] }) ∧
      serverThreadCreate ⟨false, false, true, false⟩ none Server.oneThread =
        (none, { Server.oneThread with procThreads := [.running], heapNext := 2 }) ∧
      serverThreadCreate ⟨false, false, false, true⟩ none Server.oneThread =
        (none, { Server.oneThread with
          procShutdown := true, procThreads := [.joined], heapNext := 2 }) ∧
      ¬ (serverThreadCreate ⟨false, false, true, false⟩ none Server.oneThread).2.Consistent ∧
      ¬ (serverThreadCreate ⟨false, false, false, true⟩ none Server.oneThread).2.Consistent := by
  decide

/-- `_proc_thread_kill` joins the wrong threads. The first create on a server, with `malloc`
failing, gets past the guard and joins a `proc_id` no `_proc_thread_start` set. And with no
failure at all: freeing the second thread joins the processing thread but leaves
`proc_shutdown` set, so when a new second thread starts another processing thread, the kill of
the next free stops at the guard; once every thread is freed, that processing thread was never
joined. -/
theorem proc_thread_joins_mismatch :
    Server.empty.procState = none ∧
      serverThreadCreate ⟨false, true, false, false⟩ none Server.empty =
        (none, { Server.empty with procShutdown := true, strayJoins := 1 }) ∧
      ([.create .none none, .create .none none, .free ⟨1, true⟩, .create .none none,
        .free ⟨2, true⟩, .free ⟨0, true⟩].foldl Server.apply Server.empty).threadCount = 0 ∧
      ([.create .none none, .create .none none, .free ⟨1, true⟩, .create .none none,
        .free ⟨2, true⟩, .free ⟨0, true⟩].foldl Server.apply Server.empty).procThreads =
        [.running, .joined] := by
  decide

end Gearman
