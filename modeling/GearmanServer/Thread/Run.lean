import GearmanServer.Packet.Read
import GearmanServer.Packet.Flush

/-!
# The loop of a server thread

`gearman_server_thread_run` is called by the I/O thread each time its poll returns. When the
server is multi-threaded it first takes the connections off the thread's `io_list`, tearing down
those the processing thread flagged `GEARMAN_SERVER_CON_FREE`, handing back one whose last command
failed, and flushing the others. It then reads and flushes the connections the poll reported
ready, and when single-threaded it flushes the connections its own commands put on `io_list`.
It returns the connection of the first failure, or `NULL` with the server's shutdown state.

A thread's connections are numbered; each carries the inbound side of the packet pipeline, its
outbound queue, what its socket will deliver, and the flags the loop reads. Between two calls
the environment moves: the poll reports events, other threads queue packets, and the processing
thread runs a connection's queued packets. A report marks the connection ready, is stored as its
`revents`, and takes the reported bits out of the `events` it watches, as `gearman_con_set_revents`
does. A pass of the processing thread is one step here; each packet it queues also flags the
connection onto `io_list`. A call of `gearman_server_thread_run` is one step as well: the model
does not interleave the processing thread with it, so the two reads of `con->ret` at the head of
`io_list` see one value.
-/

namespace Gearman

/-- A `gearman_server_con_st` with its `gearman_con_st`, as one server thread sees it. -/
structure ServerCon where
  inbound : Inbound
  outbound : Outbound
  wire : List RecvOutcome
  /-- `GEARMAN_CON_READY`, set by the poll and cleared by `gearman_con_ready`. -/
  ready : Bool
  revents : Events
  /-- `GEARMAN_SERVER_CON_DEAD`: the socket failed or was closed. -/
  dead : Bool
  /-- `GEARMAN_SERVER_CON_FREE`: the processing thread is done with a dead connection. -/
  free : Bool
  /-- Handed back by `gearman_server_thread_run` with an error, for the caller to tear down;
  kept for the proofs only. -/
  returned : Bool

def ServerCon.fresh (wire : List RecvOutcome) (commands : List CommandOutcome)
    (sends : List SendOutcome) : ServerCon :=
  ⟨Inbound.fresh commands, Outbound.fresh sends, wire, false, ⟨false, false⟩, false, false, false⟩

/-- The fields of `gearman_server_st` that `gearman_server_thread_run` reads at its end. -/
structure ServerFlags where
  shutdown : Bool
  shutdownGraceful : Bool
  jobCount : Nat

/-- A `gearman_server_thread_st` with its connections. The server's `thread_count` is fixed
for the thread's life and passed to the functions that read it. -/
structure ServerThread where
  /-- The connections of the thread's `gearman_st`, in the order `gearman_con_ready` scans them. -/
  conList : List Nat
  cons : Nat → ServerCon
  /-- `io_list`: the connections with packets to flush or to tear down, oldest first. -/
  ioList : List Nat
  pool : PacketPool

/-- What a call of `gearman_server_thread_run` returns: the connection (`none` for `NULL`),
`*ret_ptr`, and the thread it leaves. -/
structure RunResult where
  con : Option Nat
  ret : GearmanReturn
  thread : ServerThread

namespace ServerThread

def setCon (t : ServerThread) (c : Nat) (con : ServerCon) : ServerThread :=
  { t with cons := Function.update t.cons c con }

@[simp] theorem setCon_cons (t : ServerThread) (c : Nat) (con : ServerCon) (d : Nat) :
    (t.setCon c con).cons d = if d = c then con else t.cons d := Function.update_apply ..

@[simp] theorem setCon_conList (t : ServerThread) (c : Nat) (con : ServerCon) :
    (t.setCon c con).conList = t.conList := rfl

@[simp] theorem setCon_ioList (t : ServerThread) (c : Nat) (con : ServerCon) :
    (t.setCon c con).ioList = t.ioList := rfl


/-- Modelled from the spec: `gearman_server_con_io_add` flags a connection onto `io_list`
unless it is there already. -/
def ioAdd (t : ServerThread) (c : Nat) : ServerThread :=
  if c ∈ t.ioList then t else { t with ioList := t.ioList ++ [c] }

@[simp] theorem ioAdd_cons (t : ServerThread) (c : Nat) : (t.ioAdd c).cons = t.cons := by
  unfold ioAdd; split <;> rfl

@[simp] theorem ioAdd_conList (t : ServerThread) (c : Nat) : (t.ioAdd c).conList = t.conList := by
  unfold ioAdd; split <;> rfl

@[simp] theorem mem_ioAdd_ioList (t : ServerThread) (c d : Nat) :
    d ∈ (t.ioAdd c).ioList ↔ d ∈ t.ioList ∨ d = c := by
  unfold ioAdd
  split
  · exact ⟨.inl, fun h => h.elim id fun e => e ▸ ‹_›⟩
  · simp

/-- Modelled from the spec: `gearman_server_io_packet_add` appends a packet to a connection's
outbound queue and flags the connection onto `io_list`. -/
def ioPacketAdd (t : ServerThread) (c : Nat) (p : Packet) : ServerThread :=
  (t.setCon c { t.cons c with outbound := (t.cons c).outbound.append p }).ioAdd c

/-- The replies of the commands run, each queued by `gearman_server_io_packet_add`. -/
def queueReplies (t : ServerThread) (replies : List (Nat × Packet)) : ServerThread :=
  replies.foldl (fun t r => t.ioPacketAdd r.1 r.2) t

@[simp] theorem ioPacketAdd_conList (t : ServerThread) (c : Nat) (p : Packet) :
    (t.ioPacketAdd c p).conList = t.conList := by
  simp [ioPacketAdd]

@[simp] theorem queueReplies_conList (t : ServerThread) (replies : List (Nat × Packet)) :
    (t.queueReplies replies).conList = t.conList := by
  induction replies generalizing t with
  | nil => rfl
  | cons r rest ih => exact (ih _).trans (ioPacketAdd_conList t r.1 r.2)

@[simp] theorem ioPacketAdd_inbound (t : ServerThread) (c : Nat) (p : Packet) (d : Nat) :
    ((t.ioPacketAdd c p).cons d).inbound = (t.cons d).inbound := by
  simp only [ioPacketAdd, ioAdd_cons, setCon_cons]
  split
  · next hdc => rw [hdc]
  · rfl

@[simp] theorem queueReplies_inbound (t : ServerThread) (replies : List (Nat × Packet)) (d : Nat) :
    ((t.queueReplies replies).cons d).inbound = (t.cons d).inbound := by
  induction replies generalizing t with
  | nil => rfl
  | cons r rest ih => exact (ih _).trans (ioPacketAdd_inbound t r.1 r.2 d)

/-- Modelled from the spec: `gearman_server_con_free` tears down a connection and takes it off
the thread's list. -/
def conFree (t : ServerThread) (c : Nat) : ServerThread :=
  { t with conList := t.conList.filter fun d => d != c }

def handBack (t : ServerThread) (c : Nat) : ServerThread :=
  t.setCon c { t.cons c with returned := true }

@[simp] theorem handBack_returned (t : ServerThread) (c : Nat) :
    ((t.handBack c).cons c).returned = true := by
  simp [handBack]

/-- `_thread_packet_flush` on connection `c`. -/
def flushCon (t : ServerThread) (c : Nat) : GearmanReturn × ServerThread :=
  let r := threadPacketFlush (t.cons c).outbound
  (r.1, t.setCon c { t.cons c with outbound := r.2 })

@[simp] theorem flushCon_conList (t : ServerThread) (c : Nat) :
    (t.flushCon c).2.conList = t.conList := rfl

/-- `_thread_packet_read` on connection `c`. The replies of the commands it runs inline touch
only outbound queues and `io_list`, which the read does not look at, so they are queued once
the read returns. -/
def readCon (threadCount : Nat) (t : ServerThread) (c : Nat) : GearmanReturn × ServerThread :=
  let r := threadPacketRead threadCount t.pool (t.cons c).inbound (t.cons c).wire
  let t := t.setCon c { t.cons c with inbound := r.con, wire := r.wire }
  (r.ret, ({ t with pool := r.pool }).queueReplies r.replies)

@[simp] theorem readCon_conList (threadCount : Nat) (t : ServerThread) (c : Nat) :
    (t.readCon threadCount c).2.conList = t.conList := by
  simp [readCon]

/-- The test after each call in `gearman_server_thread_run`: a code other than
`GEARMAN_SUCCESS` and `GEARMAN_IO_WAIT` returns the connection. -/
def checkRet (c : Nat) : GearmanReturn × ServerThread → Except RunResult ServerThread
  | (ret, t) => if ret ≠ .success ∧ ret ≠ .ioWait then .error ⟨some c, ret, t.handBack c⟩ else .ok t

theorem checkRet_eq (c : Nat) (ret : GearmanReturn) (t : ServerThread) :
    checkRet c (ret, t) =
      if ret ≠ .success ∧ ret ≠ .ioWait then .error ⟨some c, ret, t.handBack c⟩ else .ok t := rfl

/-- The first loop, when multi-threaded, over the connections `gearman_server_con_io_next`
takes from the head of `io_list`. -/
def ioDrainMulti (t : ServerThread) : List Nat → Except RunResult ServerThread
  | [] => .ok t
  | c :: rest =>
    let t := { t with ioList := rest }
    if (t.cons c).free then ioDrainMulti (t.conFree c) rest
    else if (t.cons c).inbound.ret ≠ .success then
      .error ⟨some c, (t.cons c).inbound.ret, t.handBack c⟩
    else do
      let t ← checkRet c (t.flushCon c)
      ioDrainMulti t rest

/-- One connection `gearman_con_ready` returned: read on `POLLIN`, then flush on `POLLOUT`. -/
def readyCon (threadCount : Nat) (t : ServerThread) (c : Nat) : Except RunResult ServerThread :=
  (if (t.cons c).revents.pollin then checkRet c (t.readCon threadCount c) else .ok t) >>= fun t =>
    if (t.cons c).revents.pollout then checkRet c (t.flushCon c) else .ok t

/-- Modelled from the spec: the second loop. `gearman_con_ready` returns the first connection
of the list whose ready flag is set and clears the flag; handling a connection sets no flag, so
the connections come in list order. -/
def readyLoop (threadCount : Nat) (t : ServerThread) : List Nat → Except RunResult ServerThread
  | [] => .ok t
  | c :: rest =>
    if (t.cons c).ready then do
      let t ← readyCon threadCount (t.setCon c { t.cons c with ready := false }) c
      readyLoop threadCount t rest
    else readyLoop threadCount t rest

/-- The third loop, when single-threaded: flush what the commands run inline queued. -/
def ioDrainSingle (t : ServerThread) : List Nat → Except RunResult ServerThread
  | [] => .ok t
  | c :: rest => do
    let t ← checkRet c ({ t with ioList := rest }.flushCon c)
    ioDrainSingle t rest

end ServerThread

/-- `*ret_ptr` of a `NULL` return: the two shutdown modes. -/
def shutdownCode (f : ServerFlags) : GearmanReturn :=
  if f.shutdown then .shutdown
  else if f.shutdownGraceful then (if f.jobCount = 0 then .shutdown else .shutdownGraceful)
  else .success

open ServerThread in
/-- The three loops of `gearman_server_thread_run`, stopping at the first connection returned. -/
def threadRunLoops (threadCount : Nat) (t : ServerThread) : Except RunResult ServerThread :=
  (if 1 < threadCount then ioDrainMulti t t.ioList else .ok t) >>= fun t =>
    readyLoop threadCount t t.conList >>= fun t =>
      if threadCount = 1 then ioDrainSingle t t.ioList else .ok t

/-- `gearman_server_thread_run`. -/
def serverThreadRun (threadCount : Nat) (f : ServerFlags) (t : ServerThread) : RunResult :=
  match threadRunLoops threadCount t with
  | .ok t => ⟨none, shutdownCode f, t⟩
  | .error r => r

namespace ServerThread

/-- One pass of `_proc` over connection `c`: a dead connection is flagged
`GEARMAN_SERVER_CON_FREE` and put on `io_list` for teardown; otherwise its queued packets are
run, `con->ret` keeps the code of the last one, and their replies are queued. -/
def procCon (t : ServerThread) (c : Nat) : ServerThread :=
  if (t.cons c).dead then (t.setCon c { t.cons c with free := true }).ioAdd c
  else
    let r := procRunQueue t.pool (t.cons c).inbound
    ({ t.setCon c { t.cons c with inbound := r.2.1 } with pool := r.1 }).queueReplies r.2.2

@[simp] theorem procCon_conList (t : ServerThread) (c : Nat) :
    (t.procCon c).conList = t.conList := by
  unfold procCon
  split <;> simp

end ServerThread

/-- What happens to a server thread: a call of `gearman_server_thread_run` with the server's
flags at that time, a poll reporting `revents` on a connection, a packet queued by another
thread, a pass of the processing thread, or a connection's socket failing. -/
inductive ThreadMove where
  | run (f : ServerFlags)
  /-- `gearman_con_set_revents`: a report of anything sets `GEARMAN_CON_READY`, and the reported
  bits are stored in `revents` and taken out of the events the poll watches, so that the flush
  of a connection reported writable does not return at once on `POLLOUT`. -/
  | poll (c : Nat) (revents : Events)
  | enqueue (c : Nat) (p : Packet)
  | proc (c : Nat)
  | markDead (c : Nat)

namespace ServerThread

/-- The effect of one move. The processing thread exists only when multi-threaded. -/
def step (threadCount : Nat) (t : ServerThread) : ThreadMove → ServerThread
  | .run f => (serverThreadRun threadCount f t).thread
  | .poll c revents =>
    t.setCon c { t.cons c with
      ready := (t.cons c).ready || revents.pollin || revents.pollout
      revents := revents
      outbound := { (t.cons c).outbound with events := (t.cons c).outbound.events.clear revents } }
  | .enqueue c p => t.ioPacketAdd c p
  | .proc c => if 1 < threadCount then t.procCon c else t
  | .markDead c => t.setCon c { t.cons c with dead := true }

/-- A thread whose connections have the scripted sockets, commands and sends, and nothing
queued yet. -/
def start (conList : List Nat) (wire : Nat → List RecvOutcome)
    (commands : Nat → List CommandOutcome) (sends : Nat → List SendOutcome)
    (mallocFails : List Bool) : ServerThread :=
  ⟨conList, fun c => ServerCon.fresh (wire c) (commands c) (sends c), [],
    ⟨fun _ => ⟨[], 0⟩, [], 0, mallocFails⟩⟩

inductive Reachable (threadCount : Nat) : ServerThread → Prop where
  | start (conList : List Nat) (wire : Nat → List RecvOutcome)
      (commands : Nat → List CommandOutcome) (sends : Nat → List SendOutcome)
      (mallocFails : List Bool) :
      Reachable threadCount (start conList wire commands sends mallocFails)
  | step {t : ServerThread} (m : ThreadMove) : Reachable threadCount t →
      Reachable threadCount (t.step threadCount m)

theorem Reachable.run {threadCount : Nat} {t : ServerThread} (h : t.Reachable threadCount)
    (moves : List ThreadMove) :
    (moves.foldl (ServerThread.step threadCount) t).Reachable threadCount := by
  induction moves generalizing t with
  | nil => exact h
  | cons m rest ih => exact ih (.step m h)

end ServerThread

end Gearman
