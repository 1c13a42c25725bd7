import GearmanServer.Basic

/-!
# Reading packets for a connection

`_thread_packet_read` calls `gearman_con_recv` into `server_con->packet` until the socket would
block. A complete packet is run at once by `gearman_server_run_command` when the server has one
thread, and otherwise appended to the connection's `proc_packet_list` for `_proc`, which runs the
queued packets in order and stores each return code in `con->ret`.

Packets live in slots of a per-thread pool, so that a packet handed to the processing thread and
a packet being received can be told apart by address. `gearman_con_recv` keeps the packet it is
filling in `recv_packet` across `GEARMAN_IO_WAIT`, and fills that one rather than the one it is
passed. Both the slots and the connection carry two records kept for the proofs only: each
completed packet is numbered, and `received` / `ran` list the packets completed by
`gearman_con_recv` and the packets handed to `gearman_server_run_command`.
-/

namespace Gearman

/-- What one call of `gearman_con_recv` reads from the socket. -/
inductive RecvOutcome where
  /-- Part of a packet; the call returns `GEARMAN_IO_WAIT`. -/
  | incomplete (bytes : List Nat)
  /-- The rest of a packet; the call returns `GEARMAN_SUCCESS`. -/
  | complete (bytes : List Nat)
  | error (e : Failure)
  deriving DecidableEq, Repr

/-- A `gearman_server_packet_st`: the bytes received into it, and the number of packets the
connection had completed before it. -/
structure Slot where
  data : List Nat
  seq : Nat
  deriving DecidableEq, Repr

/-- The packets of a thread: slots by address, the free list, the address the next `malloc`
returns, and which coming `malloc` calls fail. -/
structure PacketPool where
  slots : Nat → Slot
  freeList : List Nat
  next : Nat
  mallocFails : List Bool

namespace PacketPool

/-- Modelled from the spec: `gearman_server_packet_create` reuses a packet of the thread's free
list, or allocates one, and fails when that `malloc` fails. -/
def create (pool : PacketPool) : Option Nat × PacketPool :=
  match pool.freeList, pool.mallocFails with
  | p :: rest, _ => (some p, { pool with freeList := rest })
  | [], true :: fails => (none, { pool with mallocFails := fails })
  | [], fails => (some pool.next, { pool with next := pool.next + 1, mallocFails := fails.tail })

/-- Modelled from the spec: `gearman_server_packet_free` returns the packet to the free list. -/
def free (pool : PacketPool) (p : Nat) : PacketPool := { pool with freeList := p :: pool.freeList }

def write (pool : PacketPool) (p : Nat) (slot : Slot) : PacketPool :=
  { pool with slots := Function.update pool.slots p slot }

/-- The number and bytes of the packet at `p`, as `ran` and `received` record them. -/
def entry (pool : PacketPool) (p : Nat) : Nat × List Nat :=
  ((pool.slots p).seq, (pool.slots p).data)

@[simp] theorem write_slots (pool : PacketPool) (p : Nat) (slot : Slot) (q : Nat) :
    (pool.write p slot).slots q = if q = p then slot else pool.slots q := Function.update_apply ..

@[simp] theorem write_freeList (pool : PacketPool) (p : Nat) (slot : Slot) :
    (pool.write p slot).freeList = pool.freeList := rfl

@[simp] theorem write_next (pool : PacketPool) (p : Nat) (slot : Slot) :
    (pool.write p slot).next = pool.next := rfl

@[simp] theorem free_slots (pool : PacketPool) (p : Nat) : (pool.free p).slots = pool.slots := rfl

@[simp] theorem free_freeList (pool : PacketPool) (p : Nat) :
    (pool.free p).freeList = p :: pool.freeList := rfl

@[simp] theorem free_next (pool : PacketPool) (p : Nat) : (pool.free p).next = pool.next := rfl

@[simp] theorem entry_free (pool : PacketPool) (p q : Nat) : (pool.free p).entry q = pool.entry q :=
  rfl

theorem create_some {pool pool' : PacketPool} {q : Nat} (h : pool.create = (some q, pool')) :
    (∃ rest, pool.freeList = q :: rest ∧ pool' = { pool with freeList := rest }) ∨
      (pool.freeList = [] ∧ q = pool.next ∧
        pool' = { pool with next := pool.next + 1, mallocFails := pool.mallocFails.tail }) := by
  unfold create at h
  split at h
  · next _ _ p rest hf =>
    obtain ⟨⟨⟩, ⟨⟩⟩ := Prod.mk.inj h
    exact .inl ⟨rest, hf, rfl⟩
  · cases h
  · next hf _ =>
    obtain ⟨⟨⟩, ⟨⟩⟩ := Prod.mk.inj h
    exact .inr ⟨hf, rfl, rfl⟩

theorem create_none {pool pool' : PacketPool} (h : pool.create = (none, pool')) :
    pool' = { pool with mallocFails := pool.mallocFails.tail } := by
  unfold create at h
  split at h
  · cases h
  · next _ _ fails _ hm =>
    obtain ⟨-, ⟨⟩⟩ := Prod.mk.inj h
    rw [hm]
    rfl
  · cases h

end PacketPool

/-- What `gearman_server_run_command` does with one packet: its return code, and the replies it
queues, each for a connection of the thread. -/
structure CommandOutcome where
  ret : GearmanReturn
  replies : List (Nat × Packet)
  deriving DecidableEq, Repr

/-- The reading side of a `gearman_server_con_st`, with the receive state `gearman_con_recv`
keeps in its `gearman_con_st`. -/
structure Inbound where
  /-- `server_con->packet`, the packet `_thread_packet_read` receives into. -/
  packet : Option Nat
  /-- `con->recv_packet`, the packet `gearman_con_recv` is filling across `GEARMAN_IO_WAIT`. -/
  recvPacket : Option Nat
  procPacketList : List Nat
  /-- `con->ret`, the code of the last command `_proc` ran. -/
  ret : GearmanReturn
  /-- What `gearman_server_run_command` does with the connection's packets, in order; once the
  script is used up every command succeeds and queues nothing. -/
  commands : List CommandOutcome
  received : List (Nat × List Nat)
  ran : List (Nat × List Nat)

def Inbound.fresh (commands : List CommandOutcome) : Inbound :=
  ⟨none, none, [], .success, commands, [], []⟩

/-- Modelled from the spec: `gearman_con_recv` goes on filling the packet it started, or starts
on `packet`; a complete packet is numbered by the count of packets completed before it. -/
def gearmanConRecv (o : RecvOutcome) (packet : Nat) (pool : PacketPool) (con : Inbound) :
    GearmanReturn × PacketPool × Inbound :=
  let p := con.recvPacket.getD packet
  let old := if con.recvPacket.isSome then (pool.slots p).data else []
  match o with
  | .incomplete bytes =>
    (.ioWait, pool.write p ⟨old ++ bytes, (pool.slots p).seq⟩, { con with recvPacket := some p })
  | .complete bytes =>
    (.success, pool.write p ⟨old ++ bytes, con.received.length⟩,
      { con with
        recvPacket := none
        received := con.received ++ [(con.received.length, old ++ bytes)] })
  | .error e => (e.code, pool, con)

/-- `gearman_server_run_command` on the packet at `p`: the connection's next scripted outcome. -/
def runCommand (pool : PacketPool) (p : Nat) (con : Inbound) : CommandOutcome × Inbound :=
  (con.commands.headD ⟨.success, []⟩,
    { con with commands := con.commands.tail, ran := con.ran ++ [pool.entry p] })

/-- How one pass of the `while (1)` loop of `_thread_packet_read` ends: with a packet handed
on, or returning from the call, both with the replies of a command run in the pass; or
returning `GEARMAN_MEMORY_ALLOCATION_FAILURE` before `gearman_con_recv` reads anything. -/
inductive ReadPass where
  | next (pool : PacketPool) (con : Inbound) (replies : List (Nat × Packet))
  | stop (ret : GearmanReturn) (pool : PacketPool) (con : Inbound) (replies : List (Nat × Packet))
  | noPacket (pool : PacketPool) (con : Inbound)

/-- `server_con->packet`, created by `gearman_server_packet_create` when there is none. -/
def acquirePacket (pool : PacketPool) (con : Inbound) : Option Nat × PacketPool :=
  match con.packet with
  | some p => (some p, pool)
  | none => pool.create

/-- One pass of the loop of `_thread_packet_read`, with `o` what `gearman_con_recv` reads. -/
def threadPacketReadPass (threadCount : Nat) (o : RecvOutcome) (pool : PacketPool)
    (con : Inbound) : ReadPass :=
  match acquirePacket pool con with
  | (none, pool) => .noPacket pool con
  | (some p, pool) =>
    let (ret, pool, con) := gearmanConRecv o p pool { con with packet := some p }
    if ret = .ioWait then .stop .success pool con []
    else if ret ≠ .success then .stop ret pool con []
    else if threadCount = 1 then
      let (out, con) := runCommand pool p con
      let pool := pool.free p
      let con := { con with packet := none }
      if out.ret ≠ .success then .stop out.ret pool con out.replies else .next pool con out.replies
    else .next pool { con with procPacketList := con.procPacketList ++ [p], packet := none } []

/-- What a call of `_thread_packet_read` returns and leaves: the rest of the socket's input and
the replies of the commands it ran, in order. -/
structure ReadResult where
  ret : GearmanReturn
  pool : PacketPool
  con : Inbound
  wire : List RecvOutcome
  replies : List (Nat × Packet)

def ReadPass.pool : ReadPass → PacketPool
  | .next pool _ _ | .stop _ pool _ _ | .noPacket pool _ => pool

def ReadPass.con : ReadPass → Inbound
  | .next _ con _ | .stop _ _ con _ | .noPacket _ con => con

/-- The socket's input left after a pass on `wire`: every pass but one that found no packet
reads the head. -/
def ReadPass.unread (wire : List RecvOutcome) : ReadPass → List RecvOutcome
  | .noPacket .. => wire
  | _ => wire.tail

/-- A pass on the input `wire` that returned from the call. Only a complete packet continues
the loop. -/
def ReadPass.toResult (wire : List RecvOutcome) (pass : ReadPass) : ReadResult :=
  match pass with
  | .stop ret pool con replies => ⟨ret, pool, con, pass.unread wire, replies⟩
  | .next pool con replies => ⟨.success, pool, con, pass.unread wire, replies⟩
  | .noPacket pool con => ⟨.memoryAllocationFailure, pool, con, pass.unread wire, []⟩

/-- `_thread_packet_read`: passes until one returns. Once the socket's input `wire` is used up,
`gearman_con_recv` reads nothing and reports `GEARMAN_IO_WAIT`. -/
def threadPacketRead (threadCount : Nat) (pool : PacketPool) (con : Inbound) :
    List RecvOutcome → ReadResult
  | [] => (threadPacketReadPass threadCount (.incomplete []) pool con).toResult []
  | o :: wire =>
    match threadPacketReadPass threadCount o pool con with
    | .next pool con replies =>
      let r := threadPacketRead threadCount pool con wire
      { r with replies := replies ++ r.replies }
    | pass => pass.toResult (o :: wire)

/-- The body of the inner `while (1)` loop of `_proc`, on the packet `p` that
`gearman_server_proc_packet_remove` returned: run it, store its code in `con->ret`, free it. -/
def procRunPacket (pool : PacketPool) (p : Nat) (con : Inbound) :
    PacketPool × Inbound × List (Nat × Packet) :=
  let (out, con) := runCommand pool p con
  (pool.free p, { con with ret := out.ret }, out.replies)

/-- The inner loop of `_proc` for one connection, over the queued packets `ps`:
`gearman_server_proc_packet_remove` takes them from the head of `proc_packet_list`. -/
def procDrain (pool : PacketPool) (con : Inbound) :
    List Nat → PacketPool × Inbound × List (Nat × Packet)
  | [] => (pool, con, [])
  | p :: ps =>
    let (pool, con, replies) := procRunPacket pool p { con with procPacketList := ps }
    let (pool, con, more) := procDrain pool con ps
    (pool, con, replies ++ more)

/-- `_proc` on a connection that is not dead: the packets of its `proc_packet_list`. -/
def procRunQueue (pool : PacketPool) (con : Inbound) : PacketPool × Inbound × List (Nat × Packet) :=
  procDrain pool con con.procPacketList

end Gearman
