import GearmanServer.Packet.Read
import Mathlib.Data.List.Nodup

/-!
# The inbound packets of a connection, across the I/O and processing threads

The I/O thread runs the passes of `_thread_packet_read` on the connection; the processing
thread takes the head of `proc_packet_list` (`gearman_server_proc_packet_remove`, atomic under
the thread lock) and later runs and frees it. A run is any interleaving of these three moves,
any script of socket input, command outcomes and `malloc` failures.

`ReadInv` is what every reachable state satisfies. The packets in use (taken by `_proc`, queued,
being received) and the free list are pairwise distinct and below the next fresh address, the
packet `gearman_con_recv` fills is the connection's `packet`, and the packets received are those
already run followed by those taken or queued, in order. The main result,
`ran_prefix_received`, follows: commands are run on a prefix of the received packets, each once,
in order and with the bytes received, whatever the thread count. `procRunQueue_refines` connects
this model to the thread model, where a pass of `_proc` over a connection is one move.
-/

namespace Gearman

/-- The reading side of a connection and what `_proc` holds of it. -/
structure InboundSystem where
  pool : PacketPool
  con : Inbound
  wire : List RecvOutcome
  /-- The packet `_proc` took off `proc_packet_list` and has not yet freed. -/
  current : Option Nat
  /-- `_thread_packet_read` returned a failure: the caller closes the connection. -/
  closed : Bool

inductive InboundMove where
  /-- The I/O thread runs one pass of `_thread_packet_read`. -/
  | read
  /-- `_proc` takes the head of `proc_packet_list`. -/
  | procRemove
  /-- `_proc` runs and frees the packet it took. -/
  | procRun

namespace InboundSystem

def init (pool : PacketPool) (commands : List CommandOutcome) (wire : List RecvOutcome) :
    InboundSystem :=
  ⟨pool, Inbound.fresh commands, wire, none, false⟩

def step (threadCount : Nat) (s : InboundSystem) : InboundMove → InboundSystem
  | .read =>
    if s.closed then s
    else
      match threadPacketReadPass threadCount (s.wire.headD (.incomplete [])) s.pool s.con with
      | .next pool con _ => { s with pool, con, wire := s.wire.tail }
      | .stop ret pool con _ => { s with pool, con, wire := s.wire.tail, closed := ret ≠ .success }
      | .noPacket pool con => { s with pool, con, closed := true }
  | .procRemove =>
    match s.current, s.con.procPacketList with
    | none, p :: ps => { s with current := some p, con := { s.con with procPacketList := ps } }
    | _, _ => s
  | .procRun =>
    match s.current with
    | some p =>
      let (pool, con, _) := procRunPacket s.pool p s.con
      { s with pool, con, current := none }
    | none => s

inductive Reachable (threadCount : Nat) : InboundSystem → Prop where
  | init (pool : PacketPool) (commands : List CommandOutcome) (wire : List RecvOutcome)
      (nodup : pool.freeList.Nodup) (lt_next : ∀ p ∈ pool.freeList, p < pool.next) :
      Reachable threadCount (init pool commands wire)
  | step {s : InboundSystem} (m : InboundMove) :
      Reachable threadCount s → Reachable threadCount (s.step threadCount m)

end InboundSystem

/-- The packets of the connection: being received, taken by `_proc`, queued, then free. -/
def ownedPackets (pool : PacketPool) (con : Inbound) (current : Option Nat) : List Nat :=
  con.packet.toList ++ current.toList ++ con.procPacketList ++ pool.freeList

/-- The invariant of the reading side of a connection. -/
structure ReadInv (threadCount : Nat) (pool : PacketPool) (con : Inbound) (current : Option Nat) :
    Prop where
  nodup : (ownedPackets pool con current).Nodup
  lt_next : ∀ p ∈ ownedPackets pool con current, p < pool.next
  recv_packet : con.recvPacket = none ∨ con.recvPacket = con.packet
  pending : con.received = con.ran ++ (current.toList ++ con.procPacketList).map pool.entry
  numbered : con.received.map Prod.fst = List.range con.received.length
  inline : threadCount = 1 → current = none ∧ con.procPacketList = []


theorem map_entry_write {pool : PacketPool} {q : Nat} {l : List Nat} (slot : Slot) (h : q ∉ l) :
    l.map (pool.write q slot).entry = l.map pool.entry := by
  apply List.map_congr_left
  intro p hp
  have : p ≠ q := fun e => h (e ▸ hp)
  simp [PacketPool.entry, this]

@[simp] theorem entry_write_self (pool : PacketPool) (q : Nat) (slot : Slot) :
    (pool.write q slot).entry q = (slot.seq, slot.data) := by
  simp [PacketPool.entry]

namespace ReadInv

variable {tc : Nat} {pool pool' : PacketPool} {con con' : Inbound} {cur cur' : Option Nat} {q : Nat}

theorem owned_perm (h : ReadInv tc pool con cur)
    (hp : List.Perm (ownedPackets pool' con' cur') (ownedPackets pool con cur))
    (hn : pool.next ≤ pool'.next) :
    (ownedPackets pool' con' cur').Nodup ∧ ∀ p ∈ ownedPackets pool' con' cur', p < pool'.next :=
  ⟨hp.nodup_iff.2 h.nodup, fun p hm => Nat.lt_of_lt_of_le (h.lt_next p (hp.mem_iff.1 hm)) hn⟩

theorem recv_getD (h : ReadInv tc pool con cur) (hq : con.packet = some q) :
    con.recvPacket.getD q = q := by
  rcases h.recv_packet with h | h <;> simp [h, hq]

theorem packet_not_pending (h : ReadInv tc pool con cur) (hq : con.packet = some q) :
    q ∉ cur.toList ++ con.procPacketList := by
  have := h.nodup
  simp only [ownedPackets, hq, Option.toList_some, List.singleton_append, List.append_assoc,
    List.cons_append, List.nodup_cons, List.mem_append, not_or] at this
  simp only [List.mem_append, not_or]
  exact ⟨this.1.2.1, this.1.2.2.1⟩

theorem of_pool (h : ReadInv tc pool con cur) (hs : pool'.slots = pool.slots)
    (hf : pool'.freeList = pool.freeList) (hn : pool'.next = pool.next) :
    ReadInv tc pool' con cur := by
  have he : pool'.entry = pool.entry := by funext p; simp [PacketPool.entry, hs]
  obtain ⟨h1, h2, h3, h4, h5, h6⟩ := h
  exact ⟨by simpa [ownedPackets, hf] using h1, by simpa [ownedPackets, hf, hn] using h2, h3,
    by rw [he]; exact h4, h5, h6⟩

theorem acquire_none (h : ReadInv tc pool con cur) (ha : acquirePacket pool con = (none, pool')) :
    ReadInv tc pool' con cur := by
  unfold acquirePacket at ha
  split at ha
  · cases ha
  · rw [PacketPool.create_none ha]
    exact h.of_pool rfl rfl rfl

theorem acquire_fresh (h : ReadInv tc pool con cur) (hp : con.packet = none)
    (hr : con.recvPacket = none) (hf : pool.freeList = []) (fails : List Bool) :
    ReadInv tc { pool with next := pool.next + 1, mallocFails := fails }
      { con with packet := some pool.next } cur := by
  have hfresh : pool.next ∉ ownedPackets pool con cur := fun hm => lt_irrefl _ (h.lt_next _ hm)
  have hown : ownedPackets { pool with next := pool.next + 1, mallocFails := fails }
      { con with packet := some pool.next } cur = pool.next :: ownedPackets pool con cur := by
    simp [ownedPackets, hp, hf]
  refine ⟨?_, ?_, by simp [hr], by simpa [PacketPool.entry] using h.pending, h.numbered, h.inline⟩
  · rw [hown]; exact List.nodup_cons.2 ⟨hfresh, h.nodup⟩
  · rw [hown]
    intro p hm
    rcases List.mem_cons.1 hm with rfl | hm
    · exact Nat.lt_succ_self _
    · exact Nat.lt_succ_of_lt (h.lt_next p hm)

theorem acquire_some (h : ReadInv tc pool con cur) (ha : acquirePacket pool con = (some q, pool')) :
    ReadInv tc pool' { con with packet := some q } cur := by
  unfold acquirePacket at ha
  cases hp : con.packet with
  | some p =>
    simp only [hp, Prod.mk.injEq, Option.some.injEq] at ha
    obtain ⟨rfl, rfl⟩ := ha
    cases con; simp_all
  | none =>
    have hr : con.recvPacket = none := by simpa [hp] using h.recv_packet
    simp only [hp] at ha
    rcases PacketPool.create_some ha with ⟨rest, hf, rfl⟩ | ⟨hf, rfl, rfl⟩
    · have hperm : List.Perm
          (ownedPackets { pool with freeList := rest } { con with packet := some q } cur)
          (ownedPackets pool con cur) := by
        simp only [ownedPackets, hp, hf, Option.toList_some, Option.toList_none, List.nil_append]
        exact List.perm_middle.symm
      obtain ⟨hn, hl⟩ := h.owned_perm hperm le_rfl
      exact ⟨hn, hl, by simp [hr], h.pending, h.numbered, h.inline⟩
    · exact h.acquire_fresh hp hr hf _

theorem recv_incomplete (h : ReadInv tc pool con cur) (hq : con.packet = some q)
    (hr : gearmanConRecv (.incomplete b) q pool con = (ret, pool', con')) :
    ReadInv tc pool' con' cur := by
  have hn := h.packet_not_pending hq
  simp only [gearmanConRecv, h.recv_getD hq, Prod.mk.injEq] at hr
  obtain ⟨-, rfl, rfl⟩ := hr
  refine ⟨by simpa [ownedPackets] using h.nodup, by simpa [ownedPackets] using h.lt_next,
    by simp [hq], ?_, h.numbered, h.inline⟩
  rw [map_entry_write _ hn]
  exact h.pending

open List in
theorem complete_enqueue (h : ReadInv tc pool con cur) (hq : con.packet = some q) (htc : tc ≠ 1)
    (hr : gearmanConRecv (.complete b) q pool con = (ret, pool', con')) :
    ReadInv tc pool' { con' with procPacketList := con'.procPacketList ++ [q], packet := none }
      cur := by
  have hn := h.packet_not_pending hq
  have hperm : List.Perm (ownedPackets pool
      { con with procPacketList := con.procPacketList ++ [q], packet := none } cur)
      (ownedPackets pool con cur) := by
    simp only [ownedPackets, hq, Option.toList_some, Option.toList_none, List.nil_append]
    calc cur.toList ++ (con.procPacketList ++ [q]) ++ pool.freeList
        = cur.toList ++ con.procPacketList ++ q :: pool.freeList := by simp
      _ ~ q :: (cur.toList ++ con.procPacketList ++ pool.freeList) := List.perm_middle
      _ = [q] ++ cur.toList ++ con.procPacketList ++ pool.freeList := by simp
  obtain ⟨h1, h2⟩ := h.owned_perm hperm le_rfl
  simp only [gearmanConRecv, h.recv_getD hq, Prod.mk.injEq] at hr
  obtain ⟨-, rfl, rfl⟩ := hr
  refine ⟨by simpa [ownedPackets] using h1, by simpa [ownedPackets] using h2, by simp, ?_, ?_,
    fun h1 => absurd h1 htc⟩
  · rw [← List.append_assoc, List.map_append, map_entry_write _ hn]
    simp [PacketPool.entry, h.pending]
  · simp [h.numbered, List.range_succ]

theorem complete_run (h : ReadInv tc pool con cur) (hq : con.packet = some q) (htc : tc = 1)
    (hr : gearmanConRecv (.complete b) q pool con = (ret, pool', con'))
    (hc : runCommand pool' q con' = (out, con'')) :
    ReadInv tc (pool'.free q) { con'' with packet := none } cur := by
  obtain ⟨rfl, hl⟩ := h.inline htc
  have hp := h.pending
  simp only [hl, Option.toList_none, List.nil_append, List.map_nil, List.append_nil] at hp
  simp only [gearmanConRecv, h.recv_getD hq, Prod.mk.injEq] at hr
  obtain ⟨-, rfl, rfl⟩ := hr
  simp only [runCommand, Prod.mk.injEq] at hc
  obtain ⟨-, rfl⟩ := hc
  refine ⟨?_, ?_, by simp, by simp [hp, hl], by simp [h.numbered, List.range_succ],
    fun _ => by simp [hl]⟩
  · simpa [ownedPackets, hq, hl] using h.nodup
  · simpa [ownedPackets, hq, hl] using h.lt_next

/-- One pass of `_thread_packet_read` keeps the invariant, whatever `gearman_con_recv` reads. -/
theorem pass (h : ReadInv tc pool con cur) (o : RecvOutcome) :
    ReadInv tc (threadPacketReadPass tc o pool con).pool (threadPacketReadPass tc o pool con).con
      cur := by
  unfold threadPacketReadPass
  rcases ha : acquirePacket pool con with ⟨_ | q, pool1⟩
  · exact h.acquire_none ha
  · have h1 := h.acquire_some ha
    rcases hr : gearmanConRecv o q pool1 { con with packet := some q } with ⟨ret, pool2, con2⟩
    simp only [hr]
    cases o with
    | incomplete b =>
      have : ret = .ioWait := by simp only [gearmanConRecv, Prod.mk.injEq] at hr; exact hr.1.symm
      subst this
      exact h1.recv_incomplete rfl hr
    | complete b =>
      have : ret = .success := by simp only [gearmanConRecv, Prod.mk.injEq] at hr; exact hr.1.symm
      subst this
      by_cases htc : tc = 1
      · rcases hc : runCommand pool2 q con2 with ⟨out, con3⟩
        have := h1.complete_run rfl htc hr hc
        subst htc
        simp only [hc]
        split_ifs <;> first | exact this | contradiction
      · simpa [htc, ReadPass.pool, ReadPass.con] using h1.complete_enqueue rfl htc hr
    | error e =>
      simp only [gearmanConRecv, Prod.mk.injEq] at hr
      obtain ⟨rfl, rfl, rfl⟩ := hr
      simpa [e.not_ioWait, e.not_success, ReadPass.pool, ReadPass.con] using h1

end ReadInv

namespace ReadInv

variable {tc : Nat} {pool : PacketPool} {con : Inbound} {p : Nat} {ps : List Nat}

/-- `gearman_server_proc_packet_remove`: the head of the queue becomes `_proc`'s packet. -/
theorem procRemove (h : ReadInv tc pool con none) (hq : con.procPacketList = p :: ps) :
    ReadInv tc pool { con with procPacketList := ps } (some p) := by
  obtain ⟨h1, h2, h3, h4, h5, h6⟩ := h
  refine ⟨by simpa [ownedPackets, hq] using h1, by simpa [ownedPackets, hq] using h2, h3,
    by simpa [hq] using h4, h5, fun ht => absurd (h6 ht).2 (by simp [hq])⟩

open List in
/-- `_proc` runs the packet it took, stores the code and frees it. -/
theorem procRun (h : ReadInv tc pool con (some p)) :
    ReadInv tc (procRunPacket pool p con).1 (procRunPacket pool p con).2.1 none := by
  have hperm :
      List.Perm (ownedPackets (pool.free p) con none) (ownedPackets pool con (some p)) := by
    simp only [ownedPackets, Option.toList_none, Option.toList_some, PacketPool.free_freeList,
      List.append_nil, List.append_assoc, List.singleton_append]
    exact Perm.append_left _ perm_middle
  obtain ⟨h1, h2⟩ := h.owned_perm hperm le_rfl
  refine ⟨by simpa [procRunPacket, runCommand] using h1,
    by simpa [procRunPacket, runCommand] using h2,
    by simpa [procRunPacket, runCommand] using h.recv_packet, ?_,
    by simpa [procRunPacket, runCommand] using h.numbered,
    fun ht => absurd (h.inline ht).1 (by simp)⟩
  simp [procRunPacket, runCommand, h.pending, PacketPool.entry]

end ReadInv

namespace InboundSystem

variable {tc : Nat} {s : InboundSystem}

theorem inv_init (pool : PacketPool) (commands : List CommandOutcome) (wire : List RecvOutcome)
    (nodup : pool.freeList.Nodup) (lt_next : ∀ p ∈ pool.freeList, p < pool.next) :
    ReadInv tc (init pool commands wire).pool (init pool commands wire).con
      (init pool commands wire).current :=
  ⟨by simpa [init, Inbound.fresh, ownedPackets] using nodup,
    by simpa [init, Inbound.fresh, ownedPackets] using lt_next,
    by simp [init, Inbound.fresh], by simp [init, Inbound.fresh], by simp [init, Inbound.fresh],
    by simp [init, Inbound.fresh]⟩

theorem inv_step (h : ReadInv tc s.pool s.con s.current) :
    ∀ m, ReadInv tc (s.step tc m).pool (s.step tc m).con (s.step tc m).current
  | .read => by
    simp only [step]
    split_ifs
    · exact h
    · have := h.pass (s.wire.headD (.incomplete []))
      rcases hp : threadPacketReadPass tc (s.wire.headD (.incomplete [])) s.pool s.con with
        ⟨pool, con, _⟩ | ⟨_, pool, con, _⟩ | ⟨pool, con⟩ <;>
        (rw [hp] at this; simpa [hp] using this)
  | .procRemove => by
    simp only [step]
    split
    · rename_i p ps hc hq
      rw [hc] at h
      exact h.procRemove hq
    · exact h
  | .procRun => by
    simp only [step]
    split
    · rename_i p hc
      rw [hc] at h
      exact h.procRun
    · exact h

theorem Reachable.run (h : s.Reachable tc) (moves : List InboundMove) :
    (moves.foldl (fun s m => s.step tc m) s).Reachable tc := by
  induction moves generalizing s with
  | nil => exact h
  | cons m rest ih => exact ih (.step m h)

theorem Reachable.inv (h : s.Reachable tc) : ReadInv tc s.pool s.con s.current := by
  induction h with
  | init pool commands wire nodup lt_next => exact inv_init pool commands wire nodup lt_next
  | step m _ ih => exact inv_step ih m

end InboundSystem

/-- In every run of the connection, in a single- or multi-threaded server, the packets handed to
`gearman_server_run_command` are a prefix of the packets `gearman_con_recv` completed, in order
and with the same bytes; the packets received are numbered in order, so each is run at most once.
The packet being received is neither queued for nor held by `_proc`, and it is the packet
`gearman_con_recv` goes on filling after `GEARMAN_IO_WAIT`. -/
theorem ran_prefix_received {tc : Nat} {s : InboundSystem} (h : s.Reachable tc) :
    s.con.ran <+: s.con.received ∧
      s.con.received.map Prod.fst = List.range s.con.received.length ∧
      (∀ p, s.con.packet = some p → p ∉ s.current.toList ++ s.con.procPacketList) ∧
      (s.con.recvPacket = none ∨ s.con.recvPacket = s.con.packet) := by
  have hi := h.inv
  exact ⟨hi.pending ▸ List.prefix_append _ _, hi.numbered, fun _ hp => hi.packet_not_pending hp,
    hi.recv_packet⟩

/-- Two threads: a packet arrives in two reads, a second one is queued behind it, and `_proc`
runs the first while the I/O thread receives the second. -/
theorem ran_prefix_received_split_read :
    let s := [.read, .read, .procRemove, .read, .procRun].foldl (fun s m => s.step 2 m)
      (InboundSystem.init ⟨fun _ => ⟨[], 0⟩, [], 0, []⟩ []
        [.incomplete [1], .complete [2], .complete [3]])
    s.con.ran = [(0, [1, 2])] ∧ s.con.received = [(0, [1, 2]), (1, [3])] ∧
    (s.con.ran <+: s.con.received ∧
      s.con.received.map Prod.fst = List.range s.con.received.length ∧
      (∀ p, s.con.packet = some p → p ∉ s.current.toList ++ s.con.procPacketList) ∧
      (s.con.recvPacket = none ∨ s.con.recvPacket = s.con.packet)) :=
  ⟨by decide, by decide,
    ran_prefix_received ((InboundSystem.Reachable.init _ [] _ List.nodup_nil (by simp)).run _)⟩

/-- No packet of the connection is in two places at once, and each was allocated from the pool:
the packet being received, the one `_proc` runs, those queued for it and the free list are
distinct addresses below the allocation frontier. -/
theorem packets_never_alias {tc : Nat} {s : InboundSystem} (h : s.Reachable tc) :
    (ownedPackets s.pool s.con s.current).Nodup ∧
      ∀ p ∈ ownedPackets s.pool s.con s.current, p < s.pool.next :=
  ⟨h.inv.nodup, h.inv.lt_next⟩

/-- `_proc` holds the first packet while the second waits in the queue. -/
theorem packets_never_alias_proc_busy :
    let s := [.read, .read, .procRemove, .read].foldl (fun s m => s.step 2 m)
      (InboundSystem.init ⟨fun _ => ⟨[], 0⟩, [], 0, []⟩ []
        [.incomplete [1], .complete [2], .complete [3]])
    s.current = some 0 ∧ s.con.procPacketList = [1] ∧
      ((ownedPackets s.pool s.con s.current).Nodup ∧
        ∀ p ∈ ownedPackets s.pool s.con s.current, p < s.pool.next) :=
  ⟨by decide, by decide,
    packets_never_alias ((InboundSystem.Reachable.init _ [] _ List.nodup_nil (by simp)).run _)⟩

open InboundSystem in
/-- The two levels of `_proc` agree: its pass over a connection, one move of the thread model,
is the sequence of moves of this model that take the head of `proc_packet_list` and run and
free it, one pair per queued packet. -/
theorem procRunQueue_refines (tc : Nat) (s : InboundSystem) (hc : s.current = none) :
    (List.replicate s.con.procPacketList.length [InboundMove.procRemove, .procRun]).flatten.foldl
        (fun s m => s.step tc m) s =
      { s with pool := (procRunQueue s.pool s.con).1, con := (procRunQueue s.pool s.con).2.1 } := by
  obtain ⟨pool, con, wire, cur, closed⟩ := s
  subst hc
  unfold procRunQueue
  generalize hq : con.procPacketList = ps
  induction ps generalizing pool con with
  | nil => rfl
  | cons p ps ih =>
    have h2 : [InboundMove.procRemove, .procRun].foldl (fun s m => s.step tc m)
        (⟨pool, con, wire, none, closed⟩ : InboundSystem) =
        ⟨(procRunPacket pool p { con with procPacketList := ps }).1,
          (procRunPacket pool p { con with procPacketList := ps }).2.1, wire, none, closed⟩ := by
      simp [step, hq]
    simp only [List.length_cons, List.replicate_succ, List.flatten_cons, List.foldl_append, h2]
    exact ih _ _ rfl

/-- Two packets queued by two reads; `_proc` takes and runs them one after the other. -/
theorem procRunQueue_refines_two_queued :
    let s := [.read, .read].foldl (fun s m => s.step 2 m)
      (InboundSystem.init ⟨fun _ => ⟨[], 0⟩, [], 0, []⟩ [] [.complete [1], .complete [2]])
    s.con.procPacketList = [0, 1] ∧ s.current = none ∧
      (List.replicate s.con.procPacketList.length [InboundMove.procRemove, .procRun]).flatten.foldl
          (fun s m => s.step 2 m) s =
        { s with pool := (procRunQueue s.pool s.con).1, con := (procRunQueue s.pool s.con).2.1 } :=
  ⟨by decide, by decide, procRunQueue_refines 2 _ (by decide)⟩

end Gearman
