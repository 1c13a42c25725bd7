import GearmanServer.Packet.Inbound

/-!
# What the reading side of a connection touches

The packets of a server thread come from one pool: `gearman_server_packet_create` pops the
thread's free list or allocates, and both `_thread_packet_read` and `_proc` give packets back to
it. `ReadInv` looks at one connection with the pool. For a thread with many connections we also
need to know what a call leaves alone.

`Frame pool con pool' con'` says that a move from `pool`, `con` to `pool'`, `con'` touches only
the packets `con` holds, the free list and fresh addresses: whatever `con'` holds or the free
list keeps afterwards was held by `con`, was free, or lies at or beyond the old allocation
frontier, and every other allocated slot keeps its bytes. `threadPacketRead_frame` and
`procRunQueue_frame` state it, with `ReadInv`, for a whole call of `_thread_packet_read` and for
a pass of `_proc` over the connection.
-/

namespace Gearman

/-- The packets a connection holds: the one it receives into and those queued for `_proc`. -/
def Inbound.held (con : Inbound) : List Nat := con.packet.toList ++ con.procPacketList

theorem ownedPackets_none (pool : PacketPool) (con : Inbound) :
    ownedPackets pool con none = con.held ++ pool.freeList := by
  simp [ownedPackets, Inbound.held]

/-- The footprint of a move on the reading side of a connection. -/
structure Frame (pool : PacketPool) (con : Inbound) (pool' : PacketPool) (con' : Inbound) :
    Prop where
  next_le : pool.next ≤ pool'.next
  mem : ∀ p ∈ con'.held ++ pool'.freeList, p ∈ con.held ++ pool.freeList ∨ pool.next ≤ p
  slots : ∀ q, q ∉ con.held ++ pool.freeList → q < pool.next → pool'.slots q = pool.slots q

namespace Frame

variable {pool pool' pool'' : PacketPool} {con con' con'' : Inbound}

theorem refl (pool : PacketPool) (con : Inbound) : Frame pool con pool con :=
  ⟨le_rfl, fun _ hp => .inl hp, fun _ _ _ => rfl⟩

theorem not_mem (h : Frame pool con pool' con') {q : Nat} (hq : q ∉ con.held ++ pool.freeList)
    (hlt : q < pool.next) : q ∉ con'.held ++ pool'.freeList := fun hm =>
  (h.mem q hm).elim hq (Nat.not_le.2 hlt)

theorem trans (h : Frame pool con pool' con') (h' : Frame pool' con' pool'' con'') :
    Frame pool con pool'' con'' := by
  refine ⟨h.next_le.trans h'.next_le, fun p hp => ?_, fun q hq hlt => ?_⟩
  · rcases h'.mem p hp with hp' | hle
    · exact h.mem p hp'
    · exact .inr (h.next_le.trans hle)
  · rw [h'.slots q (h.not_mem hq hlt) (Nat.lt_of_lt_of_le hlt h.next_le), h.slots q hq hlt]

theorem of_eq (hh : con'.held = con.held) (hf : pool'.freeList = pool.freeList)
    (hn : pool'.next = pool.next) (hs : pool'.slots = pool.slots) : Frame pool con pool' con' :=
  ⟨hn.ge, fun p hp => .inl (by rwa [hh, hf] at hp), fun q _ _ => by rw [hs]⟩

end Frame

section Ops

variable {tc : Nat} {pool pool' : PacketPool} {con : Inbound} {cur : Option Nat} {q : Nat}

/-- `server_con->packet` is kept, taken off the free list, or freshly allocated. -/
theorem acquire_frame (ha : acquirePacket pool con = (some q, pool')) :
    Frame pool con pool' { con with packet := some q } := by
  unfold acquirePacket at ha
  cases hp : con.packet with
  | some p =>
    simp only [hp, Prod.mk.injEq, Option.some.injEq] at ha
    obtain ⟨rfl, rfl⟩ := ha
    exact .of_eq (by simp [Inbound.held, hp]) rfl rfl rfl
  | none =>
    simp only [hp] at ha
    rcases PacketPool.create_some ha with ⟨rest, hf, rfl⟩ | ⟨hf, rfl, rfl⟩
    · refine ⟨le_rfl, fun p hm => .inl ?_, fun _ _ _ => rfl⟩
      simp only [Inbound.held, hp, hf, Option.toList_some, Option.toList_none, List.mem_append,
        List.mem_singleton, List.mem_cons, List.nil_append] at hm ⊢
      tauto
    · refine ⟨Nat.le_succ _, fun p hm => ?_, fun _ _ _ => rfl⟩
      simp only [Inbound.held, hf, Option.toList_some, List.singleton_append, List.append_nil,
        List.mem_cons] at hm
      rcases hm with rfl | hm
      · exact .inr le_rfl
      · exact .inl (by simp [Inbound.held, hp, hf, hm])

theorem acquire_none_frame (ha : acquirePacket pool con = (none, pool')) :
    Frame pool con pool' con := by
  unfold acquirePacket at ha
  split at ha
  · cases ha
  · rw [PacketPool.create_none ha]
    exact .of_eq rfl rfl rfl rfl

/-- `gearman_con_recv` writes only the packet the connection receives into. -/
theorem recv_frame (h : ReadInv tc pool con cur) (hq : con.packet = some q) (o : RecvOutcome)
    {ret : GearmanReturn} {con' : Inbound}
    (hr : gearmanConRecv o q pool con = (ret, pool', con')) : Frame pool con pool' con' := by
  have hw (slot : Slot) : ∀ q', q' ∉ con.held ++ pool.freeList → q' < pool.next →
      (pool.write q slot).slots q' = pool.slots q' := fun q' hq' _ => by
    rw [PacketPool.write_slots, if_neg]
    rintro rfl
    exact hq' (List.mem_append_left _ (by simp [Inbound.held, hq]))
  cases o <;> simp only [gearmanConRecv, h.recv_getD hq, Prod.mk.injEq] at hr <;>
    obtain ⟨-, rfl, rfl⟩ := hr
  case error => exact .refl pool con
  all_goals exact ⟨le_rfl, fun _ hp => .inl hp, hw _⟩

theorem release_frame {con' : Inbound} (hq : con.packet = some q) (hp : con'.packet = none)
    (hl : con'.procPacketList = con.procPacketList) : Frame pool con (pool.free q) con' := by
  refine ⟨le_rfl, fun p hm => .inl ?_, fun _ _ _ => rfl⟩
  simp only [Inbound.held, hp, hl, hq, PacketPool.free_freeList, Option.toList_none,
    Option.toList_some, List.nil_append, List.mem_append, List.mem_cons,
    List.singleton_append] at hm ⊢
  tauto

theorem enqueue_frame (hq : con.packet = some q) :
    Frame pool con pool
      { con with procPacketList := con.procPacketList ++ [q], packet := none } := by
  refine ⟨le_rfl, fun p hm => .inl ?_, fun _ _ _ => rfl⟩
  simp only [Inbound.held, hq, Option.toList_none, Option.toList_some, List.nil_append,
    List.mem_append, List.mem_singleton, List.singleton_append, List.mem_cons] at hm ⊢
  tauto

@[simp] theorem gearmanConRecv_packet (o : RecvOutcome) (p : Nat) (pool : PacketPool)
    (con : Inbound) : (gearmanConRecv o p pool con).2.2.packet = con.packet := by
  cases o <;> rfl

@[simp] theorem gearmanConRecv_procPacketList (o : RecvOutcome) (p : Nat) (pool : PacketPool)
    (con : Inbound) : (gearmanConRecv o p pool con).2.2.procPacketList = con.procPacketList := by
  cases o <;> rfl

/-- One pass of `_thread_packet_read` stays within the connection's footprint. -/
theorem pass_frame (h : ReadInv tc pool con cur) (o : RecvOutcome) :
    Frame pool con (threadPacketReadPass tc o pool con).pool
      (threadPacketReadPass tc o pool con).con := by
  unfold threadPacketReadPass
  rcases ha : acquirePacket pool con with ⟨_ | q, pool1⟩
  · exact acquire_none_frame ha
  · rcases hr : gearmanConRecv o q pool1 { con with packet := some q } with ⟨ret, pool2, con2⟩
    have f2 := (acquire_frame ha).trans (recv_frame (h.acquire_some ha) rfl o hr)
    have hp2 : con2.packet = some q := by
      simpa [hr] using gearmanConRecv_packet o q pool1 { con with packet := some q }
    simp only [hr]
    split_ifs
    · exact f2
    · exact f2
    · exact f2.trans (release_frame hp2 rfl rfl)
    · exact f2.trans (release_frame hp2 rfl rfl)
    · exact f2.trans (enqueue_frame hp2)

@[simp] theorem ReadPass.toResult_pool (pass : ReadPass) (wire : List RecvOutcome) :
    (pass.toResult wire).pool = pass.pool := by
  cases pass <;> rfl

@[simp] theorem ReadPass.toResult_con (pass : ReadPass) (wire : List RecvOutcome) :
    (pass.toResult wire).con = pass.con := by
  cases pass <;> rfl

/-- A call of `_thread_packet_read` keeps the invariant of the connection and stays within its
footprint. -/
theorem threadPacketRead_frame (h : ReadInv tc pool con cur) (wire : List RecvOutcome) :
    Frame pool con (threadPacketRead tc pool con wire).pool
        (threadPacketRead tc pool con wire).con ∧
      ReadInv tc (threadPacketRead tc pool con wire).pool (threadPacketRead tc pool con wire).con
        cur := by
  induction wire generalizing pool con with
  | nil => simpa [threadPacketRead] using And.intro (pass_frame h _) (h.pass _)
  | cons o wire ih =>
    have hf := pass_frame h o
    have hi := h.pass o
    unfold threadPacketRead
    split
    · next pool' con' replies he =>
      rw [he] at hf hi
      obtain ⟨f', i'⟩ := ih hi
      exact ⟨hf.trans f', i'⟩
    · simpa using And.intro hf hi

/-- `_proc` runs the head of the queue and frees it. -/
theorem procRunPacket_frame {p : Nat} {ps : List Nat} (hq : con.procPacketList = p :: ps) :
    Frame pool con (procRunPacket pool p { con with procPacketList := ps }).1
      (procRunPacket pool p { con with procPacketList := ps }).2.1 := by
  refine ⟨le_rfl, fun r hm => .inl ?_, fun _ _ _ => rfl⟩
  simp only [procRunPacket, runCommand, Inbound.held, hq, PacketPool.free_freeList,
    List.mem_append, List.mem_cons] at hm ⊢
  tauto

theorem procDrain_frame (h : ReadInv tc pool con none) (ps : List Nat)
    (hq : con.procPacketList = ps) :
    Frame pool con (procDrain pool con ps).1 (procDrain pool con ps).2.1 ∧
      ReadInv tc (procDrain pool con ps).1 (procDrain pool con ps).2.1 none := by
  induction ps generalizing pool con with
  | nil => exact ⟨.refl pool con, h⟩
  | cons p ps ih =>
    obtain ⟨f', i'⟩ := ih (h.procRemove hq).procRun rfl
    exact ⟨(procRunPacket_frame hq).trans f', i'⟩

theorem procDrain_procPacketList (pool : PacketPool) (con : Inbound) (ps : List Nat)
    (hq : con.procPacketList = ps) : (procDrain pool con ps).2.1.procPacketList = [] := by
  induction ps generalizing pool con with
  | nil => exact hq
  | cons p ps ih => exact ih _ _ rfl

@[simp] theorem procRunQueue_procPacketList (pool : PacketPool) (con : Inbound) :
    (procRunQueue pool con).2.1.procPacketList = [] :=
  procDrain_procPacketList pool con _ rfl

/-- A pass of `_proc` over a connection keeps its invariant and stays within its footprint. -/
theorem procRunQueue_frame (h : ReadInv tc pool con none) :
    Frame pool con (procRunQueue pool con).1 (procRunQueue pool con).2.1 ∧
      ReadInv tc (procRunQueue pool con).1 (procRunQueue pool con).2.1 none :=
  procDrain_frame h _ rfl

/-- A connection whose packets a move left alone keeps its invariant, given that its packets
and the new free list are still distinct and allocated. -/
theorem ReadInv.of_other {pool' : PacketPool} (h : ReadInv tc pool con none)
    (hn : (con.held ++ pool'.freeList).Nodup)
    (hl : ∀ p ∈ con.held ++ pool'.freeList, p < pool'.next)
    (hs : ∀ q ∈ con.held, pool'.slots q = pool.slots q) : ReadInv tc pool' con none := by
  refine ⟨by rwa [ownedPackets_none], by rwa [ownedPackets_none], h.recv_packet, ?_, h.numbered,
    h.inline⟩
  rw [h.pending]
  congr 1
  refine List.map_congr_left fun q hq => ?_
  have hq' : q ∈ con.held := List.mem_append_right _ (by simpa using hq)
  simp only [PacketPool.entry, hs q hq']

end Ops

end Gearman
