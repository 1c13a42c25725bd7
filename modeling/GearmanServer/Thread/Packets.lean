import GearmanServer.Packet.Footprint
import GearmanServer.Thread.Loops

/-!
# The packets of a server thread

All the connections of a thread draw their packets from the thread's one free list, and both
the I/O thread and `_proc` give them back to it. `PoolInv` is what every reachable state of a
thread satisfies: each connection of its list keeps the invariant of its reading side with the
thread's pool, no two connections hold the same packet, only dead connections are flagged for
teardown, and a connection off the list has nothing queued for `_proc` unless it is dead.

The step lemmas use the footprints of `Packet.Footprint`: a read or a pass of `_proc` on one
connection touches only that connection's packets, the free list and fresh addresses, so the
other connections keep their packets and the bytes in them. `thread_packets_never_alias` lifts
`ran_prefix_received` and `packets_never_alias` from one connection to every connection of a
thread, over every interleaving of polls, calls of `gearman_server_thread_run`, packets queued
by other threads, passes of `_proc` and socket failures. No packet is lost either: with one
thread every connection has run all it received at any time (`single_thread_runs_received`),
and with several a pass of `_proc` over a live connection brings it there
(`proc_pass_runs_received`).
-/

namespace Gearman

namespace ServerThread

structure PoolInv (threadCount : Nat) (t : ServerThread) : Prop where
  /-- Each connection of the list keeps the invariant of its reading side with the thread's
  pool. -/
  reading : ∀ c ∈ t.conList, ReadInv threadCount t.pool (t.cons c).inbound none
  /-- Two connections of the list hold no packet in common. -/
  apart : ∀ c ∈ t.conList, ∀ d ∈ t.conList, c ≠ d →
    ∀ p ∈ (t.cons c).inbound.held, p ∉ (t.cons d).inbound.held
  free_dead : ∀ c, (t.cons c).free = true → (t.cons c).dead = true
  outside : ∀ c, c ∉ t.conList →
    (t.cons c).dead = true ∨ (t.cons c).inbound.procPacketList = []

variable {threadCount : Nat} {t : ServerThread}

/-- A packet another connection holds is neither held by `c` nor free, and is allocated. -/
theorem PoolInv.other (h : t.PoolInv threadCount) {c d : Nat} (hc : c ∈ t.conList)
    (hd : d ∈ t.conList) (hcd : c ≠ d) {p : Nat} (hp : p ∈ (t.cons d).inbound.held) :
    p ∉ (t.cons c).inbound.held ++ t.pool.freeList ∧ p < t.pool.next := by
  have hr := h.reading d hd
  have hn := hr.nodup
  rw [ownedPackets_none] at hn
  refine ⟨fun hm => ?_, hr.lt_next p (by rw [ownedPackets_none]; exact List.mem_append_left _ hp)⟩
  rcases List.mem_append.1 hm with hm | hm
  · exact h.apart d hd c hc (Ne.symm hcd) p hp hm
  · exact List.disjoint_of_nodup_append hn hp hm

/-- Connection `c` of the list takes a new reading side and the pool moves within its
footprint; every other connection keeps its packets and their bytes. -/
theorem PoolInv.update (h : t.PoolInv threadCount) {c : Nat} (hc : c ∈ t.conList)
    {pool' : PacketPool} {con : ServerCon} (hf : Frame t.pool (t.cons c).inbound pool' con.inbound)
    (hr : ReadInv threadCount pool' con.inbound none) (hfree : con.free = (t.cons c).free)
    (hdead : con.dead = (t.cons c).dead) :
    ({ t.setCon c con with pool := pool' } : ServerThread).PoolInv threadCount := by
  have ho : ∀ d ∈ t.conList, d ≠ c → ∀ p ∈ (t.cons d).inbound.held,
      p ∉ con.inbound.held ++ pool'.freeList ∧ p < pool'.next := fun d hd hdc p hp =>
    have hp' := h.other hc hd (Ne.symm hdc) hp
    ⟨hf.not_mem hp'.1 hp'.2, Nat.lt_of_lt_of_le hp'.2 hf.next_le⟩
  have hrn := hr.nodup
  rw [ownedPackets_none] at hrn
  refine ⟨fun d hd => ?_, fun d hd e he hde p hp hp' => ?_, fun d => ?_, fun d hd => ?_⟩
  · simp only [setCon_cons]
    split
    · next hdc => subst hdc; exact hr
    · next hdc =>
      have hrd := h.reading d hd
      have hdn := hrd.nodup
      rw [ownedPackets_none] at hdn
      refine hrd.of_other ?_ (fun p hp => ?_) fun q hq => ?_
      · exact (List.nodup_append.1 hdn).1.append (List.nodup_append.1 hrn).2.1
          fun p hp hp' => (ho d hd hdc p hp).1 (List.mem_append_right _ hp')
      · rcases List.mem_append.1 hp with hp | hp
        · exact (ho d hd hdc p hp).2
        · exact hr.lt_next p (by rw [ownedPackets_none]; exact List.mem_append_right _ hp)
      · have hq' := h.other hc hd (Ne.symm hdc) hq
        exact hf.slots q hq'.1 hq'.2
  · simp only [setCon_cons] at hp hp'
    split at hp <;> split at hp'
    · next hdc hec => exact hde (hdc.trans hec.symm)
    · next hdc hec => exact (ho e he hec p hp').1 (List.mem_append_left _ hp)
    · next hdc hec => exact (ho d hd hdc p hp).1 (List.mem_append_left _ hp')
    · exact h.apart d hd e he hde p hp hp'
  · simp only [setCon_cons]
    split
    · next hdc => subst hdc; rw [hfree, hdead]; exact h.free_dead d
    · exact h.free_dead d
  · have hdc : d ≠ c := fun e => hd (e ▸ hc)
    simp only [setCon_cons, if_neg hdc]
    exact h.outside d hd

/-- Connection `c` changes but keeps its reading side, and a dead connection stays dead. -/
theorem PoolInv.setCon (h : t.PoolInv threadCount) {c : Nat} {con : ServerCon}
    (hin : con.inbound = (t.cons c).inbound) (hfree : con.free = true → con.dead = true)
    (hdead : (t.cons c).dead = true → con.dead = true) : (t.setCon c con).PoolInv threadCount := by
  have hi : ∀ d, ((t.setCon c con).cons d).inbound = (t.cons d).inbound := fun d => by
    simp only [setCon_cons]
    split
    · next hdc => subst hdc; exact hin
    · rfl
  refine ⟨fun d hd => ?_, fun d hd e he hde => ?_, fun d => ?_, fun d hd => ?_⟩
  · rw [hi]; exact h.reading d hd
  · rw [hi, hi]; exact h.apart d hd e he hde
  · simp only [setCon_cons]
    split
    · exact hfree
    · exact h.free_dead d
  · simp only [setCon_cons]
    split
    · next hdc =>
      subst hdc
      rw [hin]
      exact (h.outside d hd).imp_left hdead
    · exact h.outside d hd

theorem PoolInv.setIoList (h : t.PoolInv threadCount) (l : List Nat) :
    ({ t with ioList := l } : ServerThread).PoolInv threadCount :=
  ⟨h.reading, h.apart, h.free_dead, h.outside⟩

theorem PoolInv.ioAdd (h : t.PoolInv threadCount) (c : Nat) :
    (t.ioAdd c).PoolInv threadCount := by
  unfold ServerThread.ioAdd
  split
  · exact h
  · exact h.setIoList _

theorem PoolInv.ioPacketAdd (h : t.PoolInv threadCount) (c : Nat) (p : Packet) :
    (t.ioPacketAdd c p).PoolInv threadCount := by
  unfold ServerThread.ioPacketAdd
  refine PoolInv.ioAdd ?_ c
  exact h.setCon rfl (h.free_dead c) id

theorem PoolInv.queueReplies (h : t.PoolInv threadCount) (replies : List (Nat × Packet)) :
    (t.queueReplies replies).PoolInv threadCount := by
  induction replies generalizing t with
  | nil => exact h
  | cons r rest ih => exact ih (h.ioPacketAdd r.1 r.2)

theorem PoolInv.handBack (h : t.PoolInv threadCount) (c : Nat) :
    (t.handBack c).PoolInv threadCount :=
  h.setCon rfl (h.free_dead c) id

theorem PoolInv.flushCon (h : t.PoolInv threadCount) (c : Nat) :
    (t.flushCon c).2.PoolInv threadCount :=
  h.setCon rfl (h.free_dead c) id

/-- Tearing down a connection flagged for it takes it off the list, and it is dead. -/
theorem PoolInv.conFree (h : t.PoolInv threadCount) {c : Nat} (hf : (t.cons c).free = true) :
    (t.conFree c).PoolInv threadCount := by
  have hmem : ∀ d, d ∈ (t.conFree c).conList ↔ d ∈ t.conList ∧ d ≠ c := fun d => by
    simp [ServerThread.conFree]
  refine ⟨fun d hd => h.reading d ((hmem d).1 hd).1,
    fun d hd e he => h.apart d ((hmem d).1 hd).1 e ((hmem e).1 he).1, h.free_dead,
    fun d hd => ?_⟩
  by_cases hdc : d = c
  · subst hdc; exact .inl (h.free_dead d hf)
  · exact h.outside d fun hm => hd ((hmem d).2 ⟨hm, hdc⟩)

theorem PoolInv.readCon (h : t.PoolInv threadCount) {c : Nat} (hc : c ∈ t.conList) :
    (t.readCon threadCount c).2.PoolInv threadCount := by
  obtain ⟨hf, hr⟩ := threadPacketRead_frame (h.reading c hc) (t.cons c).wire
  dsimp only [ServerThread.readCon]
  refine PoolInv.queueReplies ?_ _
  exact h.update hc hf hr rfl rfl

theorem PoolInv.procCon (h : t.PoolInv threadCount) (c : Nat) :
    (t.procCon c).PoolInv threadCount := by
  unfold ServerThread.procCon
  split
  · next hd =>
    refine PoolInv.ioAdd ?_ c
    exact h.setCon rfl (fun _ => hd) id
  · next hd =>
    by_cases hc : c ∈ t.conList
    · obtain ⟨hf, hr⟩ := procRunQueue_frame (h.reading c hc)
      refine PoolInv.queueReplies ?_ _
      exact h.update hc hf hr rfl rfl
    · have hq : (t.cons c).inbound.procPacketList = [] := (h.outside c hc).resolve_left hd
      have hrun : procRunQueue t.pool (t.cons c).inbound = (t.pool, (t.cons c).inbound, []) := by
        simp [procRunQueue, hq, procDrain]
      simp only [hrun]
      refine PoolInv.queueReplies ?_ []
      exact h.setCon rfl (h.free_dead c) id

theorem poolInv_runPreserved : RunPreserved threadCount (PoolInv threadCount) :=
  ⟨fun _ l h => h.setIoList l, fun _ _ h hf => h.conFree hf, fun _ c h => h.handBack c,
    fun _ c h => h.flushCon c, fun _ c h => h.setCon rfl (h.free_dead c) id,
    fun _ _ h hc => h.readCon hc⟩

theorem PoolInv.step (h : t.PoolInv threadCount) : ∀ m, (t.step threadCount m).PoolInv threadCount
  | .run f => poolInv_runPreserved.run h f
  | .poll c _ => h.setCon rfl (h.free_dead c) id
  | .enqueue c p => h.ioPacketAdd c p
  | .proc c => by
    simp only [ServerThread.step]
    split
    · exact h.procCon c
    · exact h
  | .markDead _ => h.setCon rfl (fun _ => rfl) fun _ => rfl

theorem poolInv_start (conList : List Nat) (wire : Nat → List RecvOutcome)
    (commands : Nat → List CommandOutcome) (sends : Nat → List SendOutcome)
    (mallocFails : List Bool) :
    (start conList wire commands sends mallocFails).PoolInv threadCount :=
  ⟨fun _ _ => by constructor <;> simp [ownedPackets, start, ServerCon.fresh, Inbound.fresh],
    fun _ _ _ _ _ _ hp => by simp [start, ServerCon.fresh, Inbound.fresh, Inbound.held] at hp,
    fun _ hf => by simp [start, ServerCon.fresh] at hf, fun _ _ => .inr rfl⟩

theorem Reachable.poolInv (h : t.Reachable threadCount) : t.PoolInv threadCount := by
  induction h with
  | start conList wire commands sends mallocFails =>
    exact poolInv_start conList wire commands sends mallocFails
  | step m _ ih => exact ih.step m

end ServerThread

open ServerThread in
/-- In every run of a server thread, single- or multi-threaded: no packet is held by two of its
connections; the packets each connection holds and the thread's free packets are distinct; and
every connection has run a prefix of the packets it received, each with the bytes received. -/
theorem thread_packets_never_alias {threadCount : Nat} {t : ServerThread}
    (h : t.Reachable threadCount) :
    (∀ c ∈ t.conList, ∀ d ∈ t.conList, c ≠ d →
      ∀ p ∈ (t.cons c).inbound.held, p ∉ (t.cons d).inbound.held) ∧
    ∀ c ∈ t.conList, ((t.cons c).inbound.held ++ t.pool.freeList).Nodup ∧
      (t.cons c).inbound.ran <+: (t.cons c).inbound.received := by
  have hi := h.poolInv
  refine ⟨hi.apart, fun c hc => ?_⟩
  have hr := hi.reading c hc
  exact ⟨by simpa [ownedPackets_none] using hr.nodup, hr.pending ▸ List.prefix_append _ _⟩

open ServerThread in
/-- Two threads; both connections are polled and read in one call: each holds the packet it
queued for `_proc` and the one it receives into next, four distinct packets. -/
theorem thread_packets_never_alias_two_reads :
    let t := [.poll 0 ⟨true, false⟩, .poll 1 ⟨true, false⟩, .run ⟨false, false, 0⟩].foldl (step 2)
      (start [0, 1] (fun _ => [.complete [7]]) (fun _ => []) (fun _ => []) [])
    (t.cons 0).inbound.held = [1, 0] ∧ (t.cons 1).inbound.held = [3, 2] ∧
      ((∀ c ∈ t.conList, ∀ d ∈ t.conList, c ≠ d →
        ∀ p ∈ (t.cons c).inbound.held, p ∉ (t.cons d).inbound.held) ∧
      ∀ c ∈ t.conList, ((t.cons c).inbound.held ++ t.pool.freeList).Nodup ∧
        (t.cons c).inbound.ran <+: (t.cons c).inbound.received) :=
  ⟨by decide, by decide, thread_packets_never_alias ((Reachable.start _ _ _ _ _).run _)⟩

open ServerThread in
/-- No packet is lost on a multi-threaded server: from any state a run of the thread reaches, a
pass of `_proc` over a live connection of the list leaves it having run every packet it
received, in order and with the bytes received. -/
theorem proc_pass_runs_received {threadCount : Nat} {t : ServerThread}
    (h : t.Reachable threadCount) (htc : 1 < threadCount) {c : Nat} (hc : c ∈ t.conList)
    (hd : (t.cons c).dead = false) :
    ((t.step threadCount (.proc c)).cons c).inbound.ran =
      ((t.step threadCount (.proc c)).cons c).inbound.received := by
  have hr := (h.step (.proc c)).poolInv.reading c (by simpa [ServerThread.step, htc] using hc)
  have hq : ((t.step threadCount (.proc c)).cons c).inbound.procPacketList = [] := by
    simp [ServerThread.step, htc, procCon, hd]
  simpa [hq] using hr.pending.symm

open ServerThread in
/-- After the call that read it, `_proc` runs the packet connection 0 received. -/
theorem proc_pass_runs_received_after_read :
    let t := [.poll 0 ⟨true, false⟩, .poll 1 ⟨true, false⟩, .run ⟨false, false, 0⟩].foldl (step 2)
      (start [0, 1] (fun _ => [.complete [7]]) (fun _ => []) (fun _ => []) [])
    1 < 2 ∧ 0 ∈ t.conList ∧ (t.cons 0).dead = false ∧
      ((t.step 2 (.proc 0)).cons 0).inbound.ran = [(0, [7])] ∧
      ((t.step 2 (.proc 0)).cons 0).inbound.ran = ((t.step 2 (.proc 0)).cons 0).inbound.received :=
  ⟨by decide, by decide, by decide, by decide,
    proc_pass_runs_received ((Reachable.start _ _ _ _ _).run _) (by decide) (by decide) (by decide)⟩

open ServerThread in
/-- With one thread nothing waits for `_proc`: in every state a run of the thread reaches, each
connection of the list has run exactly the packets it received. -/
theorem single_thread_runs_received {t : ServerThread} (h : t.Reachable 1) (c : Nat)
    (hc : c ∈ t.conList) : (t.cons c).inbound.ran = (t.cons c).inbound.received := by
  have hr := h.poolInv.reading c hc
  simpa [(hr.inline rfl).2] using hr.pending.symm

/-- One thread: connection 0 reads a packet in one call and runs it there. -/
theorem single_thread_runs_received_read :
    let t := [.poll 0 ⟨true, false⟩, .run ⟨false, false, 0⟩].foldl (ServerThread.step 1)
      (ServerThread.start [0] (fun _ => [.complete [7]]) (fun _ => []) (fun _ => []) [])
    0 ∈ t.conList ∧ (t.cons 0).inbound.received = [(0, [7])] ∧
      (t.cons 0).inbound.ran = (t.cons 0).inbound.received :=
  ⟨by decide, by decide,
    single_thread_runs_received ((ServerThread.Reachable.start _ _ _ _ _).run _) 0 (by decide)⟩

end Gearman
