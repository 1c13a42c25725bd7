import GearmanServer.Proc.Dispatch
import GearmanServer.Thread.Packets

/-!
# Every packet handed to `_proc` is run once, in order

The thread model runs a pass of `_proc` over a connection in one move. On the server the I/O
threads and `_proc` interleave packet by packet: a pass of `_thread_packet_read` queues a packet
on one thread while `_proc` runs the head of a queue on another, or on the same one. `PoolOk`
carries the packet invariant of the thread model, `PoolInv`, to every thread of the server, with
one fact the thread model leaves open: a connection off its thread's list has nothing queued,
so `_proc` only ever runs packets of connections of the list.

`handed_packets_run_in_order` is what follows for every connection of every thread, at every
point of every interleaving: the packets it received are exactly those that were run, followed
by those still queued for `_proc`, in order and with the bytes received. None is lost, run twice
or run out of order.
-/

namespace Gearman

namespace Dispatch

/-- The packets of every thread keep the invariant of the thread model, and a connection off a
thread's list has nothing queued for `_proc`. -/
structure PoolOk (threadCount : Nat) (s : Dispatch) : Prop where
  thread : ∀ i, (s.threads i).PoolInv threadCount
  outside : ∀ i c, c ∉ (s.threads i).conList →
    ((s.threads i).cons c).inbound.procPacketList = []

variable {tc : Nat} {s : Dispatch}

theorem PoolOk.congr {s' : Dispatch} (h : s.PoolOk tc) (he : s'.threads = s.threads) :
    s'.PoolOk tc :=
  ⟨fun i => he ▸ h.thread i, fun i c => he ▸ h.outside i c⟩

/-- Thread `i` changes within the invariant, its list kept and nothing queued off it. -/
theorem PoolOk.update (h : s.PoolOk tc) {i : Nat} {t : ServerThread} (hp : t.PoolInv tc)
    (hl : t.conList = (s.threads i).conList)
    (ho : ∀ c, c ∉ t.conList → (t.cons c).inbound = ((s.threads i).cons c).inbound) :
    PoolOk tc { s with threads := Function.update s.threads i t } := by
  refine ⟨fun j => ?_, fun j c hc => ?_⟩ <;> by_cases hji : j = i
  · subst hji; simpa using hp
  · simpa [hji] using h.thread j
  · subst hji
    simp only [Function.update_same] at hc ⊢
    rw [ho c hc]
    exact h.outside j c (hl ▸ hc)
  · simpa [hji] using h.outside j c (by simpa [hji] using hc)

theorem PoolOk.step (h : s.PoolOk tc) (m : DispatchMove) : (s.step tc m).PoolOk tc := by
  rcases @step_threads tc s m with he | ⟨i, c, ⟨hc, he⟩ | ⟨hd, he⟩ | ⟨p, ps, hq, he⟩ | he⟩
  · exact h.congr he
  · -- a pass of `_thread_packet_read` on a connection of the list
    have hi := h.thread i
    have hr := hi.reading c hc
    have hp : ((s.threads i).readPass tc c).2.PoolInv tc := by
      dsimp only [ServerThread.readPass]
      refine ServerThread.PoolInv.queueReplies ?_ _
      exact hi.update hc (pass_frame hr _) (hr.pass _) rfl rfl
    refine (h.update hp (by simp [ServerThread.readPass]) fun d hd => ?_).congr he
    exact ServerThread.readPass_inbound_of_ne tc _ fun e =>
      hd (by simpa [ServerThread.readPass, e])
  · -- the dead branch of `_proc`
    have hp : ((s.threads i).procDead c).PoolInv tc := by
      unfold ServerThread.procDead
      refine ServerThread.PoolInv.ioAdd ?_ c
      exact (h.thread i).setCon rfl (fun _ => hd) id
    exact (h.update hp (by simp [ServerThread.procDead]) fun d _ =>
      ((s.threads i).procDead_cons c d).2).congr he
  · -- `_proc` runs the head of a queue, which is on a connection of the list
    have hc : c ∈ (s.threads i).conList := by
      by_contra hc
      simp [h.outside i c hc] at hq
    have hi := h.thread i
    have hp : ((s.threads i).procPacket c p ps).PoolInv tc := by
      dsimp only [ServerThread.procPacket]
      refine ServerThread.PoolInv.queueReplies ?_ _
      exact hi.update hc (procRunPacket_frame hq) ((hi.reading c hc).procRemove hq).procRun rfl
        rfl
    refine (h.update hp (by simp [ServerThread.procPacket]) fun d hd => ?_).congr he
    exact ServerThread.procPacket_inbound_of_ne _ p ps fun e =>
      hd (by simpa [ServerThread.procPacket, e] using hc)
  · -- a socket fails
    have hp : ((s.threads i).setCon c { (s.threads i).cons c with dead := true }).PoolInv tc :=
      (h.thread i).setCon rfl (fun _ => rfl) fun _ => rfl
    refine (h.update hp rfl fun d _ => ?_).congr he
    simp only [ServerThread.setCon_cons]
    split <;> simp_all

theorem poolOk_start (wakeup shutdown : Bool) (threadList : List Nat) (conList : Nat → List Nat)
    (wire : Nat → Nat → List RecvOutcome) (commands : Nat → Nat → List CommandOutcome)
    (sends : Nat → Nat → List SendOutcome) (mallocFails : Nat → List Bool) :
    (start wakeup shutdown threadList conList wire commands sends mallocFails).PoolOk tc :=
  ⟨fun _ => ServerThread.poolInv_start .., fun _ _ _ => rfl⟩

theorem Reachable.poolOk (h : s.Reachable tc) : s.PoolOk tc := by
  induction h with
  | start => exact poolOk_start ..
  | step m _ ih => exact ih.step m

end Dispatch

open Dispatch in
/-- No packet is lost, run twice or run out of order across the hand-off between the I/O threads
and `_proc`. At every point of every interleaving of passes of `_thread_packet_read`, hand-offs,
steps of `_proc` over `thread_list` and socket failures, every connection of every thread has
received exactly the packets that were run, followed by those still queued on its
`proc_packet_list`, in order and with the bytes received. -/
theorem handed_packets_run_in_order {tc : Nat} {s : Dispatch} (h : s.Reachable tc) {i c : Nat}
    (hc : c ∈ (s.threads i).conList) :
    ((s.threads i).cons c).inbound.received = ((s.threads i).cons c).inbound.ran ++
      ((s.threads i).cons c).inbound.procPacketList.map (s.threads i).pool.entry := by
  simpa using ((h.poolOk.thread i).reading c hc).pending

/-- Two packets handed over on one connection; `_proc`, woken, has run the first while the
second is queued and its thread is still handing it over. -/
theorem handed_packets_run_in_order_mid_pass :
    let s := [.read 0 0, .flag 0, .wake 0, .wake 0, .wake 0, .wake 0, .read 0 0, .proc, .proc,
        .proc, .proc].foldl (Dispatch.step 2)
      (Dispatch.start false false [0] (fun _ => [0]) (fun _ _ => [.complete [5], .complete [6]])
        (fun _ _ => []) (fun _ _ => []) (fun _ => []))
    ((s.threads 0).cons 0).inbound.ran = [(0, [5])] ∧
      ((s.threads 0).cons 0).inbound.procPacketList = [1] ∧ 0 ∈ (s.threads 0).conList ∧
      ((s.threads 0).cons 0).inbound.received = ((s.threads 0).cons 0).inbound.ran ++
        ((s.threads 0).cons 0).inbound.procPacketList.map (s.threads 0).pool.entry :=
  ⟨by decide, by decide, by decide,
    handed_packets_run_in_order ((Dispatch.Reachable.start ..).run _) (by decide)⟩

end Gearman
