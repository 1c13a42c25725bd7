import GearmanServer.Packet.Outbound
import GearmanServer.Thread.Loops

/-!
# Replies go out in order on every connection of a thread

`flush_sends_in_order` looks at one outbound queue, with its appends interleaved with the steps
of `_thread_packet_flush`. A server thread queues replies on its connections in several places:
the commands `_thread_packet_read` runs inline, those `_proc` runs, and packets other threads
queue; `gearman_server_thread_run` flushes in two of its loops. Between two calls the I/O thread
is outside `_thread_packet_flush`, so each connection's queue satisfies the invariant `Inv` of
`Packet.Outbound` at `idle`.

`thread_replies_in_order` states what follows for every connection of every reachable thread:
each call of `gearman_con_send` was handed the first reply not yet accepted, the accepted
replies followed by the queue are exactly the replies queued, and a drained queue had its last
reply flushed.
-/

namespace Gearman

namespace FlushState

variable {s : FlushState}

theorem Inv.iterate (h : s.Inv) (n : Nat) : (FlushState.flushStep^[n] s).Inv := by
  induction n generalizing s with
  | zero => exact h
  | succ n ih => rw [Function.iterate_succ_apply]; exact ih h.flushStep

/-- A whole call of `_thread_packet_flush` keeps the invariant of the queue. -/
theorem Inv.threadPacketFlush {o : Outbound} (h : Inv ⟨o, .idle⟩) :
    Inv ⟨(Gearman.threadPacketFlush o).2, .idle⟩ := by
  unfold Gearman.threadPacketFlush
  split
  · exact h
  · next hp =>
    obtain ⟨n, hn⟩ := flushQueue_runs o.ioPacketList o rfl
    have h1 : FlushState.flushStep ⟨o, .idle⟩ = ⟨o, .loop⟩ := by simp [FlushState.flushStep, hp]
    exact hn ▸ (h1 ▸ h.flushStep).iterate n

end FlushState

namespace ServerThread

open FlushState

/-- Every connection's outbound queue satisfies the invariant of the flush between calls. -/
def ReplyInv (t : ServerThread) : Prop := ∀ c, FlushState.Inv ⟨(t.cons c).outbound, .idle⟩

variable {t : ServerThread}

/-- Connection `c` changes with its queue kept, or with a call of `_thread_packet_flush`, or with
a reply appended. -/
theorem ReplyInv.setCon (h : t.ReplyInv) {c : Nat} {con : ServerCon}
    (ho : FlushState.Inv ⟨con.outbound, .idle⟩) : (t.setCon c con).ReplyInv := fun d => by
  simp only [setCon_cons]
  split
  · exact ho
  · exact h d

theorem ReplyInv.ioAdd (h : t.ReplyInv) (c : Nat) : (t.ioAdd c).ReplyInv := fun d => by
  rw [ioAdd_cons]
  exact h d

theorem ReplyInv.ioPacketAdd (h : t.ReplyInv) (c : Nat) (p : Packet) :
    (t.ioPacketAdd c p).ReplyInv :=
  (h.setCon ((h c).append p)).ioAdd c

theorem ReplyInv.queueReplies (h : t.ReplyInv) (replies : List (Nat × Packet)) :
    (t.queueReplies replies).ReplyInv := by
  induction replies generalizing t with
  | nil => exact h
  | cons r rest ih => exact ih (h.ioPacketAdd r.1 r.2)

theorem ReplyInv.flushCon (h : t.ReplyInv) (c : Nat) : (t.flushCon c).2.ReplyInv :=
  h.setCon (h c).threadPacketFlush

theorem ReplyInv.withPool (h : t.ReplyInv) (pool : PacketPool) :
    ({ t with pool } : ServerThread).ReplyInv := h

theorem ReplyInv.conFree (h : t.ReplyInv) (c : Nat) : (t.conFree c).ReplyInv := h

theorem ReplyInv.handBack (h : t.ReplyInv) (c : Nat) : (t.handBack c).ReplyInv :=
  h.setCon (h c)

theorem ReplyInv.readCon (h : t.ReplyInv) (threadCount c : Nat) :
    (t.readCon threadCount c).2.ReplyInv := by
  dsimp only [ServerThread.readCon]
  refine ReplyInv.queueReplies (ReplyInv.withPool ?_ _) _
  exact h.setCon (h c)

theorem ReplyInv.procCon (h : t.ReplyInv) (c : Nat) : (t.procCon c).ReplyInv := by
  unfold ServerThread.procCon
  split
  · refine ReplyInv.ioAdd ?_ c
    exact h.setCon (h c)
  · refine ReplyInv.queueReplies (ReplyInv.withPool ?_ _) _
    exact h.setCon (h c)

theorem replyInv_runPreserved (threadCount : Nat) : RunPreserved threadCount ReplyInv :=
  ⟨fun _ _ h => h, fun _ c h _ => h.conFree c, fun _ c h => h.handBack c,
    fun _ c h => h.flushCon c, fun _ c h => h.setCon (h c), fun _ c h _ => h.readCon threadCount c⟩

theorem ReplyInv.step (h : t.ReplyInv) (threadCount : Nat) :
    ∀ m, (t.step threadCount m).ReplyInv
  | .run f => (replyInv_runPreserved threadCount).run h f
  | .poll c _ => h.setCon ((h c).frame rfl ⟨rfl, rfl, rfl, rfl⟩ rfl id)
  | .enqueue c p => h.ioPacketAdd c p
  | .proc c => by
    simp only [ServerThread.step]
    split
    · exact h.procCon c
    · exact h
  | .markDead c => h.setCon (h c)

theorem Reachable.replyInv {threadCount : Nat} (h : t.Reachable threadCount) : t.ReplyInv := by
  induction h with
  | start conList wire commands sends mallocFails =>
    exact fun c => inv_init Events.pollinOnly (sends c)
  | step m _ ih => exact ih.step threadCount m

end ServerThread

open ServerThread in
/-- In every run of a server thread, whoever queues the replies and whichever loop flushes them,
each connection's replies go out in the order queued: every call of `gearman_con_send` is
handed the first reply not yet accepted, the replies accepted followed by those still queued
are exactly the replies queued, and a drained queue had its last reply sent with a flush. -/
theorem thread_replies_in_order {threadCount : Nat} {t : ServerThread}
    (h : t.Reachable threadCount) (c : Nat) :
    SendsInOrder (t.cons c).outbound.handed (t.cons c).outbound.enqueued ∧
      (t.cons c).outbound.sent ++ (t.cons c).outbound.ioPacketList = (t.cons c).outbound.enqueued ∧
      ((t.cons c).outbound.ioPacketList = [] →
        (t.cons c).outbound.sent = [] ∨ (t.cons c).outbound.lastFlush = true) := by
  have hi := h.replyInv c
  exact ⟨hi.in_order, hi.accepted, hi.flushed⟩

open ServerThread in
/-- One thread: a packet read on connection 0 runs a command that replies on connection 1; the
third loop flushes it and the socket takes it. -/
theorem thread_replies_in_order_flushed :
    let t := [.poll 0 ⟨true, false⟩, .run ⟨false, false, 0⟩].foldl (step 1)
      (start [0, 1] (fun _ => [.complete [7]]) (fun _ => [⟨.success, [(1, ⟨8, [1]⟩)]⟩])
        (fun _ => [.success]) [])
    (t.cons 1).outbound.sent = [⟨8, [1]⟩] ∧ (t.cons 1).outbound.ioPacketList = [] ∧
      (SendsInOrder (t.cons 1).outbound.handed (t.cons 1).outbound.enqueued ∧
      (t.cons 1).outbound.sent ++ (t.cons 1).outbound.ioPacketList = (t.cons 1).outbound.enqueued ∧
      ((t.cons 1).outbound.ioPacketList = [] →
        (t.cons 1).outbound.sent = [] ∨ (t.cons 1).outbound.lastFlush = true)) :=
  ⟨by decide, by decide, thread_replies_in_order ((Reachable.start _ _ _ _ _).run _) 1⟩

end Gearman
