import GearmanServer.Packet.Flush
import Mathlib.Data.List.Basic
import Mathlib.Logic.Function.Iterate

/-!
# The outbound queue across the I/O and processing threads

The processing thread appends replies to `io_packet_list` while the I/O thread may be in the
middle of `_thread_packet_flush`. The flush is cut into its atomic steps: the `POLLOUT` test,
the loop test with the read of `next` and the call of `gearman_con_send`, the `NOOP` test, and
`gearman_server_io_packet_remove`; an append may come between any two of them. Between two
calls the poll may report the socket writable, which takes `POLLOUT` out of the events as
`gearman_con_set_revents` does, so that the next call sends again.

`flushQueue_runs` shows that with no append in between, the steps compute `threadPacketFlush`.
`flush_sends_in_order` is the ordering result: every call of `gearman_con_send` is handed the
first packet of the enqueued sequence not yet accepted, the accepted packets are a prefix of
that sequence, and whenever the queue is drained the last accepted packet asked for a flush.

The processing thread also wakes a sleeping worker by queueing a `NOOP` unless `noop_queued` is
already set. `noop_queued_counts_noops` shows that across every interleaving the flag counts the
`NOOP`s it stands for: the one window in which the queue may hold two is after the flag is
cleared for an accepted `NOOP` and before that `NOOP` is removed.
-/

namespace Gearman

def acceptedOf (handed : List (Packet × Bool)) : List Packet :=
  (handed.filter fun call => call.2).map fun call => call.1

@[simp] theorem acceptedOf_nil : acceptedOf [] = [] := rfl

@[simp] theorem acceptedOf_append_call (handed : List (Packet × Bool)) (p : Packet) (ok : Bool) :
    acceptedOf (handed ++ [(p, ok)]) =
      if ok then acceptedOf handed ++ [p] else acceptedOf handed := by
  cases ok <;> simp [acceptedOf]

/-- The calls `handed` walk through the sequence `q`: each is handed the first packet of `q` not
yet accepted, and the walk moves past a packet only once it was accepted. -/
def SendsInOrder : List (Packet × Bool) → List Packet → Prop
  | [], _ => True
  | _ :: _, [] => False
  | (p, ok) :: handed, q :: qs => p = q ∧ SendsInOrder handed (if ok then qs else q :: qs)

instance decidableSendsInOrder : ∀ handed q, Decidable (SendsInOrder handed q)
  | [], _ => isTrue trivial
  | _ :: _, [] => isFalse fun h => h
  | (p, ok) :: handed, q :: qs =>
    have := decidableSendsInOrder handed (if ok then qs else q :: qs)
    inferInstanceAs (Decidable (p = q ∧ _))

/-- Packets enqueued later do not disturb the walk. -/
theorem SendsInOrder.append_queue {handed : List (Packet × Bool)} {q : List Packet}
    (h : SendsInOrder handed q) (more : List Packet) : SendsInOrder handed (q ++ more) := by
  induction handed generalizing q with
  | nil => trivial
  | cons call handed ih =>
    obtain ⟨p, ok⟩ := call
    cases q with
    | nil => exact h.elim
    | cons q qs =>
      refine ⟨h.1, ?_⟩
      cases ok
      · exact ih h.2
      · exact ih h.2

/-- A call handed the first packet not yet accepted extends the walk, whatever it returns. -/
theorem SendsInOrder.call {handed : List (Packet × Bool)} {q rest : List Packet} {p : Packet}
    (h : SendsInOrder handed q) (hq : q = acceptedOf handed ++ p :: rest) (ok : Bool) :
    SendsInOrder (handed ++ [(p, ok)]) q := by
  induction handed generalizing q with
  | nil => subst hq; exact ⟨rfl, trivial⟩
  | cons call handed ih =>
    obtain ⟨p, ok⟩ := call
    cases q with
    | nil => exact h.elim
    | cons q qs =>
      refine ⟨h.1, ih h.2 ?_⟩
      have := acceptedOf_append_call [] p ok
      cases ok <;> simp_all [acceptedOf]

/-- Where the I/O thread is in `_thread_packet_flush`; `idle` outside the call. -/
inductive FlushPc where
  | idle
  /-- `while (server_con->io_packet_list != NULL)`, then the send of the head. -/
  | loop
  /-- The head was accepted: `if (... packet.command == GEARMAN_COMMAND_NOOP)`. -/
  | sent
  /-- `gearman_server_io_packet_remove(server_con)`. -/
  | remove
  deriving DecidableEq, Repr

/-- The writing side of a connection and where the I/O thread is in flushing it. -/
structure FlushState where
  con : Outbound
  pc : FlushPc
  deriving DecidableEq, Repr

/-- A scheduling decision: the I/O thread's next flush step or a poll between its calls, an
append of a reply by the processing thread, or a command waking the worker on this connection. -/
inductive FlushMove where
  | flush
  | append (p : Packet)
  /-- Modelled from the spec: unless `noop_queued` is set, a `NOOP` is appended and the flag
  set; otherwise the wake is coalesced with the queued one. -/
  | wake
  /-- The poll reports `revents`; `gearman_con_set_revents` takes the reported bits out of the
  connection's events, so that a socket reported writable is flushed again. -/
  | poll (revents : Events)

namespace FlushState

/-- One step of the I/O thread in `_thread_packet_flush`. -/
def flushStep (s : FlushState) : FlushState :=
  match s.pc, s.con.ioPacketList with
  | .idle, _ => if s.con.events.pollout then s else { s with pc := .loop }
  | .loop, [] => ⟨{ s.con with events := Events.pollinOnly }, .idle⟩
  | .loop, p :: ps =>
    match gearmanConSend p ps.isEmpty s.con with
    | (.success, c) => ⟨c, .sent⟩
    | (_, c) => ⟨c, .idle⟩
  | .sent, p :: _ =>
    if p.command = commandNoop then ⟨{ s.con with noopQueued := false }, .remove⟩
    else { s with pc := .remove }
  | .sent, [] => { s with pc := .remove }
  | .remove, _ => ⟨s.con.removeHead, .loop⟩

def step (s : FlushState) : FlushMove → FlushState
  | .flush => s.flushStep
  | .append p => { s with con := s.con.append p }
  | .wake =>
    if s.con.noopQueued then s
    else { s with con := { s.con.append Packet.noop with noopQueued := true } }
  | .poll revents =>
    if s.pc = .idle then { s with con := { s.con with events := s.con.events.clear revents } }
    else s

def init (events : Events) (sends : List SendOutcome) : FlushState :=
  ⟨{ Outbound.fresh sends with events }, .idle⟩

/-- The packets still to be accepted: at `sent` and `remove` the head of the queue already was. -/
def pending (s : FlushState) : List Packet :=
  match s.pc with
  | .sent | .remove => s.con.ioPacketList.tail
  | _ => s.con.ioPacketList

@[simp] theorem pending_idle (c : Outbound) :
    (⟨c, .idle⟩ : FlushState).pending = c.ioPacketList := rfl

@[simp] theorem pending_loop (c : Outbound) :
    (⟨c, .loop⟩ : FlushState).pending = c.ioPacketList := rfl

@[simp] theorem pending_sent (c : Outbound) :
    (⟨c, .sent⟩ : FlushState).pending = c.ioPacketList.tail := rfl

@[simp] theorem pending_remove (c : Outbound) :
    (⟨c, .remove⟩ : FlushState).pending = c.ioPacketList.tail := rfl

inductive Reachable : FlushState → Prop where
  | init (events : Events) (sends : List SendOutcome) :
      Reachable ⟨{ Outbound.fresh sends with events }, .idle⟩
  | step {s : FlushState} (m : FlushMove) : Reachable s → Reachable (s.step m)

/-- What holds between any two steps: the calls walk the enqueued sequence, the accepted packets
followed by the pending ones are exactly that sequence, the head of the queue at `sent` and
`remove` is the packet just accepted, and a drained queue had its last packet flushed. -/
structure Inv (s : FlushState) : Prop where
  in_order : SendsInOrder s.con.handed s.con.enqueued
  sent_accepted : s.con.sent = acceptedOf s.con.handed
  accepted : s.con.sent ++ s.pending = s.con.enqueued
  head_sent : s.pc = .sent ∨ s.pc = .remove →
    ∃ p, s.con.ioPacketList = p :: s.pending ∧ s.con.sent.getLast? = some p
  flushed : s.pending = [] → s.con.sent = [] ∨ s.con.lastFlush = true

variable {s : FlushState}

theorem inv_init (events : Events) (sends : List SendOutcome) :
    Inv ⟨{ Outbound.fresh sends with events }, .idle⟩ :=
  ⟨trivial, rfl, rfl, nofun, fun _ => .inl rfl⟩

/-- A step that changes neither the logs nor the queue and stays on the same side of the send
keeps the invariant. -/
theorem Inv.frame {s' : FlushState} (h : s.Inv) (hq : s'.con.ioPacketList = s.con.ioPacketList)
    (hl : s'.con.handed = s.con.handed ∧ s'.con.sent = s.con.sent ∧
      s'.con.enqueued = s.con.enqueued ∧ s'.con.lastFlush = s.con.lastFlush)
    (hp : s'.pending = s.pending)
    (hpc : s'.pc = .sent ∨ s'.pc = .remove → s.pc = .sent ∨ s.pc = .remove) :
    s'.Inv := by
  obtain ⟨hh, hs, he, hf⟩ := hl
  refine ⟨hh ▸ he ▸ h.in_order, hs ▸ hh ▸ h.sent_accepted, hp ▸ hs ▸ he ▸ h.accepted,
    fun hc => ?_, fun hc => ?_⟩
  · rw [hq, hp, hs]; exact h.head_sent (hpc hc)
  · rw [hs, hf]; exact h.flushed (hp ▸ hc)

theorem Inv.send {c c' : Outbound} {p : Packet} {ps : List Packet} {ret : GearmanReturn}
    (h : Inv ⟨c, .loop⟩) (hq : c.ioPacketList = p :: ps)
    (hs : gearmanConSend p ps.isEmpty c = (ret, c')) :
    Inv ⟨c', if ret = .success then .sent else .idle⟩ := by
  obtain ⟨hq', he, hh, hok, hfail, -⟩ := gearmanConSend_spec hs
  obtain ⟨hin, hsa, hacc, -, -⟩ := h
  simp only [pending_loop, hq] at hacc hsa hin
  have hin' : SendsInOrder c'.handed c'.enqueued := by
    rw [hh, he]; exact hin.call (hsa ▸ hacc.symm) _
  by_cases hr : ret = .success
  · obtain ⟨hsent, hflush⟩ := hok hr
    subst hr
    refine ⟨hin', ?_, ?_, fun _ => ⟨p, ?_, by simp [hsent]⟩, fun hps => .inr ?_⟩ <;>
      simp_all
  · obtain ⟨hsent, hflush⟩ := hfail hr
    rw [if_neg hr]
    refine ⟨hin', ?_, ?_, nofun, ?_⟩ <;> simp_all

theorem Inv.flushStep (h : s.Inv) : s.flushStep.Inv := by
  obtain ⟨c, pc⟩ := s
  cases pc with
  | idle =>
    simp only [FlushState.flushStep]
    split
    · exact h
    · exact h.frame rfl ⟨rfl, rfl, rfl, rfl⟩ rfl nofun
  | loop =>
    cases hq : c.ioPacketList with
    | nil =>
      simp only [FlushState.flushStep, hq]
      exact h.frame (by simp [hq]) ⟨rfl, rfl, rfl, rfl⟩ (by simp [hq]) nofun
    | cons p ps =>
      simp only [FlushState.flushStep, hq]
      rcases hs : gearmanConSend p ps.isEmpty c with ⟨ret, c'⟩
      have := h.send hq hs
      cases ret <;> exact this
  | sent =>
    cases hq : c.ioPacketList with
    | nil =>
      simp only [FlushState.flushStep, hq]
      exact h.frame rfl ⟨rfl, rfl, rfl, rfl⟩ rfl fun _ => .inl rfl
    | cons p ps =>
      simp only [FlushState.flushStep, hq]
      split <;> exact h.frame (by simp [hq]) ⟨rfl, rfl, rfl, rfl⟩ (by simp [hq]) fun _ => .inl rfl
  | remove =>
    refine ⟨h.in_order, h.sent_accepted, h.accepted, nofun, h.flushed⟩

theorem Inv.append (h : s.Inv) (p : Packet) : (s.step (.append p)).Inv := by
  obtain ⟨c, pc⟩ := s
  have hp : (⟨c.append p, pc⟩ : FlushState).pending = (⟨c, pc⟩ : FlushState).pending ++ [p] := by
    cases pc
    case sent | remove =>
      obtain ⟨q, hq, -⟩ := h.head_sent (by simp)
      exact List.tail_append_of_ne_nil fun he => List.cons_ne_nil _ _ (hq.symm.trans he)
    all_goals rfl
  show Inv ⟨c.append p, pc⟩
  refine ⟨h.in_order.append_queue [p], h.sent_accepted, ?_, fun hc => ?_, fun hc => ?_⟩
  · show c.sent ++ _ = c.enqueued ++ [p]
    rw [hp, ← List.append_assoc, h.accepted]
  · obtain ⟨q, hq, hl⟩ := h.head_sent hc
    refine ⟨q, ?_, hl⟩
    rw [hp, Outbound.append_ioPacketList, hq]
    rfl
  · simp [hp] at hc

/-- A wake is an append that also sets the flag, which the invariant does not read. -/
theorem Inv.wake (h : s.Inv) : (s.step .wake).Inv := by
  simp only [step]
  split
  · exact h
  · exact (h.append Packet.noop).frame rfl ⟨rfl, rfl, rfl, rfl⟩ rfl id

theorem Inv.poll (h : s.Inv) (revents : Events) : (s.step (.poll revents)).Inv := by
  simp only [step]
  split
  · exact h.frame rfl ⟨rfl, rfl, rfl, rfl⟩ rfl id
  · exact h

theorem Inv.step (h : s.Inv) : ∀ m, (s.step m).Inv
  | .flush => h.flushStep
  | .append p => h.append p
  | .wake => h.wake
  | .poll revents => h.poll revents

theorem Reachable.inv (h : s.Reachable) : s.Inv := by
  induction h with
  | init events sends => exact inv_init events sends
  | step m _ ih => exact ih.step m

theorem Reachable.run (h : s.Reachable) (moves : List FlushMove) :
    (moves.foldl FlushState.step s).Reachable := by
  induction moves generalizing s with
  | nil => exact h
  | cons m rest ih => exact ih (.step m h)

/-- What left the queue was accepted first: the queue is the enqueued sequence less a prefix of
the accepted packets. -/
theorem Inv.removed_accepted (h : s.Inv) :
    ∃ removed, removed ++ s.con.ioPacketList = s.con.enqueued ∧ removed <+: s.con.sent := by
  obtain ⟨c, pc⟩ := s
  cases pc
  case sent | remove =>
    obtain ⟨p, hq, hl⟩ := h.head_sent (by simp)
    refine ⟨c.sent.dropLast, ?_, List.dropLast_prefix _⟩
    rw [← h.accepted, hq, ← List.dropLast_append_getLast? p hl]
    simp
  all_goals exact ⟨c.sent, h.accepted, List.prefix_refl _⟩

/-- With nothing appended meanwhile, the steps from the loop test compute the `while` loop. -/
theorem flushQueue_runs (l : List Packet) (c : Outbound) (hl : c.ioPacketList = l) :
    ∃ n, flushStep^[n] ⟨c, .loop⟩ = ⟨(flushQueue l c).2, .idle⟩ := by
  induction l generalizing c with
  | nil => exact ⟨1, by simp [flushStep, hl, flushQueue]⟩
  | cons p ps ih =>
    rcases hs : gearmanConSend p ps.isEmpty c with ⟨ret, c1⟩
    have hq1 : c1.ioPacketList = p :: ps := (gearmanConSend_spec hs).1.trans hl
    cases ret
    case success =>
      let c2 := if p.command = commandNoop then { c1 with noopQueued := false } else c1
      obtain ⟨n, hn⟩ :=
        ih c2.removeHead (by by_cases hp : p.command = commandNoop <;> simp [c2, hp, hq1])
      refine ⟨n + 3, ?_⟩
      have h3 : flushStep^[3] ⟨c, .loop⟩ = ⟨c2.removeHead, .loop⟩ := by
        by_cases hp : p.command = commandNoop <;> simp [flushStep, hl, hs, hq1, hp, c2]
      rw [Function.iterate_add_apply, h3, hn]
      simp [flushQueue, hs, c2]
    all_goals exact ⟨1, by simp [flushStep, hl, hs, flushQueue]⟩

/-- The `NOOP`s `noop_queued` stands for: those of the queue, except that between clearing the
flag and removing an accepted `NOOP` that head is already sent. -/
def noopCount (s : FlushState) : Nat :=
  (if s.pc = .remove then s.con.ioPacketList.tail else s.con.ioPacketList).countP
    fun p => p.command = commandNoop

/-- `noop_queued` is set exactly when it stands for one `NOOP`, and clear when for none. -/
def NoopInv (s : FlushState) : Prop := s.noopCount = if s.con.noopQueued then 1 else 0

instance : DecidablePred NoopInv := fun _ => inferInstanceAs (Decidable (_ = _))

theorem Inv.queue_ne_nil (h : s.Inv) (hc : s.pc = .sent ∨ s.pc = .remove) :
    s.con.ioPacketList ≠ [] := by
  obtain ⟨p, hq, -⟩ := h.head_sent hc
  simp [hq]

theorem noopCount_append {p : Packet} (h : s.Inv) (s' : FlushState)
    (hc : s'.con.ioPacketList = s.con.ioPacketList ++ [p]) (hpc : s'.pc = s.pc) :
    s'.noopCount = s.noopCount + if p.command = commandNoop then 1 else 0 := by
  unfold noopCount
  rw [hc, hpc]
  split
  · next hr =>
    simp [List.tail_append_of_ne_nil (h.queue_ne_nil (.inr hr)), List.countP_append,
      List.countP_cons]
  · simp [List.countP_append, List.countP_cons]

theorem NoopInv.frame {s' : FlushState} (h : s.NoopInv)
    (hq : s'.con.ioPacketList = s.con.ioPacketList) (hn : s'.con.noopQueued = s.con.noopQueued)
    (hpc : s'.pc = .remove ↔ s.pc = .remove) : s'.NoopInv := by
  simpa only [NoopInv, noopCount, hq, hn, hpc] using h

theorem NoopInv.flushStep (h : s.NoopInv) : s.flushStep.NoopInv := by
  obtain ⟨c, pc⟩ := s
  cases pc with
  | idle =>
    simp only [FlushState.flushStep]
    split <;> exact h.frame rfl rfl (by simp)
  | loop =>
    cases hq : c.ioPacketList with
    | nil =>
      simp only [FlushState.flushStep, hq]
      exact h.frame hq.symm rfl (by simp)
    | cons p ps =>
      simp only [FlushState.flushStep, hq]
      rcases hs : gearmanConSend p ps.isEmpty c with ⟨ret, c'⟩
      obtain ⟨hq', -, -, -, -, -, hn⟩ := gearmanConSend_spec hs
      cases ret <;> exact h.frame hq' hn (by simp)
  | sent =>
    unfold NoopInv noopCount at h ⊢
    cases hq : c.ioPacketList with
    | nil => simpa [FlushState.flushStep, hq] using h
    | cons p ps =>
      simp only [FlushState.flushStep, hq]
      split
      · next hp =>
        simp only [hq, List.countP_cons, hp, decide_True, if_true] at h
        cases hf : c.noopQueued <;> simp_all
      · next hp => simpa [hq, hp] using h
  | remove => simpa [NoopInv, noopCount, FlushState.flushStep] using h

theorem NoopInv.append {p : Packet} (hi : s.Inv) (h : s.NoopInv) (hp : p.command ≠ commandNoop) :
    (s.step (.append p)).NoopInv := by
  unfold NoopInv at h ⊢
  rw [noopCount_append hi (s.step (.append p)) rfl rfl, h]
  simp [step, hp]

theorem NoopInv.wake (hi : s.Inv) (h : s.NoopInv) : (s.step .wake).NoopInv := by
  simp only [step]
  split
  · exact h
  · next hq =>
    unfold NoopInv at h ⊢
    rw [noopCount_append hi ⟨{ s.con.append Packet.noop with noopQueued := true }, s.pc⟩ rfl rfl, h]
    simp [hq, Packet.noop]

/-- Along any run whose replies are not `NOOP`s, the flag keeps counting the `NOOP`s. -/
theorem NoopInv.run (hr : s.Reachable) (h : s.NoopInv) (moves : List FlushMove)
    (hm : ∀ p, FlushMove.append p ∈ moves → p.command ≠ commandNoop) :
    (moves.foldl FlushState.step s).NoopInv := by
  induction moves generalizing s with
  | nil => exact h
  | cons m rest ih =>
    refine ih (.step m hr) ?_ fun p hp => hm p (List.mem_cons_of_mem _ hp)
    cases m with
    | flush => exact h.flushStep
    | append p => exact h.append hr.inv (hm p (List.mem_cons_self _ _))
    | wake => exact h.wake hr.inv
    | poll revents =>
      simp only [step]
      split
      · exact h.frame rfl rfl Iff.rfl
      · exact h

theorem NoopInv.noopQueuedInv (h : s.NoopInv) (hpc : s.pc ≠ .remove) : s.con.NoopQueuedInv := by
  simpa [NoopInv, noopCount, hpc] using h

end FlushState

open FlushState in
/-- However the processing thread's appends interleave with the steps of `_thread_packet_flush`,
and whatever `gearman_con_send` returns: every call is handed the first packet not yet accepted,
so packets go out in enqueue order, a packet that was not accepted is handed again next, and an
accepted one never is; the accepted packets followed by the pending ones are the enqueued
sequence, and what left the queue was accepted first; a run that finds `POLLOUT` set changes
nothing; and when nothing is pending, the last accepted packet asked for a flush. -/
theorem flush_sends_in_order {s : FlushState} (h : s.Reachable) :
    SendsInOrder s.con.handed s.con.enqueued ∧ s.con.sent = acceptedOf s.con.handed ∧
      s.con.sent ++ s.pending = s.con.enqueued ∧ s.con.sent <+: s.con.enqueued ∧
      (∃ removed, removed ++ s.con.ioPacketList = s.con.enqueued ∧ removed <+: s.con.sent) ∧
      (s.pc = .idle → s.con.events.pollout = true → s.flushStep = s) ∧
      (s.pending = [] → s.con.sent = [] ∨ s.con.lastFlush = true) := by
  have hi := h.inv
  refine ⟨hi.in_order, hi.sent_accepted, hi.accepted, ⟨_, hi.accepted⟩, hi.removed_accepted,
    fun hpc hp => ?_, hi.flushed⟩
  obtain ⟨c, pc⟩ := s
  subst hpc
  exact if_pos hp

/-- Two replies queued; the first is accepted, a third is appended before its removal, and the
second blocks and is left at the head with `POLLOUT` set. -/
theorem flush_sends_in_order_blocked :
    let s := [.append ⟨8, [1]⟩, .append ⟨11, [2]⟩, .flush, .flush, .append ⟨13, [3]⟩, .flush,
      .flush, .flush, .flush].foldl FlushState.step
      ⟨{ Outbound.fresh [.success, .ioWait] with events := Events.pollinOnly }, .idle⟩
    s.con.handed = [(⟨8, [1]⟩, true), (⟨11, [2]⟩, false)] ∧
      s.con.ioPacketList = [⟨11, [2]⟩, ⟨13, [3]⟩] ∧ s.con.events.pollout = true ∧
      (SendsInOrder s.con.handed s.con.enqueued ∧ s.con.sent = acceptedOf s.con.handed ∧
      s.con.sent ++ s.pending = s.con.enqueued ∧ s.con.sent <+: s.con.enqueued ∧
      (∃ removed, removed ++ s.con.ioPacketList = s.con.enqueued ∧ removed <+: s.con.sent) ∧
      (s.pc = .idle → s.con.events.pollout = true → s.flushStep = s) ∧
      (s.pending = [] → s.con.sent = [] ∨ s.con.lastFlush = true)) :=
  ⟨rfl, rfl, rfl, flush_sends_in_order ((FlushState.Reachable.init _ _).run _)⟩

/-- A send that blocks sets `POLLOUT`, and the calls after it return at once until the poll
reports the socket writable; then the packet is handed again, accepted, and the queue drained. -/
example :
    let s := [.append ⟨8, [1]⟩, .flush, .flush, .flush, .poll ⟨false, true⟩, .flush, .flush,
      .flush, .flush, .flush].foldl FlushState.step (FlushState.init Events.pollinOnly
        [.ioWait, .success])
    s.con.handed = [(⟨8, [1]⟩, false), (⟨8, [1]⟩, true)] ∧ s.con.ioPacketList = [] ∧
      s.con.events = Events.pollinOnly :=
  ⟨rfl, rfl, rfl⟩

open FlushState in
/-- However the steps of `_thread_packet_flush` interleave with the processing thread's replies,
none of them a `NOOP`, and its wakes of the sleeping worker, `noop_queued` counts the `NOOP`s it
stands for; outside the window between clearing the flag and removing the accepted `NOOP`, the
queue holds one `NOOP` when the flag is set and none when it is clear. -/
theorem noop_queued_counts_noops (events : Events) (sends : List SendOutcome)
    (moves : List FlushMove) (hm : ∀ p, FlushMove.append p ∈ moves → p.command ≠ commandNoop) :
    (moves.foldl step (init events sends)).NoopInv ∧
      ((moves.foldl step (init events sends)).pc ≠ .remove →
        (moves.foldl step (init events sends)).con.NoopQueuedInv) := by
  have h := NoopInv.run (.init events sends) rfl moves hm
  exact ⟨h, h.noopQueuedInv⟩

/-- A wake, the `NOOP` accepted, and a second wake before its removal: for that step the queue
holds two `NOOP`s, and the flag counts only the one not yet sent. -/
theorem noop_queued_counts_noops_window :
    let s := [.wake, .flush, .flush, .flush, .wake].foldl FlushState.step
      (FlushState.init Events.pollinOnly [.success, .success])
    s.pc = .remove ∧ s.con.ioPacketList = [Packet.noop, Packet.noop] ∧ s.con.noopQueued = true ∧
      (s.NoopInv ∧ (s.pc ≠ .remove → s.con.NoopQueuedInv)) :=
  ⟨rfl, rfl, rfl, noop_queued_counts_noops _ _ _ (by simp)⟩

end Gearman
