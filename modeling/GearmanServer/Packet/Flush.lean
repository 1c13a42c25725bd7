import GearmanServer.Basic

/-!
# Flushing the outbound packets of a connection

`_thread_packet_flush` sends the connection's `io_packet_list` in order with `gearman_con_send`,
asking for a flush of the socket buffer with the last packet of the queue. It removes a packet
only once `gearman_con_send` accepted it, stops at the first packet that was not accepted, and
once the queue is empty clears `POLLOUT` from the connection's events. It returns at once when
`POLLOUT` is already set: the poll loop will call it again when the socket is writable.

`gearman_con_send` belongs to the connection library. Its outcome is scripted per connection,
and as the poll loop relies on, a send that would block leaves `POLLOUT` set. Three records kept
for the proofs only log what it was handed: every call with its packet and whether it accepted
it, the accepted packets, and the `flush` argument of the last accepted one.

`noop_queued` stands for the one `NOOP` a sleeping worker is sent; `flush_keeps_noop_queued`
shows the flush keeps it in step with the queue.
-/

namespace Gearman

/-- What one call of `gearman_con_send` does. -/
inductive SendOutcome where
  | success
  | ioWait
  | error (e : Failure)
  deriving DecidableEq, Repr

/-- The writing side of a `gearman_server_con_st`, with the poll mask of its connection. -/
structure Outbound where
  events : Events
  ioPacketList : List Packet
  noopQueued : Bool
  /-- What the coming `gearman_con_send` calls do; once used up, the socket would block. -/
  sends : List SendOutcome
  /-- Every packet ever appended to `io_packet_list`, in order. -/
  enqueued : List Packet
  /-- Every call of `gearman_con_send`: its packet, and whether it was accepted. -/
  handed : List (Packet × Bool)
  sent : List Packet
  /-- The `flush` argument of the last accepted packet. -/
  lastFlush : Bool
  deriving DecidableEq, Repr

namespace Outbound

/-- Modelled from the spec: `gearman_server_io_packet_add` appends a packet to `io_packet_list`. -/
def append (c : Outbound) (p : Packet) : Outbound :=
  { c with ioPacketList := c.ioPacketList ++ [p], enqueued := c.enqueued ++ [p] }

def removeHead (c : Outbound) : Outbound := { c with ioPacketList := c.ioPacketList.tail }

@[simp] theorem append_ioPacketList (c : Outbound) (p : Packet) :
    (c.append p).ioPacketList = c.ioPacketList ++ [p] := rfl

@[simp] theorem append_enqueued (c : Outbound) (p : Packet) :
    (c.append p).enqueued = c.enqueued ++ [p] := rfl

@[simp] theorem append_noopQueued (c : Outbound) (p : Packet) :
    (c.append p).noopQueued = c.noopQueued := rfl

@[simp] theorem append_handed (c : Outbound) (p : Packet) : (c.append p).handed = c.handed := rfl

@[simp] theorem append_sent (c : Outbound) (p : Packet) : (c.append p).sent = c.sent := rfl

@[simp] theorem append_lastFlush (c : Outbound) (p : Packet) :
    (c.append p).lastFlush = c.lastFlush := rfl

@[simp] theorem removeHead_ioPacketList (c : Outbound) :
    c.removeHead.ioPacketList = c.ioPacketList.tail := rfl

def fresh (sends : List SendOutcome) : Outbound :=
  ⟨Events.pollinOnly, [], false, sends, [], [], [], false⟩

end Outbound

/-- `gearman_con_send` of `p`, with `flush` set for the last packet of the queue. -/
def gearmanConSend (p : Packet) (flush : Bool) (c : Outbound) : GearmanReturn × Outbound :=
  let c' := { c with sends := c.sends.tail }
  match c.sends.headD .ioWait with
  | .success =>
    (.success,
      { c' with handed := c.handed ++ [(p, true)], sent := c.sent ++ [p], lastFlush := flush })
  | .ioWait =>
    (.ioWait,
      { c' with handed := c.handed ++ [(p, false)], events := { c.events with pollout := true } })
  | .error e => (e.code, { c' with handed := c.handed ++ [(p, false)] })

/-- The `while` loop of `_thread_packet_flush` over the packets `ps` of `io_packet_list`,
followed by `gearman_con_set_events(con, POLLIN)` once they are all sent. -/
def flushQueue : List Packet → Outbound → GearmanReturn × Outbound
  | [], c => (.success, { c with events := Events.pollinOnly })
  | p :: ps, c =>
    match gearmanConSend p ps.isEmpty c with
    | (.success, c) =>
      let c := if p.command = commandNoop then { c with noopQueued := false } else c
      flushQueue ps c.removeHead
    | (ret, c) => (ret, c)

/-- `_thread_packet_flush`. -/
def threadPacketFlush (c : Outbound) : GearmanReturn × Outbound :=
  if c.events.pollout then (.ioWait, c) else flushQueue c.ioPacketList c

/-- What a call of `gearman_con_send` records: the call, the packet and the `flush` argument
when it accepts it, and `POLLOUT` when the socket would block; the queues and `noop_queued` are
left to the caller. -/
theorem gearmanConSend_spec {p : Packet} {flush : Bool} {c c' : Outbound} {ret : GearmanReturn}
    (hs : gearmanConSend p flush c = (ret, c')) :
    c'.ioPacketList = c.ioPacketList ∧ c'.enqueued = c.enqueued ∧
      c'.handed = c.handed ++ [(p, decide (ret = .success))] ∧
      (ret = .success → c'.sent = c.sent ++ [p] ∧ c'.lastFlush = flush) ∧
      (ret ≠ .success → c'.sent = c.sent ∧ c'.lastFlush = c.lastFlush) ∧
      (ret = .ioWait → c'.events.pollout = true) ∧ c'.noopQueued = c.noopQueued := by
  unfold gearmanConSend at hs
  split at hs <;> cases hs
  case h_3 e _ => simp [e.not_success, e.not_ioWait]
  all_goals simp

@[simp] theorem gearmanConSend_ioPacketList (p : Packet) (flush : Bool) (c : Outbound) :
    (gearmanConSend p flush c).2.ioPacketList = c.ioPacketList := by
  unfold gearmanConSend; split <;> rfl

@[simp] theorem gearmanConSend_noopQueued (p : Packet) (flush : Bool) (c : Outbound) :
    (gearmanConSend p flush c).2.noopQueued = c.noopQueued := by
  unfold gearmanConSend; split <;> rfl

/-- The loop stops with the queue drained, or at a send that would block with `POLLOUT` set, or
at a failure. -/
theorem flushQueue_settles (l : List Packet) (c : Outbound) (hl : c.ioPacketList = l) :
    ((flushQueue l c).1 = .success → (flushQueue l c).2.ioPacketList = []) ∧
      ((flushQueue l c).1 = .ioWait → (flushQueue l c).2.events.pollout = true) := by
  induction l generalizing c with
  | nil => simpa [flushQueue] using hl
  | cons p ps ih =>
    rcases hs : gearmanConSend p ps.isEmpty c with ⟨ret, c1⟩
    obtain ⟨hq, -, -, -, -, hwait, -⟩ := gearmanConSend_spec hs
    cases ret
    case success =>
      simp only [flushQueue, hs]
      exact ih _ (by split <;> simp [hq, hl])
    all_goals simp_all [flushQueue]

/-- What `_thread_packet_flush` leaves when it returns `GEARMAN_SUCCESS` or `GEARMAN_IO_WAIT`:
an empty queue, or `POLLOUT` set for the poll to call it again. -/
theorem threadPacketFlush_settles (c : Outbound) :
    ((threadPacketFlush c).1 = .success → (threadPacketFlush c).2.ioPacketList = []) ∧
      ((threadPacketFlush c).1 = .ioWait → (threadPacketFlush c).2.events.pollout = true) := by
  unfold threadPacketFlush
  split
  · simpa
  · exact flushQueue_settles _ c rfl

/-- `noop_queued` is set exactly when the queue holds one `NOOP`, and clear exactly when it
holds none. -/
def Outbound.NoopQueuedInv (c : Outbound) : Prop :=
  c.ioPacketList.countP (fun p => p.command = commandNoop) = if c.noopQueued then 1 else 0

instance : DecidablePred Outbound.NoopQueuedInv := fun _ =>
  inferInstanceAs (Decidable (_ = _))

theorem flushQueue_noopQueued (l : List Packet) (c : Outbound) (hl : c.ioPacketList = l)
    (h : c.NoopQueuedInv) : (flushQueue l c).2.NoopQueuedInv := by
  induction l generalizing c with
  | nil => simpa [flushQueue, Outbound.NoopQueuedInv] using h
  | cons p ps ih =>
    unfold Outbound.NoopQueuedInv at h
    rcases hs : gearmanConSend p ps.isEmpty c with ⟨ret, c1⟩
    obtain ⟨hq, -, -, -, -, -, hn⟩ := gearmanConSend_spec hs
    rw [hl] at h hq
    cases ret <;> simp only [flushQueue, hs]
    case success =>
      apply ih _ (by split <;> simp [Outbound.removeHead, hq])
      unfold Outbound.NoopQueuedInv
      by_cases hp : p.command = commandNoop
      · have : c.noopQueued = true := by by_contra hc; simp_all
        simp_all [Outbound.removeHead]
      · simp_all [Outbound.removeHead]
    all_goals simpa [Outbound.NoopQueuedInv, hq, hn] using h

/-- Whatever `gearman_con_send` does, `_thread_packet_flush` leaves `noop_queued` set exactly
when the one `NOOP` is still queued: it clears the flag when that `NOOP` is accepted, and only
then. -/
theorem flush_keeps_noop_queued (c : Outbound) (h : c.NoopQueuedInv) :
    (threadPacketFlush c).2.NoopQueuedInv := by
  unfold threadPacketFlush
  split
  · exact h
  · exact flushQueue_noopQueued _ c rfl h

/-- A reply, the `NOOP`, and a reply queued; the socket takes two packets and then blocks. -/
theorem flush_keeps_noop_queued_blocked :
    let c : Outbound := { Outbound.fresh [.success, .success, .ioWait] with
      ioPacketList := [⟨8, []⟩, Packet.noop, ⟨13, []⟩], noopQueued := true }
    c.NoopQueuedInv ∧ (threadPacketFlush c).2.ioPacketList = [⟨13, []⟩] ∧
      (threadPacketFlush c).2.noopQueued = false ∧ (threadPacketFlush c).2.NoopQueuedInv :=
  ⟨by decide, by decide, by decide, flush_keeps_noop_queued _ (by decide)⟩

end Gearman
