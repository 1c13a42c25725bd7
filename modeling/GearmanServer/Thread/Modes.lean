import GearmanServer.Thread.Run

/-!
# Running commands with one thread and with several

With one thread, `_thread_packet_read` runs each complete packet at once and returns the code of
the first command that fails, so no packet after it is run on that call. With several,
`_thread_packet_read` only queues the packets, and `_proc` runs every queued packet of the
connection, whatever the earlier ones returned, storing each code in `con->ret`: a failure is
overwritten by the codes of the commands after it, and `gearman_server_thread_run` reports
`con->ret` only as it stands when the connection next comes off `io_list`.

`threadPacketRead_single_stops` and `procRunQueue_runs_all` state the two behaviours for every
input; `proc_runs_past_failed_command` is a connection on which they part.
-/

namespace Gearman

namespace Inbound

/-- The code `gearman_server_run_command` returns for the `i`-th packet run from now on. -/
def commandRet (con : Inbound) (i : Nat) : GearmanReturn :=
  ((con.commands.drop i).headD ⟨.success, []⟩).ret

theorem commandRet_of_tail {con con' : Inbound} (h : con'.commands = con.commands.tail) (i : Nat) :
    con'.commandRet i = con.commandRet (i + 1) := by
  simp [commandRet, h, List.drop_tail]

/-- `con'` is `con` after the first `k` commands of its script: every one but the last
succeeded, and a failing last one gave the code `ret`. -/
def StopsAtFailure (con con' : Inbound) (ret : GearmanReturn) (k : Nat) : Prop :=
  con'.commands = con.commands.drop k ∧ con'.ran.length = con.ran.length + k ∧
    (∀ i, i + 1 < k → con.commandRet i = .success) ∧
    (0 < k → con.commandRet (k - 1) ≠ .success → ret = con.commandRet (k - 1))

theorem StopsAtFailure.none {con con' : Inbound} (hc : con'.commands = con.commands)
    (hr : con'.ran.length = con.ran.length) (ret : GearmanReturn) :
    StopsAtFailure con con' ret 0 :=
  ⟨by simpa using hc, hr, fun _ h => absurd h (by omega), fun h => absurd h (by omega)⟩

theorem StopsAtFailure.cons {con con' con'' : Inbound} {ret : GearmanReturn} {k : Nat}
    (h0 : con.commandRet 0 = .success) (hc : con'.commands = con.commands.tail)
    (hr : con'.ran.length = con.ran.length + 1) (h : StopsAtFailure con' con'' ret k) :
    StopsAtFailure con con'' ret (k + 1) := by
  obtain ⟨hk, hran, hok, hlast⟩ := h
  refine ⟨by rw [hk, hc, List.drop_tail], by omega, fun i hi => ?_, fun _ hf => ?_⟩
  · cases i with
    | zero => exact h0
    | succ j => rw [← commandRet_of_tail hc]; exact hok j (by omega)
  · cases k with
    | zero => exact absurd h0 hf
    | succ j =>
      rw [Nat.add_sub_cancel, ← commandRet_of_tail hc] at hf ⊢
      exact hlast (by omega) hf

end Inbound

def RecvOutcome.isComplete : RecvOutcome → Bool
  | .complete _ => true
  | _ => false

/-- The complete packets at the head of the socket's input: as many as one call of
`_thread_packet_read` can read before the socket would block or fail. -/
def completeCount (wire : List RecvOutcome) : Nat := (wire.takeWhile RecvOutcome.isComplete).length

@[simp] theorem completeCount_nil : completeCount [] = 0 := rfl

@[simp] theorem completeCount_cons (o : RecvOutcome) (wire : List RecvOutcome) :
    completeCount (o :: wire) = if o.isComplete then completeCount wire + 1 else 0 := by
  unfold completeCount
  cases h : o.isComplete <;> simp [List.takeWhile_cons, h]

open Inbound

@[simp] theorem gearmanConRecv_commands (o : RecvOutcome) (p : Nat) (pool : PacketPool)
    (con : Inbound) :
    (gearmanConRecv o p pool con).2.2.commands = con.commands := by
  cases o <;> rfl

@[simp] theorem gearmanConRecv_ran (o : RecvOutcome) (p : Nat) (pool : PacketPool) (con : Inbound) :
    (gearmanConRecv o p pool con).2.2.ran = con.ran := by
  cases o <;> rfl

/-- What one pass of the single-threaded read can do: find no packet; read no complete packet
and return with no command run; or complete a packet and run its command, returning on a
failure and otherwise going on, with the next packet taken off the free list. -/
theorem threadPacketReadPass_single (o : RecvOutcome) (pool : PacketPool) (con : Inbound) :
    (∃ pool', acquirePacket pool con = (none, pool') ∧
      threadPacketReadPass 1 o pool con = .noPacket pool' con) ∨
    (o.isComplete = false ∧ ∃ ret pool' con',
      threadPacketReadPass 1 o pool con = .stop ret pool' con' [] ∧
        con'.commands = con.commands ∧ con'.ran = con.ran) ∨
    (o.isComplete = true ∧ ∃ pool' con' replies, con'.commands = con.commands.tail ∧
      con'.ran.length = con.ran.length + 1 ∧
      (con.commandRet 0 ≠ .success ∧
          threadPacketReadPass 1 o pool con = .stop (con.commandRet 0) pool' con' replies ∨
        con.commandRet 0 = .success ∧ threadPacketReadPass 1 o pool con = .next pool' con' replies ∧
          (acquirePacket pool' con').1.isSome)) := by
  unfold threadPacketReadPass
  rcases ha : acquirePacket pool con with ⟨_ | q, pool1⟩
  · exact .inl ⟨pool1, rfl, rfl⟩
  refine .inr ?_
  rcases hr : gearmanConRecv o q pool1 { con with packet := some q } with ⟨ret, pool2, con2⟩
  have hc : con2.commands = con.commands := by
    rw [← gearmanConRecv_commands o q pool1 { con with packet := some q }, hr]
  have hran : con2.ran = con.ran := by
    rw [← gearmanConRecv_ran o q pool1 { con with packet := some q }, hr]
  simp only [hr]
  cases o with
  | incomplete b =>
    obtain rfl : ret = .ioWait := by
      simp only [gearmanConRecv, Prod.mk.injEq] at hr; exact hr.1.symm
    exact .inl ⟨rfl, .success, pool2, con2, by simp, hc, hran⟩
  | error e =>
    obtain rfl : ret = e.code := by
      simp only [gearmanConRecv, Prod.mk.injEq] at hr; exact hr.1.symm
    exact .inl ⟨rfl, e.code, pool2, con2, by simp [e.not_ioWait, e.not_success], hc, hran⟩
  | complete b =>
    obtain rfl : ret = .success := by
      simp only [gearmanConRecv, Prod.mk.injEq] at hr; exact hr.1.symm
    have hhead : (con2.commands.head?.getD ⟨.success, []⟩).ret = con.commandRet 0 := by
      simp [commandRet, hc]
    refine .inr ⟨rfl, pool2.free q, { (runCommand pool2 q con2).2 with packet := none },
      (runCommand pool2 q con2).1.replies, by simp [runCommand, hc], by simp [runCommand, hran], ?_⟩
    by_cases h0 : con.commandRet 0 = .success
    · exact .inr ⟨h0, by simp [runCommand, hhead, h0], by simp [acquirePacket, PacketPool.create]⟩
    · exact .inl ⟨h0, by simp [runCommand, hhead, h0]⟩

/-- Single-threaded, `_thread_packet_read` runs the commands of the complete packets it reads,
in order, up to the first that fails, runs nothing after it, and returns that command's code.
It stops short of the complete packets on the socket only at that failure, or when it finds no
packet to receive into. -/
theorem threadPacketRead_single_stops (pool : PacketPool) (con : Inbound)
    (wire : List RecvOutcome) :
    ∃ k, StopsAtFailure con (threadPacketRead 1 pool con wire).con
        (threadPacketRead 1 pool con wire).ret k ∧ k ≤ completeCount wire ∧
      (k < completeCount wire → 0 < k ∧ con.commandRet (k - 1) ≠ .success ∨
        k = 0 ∧ (acquirePacket pool con).1 = none) := by
  induction wire generalizing pool con with
  | nil =>
    refine ⟨0, ?_, le_rfl, fun h => absurd h (by simp)⟩
    unfold threadPacketRead
    rcases threadPacketReadPass_single (.incomplete []) pool con with
      ⟨pool', -, hp⟩ | ⟨-, ret, pool', con', hp, hc, hr⟩ | ⟨h, -⟩
    · rw [hp]; exact .none rfl rfl _
    · rw [hp]; exact .none hc (by rw [hr]) _
    · exact absurd h (by decide)
  | cons o wire ih =>
    unfold threadPacketRead
    rcases threadPacketReadPass_single o pool con with
      ⟨pool', ha, hp⟩ | ⟨ho, ret, pool', con', hp, hc, hr⟩ | ⟨ho, pool', con', replies, hc, hr, hs⟩
    · rw [hp]
      exact ⟨0, .none rfl rfl _, Nat.zero_le _, fun _ => .inr ⟨rfl, by rw [ha]⟩⟩
    · rw [hp]
      exact ⟨0, .none hc (by rw [hr]) _, Nat.zero_le _, fun h => absurd h (by simp [ho])⟩
    · rcases hs with ⟨hf, hp⟩ | ⟨h0, hp, hq⟩
      · rw [hp]
        refine ⟨1, ⟨by simpa [List.drop_one] using hc, hr, fun _ h => absurd h (by omega),
          fun _ _ => rfl⟩, by simp [ho], fun _ => .inl ⟨Nat.one_pos, hf⟩⟩
      · rw [hp]
        obtain ⟨k, hk, hle, hlt⟩ := ih pool' con'
        refine ⟨k + 1, .cons h0 hc hr hk, by simp [ho, hle], fun h => ?_⟩
        rcases hlt (by simp [ho] at h; omega) with ⟨hpos, hfail⟩ | ⟨-, hnone⟩
        · refine .inl ⟨Nat.succ_pos k, ?_⟩
          rwa [Nat.add_sub_cancel, ← Nat.sub_add_cancel hpos, ← commandRet_of_tail hc]
        · simp [hnone] at hq

/-- The inner loop of `_proc` runs every packet given, in order, and leaves the code of the last
in `con->ret`. -/
theorem procDrain_runs_all (pool : PacketPool) (con : Inbound) (ps : List Nat) :
    (procDrain pool con ps).2.1.ran = con.ran ++ ps.map pool.entry ∧
      (procDrain pool con ps).2.1.commands = con.commands.drop ps.length ∧
      (ps ≠ [] → (procDrain pool con ps).2.1.ret = con.commandRet (ps.length - 1) ∧
        (procDrain pool con ps).2.1.procPacketList = []) := by
  induction ps generalizing pool con with
  | nil => simp [procDrain]
  | cons p ps ih =>
    let con1 : Inbound := { con with
      procPacketList := ps
      commands := con.commands.tail
      ran := con.ran ++ [pool.entry p]
      ret := con.commandRet 0 }
    have hstep : (procDrain pool con (p :: ps)).2.1 = (procDrain (pool.free p) con1 ps).2.1 := by
      simp [procDrain, procRunPacket, runCommand, con1, commandRet]
    obtain ⟨hran, hcmd, hlast⟩ := ih (pool.free p) con1
    rw [hstep]
    refine ⟨by simp [hran, con1], by simp [hcmd, con1, List.drop_tail], fun _ => ?_⟩
    cases ps with
    | nil => simp [procDrain, con1]
    | cons q qs =>
      obtain ⟨hret, hpl⟩ := hlast (List.cons_ne_nil q qs)
      exact ⟨by rw [hret, commandRet_of_tail rfl]; rfl, hpl⟩

/-- Multi-threaded, a pass of `_proc` runs every packet queued on the connection, in order,
whatever the earlier commands returned; `con->ret` keeps only the code of the last. -/
theorem procRunQueue_runs_all (pool : PacketPool) (con : Inbound) :
    (procRunQueue pool con).2.1.ran = con.ran ++ con.procPacketList.map pool.entry ∧
      (procRunQueue pool con).2.1.commands = con.commands.drop con.procPacketList.length ∧
      (con.procPacketList ≠ [] →
        (procRunQueue pool con).2.1.ret = con.commandRet (con.procPacketList.length - 1) ∧
          (procRunQueue pool con).2.1.procPacketList = []) :=
  procDrain_runs_all pool con con.procPacketList

open ServerThread in
/-- Two packets arrive in one read; the first command fails after queueing a reply, the second
succeeds. With one thread the call returns the connection with the failure and the second
packet is not run. With two, both are run, `con->ret` ends `GEARMAN_SUCCESS`, and the next call
returns `NULL`. -/
theorem proc_runs_past_failed_command :
    let wire : Nat → List RecvOutcome := fun _ => [.complete [1], .complete [2]]
    let commands : Nat → List CommandOutcome :=
      fun _ => [⟨.memoryAllocationFailure, [(0, ⟨8, [1]⟩)]⟩, ⟨.success, [(0, ⟨8, [2]⟩)]⟩]
    let single := serverThreadRun 1 ⟨false, false, 0⟩
      ((start [0] wire commands (fun _ => []) []).step 1 (.poll 0 ⟨true, false⟩))
    let multi := [.poll 0 ⟨true, false⟩, .run ⟨false, false, 0⟩, .proc 0].foldl (step 2)
      (start [0] wire commands (fun _ => []) [])
    single.con = some 0 ∧ single.ret = .memoryAllocationFailure ∧
      (single.thread.cons 0).inbound.ran = [(0, [1])] ∧
      (multi.cons 0).inbound.ran = [(0, [1]), (1, [2])] ∧ (multi.cons 0).inbound.ret = .success ∧
      (serverThreadRun 2 ⟨false, false, 0⟩ multi).con = none ∧
      (serverThreadRun 2 ⟨false, false, 0⟩ multi).ret = .success := by
  decide

end Gearman
