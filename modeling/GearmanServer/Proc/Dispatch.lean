import GearmanServer.Proc.Wakeup
import GearmanServer.Packet.Footprint
import GearmanServer.Thread.Run

/-!
# The processing thread across the server's threads

With several threads, an I/O thread that reads a complete packet hands it to `_proc`: the packet
goes on its connection's `proc_packet_list`, the connection on the thread's `proc_list`, and the
thread wakes `_proc` as a waker of `ProcSync`. Once woken, `_proc` walks `thread_list`; on each
thread it takes the connections `gearman_server_con_proc_next` returns, flags a dead one for
teardown, and runs the queued packets of a live one, one at a time, until its queue is empty.

`Dispatch` puts these together: the lock and flags of `ProcSync`, the threads of the thread
model, each thread's `proc_list`, where `_proc` is in its pass, and where each I/O thread is in
handing a packet over. A move is one atomic action: a pass of `_thread_packet_read`, putting a
connection on `proc_list`, a step of a wake, of `_proc` or of `_proc_thread_kill`, a spurious
wake-up, or a socket failing. The rest of an I/O thread's work, flushing and tearing down
connections, belongs to the thread model and touches none of this.

Two results connect the layers. `Reachable.sync`: the lock and flags move only as `ProcSync`
allows, so its invariant holds here. `proc_moves_refine_procCon`: the steps `_proc` takes on one
connection, with no other thread moving, are the one `.proc` move of the thread model, which
runs a connection's queue at once.
-/

namespace Gearman

def ReadPass.replies : ReadPass → List (Nat × Packet)
  | .next _ _ replies | .stop _ _ _ replies => replies
  | .noPacket .. => []

/-- A pass that handed a complete packet to `_proc`: with several threads, every complete packet
goes to `gearman_server_proc_packet_add`. -/
def ReadPass.handsOff (threadCount : Nat) : ReadPass → Bool
  | .next .. => threadCount != 1
  | .stop .. | .noPacket .. => false

theorem procPacketList_of_not_handsOff {tc : Nat} {o : RecvOutcome} {pool : PacketPool}
    {con : Inbound} (h : (threadPacketReadPass tc o pool con).handsOff tc = false) :
    (threadPacketReadPass tc o pool con).con.procPacketList = con.procPacketList := by
  unfold threadPacketReadPass at h ⊢
  rcases ha : acquirePacket pool con with ⟨_ | q, pool1⟩
  · rfl
  · rcases hr : gearmanConRecv o q pool1 { con with packet := some q } with ⟨ret, pool2, con2⟩
    have hl : con2.procPacketList = con.procPacketList := by
      simpa [hr] using gearmanConRecv_procPacketList o q pool1 { con with packet := some q }
    simp only [ha, hr] at h ⊢
    split_ifs at h ⊢ <;> simp_all [ReadPass.handsOff, ReadPass.con, runCommand]

theorem procDrain_cons (pool : PacketPool) (con : Inbound) (p : Nat) (ps : List Nat) :
    procDrain pool con (p :: ps) =
      let r := procRunPacket pool p { con with procPacketList := ps }
      let d := procDrain r.1 r.2.1 ps
      (d.1, d.2.1, r.2.2 ++ d.2.2) := rfl

namespace ServerThread

/-- One pass of the `while (1)` loop of `_thread_packet_read` on connection `c`: the pass, and
the thread with the replies of a command it ran queued. -/
def readPass (threadCount : Nat) (t : ServerThread) (c : Nat) : ReadPass × ServerThread :=
  let r := threadPacketReadPass threadCount ((t.cons c).wire.headD (.incomplete [])) t.pool
    (t.cons c).inbound
  (r, ({ t.setCon c { t.cons c with inbound := r.con, wire := r.unread (t.cons c).wire } with
    pool := r.pool }).queueReplies r.replies)

/-- The body of the inner `while (1)` loop of `_proc` on connection `c`, whose `proc_packet_list`
is `p :: ps`: `gearman_server_proc_packet_remove` takes `p`, which is run and freed, and the
replies of its command are queued. -/
def procPacket (t : ServerThread) (c p : Nat) (ps : List Nat) : ServerThread :=
  let r := procRunPacket t.pool p { (t.cons c).inbound with procPacketList := ps }
  ({ t.setCon c { t.cons c with inbound := r.2.1 } with pool := r.1 }).queueReplies r.2.2

/-- The branch of `_proc` for a dead connection: it is flagged `GEARMAN_SERVER_CON_FREE` and put
on `io_list` for teardown. -/
def procDead (t : ServerThread) (c : Nat) : ServerThread :=
  (t.setCon c { t.cons c with free := true }).ioAdd c

/-- The branch of `_proc` for a live connection: its queued packets are run, and their replies
queued. -/
def procQueue (t : ServerThread) (c : Nat) : ServerThread :=
  let r := procRunQueue t.pool (t.cons c).inbound
  ({ t.setCon c { t.cons c with inbound := r.2.1 } with pool := r.1 }).queueReplies r.2.2

theorem procCon_of_dead {t : ServerThread} {c : Nat} (h : (t.cons c).dead = true) :
    t.procCon c = t.procDead c := if_pos h

theorem procCon_of_live {t : ServerThread} {c : Nat} (h : (t.cons c).dead = false) :
    t.procCon c = t.procQueue c := if_neg (by simp [h])

theorem ext {t t' : ServerThread} (hl : t.conList = t'.conList) (hc : ∀ c, t.cons c = t'.cons c)
    (hi : t.ioList = t'.ioList) (hp : t.pool = t'.pool) : t = t' := by
  cases t; cases t'
  simp only [mk.injEq] at *
  exact ⟨hl, funext hc, hi, hp⟩

theorem setCon_self (t : ServerThread) (c : Nat) : t.setCon c (t.cons c) = t := by
  simp [setCon]

@[simp] theorem setCon_pool (t : ServerThread) (c : Nat) (con : ServerCon) :
    (t.setCon c con).pool = t.pool := rfl

theorem setCon_setCon (t : ServerThread) (c : Nat) (con con' : ServerCon) (pool : PacketPool) :
    ({ t.setCon c con with pool } : ServerThread).setCon c con' =
      { t.setCon c con' with pool } := by
  simp [setCon]

theorem ioAdd_ioList (t : ServerThread) (c : Nat) :
    (t.ioAdd c).ioList = if c ∈ t.ioList then t.ioList else t.ioList ++ [c] := by
  unfold ioAdd; split <;> rfl

@[simp] theorem ioAdd_pool (t : ServerThread) (c : Nat) : (t.ioAdd c).pool = t.pool := by
  unfold ioAdd; split <;> rfl

@[simp] theorem queueReplies_pool (t : ServerThread) (replies : List (Nat × Packet)) :
    (t.queueReplies replies).pool = t.pool := by
  induction replies generalizing t with
  | nil => rfl
  | cons r rest ih => exact (ih _).trans (by simp [ioPacketAdd])

theorem queueReplies_append (t : ServerThread) (a b : List (Nat × Packet)) :
    t.queueReplies (a ++ b) = (t.queueReplies a).queueReplies b := List.foldl_append ..

@[simp] theorem ioPacketAdd_dead (t : ServerThread) (c : Nat) (p : Packet) (d : Nat) :
    ((t.ioPacketAdd c p).cons d).dead = (t.cons d).dead := by
  simp only [ioPacketAdd, ioAdd_cons, setCon_cons]
  split
  · next hdc => rw [hdc]
  · rfl

@[simp] theorem queueReplies_dead (t : ServerThread) (replies : List (Nat × Packet)) (d : Nat) :
    ((t.queueReplies replies).cons d).dead = (t.cons d).dead := by
  induction replies generalizing t with
  | nil => rfl
  | cons r rest ih => exact (ih _).trans (ioPacketAdd_dead t r.1 r.2 d)

@[simp] theorem readPass_dead (tc : Nat) (t : ServerThread) (c d : Nat) :
    ((t.readPass tc c).2.cons d).dead = (t.cons d).dead := by
  simp only [readPass, queueReplies_dead, setCon_cons]
  split <;> simp_all

theorem readPass_inbound_of_ne (tc : Nat) (t : ServerThread) {c d : Nat} (h : d ≠ c) :
    ((t.readPass tc c).2.cons d).inbound = (t.cons d).inbound := by
  simp [readPass, h]

theorem readPass_inbound_self (tc : Nat) (t : ServerThread) (c : Nat) :
    ((t.readPass tc c).2.cons c).inbound = (t.readPass tc c).1.con := by
  simp [readPass]

theorem readPass_procPacketList {tc : Nat} {t : ServerThread} {c : Nat}
    (h : (t.readPass tc c).1.handsOff tc = false) :
    ((t.readPass tc c).2.cons c).inbound.procPacketList = (t.cons c).inbound.procPacketList := by
  rw [readPass_inbound_self]
  exact procPacketList_of_not_handsOff h

@[simp] theorem procPacket_dead (t : ServerThread) (c p : Nat) (ps : List Nat) (d : Nat) :
    ((t.procPacket c p ps).cons d).dead = (t.cons d).dead := by
  simp only [procPacket, queueReplies_dead, setCon_cons]
  split <;> simp_all

theorem procPacket_inbound_of_ne (t : ServerThread) {c d : Nat} (p : Nat) (ps : List Nat)
    (h : d ≠ c) : ((t.procPacket c p ps).cons d).inbound = (t.cons d).inbound := by
  simp [procPacket, h]

@[simp] theorem procDead_cons (t : ServerThread) (c d : Nat) :
    ((t.procDead c).cons d).dead = (t.cons d).dead ∧
      ((t.procDead c).cons d).inbound = (t.cons d).inbound := by
  simp only [procDead, ioAdd_cons, setCon_cons]
  split <;> simp_all

/-- Queueing a reply touches only outbound queues and `io_list`: it commutes with replacing a
connection's reading side and the pool. -/
theorem ioPacketAdd_setInbound (t : ServerThread) (d : Nat) (p : Packet) (c : Nat) (x : Inbound)
    (q : PacketPool) :
    { (t.ioPacketAdd d p).setCon c { (t.ioPacketAdd d p).cons c with inbound := x } with
      pool := q } =
      ({ t.setCon c { t.cons c with inbound := x } with pool := q }).ioPacketAdd d p := by
  refine ext (by simp [ioPacketAdd]) (fun e => ?_) (by simp [ioPacketAdd, ioAdd_ioList])
    (by simp [ioPacketAdd])
  simp only [ioPacketAdd, ioAdd_cons, setCon_cons]
  split_ifs <;> subst_vars <;> first | rfl | contradiction

theorem queueReplies_setInbound (t : ServerThread) (replies : List (Nat × Packet)) (c : Nat)
    (x : Inbound) (q : PacketPool) :
    { (t.queueReplies replies).setCon c { (t.queueReplies replies).cons c with inbound := x } with
      pool := q } =
      ({ t.setCon c { t.cons c with inbound := x } with pool := q }).queueReplies replies := by
  induction replies generalizing t with
  | nil => rfl
  | cons r rest ih =>
    exact (ih _).trans (congrArg (queueReplies · rest) (ioPacketAdd_setInbound ..))

theorem procQueue_of_nil {t : ServerThread} {c : Nat}
    (h : (t.cons c).inbound.procPacketList = []) : t.procQueue c = t := by
  simp only [procQueue, procRunQueue, h, procDrain]
  exact setCon_self t c

theorem procQueue_procPacket {t : ServerThread} {c p : Nat} {ps : List Nat}
    (h : (t.cons c).inbound.procPacketList = p :: ps) :
    (t.procPacket c p ps).procQueue c = t.procQueue c := by
  dsimp only [procQueue, procPacket]
  rw [queueReplies_setInbound]
  simp only [queueReplies_pool, queueReplies_inbound, setCon_pool, setCon_cons, ↓reduceIte,
    procRunQueue, h, procDrain_cons, queueReplies_append, setCon_setCon]
  rfl

end ServerThread

/-- Where an I/O thread is in `gearman_server_proc_packet_add`. -/
inductive AddPc where
  | idle
  /-- The packet is on `proc_packet_list` of connection `c`; the connection goes on
  `proc_list` next. -/
  | flag (c : Nat)
  /-- The connection is on `proc_list`; the thread wakes `_proc`, as a waker of `ProcSync`. -/
  | wake
  deriving DecidableEq, Repr

/-- The threads of a server that meet at `_proc`. -/
structure Dispatch where
  sync : ProcSync
  /-- `server->thread_list`, in the order `_proc` walks it. -/
  threadList : List Nat
  threads : Nat → ServerThread
  /-- Each thread's `proc_list`: the connections `gearman_server_con_proc_next` hands `_proc`. -/
  procList : Nat → List Nat
  /-- The threads the current pass of `_proc` has still to finish, the one it is on first. -/
  pass : List Nat
  /-- The connection `gearman_server_con_proc_next` returned, whose packets `_proc` runs. -/
  current : Option Nat
  /-- Where each I/O thread is in handing a packet over; its waker is numbered as the thread. -/
  adding : Nat → AddPc

inductive DispatchMove where
  /-- I/O thread `i` runs one pass of `_thread_packet_read` on its connection `c`. -/
  | read (i c : Nat)
  /-- I/O thread `i` puts the connection it queued a packet on onto its `proc_list`. -/
  | flag (i : Nat)
  /-- I/O thread `i` takes its next step in waking `_proc`. -/
  | wake (i : Nat)
  | proc
  | kill
  | spurious
  /-- Connection `c` of thread `i` fails. -/
  | markDead (i c : Nat)

namespace Dispatch

def setThread (s : Dispatch) (i : Nat) (t : ServerThread) : Dispatch :=
  { s with threads := Function.update s.threads i t }

@[simp] theorem setThread_threads (s : Dispatch) (i : Nat) (t : ServerThread) (j : Nat) :
    (s.setThread i t).threads j = if j = i then t else s.threads j := Function.update_apply ..

@[simp] theorem setThread_sync (s : Dispatch) (i : Nat) (t : ServerThread) :
    (s.setThread i t).sync = s.sync := rfl

@[simp] theorem setThread_procList (s : Dispatch) (i : Nat) (t : ServerThread) :
    (s.setThread i t).procList = s.procList := rfl

@[simp] theorem setThread_pass (s : Dispatch) (i : Nat) (t : ServerThread) :
    (s.setThread i t).pass = s.pass := rfl

@[simp] theorem setThread_current (s : Dispatch) (i : Nat) (t : ServerThread) :
    (s.setThread i t).current = s.current := rfl

/-- One atomic action of the `for` loop of `_proc` over `thread_list`: take the next connection
of the thread's `proc_list`, run the next packet of the connection taken, or move on. -/
def dispatchStep (s : Dispatch) : Dispatch :=
  match s.pass, s.current with
  | [], _ => { s with sync := s.sync.procStep }
  | i :: rest, none =>
    match s.procList i with
    | [] => { s with pass := rest }
    | c :: cs =>
      let s' := { s with procList := Function.update s.procList i cs }
      if ((s.threads i).cons c).dead then s'.setThread i ((s.threads i).procDead c)
      else { s' with current := some c }
  | i :: _, some c =>
    match ((s.threads i).cons c).inbound.procPacketList with
    | [] => { s with current := none }
    | p :: ps => s.setThread i ((s.threads i).procPacket c p ps)

/-- One step of `_proc`. Its pass over `thread_list` starts when it finds `proc_wakeup` set. -/
def procMove (s : Dispatch) : Dispatch :=
  match s.sync.proc with
  | .dispatch => s.dispatchStep
  | .testWakeup =>
    { s with sync := s.sync.procStep, pass := if s.sync.procWakeup then s.threadList else s.pass }
  | _ => { s with sync := s.sync.procStep }

def step (threadCount : Nat) (s : Dispatch) : DispatchMove → Dispatch
  | .read i c =>
    if s.adding i = .idle ∧ c ∈ (s.threads i).conList then
      let r := (s.threads i).readPass threadCount c
      { s.setThread i r.2 with
        adding := if r.1.handsOff threadCount then Function.update s.adding i (.flag c)
          else s.adding }
    else s
  | .flag i =>
    match s.adding i with
    | .flag c =>
      { s with
        procList := Function.update s.procList i
          (if c ∈ s.procList i then s.procList i else c :: s.procList i)
        adding := Function.update s.adding i .wake }
    | _ => s
  | .wake i =>
    if s.adding i = .wake then
      { s with
        sync := s.sync.wakerStep i
        adding := if s.sync.wakers i = .unlock then Function.update s.adding i .idle
          else s.adding }
    else s
  | .proc => s.procMove
  | .kill => { s with sync := s.sync.killStep }
  | .spurious => { s with sync := s.sync.spuriousStep }
  | .markDead i c =>
    s.setThread i ((s.threads i).setCon c { (s.threads i).cons c with dead := true })

/-- A server whose threads have fresh connections and nothing handed over, with `_proc` at the
top of its loop. -/
def start (wakeup shutdown : Bool) (threadList : List Nat) (conList : Nat → List Nat)
    (wire : Nat → Nat → List RecvOutcome) (commands : Nat → Nat → List CommandOutcome)
    (sends : Nat → Nat → List SendOutcome) (mallocFails : Nat → List Bool) : Dispatch :=
  ⟨.start wakeup shutdown, threadList,
    fun i => .start (conList i) (wire i) (commands i) (sends i) (mallocFails i),
    fun _ => [], [], none, fun _ => .idle⟩

inductive Reachable (threadCount : Nat) : Dispatch → Prop where
  | start (wakeup shutdown : Bool) (threadList : List Nat) (conList : Nat → List Nat)
      (wire : Nat → Nat → List RecvOutcome) (commands : Nat → Nat → List CommandOutcome)
      (sends : Nat → Nat → List SendOutcome) (mallocFails : Nat → List Bool) :
      Reachable threadCount
        (start wakeup shutdown threadList conList wire commands sends mallocFails)
  | step {s : Dispatch} (m : DispatchMove) :
      Reachable threadCount s → Reachable threadCount (s.step threadCount m)

variable {tc : Nat} {s : Dispatch}

theorem Reachable.run (h : s.Reachable tc) (moves : List DispatchMove) :
    (moves.foldl (Dispatch.step tc) s).Reachable tc := by
  induction moves generalizing s with
  | nil => exact h
  | cons m rest ih => exact ih (.step m h)

/-- Every move is a move of `ProcSync` on the lock and flags, or leaves them alone. -/
theorem step_sync (s : Dispatch) (m : DispatchMove) :
    (s.step tc m).sync = s.sync ∨ ∃ m', (s.step tc m).sync = procSyncStep s.sync m' := by
  cases m with
  | read i c => refine .inl ?_; dsimp only [step]; split <;> rfl
  | flag i => refine .inl ?_; dsimp only [step]; split <;> rfl
  | wake i =>
    dsimp only [step]
    split
    exacts [.inr ⟨.act (.waker i), rfl⟩, .inl rfl]
  | proc =>
    simp only [step, procMove]
    split
    · unfold dispatchStep
      split
      · exact .inr ⟨.act .proc, rfl⟩
      all_goals repeat' split
      all_goals exact .inl rfl
    all_goals exact .inr ⟨.act .proc, rfl⟩
  | kill => exact .inr ⟨.act .kill, rfl⟩
  | spurious => exact .inr ⟨.spurious, rfl⟩
  | markDead i c => exact .inl rfl

theorem Reachable.sync (h : s.Reachable tc) : s.sync.Reachable := by
  induction h with
  | start wakeup shutdown => exact .start wakeup shutdown
  | step m _ ih =>
    rcases step_sync _ m with he | ⟨m', he⟩
    · rw [he]; exact ih
    · rw [he]; exact .step m' ih

/-- What a move does to the threads: nothing, or one thread takes a pass of
`_thread_packet_read` on a connection of its list, the dead branch of `_proc`, a packet run by
`_proc`, or a socket failure. -/
theorem step_threads (s : Dispatch) (m : DispatchMove) :
    (s.step tc m).threads = s.threads ∨ ∃ i c,
      (c ∈ (s.threads i).conList ∧
        (s.step tc m).threads = Function.update s.threads i ((s.threads i).readPass tc c).2) ∨
      (((s.threads i).cons c).dead = true ∧
        (s.step tc m).threads = Function.update s.threads i ((s.threads i).procDead c)) ∨
      (∃ p ps, ((s.threads i).cons c).inbound.procPacketList = p :: ps ∧
        (s.step tc m).threads = Function.update s.threads i ((s.threads i).procPacket c p ps)) ∨
      (s.step tc m).threads = Function.update s.threads i
        ((s.threads i).setCon c { (s.threads i).cons c with dead := true }) := by
  cases m with
  | read i c =>
    dsimp only [step]
    split
    · next hg => exact .inr ⟨i, c, .inl ⟨hg.2, rfl⟩⟩
    · exact .inl rfl
  | flag i => dsimp only [step]; split <;> exact .inl rfl
  | wake i => dsimp only [step]; split <;> exact .inl rfl
  | proc =>
    simp only [step, procMove]
    split
    · unfold dispatchStep
      split
      · exact .inl rfl
      · next i _ _ _ =>
        split
        · exact .inl rfl
        · next c _ _ =>
          split
          · next hd => exact .inr ⟨i, c, .inr (.inl ⟨hd, rfl⟩)⟩
          · exact .inl rfl
      · next i _ c _ _ =>
        split
        · exact .inl rfl
        · next p ps hq => exact .inr ⟨i, c, .inr (.inr (.inl ⟨p, ps, hq, rfl⟩))⟩
    all_goals exact .inl rfl
  | kill => exact .inl rfl
  | spurious => exact .inl rfl
  | markDead i c => exact .inr ⟨i, c, .inr (.inr (.inr rfl))⟩

/-! ### `_proc` on one connection refines the thread model -/

theorem step_proc_of_dispatch (hp : s.sync.proc = .dispatch) :
    s.step tc .proc = s.dispatchStep := by
  simp [step, procMove, hp]

/-- `_proc` runs the packets of the connection it took, with no other thread moving: one move
per packet, and one that finds the queue empty. -/
theorem drain (tc : Nat) {i c : Nat} {rest : List Nat} : ∀ (ps : List Nat) (s : Dispatch),
    s.sync.proc = .dispatch → s.pass = i :: rest → s.current = some c →
    ((s.threads i).cons c).inbound.procPacketList = ps →
    (List.replicate (ps.length + 1) DispatchMove.proc).foldl (Dispatch.step tc) s =
      { s.setThread i ((s.threads i).procQueue c) with current := none }
  | [], s, hp, hs, hc, hq => by
    simp only [List.length_nil, List.replicate, List.foldl, step_proc_of_dispatch hp,
      ServerThread.procQueue_of_nil hq]
    simp [dispatchStep, hs, hc, hq, setThread]
  | p :: ps, s, hp, hs, hc, hq => by
    have h1 : s.dispatchStep = s.setThread i ((s.threads i).procPacket c p ps) := by
      simp [dispatchStep, hs, hc, hq]
    rw [List.length_cons, List.replicate_succ, List.foldl_cons, step_proc_of_dispatch hp, h1,
      drain tc ps (s.setThread i _) hp hs hc
        (by simp [ServerThread.procPacket, procRunPacket, runCommand])]
    simp [setThread, ServerThread.procQueue_procPacket hq]

end Dispatch

open Dispatch in
/-- The two levels of `_proc` agree across threads: taking connection `c` off the `proc_list` of
thread `i` and handling it, with no other thread moving, is the `.proc c` move of the thread
model on thread `i`. That takes one move for a dead connection, and for a live one a move to take
it, one per queued packet, and one that finds its queue empty. -/
theorem proc_moves_refine_procCon (tc : Nat) (s : Dispatch) {i c : Nat} {rest cs : List Nat}
    (hp : s.sync.proc = .dispatch) (hs : s.pass = i :: rest) (hc : s.current = none)
    (hl : s.procList i = c :: cs) :
    (List.replicate (if ((s.threads i).cons c).dead then 1
        else ((s.threads i).cons c).inbound.procPacketList.length + 2) DispatchMove.proc).foldl
        (Dispatch.step tc) s =
      { s with
        threads := Function.update s.threads i ((s.threads i).procCon c)
        procList := Function.update s.procList i cs } := by
  split
  · next hd =>
    simp [step_proc_of_dispatch hp, dispatchStep, hs, hc, hl, hd,
      ServerThread.procCon_of_dead hd, setThread]
  · next hd =>
    have h1 : s.dispatchStep =
        { s with procList := Function.update s.procList i cs, current := some c } := by
      simp [dispatchStep, hs, hc, hl, hd]
    rw [List.replicate_succ, List.foldl_cons, step_proc_of_dispatch hp, h1,
      drain tc _ { s with procList := Function.update s.procList i cs, current := some c } hp hs
        rfl rfl]
    simp [setThread, ServerThread.procCon_of_live (by simpa using hd), hc]

/-- One thread reads a packet and hands it over; `_proc`, woken, starts its pass and finds the
connection on `proc_list`. Its three moves on the connection run the packet. -/
theorem proc_moves_refine_procCon_woken :
    let s := [.read 0 0, .flag 0, .wake 0, .wake 0, .wake 0, .wake 0, .proc, .proc].foldl
      (Dispatch.step 2) (Dispatch.start false false [0] (fun _ => [0])
        (fun _ _ => [.complete [5]]) (fun _ _ => []) (fun _ _ => []) (fun _ => []))
    s.sync.proc = .dispatch ∧ s.pass = [0] ∧ s.current = none ∧ s.procList 0 = [0] ∧
      (((s.threads 0).procCon 0).cons 0).inbound.ran = [(0, [5])] ∧
      (List.replicate (if ((s.threads 0).cons 0).dead then 1
          else ((s.threads 0).cons 0).inbound.procPacketList.length + 2) DispatchMove.proc).foldl
          (Dispatch.step 2) s =
        { s with
          threads := Function.update s.threads 0 ((s.threads 0).procCon 0)
          procList := Function.update s.procList 0 [] } :=
  ⟨by decide, by decide, by decide, by decide, by decide,
    @proc_moves_refine_procCon 2 _ 0 0 [] [] (by decide) (by decide) (by decide) (by decide)⟩

end Gearman
