import GearmanServer.Proc.Dispatch

/-!
# No packet handed to `_proc` is left behind

`_proc` sleeps on `proc_cond` only once it found `proc_wakeup` clear, and a pass over
`thread_list` can miss a connection flagged behind it. What keeps a queued packet from being
stranded is the order of `gearman_server_proc_packet_add`: the packet and its connection are
queued before the thread takes `proc_lock`, sets `proc_wakeup` and signals.

`Inv` says why every packet queued on a live connection of a thread of `thread_list` will be
run: its thread has still to put the connection on `proc_list`; or the connection is on it, or
is the one `_proc` runs, and its thread has still to signal, or `proc_wakeup` is set, or the
current pass has still to finish the thread. Every move keeps it, the lock protocol's invariant
included. `queued_packets_wake_proc` reads it where `_proc` sleeps: each such packet is owed a
wake-up by a thread that has still to signal.
-/

namespace Gearman

namespace ProcSync

/-- `_proc_thread_kill` touches neither the wakers nor `proc_wakeup`, and its signal leaves a
running `_proc` running. -/
theorem killStep_frame (s : ProcSync) : s.killStep.wakers = s.wakers ∧
    s.killStep.procWakeup = s.procWakeup ∧ (s.proc = .dispatch → s.killStep.proc = .dispatch) := by
  unfold killStep
  split <;> (try split) <;> simp_all

theorem spuriousStep_frame (s : ProcSync) : s.spuriousStep.wakers = s.wakers ∧
    s.spuriousStep.procWakeup = s.procWakeup ∧
      (s.proc = .dispatch → s.spuriousStep.proc = .dispatch) := by
  unfold spuriousStep
  split <;> simp_all

/-- Outside its pass and unless it takes `proc_wakeup`, `_proc` touches neither the wakers nor
the flag. -/
theorem procStep_frame {s : ProcSync} (hd : s.proc ≠ .dispatch)
    (hw : s.proc = .testWakeup → s.procWakeup = false) :
    s.procStep.wakers = s.wakers ∧ s.procStep.procWakeup = s.procWakeup := by
  unfold procStep
  split <;> (try split) <;> simp_all

theorem procStep_of_dispatch {s : ProcSync} (h : s.proc = .dispatch) :
    s.procStep = { s with proc := .lock } := by
  simp [procStep, h]

theorem wakerStep_frame (s : ProcSync) (i : Nat) :
    (∀ j, j ≠ i → (s.wakerStep i).wakers j = s.wakers j) ∧
      (s.procWakeup = true → (s.wakerStep i).procWakeup = true) ∧
      (s.proc = .dispatch → (s.wakerStep i).proc = .dispatch) := by
  unfold wakerStep
  split <;> (try split) <;> simp_all

/-- What a step of waker `i` does to the waker itself, once it has set `proc_wakeup` whenever
it is past that write: the flag stays set while it is there, it goes back to idle from its
unlock, and before its unlock it stays short of it or the flag is set. -/
theorem wakerStep_self (s : ProcSync) (i : Nat)
    (h : s.wakers i = .signal ∨ s.wakers i = .unlock → s.procWakeup = true) :
    ((s.wakerStep i).wakers i = .signal ∨ (s.wakerStep i).wakers i = .unlock →
        (s.wakerStep i).procWakeup = true) ∧
      (s.wakers i = .unlock → (s.wakerStep i).wakers i = .idle) ∧
      (s.wakers i ≠ .unlock → (s.wakerStep i).wakers i ≠ .unlock ∨
        (s.wakerStep i).procWakeup = true) := by
  unfold wakerStep
  cases hw : s.wakers i <;> simp only [hw] at h ⊢ <;> (try split) <;> simp_all

end ProcSync

namespace Dispatch

variable {tc : Nat} {s : Dispatch}

/-- Connection `c` of thread `i` is live and has packets queued for `_proc`. -/
def Queued (s : Dispatch) (i c : Nat) : Prop :=
  ((s.threads i).cons c).dead = false ∧ ((s.threads i).cons c).inbound.procPacketList ≠ []

/-- `_proc` will come to connection `c` of thread `i` when it comes to the thread: the
connection is on `proc_list`, or it is the connection `_proc` is running. -/
def Flagged (s : Dispatch) (i c : Nat) : Prop :=
  c ∈ s.procList i ∨ s.current = some c ∧ s.pass.head? = some i

/-- I/O thread `i` is handing a packet over and has still to signal `proc_cond`. -/
def SignalDue (s : Dispatch) (i : Nat) : Prop :=
  s.adding i = .wake ∧ s.sync.wakers i ≠ .unlock

/-- `_proc` is due to come to thread `i`: the thread has still to signal, or `proc_wakeup` is
set, or the current pass of `_proc` has still to finish the thread. -/
def Due (s : Dispatch) (i : Nat) : Prop :=
  s.SignalDue i ∨ s.sync.procWakeup = true ∨ s.sync.proc = .dispatch ∧ i ∈ s.pass

/-- Why the queued packets of connection `c` of thread `i` will be run: the thread has still
to put the connection on `proc_list`, or `_proc` will find it there and is due to come. -/
def Covered (s : Dispatch) (i c : Nat) : Prop :=
  s.adding i = .flag c ∨ s.Flagged i c ∧ s.Due i

structure Inv (s : Dispatch) : Prop where
  sync : s.sync.Inv
  /-- A waker past its write of `proc_wakeup` still holds `proc_lock`, so the flag is set. -/
  wakeup_set : ∀ i, s.sync.wakers i = .signal ∨ s.sync.wakers i = .unlock →
    s.sync.procWakeup = true
  waker_idle : ∀ i, s.adding i ≠ .wake → s.sync.wakers i = .idle
  current_pass : ∀ c, s.current = some c → s.pass ≠ [] ∧ s.sync.proc = .dispatch
  covered : ∀ i ∈ s.threadList, ∀ c, s.Queued i c → s.Covered i c

theorem Covered.of_control {s s' : Dispatch} {i c : Nat} (h : s.Covered i c)
    (hf : s'.procList i = s.procList i) (hc : s'.current = s.current) (hp : s'.pass = s.pass)
    (ha : s.adding i = .flag c → s'.adding i = .flag c) (hd : s.Due i → s'.Due i) :
    s'.Covered i c := by
  unfold Covered Flagged at *
  rw [hf, hc, hp]
  exact h.imp ha (And.imp_right hd)

/-- The cover of a thread's connections reads only its own program point and `proc_list`, the
pass of `_proc` and the lock and flags. -/
theorem Covered.of_eq {s s' : Dispatch} {i c : Nat} (h : s.Covered i c)
    (ha : s'.adding i = s.adding i) (hf : s'.procList i = s.procList i)
    (hc : s'.current = s.current) (hp : s'.pass = s.pass) (hs : s'.sync = s.sync) :
    s'.Covered i c := by
  unfold Covered Flagged Due SignalDue at *
  rwa [ha, hf, hc, hp, hs]

/-- Without a hand-off under way, `_proc` is due to come to a thread only by the flag or by
its pass. -/
theorem Due.of_idle {s s' : Dispatch} {i : Nat} (h : s.Due i) (hi : s.adding i ≠ .wake)
    (hu : s.sync.procWakeup = true → s'.sync.procWakeup = true)
    (hd : s.sync.proc = .dispatch ∧ i ∈ s.pass → s'.sync.proc = .dispatch ∧ i ∈ s'.pass) :
    s'.Due i :=
  .inr (((h.resolve_left fun hs => hi hs.1)).imp hu hd)

theorem Inv.setThreads (h : s.Inv) (ts : Nat → ServerThread)
    (hq : ∀ i c, Queued { s with threads := ts } i c → s.Queued i c) :
    Inv { s with threads := ts } :=
  ⟨h.sync, h.wakeup_set, h.waker_idle, h.current_pass,
    fun i hi c hc => h.covered i hi c (hq i c hc)⟩

theorem Inv.setThread (h : s.Inv) {i : Nat} {t : ServerThread}
    (ht : ∀ e, (t.cons e).dead = false → (t.cons e).inbound.procPacketList ≠ [] →
      s.Queued i e) : (s.setThread i t).Inv :=
  h.setThreads _ fun j d hq => by
    by_cases hji : j = i
    · subst hji; exact ht d (by simpa using hq.1) (by simpa using hq.2)
    · simpa [Queued, hji] using hq

/-- A move on the lock and flags alone that keeps the wakers and `proc_wakeup`, and does not
end a pass, keeps the invariant. -/
theorem Inv.setSync (h : s.Inv) {sync : ProcSync} (hi : sync.Inv)
    (hw : sync.wakers = s.sync.wakers) (hu : sync.procWakeup = s.sync.procWakeup)
    (hd : s.sync.proc = .dispatch → sync.proc = .dispatch) : Inv { s with sync } := by
  refine ⟨hi, fun i => ?_, fun i => ?_, fun c hc => (h.current_pass c hc).imp_right hd,
    fun i hi c hc => (h.covered i hi c hc).of_control rfl rfl rfl id fun hd' => ?_⟩
  · rw [hw, hu]; exact h.wakeup_set i
  · rw [hw]; exact h.waker_idle i
  · exact hd'.imp (fun ⟨ha, hw'⟩ => ⟨ha, by simpa [hw] using hw'⟩)
      (Or.imp (fun hu' => hu ▸ hu') (And.imp_left hd))

theorem Inv.current_none (h : s.Inv) (hp : s.sync.proc ≠ .dispatch) : s.current = none :=
  Option.eq_none_iff_forall_not_mem.2 fun c hc => hp (h.current_pass c hc).2

theorem Inv.read (h : s.Inv) (i c : Nat) : (s.step tc (.read i c)).Inv := by
  dsimp only [step]
  split
  · next hg =>
    obtain ⟨hidle, -⟩ := hg
    have hw : s.adding i ≠ .wake := by simp [hidle]
    refine ⟨h.sync, h.wakeup_set, fun j hj => ?_, h.current_pass, fun j hj d hq => ?_⟩
    · by_cases hji : j = i
      · subst hji; exact h.waker_idle j hw
      · split at hj <;> simp_all [h.waker_idle j]
    · obtain ⟨hd, hl⟩ := hq
      by_cases hji : j = i
      · subst hji
        by_cases hdc : d = c
        · subst hdc
          split
          · exact .inl (by simp)
          · next hn =>
            simp only [setThread_threads, ↓reduceIte, ServerThread.readPass_dead,
              ServerThread.readPass_procPacketList (by simpa using hn)] at hd hl
            exact (h.covered j hj d ⟨hd, hl⟩).of_control rfl rfl rfl id id
        · simp only [setThread_threads, ↓reduceIte, ServerThread.readPass_dead,
            ServerThread.readPass_inbound_of_ne _ _ hdc] at hd hl
          rcases h.covered j hj d ⟨hd, hl⟩ with ha | ⟨hf, hdu⟩
          · simp [hidle] at ha
          · exact .inr ⟨hf, hdu.of_idle hw id id⟩
      · simp only [setThread_threads, if_neg hji] at hd hl
        exact (h.covered j hj d ⟨hd, hl⟩).of_eq (by split <;> simp [hji]) rfl rfl rfl rfl
  · exact h

theorem Inv.flag (h : s.Inv) (i : Nat) : (s.step tc (.flag i)).Inv := by
  dsimp only [step]
  split
  · next c hc =>
    have hw : s.sync.wakers i = .idle := h.waker_idle i (by simp [hc])
    refine ⟨h.sync, h.wakeup_set, fun j hj => ?_, h.current_pass, fun j hj d hq => ?_⟩
    · have hji : j ≠ i := by rintro rfl; simp at hj
      exact h.waker_idle j (by simpa [hji] using hj)
    · by_cases hji : j = i
      · subst hji
        have hsub : d ∈ s.procList j → d ∈ (if c ∈ s.procList j then s.procList j
            else c :: s.procList j) := fun hm => by split <;> simp [hm]
        by_cases hdc : d = c
        · subst hdc
          refine .inr ⟨.inl ?_, .inl ⟨by simp, by simp [hw]⟩⟩
          simp only [Function.update_apply, ↓reduceIte]
          split <;> simp_all
        · rcases h.covered j hj d hq with ha | ⟨hf, hdu⟩
          · simp [hc, Ne.symm hdc] at ha
          · refine .inr ⟨?_, hdu.of_idle (by simp [hc]) id id⟩
            simpa [Flagged, Function.update_apply] using hf.imp_left hsub
      · exact (h.covered j hj d hq).of_eq (by simp [hji]) (by simp [hji]) rfl rfl rfl
  · exact h

theorem Inv.wake (h : s.Inv) (i : Nat) : (s.step tc (.wake i)).Inv := by
  dsimp only [step]
  split
  · next ha =>
    obtain ⟨hne, hu, hd⟩ := s.sync.wakerStep_frame i
    have hself := s.sync.wakerStep_self i (h.wakeup_set i)
    refine ⟨h.sync.wakerStep i, fun j hj => ?_, fun j hj => ?_,
      fun c hc => (h.current_pass c hc).imp_right hd,
      fun j hj d hq => (h.covered j hj d hq).of_control rfl rfl rfl (fun hf => ?_) fun hdu => ?_⟩
    · by_cases hji : j = i
      · subst hji; exact hself.1 hj
      · exact hu (h.wakeup_set j (by simpa [hne j hji] using hj))
    · by_cases hji : j = i
      · subst hji
        split at hj
        · next hw => exact hself.2.1 hw
        · exact absurd ha hj
      · have hj' : s.adding j ≠ .wake := by split at hj <;> simp_all
        rw [hne j hji]; exact h.waker_idle j hj'
    · have hji : j ≠ i := fun e => by simp [e, ha] at hf
      split <;> simp [hji, hf]
    · by_cases hji : j = i
      · subst hji
        rcases hdu with ⟨-, hw⟩ | hw | hw
        · rcases hself.2.2 hw with hw' | hw'
          · exact .inl ⟨by split <;> simp_all, hw'⟩
          · exact .inr (.inl hw')
        · exact .inr (.inl (hu hw))
        · exact .inr (.inr ⟨hd hw.1, hw.2⟩)
      · refine hdu.imp (fun ⟨ha', hw⟩ => ⟨?_, by rwa [hne j hji]⟩) (Or.imp hu (And.imp_left hd))
        split <;> simp [hji, ha']
  · exact h

theorem Inv.dispatchStep (h : s.Inv) (hp : s.sync.proc = .dispatch) : s.dispatchStep.Inv := by
  unfold Dispatch.dispatchStep
  split
  · -- the pass is over: back to the top of the `while (1)` loop
    next hpass =>
    have hs := ProcSync.procStep_of_dispatch hp
    refine ⟨h.sync.procStep, fun i => by rw [hs]; exact h.wakeup_set i,
      fun i => by rw [hs]; exact h.waker_idle i,
      fun c hc => absurd hpass (h.current_pass c hc).1, fun i hi c hq =>
        (h.covered i hi c hq).of_control rfl rfl rfl id fun hdu => ?_⟩
    rcases hdu with hw | hw | ⟨-, hm⟩
    · exact .inl ⟨hw.1, by rw [hs]; exact hw.2⟩
    · exact .inr (.inl (by rw [hs]; exact hw))
    · simp [hpass] at hm
  · next i rest hpass hcur =>
    have hflag : ∀ j d, s.Flagged j d → d ∈ s.procList j := fun j d hf =>
      hf.resolve_right fun ⟨hc, _⟩ => by simp [hcur] at hc
    split
    · -- `proc_list` of thread `i` is empty: on to the next thread
      next hl =>
      refine ⟨h.sync, h.wakeup_set, h.waker_idle, fun c hc => by simp [hcur] at hc,
        fun j hj d hq => ?_⟩
      rcases h.covered j hj d hq with ha | ⟨hf, hdu⟩
      · exact .inl ha
      · have hm := hflag j d hf
        have hji : j ≠ i := by rintro rfl; simp [hl] at hm
        refine .inr ⟨.inl hm, hdu.imp_right (Or.imp_right fun ⟨hp', hm'⟩ => ⟨hp', ?_⟩)⟩
        simpa [hpass, hji] using hm'
    · next c cs hl =>
      split
      · -- a dead connection: flagged for teardown
        next hdead =>
        refine ⟨h.sync, h.wakeup_set, h.waker_idle, fun c hc => by simp [hcur] at hc,
          fun j hj d hq => ?_⟩
        have hq' : s.Queued j d := by by_cases hji : j = i <;> simp_all [Queued]
        have hdc : j = i → d ≠ c := by rintro rfl rfl; simp [Queued, hdead] at hq'
        refine (h.covered j hj d hq').imp id (And.imp (fun hf => .inl ?_) id)
        have hm := hflag j d hf
        by_cases hji : j = i
        · subst hji; simpa [hl, hdc rfl] using hm
        · simpa [hji] using hm
      · -- a live connection: `_proc` runs its packets
        next hdead =>
        refine ⟨h.sync, h.wakeup_set, h.waker_idle, fun d hd => ⟨by simp [hpass], hp⟩,
          fun j hj d hq => ?_⟩
        refine (h.covered j hj d hq).imp id (And.imp (fun hf => ?_) id)
        have hm := hflag j d hf
        by_cases hji : j = i
        · subst hji
          rw [hl] at hm
          rcases List.mem_cons.1 hm with rfl | hm
          · exact .inr ⟨rfl, by simp [hpass]⟩
          · exact .inl (by simpa using hm)
        · exact .inl (by simpa [hji] using hm)
  · next i rest c hpass hcur =>
    split
    · -- the connection's queue is empty: back to `gearman_server_con_proc_next`
      next hl =>
      refine ⟨h.sync, h.wakeup_set, h.waker_idle, fun d hd => by simp at hd, fun j hj d hq => ?_⟩
      refine (h.covered j hj d hq).imp id (And.imp (fun hf => hf.imp_right ?_) id)
      rintro ⟨hc, hh⟩
      obtain rfl : d = c := by simpa [hcur] using hc.symm
      obtain rfl : j = i := by simpa [hpass] using hh.symm
      exact absurd hl hq.2
    · -- `_proc` runs the head of the queue
      next p ps hl =>
      refine h.setThread fun e hd hq => ⟨by simpa using hd, ?_⟩
      by_cases hec : e = c
      · subst hec; simp [hl]
      · simpa [ServerThread.procPacket_inbound_of_ne _ _ _ hec] using hq

theorem Inv.procMove (h : s.Inv) : s.procMove.Inv := by
  unfold Dispatch.procMove
  split
  · next hp => exact h.dispatchStep hp
  · next hp =>
    have hc := h.current_none (by simp [hp])
    by_cases hu : s.sync.procWakeup = true
    · -- `_proc` takes the flag and starts a pass over `thread_list`
      rw [if_pos hu]
      have hs : s.sync.procStep =
          { s.sync with procWakeup := false, holder := none, proc := .dispatch } := by
        simp [ProcSync.procStep, hp, hu]
      have hho : s.sync.holder = some .proc := h.sync.proc_holder.2 (.inl hp)
      refine ⟨h.sync.procStep, fun i hi => ?_, fun i => by rw [hs]; exact h.waker_idle i,
        fun c hc' => by simp [hc] at hc', fun i hi c hq => ?_⟩
      · have hw : s.sync.wakers i = .signal ∨ s.sync.wakers i = .unlock := by simpa [hs] using hi
        have hl := (h.sync.waker_holder i).2 (by rcases hw with hw | hw <;>
          simp [hw, WakerPc.HoldsLock])
        simp [hho] at hl
      · refine (h.covered i hi c hq).imp id (And.imp (fun hf => ?_) fun _ => ?_)
        · exact hf.imp_right fun ⟨hc', _⟩ => by simp [hc] at hc'
        · exact .inr (.inr ⟨by simp [hs], hi⟩)
    · rw [if_neg hu]
      have hf := ProcSync.procStep_frame (s := s.sync) (by simp [hp]) fun _ => by simpa using hu
      exact h.setSync h.sync.procStep hf.1 hf.2 fun hd => by simp [hp] at hd
  · next hp hn =>
    have hf := ProcSync.procStep_frame (s := s.sync) hp (fun e => absurd e hn)
    exact h.setSync h.sync.procStep hf.1 hf.2 fun hd => absurd hd hp

theorem Inv.step (h : s.Inv) : ∀ m, (s.step tc m).Inv
  | .read i c => h.read i c
  | .flag i => h.flag i
  | .wake i => h.wake i
  | .proc => h.procMove
  | .kill =>
    let ⟨hw, hu, hd⟩ := s.sync.killStep_frame
    h.setSync h.sync.killStep hw hu hd
  | .spurious =>
    let ⟨hw, hu, hd⟩ := s.sync.spuriousStep_frame
    h.setSync h.sync.spuriousStep hw hu hd
  | .markDead i c => h.setThread fun e hd hq => by
    by_cases hec : e = c
    · subst hec; simp at hd
    · simpa [Queued, hec] using And.intro hd hq

theorem Inv.start (wakeup shutdown : Bool) (threadList : List Nat) (conList : Nat → List Nat)
    (wire : Nat → Nat → List RecvOutcome) (commands : Nat → Nat → List CommandOutcome)
    (sends : Nat → Nat → List SendOutcome) (mallocFails : Nat → List Bool) :
    (start wakeup shutdown threadList conList wire commands sends mallocFails).Inv :=
  ⟨ProcSync.Inv.start wakeup shutdown, fun _ hw => by simp [Dispatch.start, ProcSync.start] at hw,
    fun _ _ => rfl, fun _ hc => by simp [Dispatch.start] at hc, fun _ _ _ hq => by
      simp [Queued, Dispatch.start, ServerThread.start, ServerCon.fresh, Inbound.fresh] at hq⟩

theorem Reachable.inv (h : s.Reachable tc) : s.Inv := by
  induction h with
  | start => exact Inv.start ..
  | step m _ ih => exact ih.step m

end Dispatch

open Dispatch in
/-- No packet handed to `_proc` is stranded. In every reachable state of the server where `_proc`
sleeps in `pthread_cond_wait`, every packet queued on a live connection of a thread of
`thread_list` is owed a wake-up: the connection's I/O thread has still to put it on `proc_list`,
or has still to signal `proc_cond`, or `proc_wakeup` is set and the waker that set it holds
`proc_lock` and has still to signal. -/
theorem queued_packets_wake_proc {tc : Nat} {s : Dispatch} (h : s.Reachable tc) {i c : Nat}
    (hi : i ∈ s.threadList) (hd : ((s.threads i).cons c).dead = false)
    (hq : ((s.threads i).cons c).inbound.procPacketList ≠ []) (hw : s.sync.proc = .waiting) :
    s.adding i = .flag c ∨ (s.adding i = .wake ∧ s.sync.wakers i ≠ .unlock) ∨
      ∃ j, s.sync.holder = some (.waker j) ∧ s.sync.wakers j = .signal := by
  have hv := h.inv
  rcases hv.covered i hi c ⟨hd, hq⟩ with ha | ⟨-, hs | hu | ⟨hp, -⟩⟩
  · exact .inl ha
  · exact .inr (.inl hs)
  · exact .inr (.inr (hv.sync.wakeup_pending hw hu))
  · simp [hw] at hp

/-- `_proc` falls asleep with both flags clear; then an I/O thread reads a packet and queues it.
The thread has still to put the connection on `proc_list` and to signal. -/
theorem queued_packets_wake_proc_read_while_asleep :
    let s := [.proc, .proc, .proc, .proc, .read 0 0].foldl (Dispatch.step 2)
      (Dispatch.start false false [0] (fun _ => [0]) (fun _ _ => [.complete [5]]) (fun _ _ => [])
        (fun _ _ => []) (fun _ => []))
    s.sync.proc = .waiting ∧ ((s.threads 0).cons 0).inbound.procPacketList = [0] ∧
      (s.adding 0 = .flag 0 ∨ (s.adding 0 = .wake ∧ s.sync.wakers 0 ≠ .unlock) ∨
        ∃ j, s.sync.holder = some (.waker j) ∧ s.sync.wakers j = .signal) :=
  ⟨by decide, by decide, queued_packets_wake_proc ((Dispatch.Reachable.start ..).run _)
    (by decide) (by decide) (by decide) (by decide)⟩

end Gearman
