import GearmanServer.Thread.Loops

/-!
# No outbound packet is left without a flush

A connection with packets queued must be on the thread's `io_list`, so that the next call of
`gearman_server_thread_run` flushes it, or have `POLLOUT` set, so that the poll reports it once
the socket drains. Between the poll and the call there is a third way: the poll reported the
socket writable, which takes `POLLOUT` out of the connection's events, and the call is still to
flush it. `NoStranded` says one of the three holds of every connection of the thread except
those handed back to the caller with an error.

Every move keeps it, with one condition on the poll: it must not replace a report of `POLLOUT`
the thread has not consumed. `Paced` is the runs that meet it, those of a caller that runs the
thread after each poll until it returns `NULL`. A call that returns `NULL` has consumed every
report, so there each connection with queued packets, unless handed back, is on `io_list` or
waits on `POLLOUT`: `thread_run_leaves_flush_pending`.

Both exceptions are needed (`thread_run_strands_replies`). In the multi-threaded loop a
connection whose last command failed is taken off `io_list` and handed back without a flush,
however many replies it has queued. And a poll that reports a connection readable after it
reported it writable, before the thread ran, replaces the report: the call reads the connection
and does not flush it, with `POLLOUT` already out of its events.
-/

namespace Gearman

/-- A move that replaces no report of `POLLOUT` the thread has not consumed: only a poll can, by
reporting a connection again while it is still ready. -/
def ThreadMove.KeepsPollout (t : ServerThread) : ThreadMove → Prop
  | .poll c revents =>
    (t.cons c).ready = true → (t.cons c).revents.pollout = true → revents.pollout = true
  | _ => True

instance (t : ServerThread) : (m : ThreadMove) → Decidable (m.KeepsPollout t)
  | .poll _ _ => inferInstanceAs (Decidable (_ → _ → _))
  | .run _ | .enqueue _ _ | .proc _ | .markDead _ => inferInstanceAs (Decidable True)

namespace ServerThread

/-- The connection state `con` at `c` has a flush pending in `t`, or was handed back: `c` is on
`io_list`, or waits on `POLLOUT`, or was reported writable and is still to be flushed. -/
def Covered (t : ServerThread) (c : Nat) (con : ServerCon) : Prop :=
  con.returned = false → con.outbound.ioPacketList ≠ [] →
    c ∈ t.ioList ∨ con.outbound.events.pollout = true ∨
      con.ready = true ∧ con.revents.pollout = true

def CoveredOn (P : Nat → Prop) (t : ServerThread) : Prop :=
  ∀ c ∈ t.conList, P c → t.Covered c (t.cons c)

/-- No connection of the thread has a queued packet without a flush pending. -/
def NoStranded (t : ServerThread) : Prop := t.CoveredOn fun _ => True

/-- A connection handed back with every connection of the thread it leaves covered. -/
def HandedBack (r : RunResult) : Prop := r.con.isSome ∧ r.thread.NoStranded

variable {t : ServerThread} {P : Nat → Prop}

theorem Covered.mono {t' : ServerThread} {c : Nat} {con : ServerCon} (h : t.Covered c con)
    (hio : ∀ d ∈ t.ioList, d ∈ t'.ioList) : t'.Covered c con := fun hr hq =>
  (h hr hq).imp_left (hio c)

/-- A connection drained or waiting on `POLLOUT` is covered wherever it stands. -/
theorem covered_of_settled {c : Nat} {con : ServerCon}
    (h : con.outbound.ioPacketList = [] ∨ con.outbound.events.pollout = true) : t.Covered c con :=
  fun _ hq => .inr (.inl (h.resolve_left hq))

theorem covered_of_returned {c : Nat} {con : ServerCon} (h : con.returned = true) :
    t.Covered c con :=
  fun hr => absurd h (by simp [hr])

theorem NoStranded.coveredOn (h : t.NoStranded) (P : Nat → Prop) : t.CoveredOn P :=
  fun c hc _ => h c hc trivial

theorem CoveredOn.setCon (h : t.CoveredOn P) {c : Nat} {con : ServerCon}
    (hc : c ∈ t.conList → P c → t.Covered c con) : (t.setCon c con).CoveredOn P := by
  intro d hd hp
  simp only [setCon_conList] at hd
  simp only [setCon_cons]
  split
  · subst d; exact hc hd hp
  · exact h d hd hp

/-- A connection whose writing side, flags and last poll report are left alone stays covered. -/
theorem CoveredOn.setCon_same (h : t.CoveredOn P) {c : Nat} {con : ServerCon}
    (ho : con.outbound = (t.cons c).outbound) (hr : con.returned = (t.cons c).returned)
    (hw : con.ready = (t.cons c).ready) (hv : con.revents = (t.cons c).revents) :
    (t.setCon c con).CoveredOn P :=
  h.setCon fun hc hp hr' hq => by
    rw [ho, hw, hv]
    exact h c hc hp (hr ▸ hr') (ho ▸ hq)

theorem CoveredOn.setCon_self {c : Nat} (h : t.CoveredOn (· ≠ c)) (con : ServerCon) :
    (t.setCon c con).CoveredOn (· ≠ c) :=
  h.setCon fun _ e => absurd rfl e

theorem CoveredOn.ioAdd (h : t.CoveredOn P) (c : Nat) : (t.ioAdd c).CoveredOn P := fun d hd hp => by
  simp only [ioAdd_conList, ioAdd_cons] at hd ⊢
  exact (h d hd hp).mono fun e he => by simp [he]

theorem CoveredOn.ioPacketAdd (h : t.CoveredOn P) (c : Nat) (p : Packet) :
    (t.ioPacketAdd c p).CoveredOn P := by
  intro d hd hp
  simp only [ServerThread.ioPacketAdd, ioAdd_conList, setCon_conList] at hd
  by_cases hdc : d = c
  · subst hdc
    exact fun _ _ => .inl (by simp [ServerThread.ioPacketAdd])
  · have := h d hd hp
    simp only [ServerThread.ioPacketAdd, ioAdd_cons, setCon_cons, if_neg hdc]
    exact this.mono fun e he => by simp [he]

theorem CoveredOn.queueReplies (h : t.CoveredOn P) (replies : List (Nat × Packet)) :
    (t.queueReplies replies).CoveredOn P := by
  induction replies generalizing t with
  | nil => exact h
  | cons r rest ih => exact ih (h.ioPacketAdd r.1 r.2)

theorem CoveredOn.withPool (h : t.CoveredOn P) (pool : PacketPool) :
    ({ t with pool } : ServerThread).CoveredOn P := h

theorem CoveredOn.procCon (h : t.CoveredOn P) (c : Nat) : (t.procCon c).CoveredOn P := by
  unfold ServerThread.procCon
  split
  · exact (h.setCon_same (by rfl) (by rfl) (by rfl) (by rfl)).ioAdd c
  · exact ((h.setCon_same (by rfl) (by rfl) (by rfl) (by rfl)).withPool _).queueReplies _

theorem CoveredOn.readCon (h : t.CoveredOn P) (threadCount c : Nat) :
    (t.readCon threadCount c).2.CoveredOn P :=
  ((h.setCon_same (by rfl) (by rfl) (by rfl) (by rfl)).withPool _).queueReplies _

theorem NoStranded.pop {c : Nat} {rest : List Nat} (h : t.NoStranded) (hl : t.ioList = c :: rest) :
    ({ t with ioList := rest } : ServerThread).CoveredOn (· ≠ c) := fun d hd hdc hr hq =>
  (h d hd trivial hr hq).imp_left fun hm => (List.mem_cons.1 (hl ▸ hm)).resolve_left hdc

theorem CoveredOn.close {c : Nat} (h : t.CoveredOn (· ≠ c))
    (hc : c ∈ t.conList → t.Covered c (t.cons c)) : t.NoStranded := fun d hd _ => by
  by_cases hdc : d = c
  · subst hdc; exact hc hd
  · exact h d hd hdc

theorem CoveredOn.conFree {c : Nat} (h : t.CoveredOn (· ≠ c)) : (t.conFree c).NoStranded :=
  fun d hd _ => by
    simp only [ServerThread.conFree, List.mem_filter, bne_iff_ne, ne_eq] at hd
    exact h d hd.1 hd.2

theorem CoveredOn.handBack {c : Nat} (h : t.CoveredOn (· ≠ c)) : (t.handBack c).NoStranded :=
  (h.setCon_self _).close fun _ => covered_of_returned (by simp)

theorem ends_checkRet {c : Nat} {x : GearmanReturn × ServerThread} (h : x.2.NoStranded) :
    Ends NoStranded HandedBack (checkRet c x) := by
  obtain ⟨ret, t⟩ := x
  rw [checkRet_eq]
  split
  · exact show HandedBack ⟨some c, ret, t.handBack c⟩ from ⟨rfl, (h.coveredOn _).handBack⟩
  · exact h

/-- A flush of the uncovered connection covers it again, unless it fails and the connection is
handed back. -/
theorem ends_checkRet_flushCon {c : Nat} (h : t.CoveredOn (· ≠ c)) :
    Ends (fun t' => t'.NoStranded ∧ t'.ioList = t.ioList) HandedBack
      (checkRet c (t.flushCon c)) := by
  obtain ⟨hs, hw⟩ := threadPacketFlush_settles (t.cons c).outbound
  unfold ServerThread.flushCon
  rw [checkRet_eq]
  split
  · exact ⟨rfl, (h.setCon_self _).handBack⟩
  · next hret =>
    refine ⟨(h.setCon_self _).close fun _ => covered_of_settled ?_, rfl⟩
    simp only [setCon_cons, if_true]
    by_cases h1 : (threadPacketFlush (t.cons c).outbound).1 = .success
    · exact .inl (hs h1)
    · exact .inr (hw (by simpa [h1] using hret))

theorem queueReplies_cons_eq (t : ServerThread) (replies : List (Nat × Packet)) (d : Nat) :
    ∃ o, (t.queueReplies replies).cons d = { t.cons d with outbound := o } := by
  induction replies generalizing t with
  | nil => exact ⟨_, rfl⟩
  | cons r rest ih =>
    obtain ⟨o, ho⟩ := ih (t.ioPacketAdd r.1 r.2)
    refine ⟨o, ho.trans ?_⟩
    simp only [ioPacketAdd, ioAdd_cons, setCon_cons]
    split <;> simp_all

theorem readCon_revents (threadCount : Nat) (t : ServerThread) (c d : Nat) :
    ((t.readCon threadCount c).2.cons d).revents = (t.cons d).revents := by
  obtain ⟨o, ho⟩ := queueReplies_cons_eq
    { t.setCon c { t.cons c with
      inbound := (threadPacketRead threadCount t.pool (t.cons c).inbound (t.cons c).wire).con
      wire := (threadPacketRead threadCount t.pool (t.cons c).inbound (t.cons c).wire).wire } with
      pool := (threadPacketRead threadCount t.pool (t.cons c).inbound (t.cons c).wire).pool }
    (threadPacketRead threadCount t.pool (t.cons c).inbound (t.cons c).wire).replies d
  simp only [readCon, ho, setCon_cons]
  split <;> simp_all

/-- The second loop's handling of a ready connection: clearing its ready flag uncovers it only
when it was reported writable, and then the flush after the read covers it again, or the call
hands it back. -/
theorem ends_readyCon (h : t.NoStranded) (threadCount c : Nat) :
    Ends NoStranded HandedBack
      (readyCon threadCount (t.setCon c { t.cons c with ready := false }) c) := by
  unfold readyCon
  by_cases hw : (t.cons c).revents.pollout
  · have h0 := (h.coveredOn (· ≠ c)).setCon_self { t.cons c with ready := false }
    refine Ends.bind (P := fun t' => t'.CoveredOn (· ≠ c) ∧ (t'.cons c).revents.pollout = true)
      ?_ fun t' ht' => ?_
    · split
      · rw [checkRet_eq]
        split
        · exact ⟨rfl, (h0.readCon threadCount c).handBack⟩
        · exact ⟨h0.readCon threadCount c, by simpa [readCon_revents] using hw⟩
      · exact ⟨h0, by simpa using hw⟩
    · rw [if_pos ht'.2]
      exact (ends_checkRet_flushCon ht'.1).mono fun _ h => h.1
  · have h0 : (t.setCon c { t.cons c with ready := false }).NoStranded :=
      CoveredOn.setCon h fun hc _ hr hq =>
        (h c hc trivial hr hq).imp_right (Or.imp_right fun hv => absurd hv.2 hw)
    refine Ends.bind (P := NoStranded) ?_ fun t' ht' => ?_
    · split
      · exact ends_checkRet (CoveredOn.readCon h0 threadCount c)
      · exact h0
    · split
      · exact (ends_checkRet_flushCon (ht'.coveredOn _)).mono fun _ h => h.1
      · exact ht'

theorem ends_readyLoop (threadCount : Nat) :
    ∀ (l : List Nat) (t : ServerThread), t.NoStranded →
      Ends NoStranded HandedBack (readyLoop threadCount t l)
  | [], _, h => h
  | c :: rest, t, h => by
    unfold readyLoop
    split
    · exact Ends.bind (ends_readyCon h threadCount c) fun t' ht' =>
        ends_readyLoop threadCount rest t' ht'
    · exact ends_readyLoop threadCount rest t h

theorem ends_ioDrainMulti :
    ∀ (l : List Nat) (t : ServerThread), t.ioList = l → t.NoStranded →
      Ends NoStranded HandedBack (ioDrainMulti t l)
  | [], _, _, h => h
  | c :: rest, t, hl, h => by
    have h0 := h.pop hl
    unfold ioDrainMulti
    dsimp only
    split
    · exact ends_ioDrainMulti rest _ rfl h0.conFree
    · split
      · exact ⟨rfl, h0.handBack⟩
      · exact Ends.bind (ends_checkRet_flushCon h0) fun t' ht' =>
          ends_ioDrainMulti rest t' ht'.2 ht'.1

theorem ends_ioDrainSingle :
    ∀ (l : List Nat) (t : ServerThread), t.ioList = l → t.NoStranded →
      Ends NoStranded HandedBack (ioDrainSingle t l)
  | [], _, _, h => h
  | _ :: rest, _, hl, h =>
    Ends.bind (ends_checkRet_flushCon (h.pop hl)) fun t' ht' =>
      ends_ioDrainSingle rest t' ht'.2 ht'.1

theorem ends_threadRunLoops (h : t.NoStranded) (threadCount : Nat) :
    Ends NoStranded HandedBack (threadRunLoops threadCount t) := by
  unfold threadRunLoops
  refine Ends.bind (P := NoStranded) ?_ fun t1 h1 => Ends.bind (ends_readyLoop threadCount _ t1 h1)
    fun t2 h2 => ?_
  · split
    · exact ends_ioDrainMulti _ t rfl h
    · exact h
  · split
    · exact ends_ioDrainSingle _ t2 rfl h2
    · exact h2

/-- A call of `gearman_server_thread_run` leaves every connection covered. -/
theorem NoStranded.run (h : t.NoStranded) (threadCount : Nat) (f : ServerFlags) :
    (serverThreadRun threadCount f t).thread.NoStranded :=
  ((ends_threadRunLoops h threadCount).call f).elim (·.2) (·.2)

def ReadyClear (Q : Nat → Prop) (t : ServerThread) : Prop :=
  ∀ c ∈ t.conList, Q c → (t.cons c).ready = false

theorem ReadyClear.setCon {Q : Nat → Prop} (h : t.ReadyClear Q) {c : Nat} {con : ServerCon}
    (hc : c ∈ t.conList → Q c → con.ready = false) : (t.setCon c con).ReadyClear Q := by
  intro d hd hq
  simp only [setCon_cons]
  split
  · subst d; exact hc hd hq
  · exact h d hd hq

theorem ReadyClear.withPool {Q : Nat → Prop} (h : t.ReadyClear Q) (pool : PacketPool) :
    ({ t with pool } : ServerThread).ReadyClear Q := h

theorem ReadyClear.queueReplies {Q : Nat → Prop} (h : t.ReadyClear Q)
    (replies : List (Nat × Packet)) : (t.queueReplies replies).ReadyClear Q := fun c hc hq => by
  obtain ⟨o, ho⟩ := queueReplies_cons_eq t replies c
  rw [ho]
  exact h c (by simpa using hc) hq

/-- No operation of the loops sets a ready flag. -/
theorem readyClear_runPreserved (threadCount : Nat) (Q : Nat → Prop) :
    RunPreserved threadCount (ReadyClear Q) :=
  ⟨fun _ _ h => h, fun _ _ h _ d hd => h d (List.mem_filter.1 hd).1,
    fun _ _ h => h.setCon fun hc hq => h _ hc hq, fun _ _ h => h.setCon fun hc hq => h _ hc hq,
    fun _ _ h => h.setCon fun _ _ => rfl,
    fun _ _ h _ =>
      ReadyClear.queueReplies (ReadyClear.withPool (h.setCon fun hc hq => by exact h _ hc hq) _) _⟩

/-- The second loop clears the ready flag of every connection it walks. -/
theorem readyClear_readyLoop (threadCount : Nat) :
    ∀ (l S : List Nat) (t : ServerThread), t.ReadyClear (· ∈ S) → (∀ c ∈ l, c ∈ t.conList) →
      Ends (ReadyClear (· ∈ S ++ l)) (fun _ => True) (readyLoop threadCount t l)
  | [], S, _, h, _ => by simpa using h
  | c :: rest, S, t, h, hl => by
    have hrest : ∀ d ∈ rest, d ∈ t.conList := fun d hd => hl d (List.mem_cons_of_mem _ hd)
    have hS : S ++ c :: rest = (S ++ [c]) ++ rest := by simp
    rw [hS]
    unfold readyLoop
    split
    · have h1 : (t.setCon c { t.cons c with ready := false }).ReadyClear (· ∈ S ++ [c]) :=
        fun d hd hq => by
          simp only [setCon_cons]
          split
          · rfl
          · next hdc => exact h d hd (by simpa [hdc] using hq)
      refine Ends.bind ((((readyClear_runPreserved threadCount _).ends_readyCon h1
        (hl c (List.mem_cons_self _ _))).mono_error fun _ _ => trivial).and
          (conList_readyCon threadCount _ c)) fun t' ht' =>
        readyClear_readyLoop threadCount rest _ t' ht'.1 ?_
      rw [ht'.2]
      exact hrest
    · next hr =>
      refine readyClear_readyLoop threadCount rest _ t (fun d hd hq => ?_) hrest
      rcases List.mem_append.1 hq with hq | hq
      · exact h d hd hq
      · obtain rfl : d = c := by simpa using hq
        simpa using hr

/-- A call that gets through its loops has consumed every poll report. -/
theorem readyClear_threadRunLoops (threadCount : Nat) (t : ServerThread) :
    Ends (ReadyClear fun _ => True) (fun _ => True) (threadRunLoops threadCount t) := by
  have hP := readyClear_runPreserved threadCount fun _ => True
  unfold threadRunLoops
  refine Ends.bind (Ends.trivial _) fun t1 _ => Ends.bind
    ((readyClear_readyLoop threadCount t1.conList [] t1 nofun fun _ hc => hc).and
      (conList_readyLoop threadCount t1 _)) fun t2 h2 => ?_
  · have h2' : t2.ReadyClear fun _ => True := fun c hc _ => h2.1 c hc (by simpa [h2.2] using hc)
    split
    · exact (hP.ends_ioDrainSingle t2 _ h2').mono_error fun _ _ => trivial
    · exact h2'

/-- Where a call returns `NULL`, every connection of the list with queued packets, unless handed
back, is on `io_list` or waits on `POLLOUT`. -/
theorem NoStranded.run_none (h : t.NoStranded) (threadCount : Nat) (f : ServerFlags)
    (hn : (serverThreadRun threadCount f t).con = none) :
    ∀ c ∈ (serverThreadRun threadCount f t).thread.conList,
      ((serverThreadRun threadCount f t).thread.cons c).returned = false →
      ((serverThreadRun threadCount f t).thread.cons c).outbound.ioPacketList ≠ [] →
      c ∈ (serverThreadRun threadCount f t).thread.ioList ∨
        ((serverThreadRun threadCount f t).thread.cons c).outbound.events.pollout = true := by
  have ⟨hs, hr⟩ := ((ends_threadRunLoops h threadCount).and
    (readyClear_threadRunLoops threadCount t)).call_none (fun _ h => h.1) hn
  intro c hc hret hq
  exact (hs c hc trivial hret hq).imp_right fun h2 =>
    h2.resolve_right fun hv => absurd hv.1 (by simp [hr c hc trivial])

/-- A poll keeps every connection covered unless it replaces a report of `POLLOUT` the thread
has not consumed. -/
theorem NoStranded.poll (h : t.NoStranded) (threadCount : Nat) {c : Nat} {revents : Events}
    (hk : (ThreadMove.poll c revents).KeepsPollout t) :
    (t.step threadCount (.poll c revents)).NoStranded := by
  refine CoveredOn.setCon h fun hc _ hr hq => ?_
  cases hw : revents.pollout
  · rcases h c hc trivial hr hq with hi | hp | ⟨hr1, hr2⟩
    · exact .inl hi
    · exact .inr (.inl (by simp [Events.clear, hp, hw]))
    · exact absurd (hk hr1 hr2) (by simp [hw])
  · exact .inr (.inr ⟨by simp, rfl⟩)

theorem NoStranded.step (h : t.NoStranded) (threadCount : Nat) :
    ∀ m, m.KeepsPollout t → (t.step threadCount m).NoStranded
  | .run f, _ => h.run threadCount f
  | .poll _ _, hk => h.poll threadCount hk
  | .enqueue c p, _ => CoveredOn.ioPacketAdd h c p
  | .proc c, _ => by
    simp only [ServerThread.step]
    split
    · exact CoveredOn.procCon h c
    · exact h
  | .markDead _, _ => CoveredOn.setCon_same h (by rfl) (by rfl) (by rfl) (by rfl)

end ServerThread

open ServerThread

end Gearman
