import GearmanServer.Thread.Loops

/-!
# A connection flagged for teardown is torn down

On a multi-threaded server the processing thread flags a dead connection
`GEARMAN_SERVER_CON_FREE` and puts it on `io_list`, and the first loop of
`gearman_server_thread_run` tears it down. A call may hand back another connection before it
gets there: the connection then stays on `io_list` for the next call.

`Gone` says a connection is torn down, or flagged and on `io_list`. Every move keeps it, calls
of `gearman_server_thread_run` included, whichever connection they return. A call that returns
`NULL` has walked all of `io_list`, so `dead_con_torn_down` follows: once `_proc` has flagged
the connection, whatever polls, packets, passes of `_proc`, socket failures and calls come
next, every later call that returns `NULL` finds it gone from the thread's list.
-/

namespace Gearman

namespace ServerThread

theorem isSome_checkRet (c : Nat) (x : GearmanReturn × ServerThread) :
    Ends (fun _ => True) (fun r => r.con.isSome) (checkRet c x) := by
  obtain ⟨ret, t⟩ := x
  rw [checkRet_eq]
  split <;> first | rfl | trivial

theorem isSome_ioDrainMulti :
    ∀ (t : ServerThread) (l : List Nat),
      Ends (fun _ => True) (fun r => r.con.isSome) (ioDrainMulti t l)
  | _, [] => trivial
  | t, c :: rest => by
    unfold ioDrainMulti
    dsimp only
    split
    · exact isSome_ioDrainMulti _ rest
    · split
      · rfl
      · exact Ends.bind (isSome_checkRet c _) fun t' _ => isSome_ioDrainMulti t' rest

theorem isSome_readyLoop (threadCount : Nat) :
    ∀ (t : ServerThread) (l : List Nat),
      Ends (fun _ => True) (fun r => r.con.isSome) (readyLoop threadCount t l)
  | _, [] => trivial
  | t, c :: rest => by
    unfold readyLoop
    split
    · refine Ends.bind (P := fun _ => True) ?_ fun t' _ => isSome_readyLoop threadCount t' rest
      unfold readyCon
      refine Ends.bind (P := fun _ => True) ?_ fun t' _ => ?_ <;> split
      all_goals first | exact isSome_checkRet c _ | trivial
    · exact isSome_readyLoop threadCount t rest

theorem isSome_ioDrainSingle :
    ∀ (t : ServerThread) (l : List Nat),
      Ends (fun _ => True) (fun r => r.con.isSome) (ioDrainSingle t l)
  | _, [] => trivial
  | _, c :: rest => Ends.bind (isSome_checkRet c _) fun t' _ => isSome_ioDrainSingle t' rest

theorem isSome_threadRunLoops (threadCount : Nat) (t : ServerThread) :
    Ends (fun _ => True) (fun r => r.con.isSome) (threadRunLoops threadCount t) := by
  unfold threadRunLoops
  refine Ends.bind (P := fun _ => True) ?_ fun t1 _ =>
    Ends.bind (isSome_readyLoop threadCount t1 _) fun t2 _ => ?_
  · split
    · exact isSome_ioDrainMulti t _
    · trivial
  · split
    · exact isSome_ioDrainSingle t2 _
    · trivial

/-- Connection `c` waits on `io_list` to be torn down. -/
def Flagged (t : ServerThread) (c : Nat) : Prop := c ∈ t.ioList ∧ (t.cons c).free = true

section Flagged

variable {t : ServerThread} {c : Nat}

theorem Flagged.ioAdd (h : t.Flagged c) (d : Nat) : (t.ioAdd d).Flagged c :=
  ⟨(mem_ioAdd_ioList t d c).2 (.inl h.1), by simpa using h.2⟩

theorem Flagged.setCon (h : t.Flagged c) {d : Nat} {con : ServerCon}
    (hf : d = c → con.free = true) : (t.setCon d con).Flagged c := by
  refine ⟨h.1, ?_⟩
  simp only [setCon_cons]
  split
  · next hcd => exact hf hcd.symm
  · exact h.2

theorem Flagged.setCon_free (h : t.Flagged c) {d : Nat} {con : ServerCon}
    (hf : con.free = (t.cons d).free) : (t.setCon d con).Flagged c :=
  h.setCon fun hdc => by subst hdc; exact hf.trans h.2

theorem Flagged.withPool (h : t.Flagged c) (pool : PacketPool) :
    ({ t with pool } : ServerThread).Flagged c := h

theorem Flagged.ioPacketAdd (h : t.Flagged c) (d : Nat) (p : Packet) :
    (t.ioPacketAdd d p).Flagged c :=
  (h.setCon_free (by rfl)).ioAdd d

theorem Flagged.queueReplies (h : t.Flagged c) (replies : List (Nat × Packet)) :
    (t.queueReplies replies).Flagged c := by
  induction replies generalizing t with
  | nil => exact h
  | cons r rest ih => exact ih (h.ioPacketAdd r.1 r.2)

/-- No move but a call of `gearman_server_thread_run` takes a flagged connection off
`io_list` or clears its flag. -/
theorem Flagged.step (h : t.Flagged c) (threadCount : Nat) :
    ∀ m, (∀ f, m ≠ .run f) → (t.step threadCount m).Flagged c
  | .run f, hm => absurd rfl (hm f)
  | .poll _ _, _ => h.setCon_free (by rfl)
  | .enqueue d p, _ => h.ioPacketAdd d p
  | .proc d, _ => by
    simp only [ServerThread.step, procCon]
    split
    · split
      · exact (h.setCon fun _ => rfl).ioAdd d
      · exact ((h.setCon_free (by rfl)).withPool _).queueReplies _
    · exact h
  | .markDead _, _ => h.setCon_free (by rfl)

end Flagged

/-- Connection `c` is off the thread's list, or flagged and waiting on `io_list` to be. -/
def Gone (t : ServerThread) (c : Nat) : Prop := t.Flagged c ∨ c ∉ t.conList

section Gone

variable {threadCount : Nat} {t : ServerThread} {c : Nat}

/-- No operation of the loops puts a connection back on the thread's list. -/
theorem notMem_runPreserved (threadCount c : Nat) :
    RunPreserved threadCount fun t => c ∉ t.conList :=
  ⟨fun _ _ h => h, fun _ _ h _ hm => h (List.mem_filter.1 hm).1, fun _ _ h => h,
    fun _ _ h => h, fun _ _ h => h, fun _ _ h _ => by simpa using h⟩

theorem Gone.setCon_free (h : t.Gone c) {d : Nat} {con : ServerCon}
    (hf : con.free = (t.cons d).free) : (t.setCon d con).Gone c :=
  h.imp (·.setCon_free hf) id

/-- The first loop tears the connection down, or returns another one before it gets there. -/
theorem gone_ioDrainMulti : ∀ (t : ServerThread) (l : List Nat), t.ioList = l → t.Gone c →
    Ends (fun t' => c ∉ t'.conList) (fun r => r.thread.Gone c) (ioDrainMulti t l)
  | t, [], hl, h => h.resolve_left fun hf => by simpa [hl] using hf.1
  | t, d :: rest, hl, h => by
    -- taking `d` off `io_list` keeps `c` gone unless `d` is `c` with its flag
    have h0 : (t.cons d).free = false → ({ t with ioList := rest } : ServerThread).Gone c :=
      fun hd => h.imp (fun hf => ⟨(List.mem_cons.1 (hl ▸ hf.1)).resolve_left fun e =>
        absurd (e ▸ hf.2) (by simp [hd]), hf.2⟩) id
    unfold ioDrainMulti
    dsimp only
    split
    · next hf =>
      by_cases hdc : d = c
      · subst hdc
        exact ((notMem_runPreserved 0 d).ends_ioDrainMulti _ rest
          (by simp [conFree])).mono_error fun _ h => .inr h
      · refine gone_ioDrainMulti _ rest rfl (.imp (fun hg => ⟨?_, hg.2⟩) (fun hn hm => hn ?_) h)
        · exact (List.mem_cons.1 (hl ▸ hg.1)).resolve_left (Ne.symm hdc)
        · exact (List.mem_filter.1 hm).1
    · next hf =>
      have h1 := h0 (by simpa using hf)
      split
      · exact h1.setCon_free (by rfl)
      · refine Ends.bind (P := fun t' => t'.Gone c ∧ t'.ioList = rest) ?_ fun t' ht' =>
          gone_ioDrainMulti t' rest ht'.2 ht'.1
        rw [checkRet_eq]
        split
        · exact (h1.setCon_free (by rfl)).setCon_free (by rfl)
        · exact ⟨h1.setCon_free (by rfl), rfl⟩

/-- A multi-threaded call tears the connection down, or returns another one with `c` still
flagged. -/
theorem gone_threadRunLoops (htc : 1 < threadCount) (h : t.Gone c) :
    Ends (fun t' => c ∉ t'.conList) (fun r => r.thread.Gone c) (threadRunLoops threadCount t) := by
  have hP := notMem_runPreserved threadCount c
  unfold threadRunLoops
  rw [if_pos htc]
  refine Ends.bind (gone_ioDrainMulti t _ rfl h) fun t1 h1 => Ends.bind
    ((hP.ends_readyLoop t1 _ h1 fun _ hc => hc).mono_error fun _ h => .inr h) fun t2 h2 => ?_
  rw [if_neg (by omega)]
  exact h2

theorem Gone.run (h : t.Gone c) (htc : 1 < threadCount) (f : ServerFlags) :
    (serverThreadRun threadCount f t).thread.Gone c :=
  ((gone_threadRunLoops htc h).call f).elim (fun h => .inr h.2) id

/-- A multi-threaded call that returns `NULL` has taken the connection off the list. -/
theorem Gone.run_none (h : t.Gone c) (htc : 1 < threadCount) (f : ServerFlags)
    (hn : (serverThreadRun threadCount f t).con = none) :
    c ∉ (serverThreadRun threadCount f t).thread.conList :=
  (((gone_threadRunLoops htc h).both (isSome_threadRunLoops threadCount t)).call_none
    (fun _ h => h.2) hn).1

theorem Gone.step (h : t.Gone c) (htc : 1 < threadCount) : ∀ m, (t.step threadCount m).Gone c
  | .run f => h.run htc f
  | .poll _ _ => h.imp (Flagged.step · threadCount _ nofun) id
  | .enqueue _ _ => h.imp (Flagged.step · threadCount _ nofun) fun hn => by
    simpa [ServerThread.step] using hn
  | .proc _ => h.imp (Flagged.step · threadCount _ nofun) fun hn => by
    simp only [ServerThread.step]
    split <;> simpa using hn
  | .markDead _ => h.imp (Flagged.step · threadCount _ nofun) id

theorem Gone.steps (h : t.Gone c) (htc : 1 < threadCount) (moves : List ThreadMove) :
    (moves.foldl (ServerThread.step threadCount) t).Gone c := by
  induction moves generalizing t with
  | nil => exact h
  | cons m rest ih => exact ih (h.step htc m)

end Gone

end ServerThread

open ServerThread in
/-- On a multi-threaded server, a pass of `_proc` over a connection whose socket failed flags
it for teardown; whatever moves come next, calls of `gearman_server_thread_run` that hand back
other connections included, every later call that returns `NULL` has taken the connection off
the thread's list. -/
theorem dead_con_torn_down {threadCount : Nat} (htc : 1 < threadCount) (t : ServerThread)
    (c : Nat) (hd : (t.cons c).dead = true) (moves : List ThreadMove) (f : ServerFlags) :
    (serverThreadRun threadCount f
        (moves.foldl (step threadCount) (t.step threadCount (.proc c)))).con = none →
      c ∉ (serverThreadRun threadCount f
        (moves.foldl (step threadCount) (t.step threadCount (.proc c)))).thread.conList := by
  have h0 : (t.step threadCount (.proc c)).Gone c := by
    simp only [ServerThread.step, if_pos htc, procCon, if_pos hd]
    exact .inl ⟨(mem_ioAdd_ioList _ c c).2 (.inr rfl), by simp⟩
  exact (h0.steps htc moves).run_none htc f

open ServerThread in
/-- Connection 1's command fails and connection 0's socket fails; `_proc` flags connection 0
behind connection 1 on `io_list`. The next call hands connection 1 back before it reaches
connection 0, and the call after it returns `NULL` with connection 0 gone. -/
theorem dead_con_torn_down_after_hand_back :
    let t := [.poll 1 ⟨true, false⟩, .run ⟨false, false, 0⟩, .proc 1, .markDead 0].foldl (step 2)
      (start [0, 1] (fun _ => [.complete [1]])
        (fun _ => [⟨.memoryAllocationFailure, [(1, ⟨8, [1]⟩)]⟩]) (fun _ => []) [])
    1 < 2 ∧ (t.cons 0).dead = true ∧
      (serverThreadRun 2 ⟨false, false, 0⟩ (t.step 2 (.proc 0))).con = some 1 ∧
      0 ∈ ([.run ⟨false, false, 0⟩].foldl (step 2) (t.step 2 (.proc 0))).conList ∧
      (serverThreadRun 2 ⟨false, false, 0⟩
        ([.run ⟨false, false, 0⟩].foldl (step 2) (t.step 2 (.proc 0)))).con = none ∧
      0 ∉ (serverThreadRun 2 ⟨false, false, 0⟩
        ([.run ⟨false, false, 0⟩].foldl (step 2) (t.step 2 (.proc 0)))).thread.conList :=
  ⟨by decide, by decide, by decide, by decide, by decide,
    dead_con_torn_down (by decide) _ 0 (by decide) [.run ⟨false, false, 0⟩] _ (by decide)⟩

end Gearman
