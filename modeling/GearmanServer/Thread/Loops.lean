import GearmanServer.Thread.Run

/-!
# Reasoning about the loops of a call

Each loop of `gearman_server_thread_run` goes on with a thread or returns a connection. `Ends P Q`
says the thread it goes on with satisfies `P` and a result it returns satisfies `Q`; `Ends.bind`
threads it through the loops, written with `>>=`.

`RunPreserved` lists the operations the loops perform on a thread: taking a connection off
`io_list`, tearing one down, handing one back, a flush, clearing the ready flag, and a read of a
connection of the list. `RunPreserved.run` shows that a property each of them keeps is kept by a
whole call, whichever connection it returns.
-/

namespace Gearman

namespace ServerThread

/-- A loop of `gearman_server_thread_run` goes on with a thread satisfying `P`, or returns a
result satisfying `Q`. -/
def Ends (P : ServerThread → Prop) (Q : RunResult → Prop) : Except RunResult ServerThread → Prop
  | .ok t => P t
  | .error r => Q r

section Ends

variable {P P' : ServerThread → Prop} {Q : RunResult → Prop}

theorem Ends.bind {x : Except RunResult ServerThread}
    {f : ServerThread → Except RunResult ServerThread} (hx : Ends P Q x)
    (hf : ∀ t, P t → Ends P' Q (f t)) : Ends P' Q (x >>= f) := by
  cases x with
  | error r => exact hx
  | ok t => exact hf t hx

theorem Ends.mono {x : Except RunResult ServerThread} (hx : Ends P Q x) (hP : ∀ t, P t → P' t) :
    Ends P' Q x := by
  cases x with
  | error r => exact hx
  | ok t => exact hP t hx

theorem Ends.trivial (x : Except RunResult ServerThread) :
    Ends (fun _ => True) (fun _ => True) x := by
  cases x <;> trivial

theorem Ends.mono_error {Q' : RunResult → Prop} {x : Except RunResult ServerThread}
    (h : Ends P Q x) (hQ : ∀ r, Q r → Q' r) : Ends P Q' x := by
  cases x with
  | error r => exact hQ r h
  | ok t => exact h

theorem Ends.both {Q' : RunResult → Prop} {x : Except RunResult ServerThread} (h : Ends P Q x)
    (h' : Ends P' Q' x) : Ends (fun t => P t ∧ P' t) (fun r => Q r ∧ Q' r) x := by
  cases x with
  | error r => exact ⟨h, h'⟩
  | ok t => exact ⟨h, h'⟩

theorem Ends.and {x : Except RunResult ServerThread} (h : Ends P Q x)
    (h' : Ends P' (fun _ => True) x) : Ends (fun t => P t ∧ P' t) Q x :=
  (h.both h').mono_error fun _ h => h.1

/-- A call returns `NULL` with the thread its loops went on with, or the result they returned. -/
theorem Ends.call {threadCount : Nat} {t : ServerThread}
    (h : Ends P Q (threadRunLoops threadCount t)) (f : ServerFlags) :
    (serverThreadRun threadCount f t).con = none ∧ P (serverThreadRun threadCount f t).thread ∨
      Q (serverThreadRun threadCount f t) := by
  unfold serverThreadRun
  split
  · next heq => rw [heq] at h; exact .inl ⟨rfl, h⟩
  · next heq => rw [heq] at h; exact .inr h

theorem Ends.call_none {threadCount : Nat} {t : ServerThread} {f : ServerFlags}
    (h : Ends P Q (threadRunLoops threadCount t)) (hQ : ∀ r, Q r → r.con.isSome)
    (hn : (serverThreadRun threadCount f t).con = none) :
    P (serverThreadRun threadCount f t).thread :=
  (h.call f).elim (·.2) fun hq => absurd (hQ _ hq) (by simp [hn])

end Ends

theorem ends_checkRet_eq (c : Nat) (x : GearmanReturn × ServerThread) :
    Ends (fun t' => t' = x.2) (fun _ => True) (checkRet c x) := by
  obtain ⟨ret, t⟩ := x
  rw [checkRet_eq]
  split <;> trivial

theorem conList_readyCon (threadCount : Nat) (t : ServerThread) (c : Nat) :
    Ends (fun t' => t'.conList = t.conList) (fun _ => True) (readyCon threadCount t c) := by
  unfold readyCon
  refine Ends.bind (P := fun t' => t'.conList = t.conList) ?_ fun t' h' => ?_
  · split
    · exact (ends_checkRet_eq c _).mono fun _ h => by simp [h]
    · rfl
  · split
    · exact (ends_checkRet_eq c _).mono fun _ h => by simp [h, h']
    · exact h'

theorem conList_readyLoop (threadCount : Nat) :
    ∀ (t : ServerThread) (l : List Nat),
      Ends (fun t' => t'.conList = t.conList) (fun _ => True) (readyLoop threadCount t l)
  | _, [] => rfl
  | t, c :: rest => by
    unfold readyLoop
    split
    · exact Ends.bind (conList_readyCon threadCount _ c) fun t' h' =>
        (conList_readyLoop threadCount t' rest).mono fun _ h => h.trans h'
    · exact conList_readyLoop threadCount t rest

/-- A property of threads that every operation of the loops of `gearman_server_thread_run`
keeps. -/
structure RunPreserved (threadCount : Nat) (P : ServerThread → Prop) : Prop where
  pop : ∀ t l, P t → P { t with ioList := l }
  conFree : ∀ t c, P t → (t.cons c).free = true → P (t.conFree c)
  handBack : ∀ t c, P t → P (t.handBack c)
  flushCon : ∀ t c, P t → P (t.flushCon c).2
  unready : ∀ t c, P t → P (t.setCon c { t.cons c with ready := false })
  readCon : ∀ t c, P t → c ∈ t.conList → P (t.readCon threadCount c).2

namespace RunPreserved

variable {threadCount : Nat} {P : ServerThread → Prop} (hP : RunPreserved threadCount P)
include hP

theorem ends_checkRet {c : Nat} {x : GearmanReturn × ServerThread} (h : P x.2) :
    Ends P (fun r => P r.thread) (checkRet c x) := by
  obtain ⟨ret, t⟩ := x
  rw [checkRet_eq]
  split
  · exact hP.handBack t c h
  · exact h

theorem ends_ioDrainMulti : ∀ (t : ServerThread) (l : List Nat), P t →
    Ends P (fun r => P r.thread) (ioDrainMulti t l)
  | _, [], h => h
  | t, c :: rest, h => by
    have h0 := hP.pop t rest h
    unfold ioDrainMulti
    dsimp only
    split
    · next hf => exact ends_ioDrainMulti _ rest (hP.conFree _ c h0 hf)
    · split
      · exact hP.handBack _ c h0
      · exact Ends.bind (hP.ends_checkRet (hP.flushCon _ c h0)) fun t' ht' =>
          ends_ioDrainMulti t' rest ht'

theorem ends_readyCon {t : ServerThread} {c : Nat} (h : P t) (hc : c ∈ t.conList) :
    Ends P (fun r => P r.thread) (readyCon threadCount t c) := by
  unfold readyCon
  refine Ends.bind (P := P) ?_ fun t' ht' => ?_
  · split
    · exact hP.ends_checkRet (hP.readCon t c h hc)
    · exact h
  · split
    · exact hP.ends_checkRet (hP.flushCon t' c ht')
    · exact ht'

/-- The second loop reads only connections of the list, which it leaves as it is. -/
theorem ends_readyLoop : ∀ (t : ServerThread) (l : List Nat), P t → (∀ c ∈ l, c ∈ t.conList) →
    Ends P (fun r => P r.thread) (readyLoop threadCount t l)
  | _, [], h, _ => h
  | t, c :: rest, h, hl => by
    have hrest : ∀ d ∈ rest, d ∈ t.conList := fun d hd => hl d (List.mem_cons_of_mem _ hd)
    unfold readyLoop
    split
    · refine Ends.bind ((hP.ends_readyCon (hP.unready t c h) (hl c (List.mem_cons_self _ _))).and
        (conList_readyCon threadCount _ c)) fun t' ht' => ends_readyLoop t' rest ht'.1 ?_
      rw [ht'.2]
      exact hrest
    · exact ends_readyLoop t rest h hrest

theorem ends_ioDrainSingle : ∀ (t : ServerThread) (l : List Nat), P t →
    Ends P (fun r => P r.thread) (ioDrainSingle t l)
  | _, [], h => h
  | t, c :: rest, h => Ends.bind (hP.ends_checkRet (hP.flushCon _ c (hP.pop t rest h)))
      fun t' ht' => ends_ioDrainSingle t' rest ht'

/-- A call of `gearman_server_thread_run` keeps the property, whatever it returns. -/
theorem run {t : ServerThread} (h : P t) (f : ServerFlags) :
    P (serverThreadRun threadCount f t).thread := by
  have hl : Ends P (fun r => P r.thread) (threadRunLoops threadCount t) := by
    unfold threadRunLoops
    refine Ends.bind (P := P) ?_ fun t1 h1 =>
      Ends.bind (hP.ends_readyLoop t1 _ h1 fun _ hc => hc) fun t2 h2 => ?_
    · split
      · exact hP.ends_ioDrainMulti t _ h
      · exact h
    · split
      · exact hP.ends_ioDrainSingle t2 _ h2
      · exact h2
  exact (hl.call f).elim (·.2) id

end RunPreserved

end ServerThread

end Gearman
