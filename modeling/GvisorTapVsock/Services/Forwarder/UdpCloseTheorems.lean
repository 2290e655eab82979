/-
GvisorTapVsock.Services.Forwarder.UdpCloseTheorems — what is left of a UDP proxy
when `Close` has returned.

`Close` closes the listener, takes the lock and closes every connection of the
table. `Orderly` is the invariant behind it: whoever works on the table holds
the lock, so while `Close` ranges over the table no entry is added, and an entry
its loop has passed is a closed connection.

When `Close` returns, two kinds of goroutine can still be in its way
(`close_final_iff`). `Run` may have received a datagram before the listener was
closed and wait for the lock: it will take it, miss, and dial a connection that
no `Close` knows of. And a `replyLoop` may have deleted its entry but not yet
closed its connection.
-/
import GvisorTapVsock.Services.Forwarder.UdpProxyTheorems

namespace GvisorTapVsock.Services.Forwarder

open GvisorTapVsock.Go GvisorTapVsock.Lts

/-- `Run` is between its `Lock` and its `Unlock`. -/
def RunPc.locked : RunPc → Bool
  | .lookup _ _ | .dial _ _ | .unlock _ _ _ => true
  | .read | .lock _ _ | .write _ _ _ _ | .ended => false

/-- The deferred function of a `replyLoop` is between its `Lock` and its
`Unlock`. -/
def ReplyPc.locked : ReplyPc → Bool
  | .delete | .unlock => true
  | .read | .write _ _ | .lock | .close | .ended => false

namespace UDPProxy

/-! ## The lock -/

/-- A goroutine is in a critical section of `connTrackLock`. -/
def inside (s : UDPProxy) : Goroutine → Prop
  | .run => s.run.locked = true
  | .replyLoop c => ∃ loop, s.loops c = some loop ∧ loop.pc.locked = true
  | .close i => ∃ rest, s.closers i = .conns rest

variable {s s' : UDPProxy} {g : Goroutine}

@[simp] theorem locked_runWriteFrom (data : List UInt8) (sender : UDPAddr) (c : Backend)
    (i : Nat) : (RunPc.writeFrom data sender c i).locked = false := by
  unfold RunPc.writeFrom
  split <;> rfl

@[simp] theorem locked_replyWriteFrom (data : List UInt8) (i : Nat) :
    (ReplyPc.writeFrom data i).locked = false := by
  unfold ReplyPc.writeFrom
  split <;> rfl

/-- A step of `Run` moves `Run` alone. -/
theorem inside_run (h : s'.inside g) (hloops : s'.loops = s.loops)
    (hclosers : s'.closers = s.closers) :
    (g = .run ∧ s'.run.locked = true) ∨ (g ≠ .run ∧ s.inside g) := by
  cases g with
  | run => exact Or.inl ⟨rfl, h⟩
  | replyLoop c => exact Or.inr ⟨by simp, by simpa [inside, hloops] using h⟩
  | close i => exact Or.inr ⟨by simp, by simpa [inside, hclosers] using h⟩

/-- A step of a `replyLoop` moves that loop alone. -/
theorem inside_reply {c : Backend} {loop : ReplyLoop} {pc : ReplyPc} (h : s'.inside g)
    (hrun : s'.run = s.run)
    (hloops : s'.loops = Function.update s.loops c (some { loop with pc := pc }))
    (hclosers : s'.closers = s.closers) :
    (g = .replyLoop c ∧ pc.locked = true) ∨ (g ≠ .replyLoop c ∧ s.inside g) := by
  cases g with
  | run => exact Or.inr ⟨by simp, by simpa [inside, hrun] using h⟩
  | replyLoop c' =>
    by_cases hc : c' = c
    · subst hc
      exact Or.inl ⟨rfl, by simpa [inside, hloops] using h⟩
    · exact Or.inr ⟨by simpa using hc, by simpa [inside, hloops, Function.update_of_ne hc] using h⟩
  | close i => exact Or.inr ⟨by simp, by simpa [inside, hclosers] using h⟩

/-- A step of a `Close` moves that call alone. -/
theorem inside_close {i : Nat} {pc : ClosePc} (h : s'.inside g) (hrun : s'.run = s.run)
    (hloops : s'.loops = s.loops) (hclosers : s'.closers = Function.update s.closers i pc) :
    (g = .close i ∧ ∃ rest, pc = .conns rest) ∨ (g ≠ .close i ∧ s.inside g) := by
  cases g with
  | run => exact Or.inr ⟨by simp, by simpa [inside, hrun] using h⟩
  | replyLoop c => exact Or.inr ⟨by simp, by simpa [inside, hloops] using h⟩
  | close j =>
    by_cases hj : j = i
    · subst hj
      exact Or.inl ⟨rfl, by simpa [inside, hclosers] using h⟩
    · have hin : s.inside (.close j) := by
        simpa [inside, hclosers, Function.update_of_ne hj] using h
      exact Or.inr ⟨by simpa using hj, hin⟩

/-! ## The invariant -/

/-- What the calls of `Close` rely on. -/
structure Orderly (s : UDPProxy) : Prop where
  guards : s.connTrackLock.Guards s.inside
  listener : ∀ i, s.closers i ≠ .listener → s.listenerClosed = true
  /-- an entry is still to be visited, or its connection is closed -/
  visited : ∀ i rest, s.closers i = .conns rest → ∀ k c, s.connTrackTable.lookup k = some c →
    k ∈ rest ∨ c ∈ s.closed
  ended : ∀ c loop, s.loops c = some loop → loop.pc = .ended → c ∈ s.closed

theorem orderly_start : Orderly start where
  guards := by
    intro g hg
    cases g <;> simp [inside, start, RunPc.locked] at hg
  listener := by simp [start]
  visited := by simp [start]
  ended := by simp [start]

/-- A step that leaves the calls of `Close` where they are and adds no entry. -/
theorem Orderly.keep (h : Orderly s) (hguards : s'.connTrackLock.Guards s'.inside)
    (hclosers : s'.closers = s.closers) (hlistener : s'.listenerClosed = s.listenerClosed)
    (hclosed : ∀ c ∈ s.closed, c ∈ s'.closed)
    (htable : ∀ k c, s'.connTrackTable.lookup k = some c → s.connTrackTable.lookup k = some c)
    (hended : ∀ c loop, s'.loops c = some loop → loop.pc = .ended →
      c ∈ s'.closed ∨ s.loops c = some loop) : Orderly s' where
  guards := hguards
  listener := by
    rw [hclosers, hlistener]
    exact h.listener
  visited := by
    rw [hclosers]
    intro i rest hi k c hlookup
    exact (h.visited i rest hi k c (htable k c hlookup)).imp_right (hclosed c)
  ended := by
    intro c loop hloop hpc
    obtain hc | hsame := hended c loop hloop hpc
    · exact hc
    · exact hclosed c (h.ended c loop hsame hpc)

/-! ### Steps of `Run` -/

/-- A step of `Run` within the same critical section, or outside of any. -/
theorem Orderly.runKeep (h : Orderly s) {pc : RunPc} {sent : List Sent}
    (hlocked : pc.locked = true → s.run.locked = true) :
    Orderly { s with run := pc, toBackend := sent } := by
  refine h.keep (h.guards.keep ?_) rfl rfl (fun _ => id) (fun _ _ => id) (fun _ _ hl _ => Or.inr hl)
  intro g hg
  obtain ⟨rfl, hpc⟩ | ⟨-, hin⟩ := inside_run (s := s) hg rfl rfl
  · exact hlocked hpc
  · exact hin

/-- `Run` leaves its critical section. -/
theorem Orderly.runUnlock (h : Orderly s) {pc : RunPc} (hrun : s.run.locked = true)
    (hpc : pc.locked = false) :
    Orderly { s with connTrackLock := s.connTrackLock.unlock, run := pc } := by
  have hmine : s.inside .run := hrun
  refine h.keep (h.guards.unlock hmine ?_) rfl rfl (fun _ => id) (fun _ _ => id)
    (fun _ _ hl _ => Or.inr hl)
  intro g hg
  obtain ⟨-, hlocked⟩ | hother := inside_run (s := s) hg rfl rfl
  · simp [hpc] at hlocked
  · exact hother

theorem Orderly.dialled (h : Orderly s) {data : List UInt8} {sender : UDPAddr}
    (hrun : s.run = .dial data sender) : Orderly (s.dialled data sender) := by
  have hmine : s.inside .run := by simp [inside, hrun, RunPc.locked]
  refine ⟨?_, h.listener, ?_, ?_⟩
  · refine h.guards.keep ?_
    intro g hg
    cases g with
    | run => exact hmine
    | replyLoop c =>
      obtain ⟨loop, hloop, hpc⟩ := hg
      by_cases hc : c = s.dials.length
      · subst hc
        simp only [UDPProxy.dialled, Function.update_self, Option.some.injEq] at hloop
        simp [← hloop, ReplyPc.locked] at hpc
      · simp only [UDPProxy.dialled, Function.update_of_ne hc] at hloop
        exact ⟨loop, hloop, hpc⟩
    | close i => exact hg
  · -- `Run` has the lock, so no `Close` is at its loop
    intro i rest hi
    have hclose : s.inside (.close i) := ⟨rest, hi⟩
    exact absurd (h.guards.eq hmine hclose) (by simp)
  · intro c loop hloop hpc
    by_cases hc : c = s.dials.length
    · subst hc
      simp only [UDPProxy.dialled, Function.update_self, Option.some.injEq] at hloop
      simp [← hloop] at hpc
    · simp only [UDPProxy.dialled, Function.update_of_ne hc] at hloop
      exact h.ended c loop hloop hpc

theorem Orderly.runStep (h : Orderly s) {m : RunMove} (hstep : s.runStep m = some s') :
    Orderly s' := by
  cases runSteps_of_runStep hstep with
  | received | readFailed | writeFailed => exact h.runKeep (by simp [RunPc.locked])
  | lock _ hlock =>
    refine h.keep (h.guards.lock hlock ?_) rfl rfl (fun _ => id) (fun _ _ => id)
      (fun _ _ hl _ => Or.inr hl)
    intro g hg
    obtain ⟨hg, -⟩ | ⟨-, hin⟩ := inside_run (s := s) hg rfl rfl
    · exact Or.inl hg
    · exact Or.inr hin
  | hit hrun | miss hrun | dialFailed hrun => exact h.runKeep (fun _ => by rw [hrun]; rfl)
  | dialled hrun => exact h.dialled hrun
  | unlockFailed hrun => exact h.runUnlock (by rw [hrun]; rfl) rfl
  | unlock hrun => exact h.runUnlock (by rw [hrun]; rfl) (by simp)
  | wrote => exact h.runKeep (by simp)

/-! ### Steps of a reply loop -/

section Reply

variable {c : Backend} {loop : ReplyLoop}

/-- A loop that has just moved has ended only if it closed its connection. -/
theorem Orderly.replyTo (h : Orderly s) (pc : ReplyPc)
    (hguards : s'.connTrackLock.Guards s'.inside)
    (hloops : s'.loops = Function.update s.loops c (some { loop with pc := pc }))
    (hclosers : s'.closers = s.closers) (hlistener : s'.listenerClosed = s.listenerClosed)
    (hclosed : ∀ c ∈ s.closed, c ∈ s'.closed)
    (htable : ∀ k c, s'.connTrackTable.lookup k = some c → s.connTrackTable.lookup k = some c)
    (hpc : pc = .ended → c ∈ s'.closed) : Orderly s' := by
  refine h.keep hguards hclosers hlistener hclosed htable ?_
  intro c' loop' hloop' hended
  rw [hloops] at hloop'
  by_cases hc : c' = c
  · subst hc
    rw [Function.update_self, Option.some.injEq] at hloop'
    exact Or.inl (hpc (by rw [← hended, ← hloop']))
  · rw [Function.update_of_ne hc] at hloop'
    exact Or.inr hloop'

/-- A step of a loop outside of the critical section. -/
theorem Orderly.replyKeep (h : Orderly s) {pc : ReplyPc} (hlocked : pc.locked = false)
    (hended : pc ≠ .ended) {replied : List Replied} :
    Orderly { s.goto c loop pc with toClient := replied } := by
  refine h.replyTo pc (h.guards.keep ?_) rfl rfl rfl (fun _ => id) (fun _ _ => id)
    (fun he => absurd he hended)
  intro g hg
  obtain ⟨-, hpc⟩ | ⟨-, hin⟩ := inside_reply (s := s) hg rfl rfl rfl
  · simp [hlocked] at hpc
  · exact hin

theorem Orderly.replyStep (h : Orderly s) (hloop : s.loops c = some loop) {m : ReplyMove}
    (hstep : s.replyStep c loop m = some s') : Orderly s' := by
  have hmine : loop.pc.locked = true → s.inside (.replyLoop c) := fun hl => ⟨loop, hloop, hl⟩
  have hne : ∀ (data : List UInt8) (i : Nat), ReplyPc.writeFrom data i ≠ .ended := by
    intro data i
    unfold ReplyPc.writeFrom
    split <;> simp
  cases replySteps_of_replyStep hstep with
  | read | wrote => exact h.replyKeep (by simp) (hne _ _)
  | refused | readFailed | writeFailed => exact h.replyKeep rfl (by simp)
  | lock _ hlock =>
    refine h.replyTo .delete (h.guards.lock hlock ?_) rfl rfl rfl (fun _ => id)
      (fun _ _ => id) (by simp)
    intro g hg
    obtain ⟨hg, -⟩ | ⟨-, hin⟩ := inside_reply (s := s) hg rfl rfl rfl
    · exact Or.inl hg
    · exact Or.inr hin
  | delete hpc =>
    refine h.replyTo .unlock (h.guards.keep ?_) rfl rfl rfl (fun _ => id) ?_ (by simp)
    · intro g hg
      obtain ⟨rfl, -⟩ | ⟨-, hin⟩ := inside_reply (s := s) hg rfl rfl rfl
      · exact hmine (by rw [hpc]; rfl)
      · exact hin
    · intro k c' hlookup
      rw [GoMap.lookup_erase_eq] at hlookup
      split at hlookup
      · simp at hlookup
      · exact hlookup
  | unlock hpc =>
    refine h.replyTo .close (h.guards.unlock (hmine (by rw [hpc]; rfl)) ?_) rfl rfl rfl
      (fun _ => id) (fun _ _ => id) (by simp)
    intro g hg
    obtain ⟨-, hlocked⟩ | hother := inside_reply (s := s) hg rfl rfl rfl
    · simp [ReplyPc.locked] at hlocked
    · exact hother
  | close =>
    refine h.replyTo .ended (h.guards.keep ?_) rfl rfl rfl
      (fun _ => List.mem_cons_of_mem c) (fun _ _ => id) (fun _ => List.mem_cons_self)
    intro g hg
    obtain ⟨-, hlocked⟩ | ⟨-, hin⟩ := inside_reply (s := s) hg rfl rfl rfl
    · simp [ReplyPc.locked] at hlocked
    · exact hin

end Reply

/-! ### Steps of `Close` -/

section Close

variable {i : Nat}

/-- A call of `Close` moves, after it has closed the listener. -/
theorem Orderly.closeTo (h : Orderly s) (i : Nat) (pc : ClosePc)
    (hguards : s'.connTrackLock.Guards s'.inside)
    (hclosers : s'.closers = Function.update s.closers i pc)
    (hlistener : s'.listenerClosed = true) (htable : s'.connTrackTable = s.connTrackTable)
    (hloops : s'.loops = s.loops) (hclosed : ∀ c ∈ s.closed, c ∈ s'.closed)
    (hvisited : ∀ rest, pc = .conns rest → ∀ k c, s.connTrackTable.lookup k = some c →
      k ∈ rest ∨ c ∈ s'.closed) : Orderly s' where
  guards := hguards
  listener := fun _ _ => hlistener
  visited := by
    intro j rest hj k c hlookup
    rw [hclosers] at hj
    rw [htable] at hlookup
    by_cases hji : j = i
    · subst hji
      rw [Function.update_self] at hj
      exact hvisited rest hj k c hlookup
    · rw [Function.update_of_ne hji] at hj
      exact (h.visited j rest hj k c hlookup).imp_right (hclosed c)
  ended := by
    rw [hloops]
    exact fun c loop hloop hpc => hclosed c (h.ended c loop hloop hpc)

theorem Orderly.closeStep (h : Orderly s) {m : CloseMove} (hstep : s.closeStep i m = some s') :
    Orderly s' := by
  cases closeSteps_of_closeStep hstep with
  | listener =>
    refine h.closeTo i .lock (h.guards.keep ?_) rfl rfl rfl rfl (fun _ => id)
      (by simp)
    intro g hg
    obtain ⟨-, rest, hrest⟩ | ⟨-, hin⟩ := inside_close (s := s) hg rfl rfl rfl
    · cases hrest
    · exact hin
  | @lock order _ hpc horder hlock =>
    refine h.closeTo i (.conns order) (h.guards.lock hlock ?_) rfl
      (h.listener i (by simp [hpc])) rfl rfl (fun _ => id) ?_
    · intro g hg
      obtain ⟨hg, -⟩ | ⟨-, hin⟩ := inside_close (s := s) hg rfl rfl rfl
      · exact Or.inl hg
      · exact Or.inr hin
    · -- the loop will visit every entry
      intro rest hrest k c hlookup
      obtain rfl := ClosePc.conns.inj hrest
      exact Or.inl (GoMap.mem_of_rangeOrder horder hlookup)
  | @conn k rest hpc =>
    refine h.closeTo i (.conns rest) (h.guards.keep ?_) rfl
      (h.listener i (by simp [hpc])) rfl rfl (fun c hc => List.mem_append_right _ hc) ?_
    · intro g hg
      obtain ⟨rfl, -⟩ | ⟨-, hin⟩ := inside_close (s := s) hg rfl rfl rfl
      · exact ⟨_, hpc⟩
      · exact hin
    · intro rest' hrest k' c hlookup
      obtain rfl := ClosePc.conns.inj hrest
      obtain hk | hc := h.visited i _ hpc k' c hlookup
      · obtain rfl | hk := List.mem_cons.mp hk
        · exact Or.inr (by simp [hlookup])
        · exact Or.inl hk
      · exact Or.inr (List.mem_append_right _ hc)
  | unlock hpc =>
    have hmine : s.inside (.close i) := ⟨_, hpc⟩
    refine h.closeTo i .returned (h.guards.unlock hmine ?_) rfl
      (h.listener i (by simp [hpc])) rfl rfl (fun _ => id) (by simp)
    intro g hg
    obtain ⟨-, rest, hrest⟩ | hother := inside_close (s := s) hg rfl rfl rfl
    · cases hrest
    · exact hother

end Close

/-- **Every state that is reached is orderly.** -/
theorem Reachable.orderly (h : Reachable s) : Orderly s := by
  induction h with
  | refl => exact orderly_start
  | step e run _ next ih =>
    cases e with
    | run m => exact ih.runStep next
    | reply c m =>
      rw [step] at next
      split at next
      · cases next
      · next loop hloop => exact ih.replyStep hloop next
    | close i m => exact ih.closeStep next

/-! ## No further dial -/

/-- The listener is closed and `Run` has no datagram for which it could dial. -/
structure Quiet (s : UDPProxy) : Prop where
  listener : s.listenerClosed = true
  run : s.run = .read ∨ s.run = .ended ∨ ∃ data sender c i, s.run = .write data sender c i

theorem quiet_writeFrom (hl : s.listenerClosed = true) (data : List UInt8) (sender : UDPAddr)
    (c : Backend) (i : Nat) (sent : List Sent) :
    Quiet { s with run := .writeFrom data sender c i, toBackend := sent } := by
  refine ⟨hl, ?_⟩
  unfold RunPc.writeFrom
  split
  · exact Or.inl rfl
  · exact Or.inr (Or.inr ⟨_, _, _, _, rfl⟩)

theorem Quiet.runStep (h : Quiet s) {m : RunMove} (hstep : s.runStep m = some s') :
    Quiet s' ∧ s'.dials = s.dials := by
  obtain hrun | hrun | ⟨data, sender, c, i, hrun⟩ := h.run
  · -- no datagram comes from a closed listener
    cases m <;> simp [UDPProxy.runStep, hrun, h.listener] at hstep
    subst hstep
    exact ⟨⟨rfl, Or.inr (Or.inl rfl)⟩, rfl⟩
  · cases m <;> simp [UDPProxy.runStep, hrun] at hstep
  · cases m <;> simp [UDPProxy.runStep, hrun] at hstep
    · rw [← hstep.2]
      exact ⟨quiet_writeFrom h.listener _ _ _ _ _, rfl⟩
    · subst hstep
      exact ⟨⟨h.listener, Or.inl rfl⟩, rfl⟩

theorem Quiet.step {e : Event} (h : Quiet s) (hstep : step s e = some s') :
    Quiet s' ∧ s'.dials = s.dials := by
  cases e with
  | run m => exact h.runStep hstep
  | reply c m =>
    rw [UDPProxy.step] at hstep
    split at hstep
    · cases hstep
    · obtain ⟨hrun, hdials, hlistener⟩ := replyStep_frame hstep
      exact ⟨⟨hlistener.trans h.listener, hrun ▸ h.run⟩, hdials⟩
  | close i m =>
    obtain ⟨hrun, hdials, hlistener⟩ := closeStep_frame hstep
    exact ⟨⟨hlistener h.listener, hrun ▸ h.run⟩, hdials⟩

theorem Quiet.reach (h : Quiet s) (hrun : Reach UDPProxy.step s s') :
    Quiet s' ∧ s'.dials = s.dials := by
  induction hrun with
  | refl => exact ⟨h, rfl⟩
  | step e _ _ next ih =>
    obtain ⟨hquiet, hdials⟩ := ih.1.step next
    exact ⟨hquiet, hdials.trans ih.2⟩

/-! ## A late dial -/

section Late

variable {data : List UInt8} {sender : UDPAddr}

/-- `Run` waits for a free lock and will find no entry: it dials. -/
theorem dials_of_miss (hfree : s.connTrackLock.holder = none) (hrun : s.run = .lock data sender)
    (hmiss : s.connTrackTable.lookup (newConnTrackKey sender) = none) :
    ∃ s', Reach step s s' ∧ s'.dials = s.dials ++ [sender] := by
  have hlock : step s (.run .lock)
      = some { s with connTrackLock := ⟨some .run⟩, run := .lookup data sender } := by
    simp [step, UDPProxy.runStep, hrun, Mutex.lock, hfree]
  have hlookup : step { s with connTrackLock := ⟨some .run⟩, run := .lookup data sender }
      (.run .lookup) = some { s with connTrackLock := ⟨some .run⟩, run := .dial data sender } := by
    simp [step, UDPProxy.runStep, hmiss]
  exact ⟨_, Run.head trivial hlock (Run.head trivial hlookup
    (Run.step (.run .dialled) Run.refl trivial rfl)), rfl⟩

/-- The loop of an entry fails to read and deletes it, while `Run` waits. -/
theorem exists_expired {c : Backend} {loop : ReplyLoop} (hfree : s.connTrackLock.holder = none)
    (hloop : s.loops c = some loop) (hundeleted : loop.pc.undeleted = true)
    (houtside : loop.pc.locked = false) :
    ∃ s', Reach step s s' ∧ s'.connTrackLock.holder = none ∧ s'.run = s.run ∧
      s'.dials = s.dials ∧ s'.connTrackTable = s.connTrackTable.erase loop.clientKey := by
  -- from its own `Lock` on, the deferred function has three steps
  have hdeferred : ∀ {t : UDPProxy} {loop' : ReplyLoop}, t.connTrackLock.holder = none →
      t.loops c = some loop' → loop'.pc = .lock →
      ∃ t', Reach step t t' ∧ t'.connTrackLock.holder = none ∧ t'.run = t.run ∧
        t'.dials = t.dials ∧ t'.connTrackTable = t.connTrackTable.erase loop'.clientKey := by
    intro t loop' hfree hloop hpc
    have hlock : step t (.reply c .lock)
        = some { t.goto c loop' .delete with connTrackLock := ⟨some (.replyLoop c)⟩ } := by
      simp [step, hloop, UDPProxy.replyStep, hpc, Mutex.lock, hfree]
    have hdelete : step { t.goto c loop' .delete with connTrackLock := ⟨some (.replyLoop c)⟩ }
        (.reply c .delete) = some { t.goto c loop' .unlock with
          connTrackLock := ⟨some (.replyLoop c)⟩
          connTrackTable := t.connTrackTable.erase loop'.clientKey } := by
      simp [step, goto, UDPProxy.replyStep]
    have hunlock : step { t.goto c loop' .unlock with
          connTrackLock := ⟨some (.replyLoop c)⟩
          connTrackTable := t.connTrackTable.erase loop'.clientKey }
        (.reply c .unlock) = some { t.goto c loop' .close with
          connTrackLock := .unlocked
          connTrackTable := t.connTrackTable.erase loop'.clientKey } := by
      simp [step, goto, UDPProxy.replyStep, Mutex.unlock]
    exact ⟨_, Run.head trivial hlock (Run.head trivial hdelete
      (Run.head trivial hunlock Run.refl)), rfl, rfl, rfl, rfl⟩
  -- before that, its read or write fails
  have hfails : ∀ m t, step s (.reply c m) = some t → t.loops c = some { loop with pc := .lock } →
      t.connTrackLock = s.connTrackLock → t.run = s.run → t.dials = s.dials →
      t.connTrackTable = s.connTrackTable →
      ∃ s', Reach step s s' ∧ s'.connTrackLock.holder = none ∧ s'.run = s.run ∧
        s'.dials = s.dials ∧ s'.connTrackTable = s.connTrackTable.erase loop.clientKey := by
    intro m t hstep hloop hl hrun hdials htable
    obtain ⟨s', hreach, hend⟩ := hdeferred (hl ▸ hfree) hloop rfl
    rw [hrun, hdials, htable] at hend
    exact ⟨s', Run.head trivial hstep hreach, hend⟩
  cases hpc : loop.pc with
  | read =>
    refine hfails .readFailed (s.goto c loop .lock) ?_ (by simp [goto]) rfl rfl rfl rfl
    simp [step, hloop, UDPProxy.replyStep, hpc]
  | write bytes i =>
    refine hfails .writeFailed { s.goto c loop .lock with
      toClient := s.toClient ++ [⟨c, loop.clientAddr, bytes.drop i⟩] } ?_ (by simp [goto])
      rfl rfl rfl rfl
    simp [step, hloop, UDPProxy.replyStep, hpc]
  | lock => exact hdeferred hfree hloop hpc
  | delete => simp [hpc, ReplyPc.locked] at houtside
  | unlock => simp [hpc, ReplyPc.locked] at houtside
  | close => simp [hpc, ReplyPc.undeleted] at hundeleted
  | ended => simp [hpc, ReplyPc.undeleted] at hundeleted

/-- `Run` waits for a free lock: there is a run in which it dials. -/
theorem dials_of_lock (ht : Tracked s) (ho : Orderly s) (hfree : s.connTrackLock.holder = none)
    (hrun : s.run = .lock data sender) :
    ∃ s', Reach step s s' ∧ s'.dials = s.dials ++ [sender] := by
  cases hlookup : s.connTrackTable.lookup (newConnTrackKey sender) with
  | none => exact dials_of_miss hfree hrun hlookup
  | some c =>
    -- the entry goes before `Run` gets the lock
    obtain ⟨loop, hloop, hkey, hundeleted⟩ := (ht.entry_iff _ c).mp hlookup
    have houtside : loop.pc.locked = false := by
      rw [Bool.eq_false_iff]
      intro hlocked
      have hholder := ho.guards (.replyLoop c) ⟨loop, hloop, hlocked⟩
      simp [hfree] at hholder
    obtain ⟨t, hreach, hfree', hrun', hdials, htable⟩ :=
      exists_expired hfree hloop hundeleted houtside
    have hmiss : t.connTrackTable.lookup (newConnTrackKey sender) = none := by
      rw [htable, GoMap.lookup_erase_eq, if_pos hkey.symm]
    obtain ⟨s', hreach', hdials'⟩ := dials_of_miss hfree' (hrun'.trans hrun) hmiss
    exact ⟨s', hreach.trans hreach', by rw [hdials', hdials]⟩

end Late

/-! ## When `Close` has returned -/

/-- No run goes on to a further dial, and every connection is closed. -/
def Finished (s : UDPProxy) : Prop :=
  (∀ s', Reach step s s' → s'.dials = s.dials) ∧ ∀ c < s.dials.length, c ∈ s.closed

/-- The state in which a call of `Close` returns. -/
theorem close_returns {i : Nat} (hs : Reachable s) (h : step s (.close i .unlock) = some s') :
    s'.connTrackLock.holder = none ∧ s'.listenerClosed = true ∧
      ∀ k c, s'.connTrackTable.lookup k = some c → c ∈ s'.closed := by
  have ho := Reachable.orderly hs
  simp only [step, UDPProxy.closeStep] at h
  split at h
  all_goals try contradiction
  next hpc _ =>
  obtain rfl := Option.some.inj h
  refine ⟨rfl, ho.listener i (by simp [hpc]), ?_⟩
  intro k c hlookup
  simpa using ho.visited i [] hpc k c hlookup

/-- **When `Close` returns, no further connection is dialled and every one that
was dialled is closed, exactly if `Run` does not hold a datagram for which it
waits for the lock and no `replyLoop` is between its `delete` and its `Close` of
a connection that is still open.** -/
theorem close_final_iff (hs : Reachable s) {i : Nat}
    (hreturn : step s (.close i .unlock) = some s') :
    Finished s' ↔
      (∀ data sender, s'.run ≠ .lock data sender) ∧
        ∀ c loop, s'.loops c = some loop → loop.pc = .close → c ∈ s'.closed := by
  have hs' : Reachable s' := Run.step _ hs trivial hreturn
  have ht := Reachable.tracked hs'
  have ho := Reachable.orderly hs'
  obtain ⟨hfree, hlistener, htable⟩ := close_returns hs hreturn
  have houtside : ∀ g, ¬ s'.inside g := by
    intro g hg
    have hholder := ho.guards g hg
    simp [hfree] at hholder
  constructor
  · intro ⟨hdials, hclosed⟩
    refine ⟨?_, ?_⟩
    · intro data sender hrun
      obtain ⟨s'', hreach, hlonger⟩ := dials_of_lock ht ho hfree hrun
      simp [hdials s'' hreach] at hlonger
    · intro c loop hloop _
      have hdial := ht.dials_of_loop hloop
      exact hclosed c (List.getElem?_eq_some_iff.mp hdial).1
  · intro ⟨hrun, hclosing⟩
    refine ⟨?_, ?_⟩
    · have hquiet : Quiet s' := by
        refine ⟨hlistener, ?_⟩
        cases hpc : s'.run with
        | read => exact Or.inl rfl
        | lock data sender => exact absurd hpc (hrun data sender)
        | lookup data sender => exact absurd (by rw [inside, hpc]; rfl) (houtside .run)
        | dial data sender => exact absurd (by rw [inside, hpc]; rfl) (houtside .run)
        | unlock data sender c => exact absurd (by rw [inside, hpc]; rfl) (houtside .run)
        | write data sender c n => exact Or.inr (Or.inr ⟨_, _, _, _, rfl⟩)
        | ended => exact Or.inr (Or.inl rfl)
      exact fun s'' hreach => (hquiet.reach hreach).2
    · intro c hc
      obtain ⟨loop, hloop⟩ : ∃ loop, s'.loops c = some loop := by
        have hclient := ht.client c
        rw [List.getElem?_eq_getElem hc, Option.map_eq_some_iff] at hclient
        obtain ⟨loop, hloop, -⟩ := hclient
        exact ⟨loop, hloop⟩
      by_cases hundeleted : loop.pc.undeleted = true
      · exact htable _ c ((ht.entry_iff _ c).mpr ⟨loop, hloop, rfl, hundeleted⟩)
      · cases hpc : loop.pc with
        | unlock => exact absurd ⟨loop, hloop, by rw [hpc]; rfl⟩ (houtside (.replyLoop c))
        | close => exact hclosing c loop hloop hpc
        | ended => exact ho.ended c loop hloop hpc
        | read => simp [hpc, ReplyPc.undeleted] at hundeleted
        | write bytes n => simp [hpc, ReplyPc.undeleted] at hundeleted
        | lock => simp [hpc, ReplyPc.undeleted] at hundeleted
        | delete => simp [hpc, ReplyPc.undeleted] at hundeleted

/-- A client is served, and `Close` is called while `Run` waits for the next
datagram. -/
def closeAfterDatagram : List Event :=
  [.run (.received [1] guestAddr), .run .lock, .run .lookup, .run .dialled, .run .unlock,
    .run (.wrote 1), .close 0 .listener, .close 0 (.lock [newConnTrackKey guestAddr]),
    .close 0 .conn]

theorem close_final_idle :
    ∃ s s', Reachable s ∧ step s (.close 0 .unlock) = some s' ∧ s'.dials = [guestAddr] ∧
      Finished s' := by
  have hrun : ∃ s, Reach step start s ∧ ((step s (.close 0 .unlock)).any (fun s' =>
      decide (s'.run = .read ∧ s'.dials = [guestAddr] ∧ s'.closed = [0])) = true) :=
    run_of_exec closeAfterDatagram start (by decide +kernel)
  obtain ⟨s, hs, hend⟩ := hrun
  cases hreturn : step s (.close 0 .unlock) with
  | none => simp [hreturn] at hend
  | some s' =>
    simp only [hreturn, Option.any_some, decide_eq_true_eq] at hend
    obtain ⟨hread, hdials, hclosed⟩ := hend
    refine ⟨s, s', hs, hreturn, hdials, (close_final_iff hs hreturn).mpr ⟨by simp [hread], ?_⟩⟩
    intro c loop hloop _
    have hdial := (Reachable.tracked (Run.step _ hs trivial hreturn)).dials_of_loop hloop
    have hlt := (List.getElem?_eq_some_iff.mp hdial).1
    simp only [hdials, List.length_singleton] at hlt
    simp [hclosed, Nat.lt_one_iff.mp hlt]

/-- `Close` runs from start to end while `Run` holds a datagram. -/
def closeWhileReceived : List Event :=
  [.run (.received [1] guestAddr), .close 0 .listener, .close 0 (.lock []), .close 0 .unlock]

/-- `Run` goes on and forwards the datagram. -/
def forwardAfterClose : List Event :=
  [.run .lock, .run .lookup, .run .dialled, .run .unlock, .run (.wrote 1)]

/-- A connection is dialled, used and left open after `Close` has returned. -/
theorem dials_after_close :
    ∃ s, Reachable s ∧ (s.closers 0 = .returned ∧ s.dials = []) ∧
      ∃ s', Reach step s s' ∧ s'.dials = [guestAddr] ∧ s'.closed = [] ∧
        s'.toBackend = [⟨0, guestAddr, [1]⟩] ∧ s'.run = .read := by
  exact runs_of_exec closeWhileReceived forwardAfterClose start (by decide +kernel)

end UDPProxy

end GvisorTapVsock.Services.Forwarder
