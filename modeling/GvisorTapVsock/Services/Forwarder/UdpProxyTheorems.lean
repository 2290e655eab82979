/-
GvisorTapVsock.Services.Forwarder.UdpProxyTheorems — connection tracking of
the UDP proxy, over every interleaving of its goroutines.

`Moves` says once what a step can do to the table, the loops and the records:
six kinds of step, of which only the return of a dial adds an entry and only
the `delete` of a `replyLoop` removes one. `Tracked` is the invariant, and each
kind keeps it (`Tracked.moves`):

  * an entry and the loop that will delete it come and go together, so a loop
    that reaches its `delete` finds its OWN connection under its key;
  * a miss stays a miss until `Run` itself stores, since nobody else adds;
  * a connection that `Run` is about to write to was dialled for the key of the
    sender, also when its loop has meanwhile deleted the entry.

None of this needs the lock to be exclusive between the loops; what the lock
adds is that the map is accessed by one goroutine at a time.
-/
import GvisorTapVsock.Services.Forwarder.UdpProxy

namespace GvisorTapVsock.Services.Forwarder.UDPProxy

open GvisorTapVsock.Go GvisorTapVsock.Lts

/-! ## What a step can do -/

/-- The connection `Run` is about to write to, with the sender it serves. -/
def target : RunPc → Option (Backend × UDPAddr)
  | .unlock _ sender (some proxyConn) => some (proxyConn, sender)
  | .write _ sender proxyConn _ => some (proxyConn, sender)
  | _ => none

/-- The sender for whom `Run` has found no connection. -/
def missed : RunPc → Option UDPAddr
  | .dial _ sender => some sender
  | _ => none

/-- The kinds of step. -/
inductive Moves (s : UDPProxy) : UDPProxy → Prop where
  /-- a step of `Run` that only goes on, or of `Close` -/
  | passes {s' : UDPProxy} (htable : s'.connTrackTable = s.connTrackTable)
      (hloops : s'.loops = s.loops) (hdials : s'.dials = s.dials)
      (hclient : s'.toClient = s.toClient)
      (htarget : ∀ x, target s'.run = some x → target s.run = some x)
      (hmissed : ∀ a, missed s'.run = some a → missed s.run = some a)
      (hsent : ∀ w ∈ s'.toBackend,
        w ∈ s.toBackend ∨ target s.run = some (w.proxyConn, w.sender)) : Moves s s'
  | hits {data : List UInt8} {sender : UDPAddr} {c : Backend}
      (hlookup : s.connTrackTable.lookup (newConnTrackKey sender) = some c) :
      Moves s { s with run := .unlock data sender (some c) }
  | misses {data : List UInt8} {sender : UDPAddr}
      (hlookup : s.connTrackTable.lookup (newConnTrackKey sender) = none) :
      Moves s { s with run := .dial data sender }
  | dials {data : List UInt8} {sender : UDPAddr} (hrun : s.run = .dial data sender) :
      Moves s (s.dialled data sender)
  /-- a step of a `replyLoop` before or after its `delete` -/
  | loops {s' : UDPProxy} {c : Backend} {loop : ReplyLoop} {pc : ReplyPc}
      (hloop : s.loops c = some loop) (hpc : pc.undeleted = loop.pc.undeleted)
      (htable : s'.connTrackTable = s.connTrackTable)
      (hloops : s'.loops = Function.update s.loops c (some { loop with pc := pc }))
      (hdials : s'.dials = s.dials) (hrun : s'.run = s.run)
      (hsent : s'.toBackend = s.toBackend)
      (hclient : ∀ r ∈ s'.toClient,
        r ∈ s.toClient ∨ (r.proxyConn = c ∧ r.clientAddr = loop.clientAddr)) : Moves s s'
  | deletes {c : Backend} {loop : ReplyLoop} (hloop : s.loops c = some loop)
      (hpc : loop.pc = .delete) :
      Moves s { s.goto c loop .unlock with
        connTrackTable := s.connTrackTable.erase loop.clientKey }

variable {s s' : UDPProxy}

theorem target_writeFrom (data : List UInt8) (sender : UDPAddr) (c : Backend) (i : Nat)
    (x : Backend × UDPAddr) :
    target (.writeFrom data sender c i) = some x → (c, sender) = x := by
  unfold RunPc.writeFrom
  split <;> simp [target]

@[simp] theorem missed_writeFrom (data : List UInt8) (sender : UDPAddr) (c : Backend) (i : Nat) :
    missed (.writeFrom data sender c i) = none := by
  unfold RunPc.writeFrom
  split <;> rfl

@[simp] theorem undeleted_writeFrom (data : List UInt8) (i : Nat) :
    (ReplyPc.writeFrom data i).undeleted = true := by
  unfold ReplyPc.writeFrom
  split <;> rfl

/-- `Run` goes on without a connection at hand. -/
theorem Moves.run {pc : RunPc} (ht : target pc = none) (hm : missed pc = none)
    (l : Mutex Goroutine) : Moves s { s with connTrackLock := l, run := pc } :=
  .passes rfl rfl rfl rfl (by simp [ht]) (by simp [hm]) (fun _ => Or.inl)

/-- `Run` has called `Write`. -/
theorem sent_or_target {data : List UInt8} {sender : UDPAddr} {c : Backend} {i : Nat}
    (hrun : s.run = .write data sender c i) :
    ∀ w ∈ s.toBackend ++ [⟨c, sender, data.drop i⟩],
      w ∈ s.toBackend ∨ target s.run = some (w.proxyConn, w.sender) := by
  intro w hw
  rcases List.mem_append.mp hw with hw | hw
  · exact Or.inl hw
  · rw [List.mem_singleton] at hw
    exact Or.inr (by rw [hrun, hw]; rfl)

theorem runStep_moves {m : RunMove} (h : s.runStep m = some s') : Moves s s' := by
  cases runSteps_of_runStep h with
  | received | readFailed | lock | dialFailed | unlockFailed => exact .run rfl rfl _
  | hit _ hlookup => exact .hits hlookup
  | miss _ hlookup => exact .misses hlookup
  | dialled hrun => exact .dials hrun
  | unlock hrun =>
    refine .passes rfl rfl rfl rfl ?_ (by simp) (fun _ => Or.inl)
    intro x hx
    rw [hrun, ← target_writeFrom _ _ _ _ _ hx]
    rfl
  | wrote hrun =>
    refine .passes rfl rfl rfl rfl ?_ (by simp) (sent_or_target hrun)
    intro x hx
    rw [hrun, ← target_writeFrom _ _ _ _ _ hx]
    rfl
  | writeFailed hrun =>
    exact .passes rfl rfl rfl rfl (by simp [target]) (by simp [missed]) (sent_or_target hrun)

theorem replyStep_moves {c : Backend} {loop : ReplyLoop} {m : ReplyMove}
    (hloop : s.loops c = some loop) (h : s.replyStep c loop m = some s') : Moves s s' := by
  have hreplied : ∀ (data : List UInt8) (i : Nat),
      ∀ r ∈ s.toClient ++ [⟨c, loop.clientAddr, data.drop i⟩],
        r ∈ s.toClient ∨ (r.proxyConn = c ∧ r.clientAddr = loop.clientAddr) := by
    intro data i r hr
    rcases List.mem_append.mp hr with hr | hr
    · exact Or.inl hr
    · rw [List.mem_singleton] at hr
      exact Or.inr (by rw [hr]; exact ⟨rfl, rfl⟩)
  cases replySteps_of_replyStep h with
  | read hpc =>
    exact .loops hloop (by rw [undeleted_writeFrom, hpc]; rfl) rfl rfl rfl rfl rfl
      (fun r => Or.inl)
  | wrote hpc =>
    exact .loops hloop (by rw [undeleted_writeFrom, hpc]; rfl) rfl rfl rfl rfl rfl (hreplied _ _)
  | writeFailed hpc =>
    exact .loops hloop (by rw [hpc]; rfl) rfl rfl rfl rfl rfl (hreplied _ _)
  | delete hpc => exact .deletes hloop hpc
  | refused hpc => exact .loops hloop (by rw [hpc]) rfl rfl rfl rfl rfl (fun r => Or.inl)
  | readFailed hpc | lock hpc | unlock hpc | close hpc =>
    exact .loops hloop (by rw [hpc]; rfl) rfl rfl rfl rfl rfl (fun r => Or.inl)

theorem closeStep_moves {i : Nat} {m : CloseMove} (h : s.closeStep i m = some s') :
    Moves s s' := by
  cases closeSteps_of_closeStep h <;>
    exact .passes rfl rfl rfl rfl (fun _ => id) (fun _ => id) (fun _ => Or.inl)

/-- Every step is of one of these kinds. -/
theorem step_moves {e : Event} (h : step s e = some s') : Moves s s' := by
  cases e with
  | run m => exact runStep_moves h
  | reply c m =>
    rw [step] at h
    cases hloop : s.loops c with
    | none => simp [hloop] at h
    | some loop =>
      rw [hloop] at h
      exact replyStep_moves hloop h
  | close i m => exact closeStep_moves h

/-! ## The invariant -/

/-- What holds in every state that is reached. -/
structure Tracked (s : UDPProxy) : Prop where
  entry_iff : ∀ k c, s.connTrackTable.lookup k = some c ↔
    ∃ loop, s.loops c = some loop ∧ loop.clientKey = k ∧ loop.pc.undeleted = true
  client : ∀ c, (s.loops c).map ReplyLoop.clientAddr = s.dials[c]?
  clientKey : ∀ c loop, s.loops c = some loop →
    loop.clientKey = newConnTrackKey loop.clientAddr
  missed : ∀ sender, missed s.run = some sender →
    s.connTrackTable.lookup (newConnTrackKey sender) = none
  target : ∀ c sender, target s.run = some (c, sender) →
    s.DialledFor c (newConnTrackKey sender)
  sent : ∀ w ∈ s.toBackend, s.DialledFor w.proxyConn (newConnTrackKey w.sender)
  replied : ∀ r ∈ s.toClient, s.dials[r.proxyConn]? = some r.clientAddr

theorem tracked_start : Tracked start := by
  constructor <;> simp [start, UDPProxy.target, UDPProxy.missed]

theorem Tracked.dials_of_loop (h : Tracked s) {c : Backend} {loop : ReplyLoop}
    (hloop : s.loops c = some loop) : s.dials[c]? = some loop.clientAddr := by
  rw [← h.client, hloop]
  rfl

/-- A connection that is in the table was dialled for its key. -/
theorem Tracked.dialledFor (h : Tracked s) {k : ConnTrackKey} {c : Backend}
    (hlookup : s.connTrackTable.lookup k = some c) : s.DialledFor c k := by
  obtain ⟨loop, hloop, hkey, -⟩ := (h.entry_iff k c).mp hlookup
  exact ⟨loop.clientAddr, h.dials_of_loop hloop, (h.clientKey c loop hloop).symm.trans hkey⟩

/-- The next connection has no loop yet. -/
theorem Tracked.loops_length (h : Tracked s) : s.loops s.dials.length = none := by
  have hnone := h.client s.dials.length
  rwa [List.getElem?_eq_none (Nat.le_refl _), Option.map_eq_none_iff] at hnone

/-- A loop that is about to delete finds its own connection under its key. -/
theorem Tracked.own_entry (h : Tracked s) {c : Backend} {loop : ReplyLoop}
    (hloop : s.loops c = some loop) (hpc : loop.pc = .delete) :
    s.connTrackTable.lookup loop.clientKey = some c :=
  (h.entry_iff _ _).mpr ⟨loop, hloop, rfl, by rw [hpc]; rfl⟩

/-! ### A step that passes -/

theorem Tracked.passes (h : Tracked s) (htable : s'.connTrackTable = s.connTrackTable)
    (hloops : s'.loops = s.loops) (hdials : s'.dials = s.dials)
    (hclient : s'.toClient = s.toClient)
    (htarget : ∀ x, UDPProxy.target s'.run = some x → UDPProxy.target s.run = some x)
    (hmissed : ∀ a, UDPProxy.missed s'.run = some a → UDPProxy.missed s.run = some a)
    (hsent : ∀ w ∈ s'.toBackend,
      w ∈ s.toBackend ∨ UDPProxy.target s.run = some (w.proxyConn, w.sender)) : Tracked s' where
  entry_iff := by rw [htable, hloops]; exact h.entry_iff
  client := by rw [hloops, hdials]; exact h.client
  clientKey := by rw [hloops]; exact h.clientKey
  missed := by
    intro sender hmiss
    rw [htable]
    exact h.missed sender (hmissed sender hmiss)
  target := by
    intro c sender ht
    rw [DialledFor, hdials]
    exact h.target c sender (htarget _ ht)
  sent := by
    intro w hw
    rw [DialledFor, hdials]
    rcases hsent w hw with hw | hw
    · exact h.sent w hw
    · exact h.target _ _ hw
  replied := by rw [hclient, hdials]; exact h.replied

/-! ### A dial -/

/-- A dial keeps the dials before it. -/
theorem getElem?_dials_append {sender : UDPAddr} {c : Backend} {a : UDPAddr}
    (h : s.dials[c]? = some a) : (s.dials ++ [sender])[c]? = some a := by
  rw [List.getElem?_append_left (List.getElem?_eq_some_iff.mp h).1, h]

theorem DialledFor.dialled {c : Backend} {k : ConnTrackKey} {data : List UInt8}
    {sender : UDPAddr} (h : s.DialledFor c k) : (s.dialled data sender).DialledFor c k := by
  obtain ⟨a, ha, hk⟩ := h
  exact ⟨a, getElem?_dials_append ha, hk⟩

/-- The entry of the new connection is its own, and the others stay. -/
theorem Tracked.entry_dialled (h : Tracked s) {data : List UInt8} {sender : UDPAddr}
    (hmiss : s.connTrackTable.lookup (newConnTrackKey sender) = none) (k : ConnTrackKey)
    (c : Backend) :
    (s.dialled data sender).connTrackTable.lookup k = some c ↔
      ∃ loop, (s.dialled data sender).loops c = some loop ∧ loop.clientKey = k ∧
        loop.pc.undeleted = true := by
  show (s.connTrackTable.insert _ _).lookup k = some c ↔
    ∃ loop, Function.update s.loops s.dials.length _ c = some loop ∧ _
  rw [GoMap.lookup_insert_eq]
  by_cases hc : c = s.dials.length
  · subst hc
    rw [Function.update_self]
    by_cases hk : k = newConnTrackKey sender
    · simp [hk, ReplyPc.undeleted]
    · simp [hk, Ne.symm hk, h.entry_iff, h.loops_length]
  · rw [Function.update_of_ne hc]
    by_cases hk : k = newConnTrackKey sender
    · -- the table had no entry for this key
      rw [if_pos hk, hk, ← h.entry_iff, hmiss]
      simpa using Ne.symm hc
    · rw [if_neg hk]
      exact h.entry_iff k c

theorem Tracked.client_dialled (h : Tracked s) (data : List UInt8) (sender : UDPAddr)
    (c : Backend) :
    ((s.dialled data sender).loops c).map ReplyLoop.clientAddr =
      (s.dialled data sender).dials[c]? := by
  show (Function.update s.loops s.dials.length _ c).map _ = (s.dials ++ [sender])[c]?
  by_cases hc : c = s.dials.length
  · subst hc
    simp
  · rw [Function.update_of_ne hc, h.client]
    rcases Nat.lt_or_gt_of_ne hc with hlt | hgt
    · rw [List.getElem?_append_left hlt]
    · rw [List.getElem?_eq_none (Nat.le_of_lt hgt), List.getElem?_eq_none (by simp; omega)]

theorem Tracked.dials (h : Tracked s) {data : List UInt8} {sender : UDPAddr}
    (hrun : s.run = .dial data sender) : Tracked (s.dialled data sender) where
  entry_iff := h.entry_dialled (h.missed sender (by rw [hrun]; rfl))
  client := h.client_dialled data sender
  clientKey := by
    intro c loop hloop
    by_cases hc : c = s.dials.length
    · subst hc
      have hnew := (Function.update_self _ _ _).symm.trans hloop
      rw [← Option.some.inj hnew]
    · exact h.clientKey c loop ((Function.update_of_ne hc _ _).symm.trans hloop)
  missed := by simp [dialled, UDPProxy.missed]
  target := by
    intro c a ht
    simp only [dialled, UDPProxy.target, Option.some.injEq, Prod.mk.injEq] at ht
    obtain ⟨rfl, rfl⟩ := ht
    exact ⟨sender, by simp [dialled], rfl⟩
  sent := fun w hw => (h.sent w hw).dialled
  replied := fun r hr => getElem?_dials_append (h.replied r hr)

/-! ### A reply loop -/

/-- A loop that goes on keeps its client. -/
theorem Tracked.client_update (h : Tracked s) {c : Backend} {loop : ReplyLoop}
    (hloop : s.loops c = some loop) (pc : ReplyPc) (c' : Backend) :
    (Function.update s.loops c (some { loop with pc := pc }) c').map ReplyLoop.clientAddr =
      s.dials[c']? := by
  by_cases hc : c' = c
  · subst hc
    rw [Function.update_self, h.dials_of_loop hloop]
    rfl
  · rw [Function.update_of_ne hc, h.client]

theorem Tracked.clientKey_update (h : Tracked s) {c : Backend} {loop : ReplyLoop}
    (hloop : s.loops c = some loop) (pc : ReplyPc) (c' : Backend) (loop' : ReplyLoop)
    (hloop' : Function.update s.loops c (some { loop with pc := pc }) c' = some loop') :
    loop'.clientKey = newConnTrackKey loop'.clientAddr := by
  by_cases hc : c' = c
  · subst hc
    rw [Function.update_self] at hloop'
    rw [← Option.some.inj hloop']
    exact h.clientKey c' loop hloop
  · rw [Function.update_of_ne hc] at hloop'
    exact h.clientKey c' loop' hloop'

theorem Tracked.loops (h : Tracked s) {c : Backend} {loop : ReplyLoop} {pc : ReplyPc}
    (hloop : s.loops c = some loop) (hpc : pc.undeleted = loop.pc.undeleted)
    (htable : s'.connTrackTable = s.connTrackTable)
    (hloops : s'.loops = Function.update s.loops c (some { loop with pc := pc }))
    (hdials : s'.dials = s.dials) (hrun : s'.run = s.run) (hsent : s'.toBackend = s.toBackend)
    (hclient : ∀ r ∈ s'.toClient,
      r ∈ s.toClient ∨ (r.proxyConn = c ∧ r.clientAddr = loop.clientAddr)) : Tracked s' where
  entry_iff := by
    intro k c'
    rw [htable, hloops, h.entry_iff]
    by_cases hc : c' = c
    · subst hc
      simp [hloop, hpc]
    · rw [Function.update_of_ne hc]
  client := by rw [hloops, hdials]; exact h.client_update hloop pc
  clientKey := by rw [hloops]; exact h.clientKey_update hloop pc
  missed := by rw [hrun, htable]; exact h.missed
  target := by
    intro c' sender ht
    rw [hrun] at ht
    rw [DialledFor, hdials]
    exact h.target c' sender ht
  sent := by
    intro w hw
    rw [hsent] at hw
    rw [DialledFor, hdials]
    exact h.sent w hw
  replied := by
    intro r hr
    rw [hdials]
    rcases hclient r hr with hr | ⟨hr, haddr⟩
    · exact h.replied r hr
    · rw [hr, haddr]
      exact h.dials_of_loop hloop

theorem Tracked.deletes (h : Tracked s) {c : Backend} {loop : ReplyLoop}
    (hloop : s.loops c = some loop) (hpc : loop.pc = .delete) :
    Tracked { s.goto c loop .unlock with
      connTrackTable := s.connTrackTable.erase loop.clientKey } where
  entry_iff := by
    intro k c'
    show (s.connTrackTable.erase loop.clientKey).lookup k = some c' ↔
      ∃ loop', Function.update s.loops c _ c' = some loop' ∧ _
    rw [GoMap.lookup_erase_eq]
    by_cases hc : c' = c
    · -- this loop has run its delete
      subst hc
      rw [Function.update_self]
      by_cases hk : k = loop.clientKey
      · simp [hk, ReplyPc.undeleted]
      · simp [hk, Ne.symm hk, h.entry_iff, hloop]
    · rw [Function.update_of_ne hc]
      by_cases hk : k = loop.clientKey
      · -- and no other loop has its key
        rw [if_pos hk, hk, ← h.entry_iff, h.own_entry hloop hpc]
        simpa using Ne.symm hc
      · rw [if_neg hk]
        exact h.entry_iff k c'
  client := h.client_update hloop .unlock
  clientKey := h.clientKey_update hloop .unlock
  missed := by
    intro sender hmiss
    show (s.connTrackTable.erase loop.clientKey).lookup _ = none
    rw [GoMap.lookup_erase_eq, h.missed sender hmiss, ite_self]
  target := h.target
  sent := h.sent
  replied := h.replied

/-! ### Runs -/

/-- Every step keeps the invariant. -/
theorem Tracked.moves (h : Tracked s) (hmoves : Moves s s') : Tracked s' := by
  cases hmoves with
  | passes htable hloops hdials hclient htarget hmissed hsent =>
    exact h.passes htable hloops hdials hclient htarget hmissed hsent
  | hits hlookup =>
    refine ⟨h.entry_iff, h.client, h.clientKey, by simp [UDPProxy.missed], ?_, h.sent, h.replied⟩
    intro c sender ht
    simp only [UDPProxy.target, Option.some.injEq, Prod.mk.injEq] at ht
    obtain ⟨rfl, rfl⟩ := ht
    exact h.dialledFor hlookup
  | misses hlookup =>
    refine ⟨h.entry_iff, h.client, h.clientKey, ?_, by simp [UDPProxy.target], h.sent, h.replied⟩
    intro sender hmiss
    rw [← Option.some.inj hmiss]
    exact hlookup
  | dials hrun => exact h.dials hrun
  | loops hloop hpc htable hloops hdials hrun hsent hclient =>
    exact h.loops hloop hpc htable hloops hdials hrun hsent hclient
  | deletes hloop hpc => exact h.deletes hloop hpc

/-- **Every state that is reached is tracked.** -/
theorem Reachable.tracked (h : Reachable s) : Tracked s := by
  induction h with
  | refl => exact tracked_start
  | step e run _ next ih => exact ih.moves (step_moves next)

/-! ## Connection tracking -/

/-- The entries are the connections whose loop has yet to delete. -/
theorem Tracked.lookup_iff (h : Tracked s) (k : ConnTrackKey) (c : Backend) :
    s.connTrackTable.lookup k = some c ↔ s.DialledFor c k ∧ s.Undeleted c := by
  refine ⟨fun hlookup => ⟨h.dialledFor hlookup, ?_⟩, fun ⟨⟨a, ha, hk⟩, loop, hloop, hpc⟩ => ?_⟩
  · obtain ⟨loop, hloop, -, hpc⟩ := (h.entry_iff k c).mp hlookup
    exact ⟨loop, hloop, hpc⟩
  · refine (h.entry_iff k c).mpr ⟨loop, hloop, ?_, hpc⟩
    rw [h.dials_of_loop hloop, Option.some.injEq] at ha
    rw [h.clientKey c loop hloop, ha, hk]

/-- **In every state that is reached, an entry is a connection dialled for its
key whose loop has yet to delete it; a loop deletes its own entry; no key has
two such loops; replies go to the client that made `Run` dial, and datagrams to
a connection dialled for their sender.** -/
theorem conntrack_exact (hs : Reachable s) :
    (∀ k c, s.connTrackTable.lookup k = some c ↔ s.DialledFor c k ∧ s.Undeleted c) ∧
      (∀ c s', step s (.reply c .delete) = some s' →
        ∃ k, s.DialledFor c k ∧ s.connTrackTable.lookup k = some c ∧
          s'.connTrackTable = s.connTrackTable.erase k) ∧
      (∀ k c c', s.DialledFor c k → s.Undeleted c → s.DialledFor c' k → s.Undeleted c' →
        c = c') ∧
      (∀ r ∈ s.toClient, s.dials[r.proxyConn]? = some r.clientAddr) ∧
      ∀ w ∈ s.toBackend, s.DialledFor w.proxyConn (newConnTrackKey w.sender) := by
  have h := Reachable.tracked hs
  refine ⟨h.lookup_iff, ?_, ?_, h.replied, h.sent⟩
  · intro c s' hstep
    rw [step] at hstep
    cases hloop : s.loops c with
    | none => simp [hloop] at hstep
    | some loop =>
      simp only [hloop] at hstep
      cases replySteps_of_replyStep hstep with
      | delete hpc =>
        have hown := h.own_entry hloop hpc
        exact ⟨loop.clientKey, h.dialledFor hown, hown, rfl⟩
  · intro k c c' hdial hundeleted hdial' hundeleted'
    have hc := (h.lookup_iff k c).mpr ⟨hdial, hundeleted⟩
    rw [(h.lookup_iff k c').mpr ⟨hdial', hundeleted'⟩, Option.some.injEq] at hc
    exact hc.symm

/-- A client in the guest. -/
def guestAddr : UDPAddr := ⟨[192, 168, 127, 2], 5353, "", Or.inl rfl⟩

/-- A client whose connection expires while its next datagram is under way: the
second connection is stored before the first is closed. -/
def redial : List Event :=
  [.run (.received [1] guestAddr), .run .lock, .run .lookup, .run .dialled, .run .unlock,
    .run (.wrote 1), .reply 0 .readFailed, .run (.received [2] guestAddr), .reply 0 .lock,
    .reply 0 .delete, .reply 0 .unlock, .run .lock, .run .lookup, .run .dialled, .run .unlock,
    .reply 0 .close]

theorem redial_tracked :
    ∃ s, Reachable s ∧ s.dials = [guestAddr, guestAddr] ∧
      s.DialledFor 1 (newConnTrackKey guestAddr) ∧ s.Undeleted 1 ∧ ¬ s.Undeleted 0 := by
  have hrun : ∃ s, Reach step start s ∧ s.dials = [guestAddr, guestAddr] ∧
      s.connTrackTable.lookup (newConnTrackKey guestAddr) = some 1 :=
    run_of_exec redial start (by decide +kernel)
  obtain ⟨s, hs, hdials, hlookup⟩ := hrun
  have hexact := conntrack_exact hs
  obtain ⟨hdial, hundeleted⟩ := (hexact.1 _ 1).mp hlookup
  refine ⟨s, hs, hdials, hdial, hundeleted, fun hzero => ?_⟩
  have hdial₀ : s.DialledFor 0 (newConnTrackKey guestAddr) := ⟨guestAddr, by simp [hdials], rfl⟩
  exact absurd (hexact.2.2.1 _ 0 1 hdial₀ hzero hdial hundeleted) (by decide)

end GvisorTapVsock.Services.Forwarder.UDPProxy
