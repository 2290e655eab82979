/-
GvisorTapVsock.Tap.CamTheorems — the CAM table over whole runs.

`e.cam` is a function of the log (`cam_eq_history`): an address points at the
connection that learned it last, unless that connection was disconnected
since. What it is NOT is a subset of `e.conns`. A write that fails on another
goroutine disconnects an id whose rx loop still holds a frame; that loop then
learns the frame's source for an id that is gone, and the next frame to the
address reads the zero `protocolConn` and dereferences its nil protocol.
Where no learn comes after the disconnect of its connection the two maps
agree (`cam_subset_conns`).
-/
import GvisorTapVsock.Tap.ConnIdTheorems

namespace GvisorTapVsock.Tap

open GvisorTapVsock.Go GvisorTapVsock.Lts

variable {gateway : LinkAddress} {s : State}

/-! ## The table as a function of the log -/

/-- The last learn of the address was on this connection, and no disconnect of
the connection came after it. -/
def LearnedLast (log : List Action) (m : LinkAddress) (id : ConnId) : Prop :=
  ∃ older newer, log = older ++ .learn id m :: newer ∧
    (∀ j, .learn j m ∉ newer) ∧ .disconnect id ∉ newer

theorem learnedLast_append (log : List Action) (a : Action) (m : LinkAddress) (id : ConnId) :
    LearnedLast (log ++ [a]) m id ↔
      a = .learn id m ∨
        LearnedLast log m id ∧ (∀ j, a ≠ .learn j m) ∧ a ≠ .disconnect id := by
  constructor
  · rintro ⟨older, newer, hlog, hlearn, hdisc⟩
    rcases List.eq_nil_or_concat newer with rfl | ⟨newer, b, rfl⟩
    · obtain ⟨-, ha⟩ := List.append_inj' hlog rfl
      exact Or.inl (List.cons.inj ha).1
    · rw [List.concat_eq_append] at hlog hlearn hdisc
      rw [← List.cons_append, ← List.append_assoc] at hlog
      obtain ⟨hrest, hb⟩ := List.append_inj' hlog rfl
      obtain ⟨rfl, -⟩ := List.cons.inj hb
      simp only [List.mem_append, List.mem_singleton, not_or] at hlearn hdisc
      exact Or.inr ⟨⟨older, newer, hrest, fun j => (hlearn j).1, hdisc.1⟩,
        fun j => Ne.symm (hlearn j).2, Ne.symm hdisc.2⟩
  · rintro (rfl | ⟨⟨older, newer, rfl, hlearn, hdisc⟩, halearn, hadisc⟩)
    · exact ⟨log, [], rfl, by simp, by simp⟩
    · refine ⟨older, newer ++ [a], by simp, fun j => ?_, ?_⟩
      · rw [List.mem_append, List.mem_singleton, not_or]
        exact ⟨hlearn j, Ne.symm (halearn j)⟩
      · rw [List.mem_append, List.mem_singleton, not_or]
        exact ⟨hdisc, Ne.symm hadisc⟩

/-- The table holds the last learn of each address. -/
theorem cam_eq_history (hreach : Reachable gateway s) :
    ∀ m id, s.sw.cam.lookup m = some id ↔ LearnedLast s.log m id := by
  induction hreach using Reachable.invariant with
  | init =>
    intro m id
    simp [State.init, Switch.new, LearnedLast]
  | step s t pc a sw _ ih hs =>
    intro m id
    show sw.cam.lookup m = some id ↔ LearnedLast (s.log ++ [a]) m id
    rw [learnedLast_append]
    rcases Switch.cam_apply hs.applies with
      ⟨i, src, rfl, heq⟩ | ⟨i, rfl, heq⟩ | ⟨hlearn, hdisc, heq⟩
    · rw [heq, GoMap.lookup_insert_eq]
      by_cases hm : m = src
      · subst hm
        simp
      · have hne : ∀ j, Action.learn i src ≠ .learn j m := by
          intro j h
          exact hm (Action.learn.inj h).2.symm
        rw [if_neg hm, ih m id]
        exact ⟨fun h => Or.inr ⟨h, hne, by simp⟩, fun h => h.elim (absurd · (hne id)) (·.1)⟩
    · rw [heq, Switch.cam_disconnect, ih m id]
      simp only [reduceCtorEq, false_or, ne_eq, Action.disconnect.injEq, not_false_eq_true,
        implies_true, true_and]
      exact and_congr_right fun _ => not_congr eq_comm
    · rw [heq, ih m id]
      exact ⟨fun h => Or.inr ⟨h, fun j => hlearn j m, hdisc id⟩,
        fun h => h.elim (absurd · (hlearn id m)) (·.1)⟩

/-! ## The table and the connections -/

/-- Whoever serves a connection has connected it. -/
theorem connected_of_acceptOf (hreach : Reachable gateway s) :
    ∀ t i, (s.pc t).acceptOf = some i → i ∈ connectIds s.log := by
  induction hreach using Reachable.invariant with
  | init =>
    intro t i h
    simp [State.init, Pc.acceptOf, Pc.rx?] at h
  | step s t pc a sw _ ih hs =>
    intro t' i h
    have hmono : ∀ i, i ∈ connectIds s.log → i ∈ connectIds (s.log ++ [a]) := by
      intro i hi
      rw [connectIds, List.filterMap_append]
      exact List.mem_append_left _ hi
    by_cases ht : t' = t
    · subst ht
      simp only [Function.update_self] at h
      rcases hs.moves.acceptOf with hsame | ⟨impl, rfl, -, hnew⟩ | ⟨_, -, -, -, hnone⟩
      · exact hmono i (ih t' i (hsame ▸ h))
      · rw [hnew, Option.some.injEq] at h
        exact mem_connectIds.mpr ⟨impl, by simp [h]⟩
      · simp [hnone] at h
    · simp only [Function.update_of_ne ht] at h
      exact hmono i (ih t' i h)

/-- A connection leaves `e.conns` by `disconnect` only. -/
theorem conns_of_connected (hreach : Reachable gateway s) :
    ∀ i ∈ connectIds s.log, .disconnect i ∉ s.log →
      ∃ impl, s.sw.conns.lookup i = some impl := by
  induction hreach using Reachable.invariant with
  | init => exact nofun
  | step s t pc a sw _ ih hs =>
    intro i hi hdisc
    obtain ⟨impl, hi⟩ := mem_connectIds.mp hi
    rw [List.mem_append, not_or, List.mem_singleton] at hdisc
    show ∃ impl, sw.conns.lookup i = some impl
    have hold : .connect i impl ∈ s.log → ∃ impl, s.sw.conns.lookup i = some impl :=
      fun h => ih i (mem_connectIds.mpr ⟨impl, h⟩) hdisc.1
    rw [List.mem_append, List.mem_singleton] at hi
    rcases Switch.conns_apply hs.applies with
      ⟨id, impl', rfl, heq⟩ | ⟨id, rfl, heq⟩ | ⟨hconnect, -, heq⟩
    · rw [heq, GoMap.lookup_insert_eq]
      by_cases hid : i = id
      · exact ⟨impl', if_pos hid⟩
      · rw [if_neg hid]
        exact hold (hi.resolve_right fun h => hid (Action.connect.inj h).1)
    · rw [heq, AList.lookup_erase_ne fun hid : i = id => hdisc.2 (by rw [hid])]
      exact hold (hi.resolve_right nofun)
    · rw [heq]
      exact hold (hi.resolve_right fun h => hconnect i impl h.symm)

/-- The connection on which the action learns. -/
def Action.learnsOn : Action → Option ConnId
  | .learn id _ => some id
  | _ => none

/-- No connection learns after it was disconnected. -/
def LearnsConnected (s : State) (a : Action) : Prop :=
  ∀ id ∈ a.learnsOn, .disconnect id ∉ s.log

instance (s : State) (a : Action) : Decidable (LearnsConnected s a) :=
  inferInstanceAs (Decidable (∀ id ∈ a.learnsOn, .disconnect id ∉ s.log))

/-- With such learns only, `e.cam` refers to no disconnected id. -/
theorem cam_not_disconnected (hrun : Runs gateway LearnsConnected State.init s) :
    ∀ m id, s.sw.cam.lookup m = some id → .disconnect id ∉ s.log := by
  induction hrun using Runs.invariant with
  | init =>
    intro m id h
    simp [State.init, Switch.new] at h
  | step s t pc a sw _ ih hok hs _ =>
    intro m id h
    show .disconnect id ∉ s.log ++ [a]
    rw [List.mem_append, List.mem_singleton, not_or]
    rcases Switch.cam_apply hs.applies with
      ⟨i, src, rfl, heq⟩ | ⟨i, rfl, heq⟩ | ⟨-, hdisc, heq⟩
    all_goals simp only [heq] at h
    · refine ⟨?_, by simp⟩
      rw [GoMap.lookup_insert_eq] at h
      by_cases hm : m = src
      · rw [if_pos hm, Option.some.injEq] at h
        exact h ▸ hok i rfl
      · rw [if_neg hm] at h
        exact ih m id h
    · obtain ⟨h, hid⟩ := (Switch.cam_disconnect _ _ _ _).mp h
      exact ⟨ih m id h, fun hd => hid (Action.disconnect.inj hd)⟩
    · exact ⟨ih m id h, Ne.symm (hdisc id)⟩

/-- With such learns only, every id in `e.cam` is a key of `e.conns`. -/
theorem cam_subset_conns (hrun : Runs gateway LearnsConnected State.init s)
    {m : LinkAddress} {id : ConnId} (h : s.sw.cam.lookup m = some id) :
    ∃ impl, s.sw.conns.lookup id = some impl := by
  obtain ⟨t, ht⟩ := live_of_cam hrun.reach m id h
  exact conns_of_connected hrun.reach id
    (connected_of_acceptOf hrun.reach t id (Pc.acceptOf_of_liveId ht))
    (cam_not_disconnected hrun m id h)

/-! ## The unicast branch -/

/-- Only the unicast lookup leads to the unicast branch. -/
theorem Moves.of_unicast {pc : Pc} {x : Tx} {id : ConnId} {a : Action}
    (h : Moves gateway s pc (.tx x (.unicast id)) a) :
    a = .panic .nilDereference ∧ pc = .tx x (.unicast id) ∨
      ∃ dst, s.sw.cam.lookup dst = some id ∧ a = .lookup x.key s.sw.conns.keys (some id) := by
  cases h with
  | @tx y _ _ _ moves =>
    generalize hpc : Pc.tx x (.unicast id) = pc' at moves
    cases moves with
    | lookupHit unicast hit => cases hpc; exact Or.inr ⟨_, hit, rfl⟩
    | unicastNil => cases hpc; exact Or.inl ⟨rfl, rfl⟩
    | unlock => cases y <;> cases hpc
    | _ => cases hpc

/-- The connection the unicast branch fetches is there. -/
theorem unicast_conns (hrun : Runs gateway LearnsConnected State.init s) :
    ∀ t x id, s.pc t = .tx x (.unicast id) → ∃ impl, s.sw.conns.lookup id = some impl := by
  induction hrun using Runs.invariant with
  | init =>
    intro t x id h
    simp [State.init] at h
  | step s t pc a sw hrun ih _ hs _ =>
    intro t' x id h
    show ∃ impl, sw.conns.lookup id = some impl
    by_cases ht : t' = t
    · subst ht
      simp only [Function.update_self] at h
      subst h
      rcases hs.moves.of_unicast with ⟨rfl, hpc⟩ | ⟨dst, hhit, rfl⟩
      · have hsw := Option.some.inj hs.applies
        exact hsw ▸ ih t' x id hpc
      · have hsw := Option.some.inj hs.applies
        exact hsw ▸ cam_subset_conns hrun hhit
    · simp only [Function.update_of_ne ht] at h
      rw [hs.conns_of_other hrun.reach ht (by rw [h]; rfl)]
      exact ih t' x id h

/-! ## Panics -/

theorem sourceAddress_ne_nil (b : Slice UInt8) : sourceAddress b ≠ .error .nilDereference := by
  rw [sourceAddress_eq]
  split <;> simp

theorem destinationAddress_ne_nil (b : Slice UInt8) :
    destinationAddress b ≠ .error .nilDereference := by
  rw [destinationAddress_eq]
  split <;> simp

theorem ethernetType_ne_nil (b : Slice UInt8) : ethernetType b ≠ .error .nilDereference := by
  refine Slice.bind_ne_error (Slice.dropFront_ne_nil b 12) fun t => ?_
  refine Slice.bind_ne_error (Slice.index_ne_nil t 1) fun low => ?_
  exact Slice.bind_ne_error (Slice.index_ne_nil t 0) fun high => nofun

theorem isForwarded_ne_nil (b : Slice UInt8) :
    isForwarded gateway b ≠ .error .nilDereference := by
  unfold isForwarded
  cases h : destinationAddress b with
  | error p =>
    exact fun hp => destinationAddress_ne_nil b (h.trans (congrArg _ (Except.error.inj hp)))
  | ok dst => exact nofun

theorem txAddresses_ne_nil (pkt : List UInt8) : txAddresses pkt ≠ .error .nilDereference := by
  refine Slice.bind_ne_error (destinationAddress_ne_nil _) fun dst => ?_
  exact Slice.bind_ne_error (sourceAddress_ne_nil _) fun src => nofun

theorem handedUp_ne_nil (b : Slice UInt8) : handedUp gateway b ≠ .error .nilDereference := by
  refine Slice.bind_ne_error (destinationAddress_ne_nil _) fun dst => ?_
  split
  · exact Slice.bind_ne_error (ethernetType_ne_nil _) fun type => nofun
  · exact nofun

/-- The accesses that can panic: the header fields in `rxBuf`, those in
`txPkt`, and the missing connection of the unicast branch. -/
theorem Moves.of_panic {pc pc' : Pc} {p : Panic} (h : Moves gateway s pc pc' (.panic p)) :
    (∃ r, pc.rx? = some r ∧ (sourceAddress r.buf = .error p ∨
        isForwarded gateway r.buf = .error p ∨ handedUp gateway r.buf = .error p)) ∨
      (∃ x q, pc = .tx x q ∧ txAddresses x.pkt = .error p) ∨
      ∃ x id, pc = .tx x (.unicast id) ∧ s.sw.conns.lookup id = none := by
  cases h with
  | learnPanic source => exact Or.inl ⟨_, rfl, Or.inl source⟩
  | forwardPanic forwarded => exact Or.inl ⟨_, rfl, Or.inr (Or.inl forwarded)⟩
  | handUpPanic handed => exact Or.inl ⟨_, rfl, Or.inr (Or.inr handed)⟩
  | tx moves =>
    cases moves with
    | parsePanic addresses => exact Or.inr (Or.inl ⟨_, _, rfl, addresses⟩)
    | unicastNil gone => exact Or.inr (Or.inr ⟨_, _, rfl, gone⟩)

theorem panicked_append_eq_some {sw : Switch} {pc : Goroutine → Pc} {log : List Action}
    {a : Action} {p : Panic} :
    State.panicked ⟨sw, pc, log ++ [a]⟩ = some p ↔ a = .panic p := by
  rw [State.panicked, List.getLast?_concat]
  cases a <;> simp

theorem panicked_ne_nil (hrun : Runs gateway LearnsConnected State.init s) :
    s.panicked ≠ some .nilDereference := by
  induction hrun using Runs.invariant with
  | init => exact nofun
  | step s t pc a sw hrun _ _ hs _ =>
    intro hpanic
    obtain rfl := panicked_append_eq_some.mp hpanic
    rcases hs.moves.of_panic with ⟨r, -, h | h | h⟩ | ⟨x, q, -, h⟩ | ⟨x, id, hpc, hgone⟩
    · exact sourceAddress_ne_nil _ h
    · exact isForwarded_ne_nil _ h
    · exact handedUp_ne_nil _ h
    · exact txAddresses_ne_nil _ h
    · obtain ⟨impl, hconn⟩ := unicast_conns hrun t x id hpc
      exact absurd (hgone.symm.trans hconn) nofun

/-- **`e.cam` inside `e.conns`.** In every run, up to a panic, in which no
connection learns after it was disconnected, every state satisfies: each id in
`e.cam` is a key of `e.conns`, the connection that the unicast branch of `txPkt`
is about to fetch is there, and nothing has dereferenced a nil protocol. -/
theorem cam_safe_of_learnsConnected (hrun : Runs gateway LearnsConnected State.init s) :
    (∀ m id, s.sw.cam.lookup m = some id → ∃ impl, s.sw.conns.lookup id = some impl) ∧
      (∀ t x id, s.pc t = .tx x (.unicast id) → ∃ impl, s.sw.conns.lookup id = some impl) ∧
      s.panicked ≠ some .nilDereference :=
  ⟨fun _ _ h => cam_subset_conns hrun h, unicast_conns hrun, panicked_ne_nil hrun⟩

/-- A run that meets the condition: the gateway's answer reaches the
connection that has just learned its address. -/
theorem cam_safe_answer :
    ∃ s, Runs gatewayMacAddress LearnsConnected State.init s ∧
      s.sw.cam.lookup tapMacAddress = some 0 ∧
      (∃ impl, s.sw.conns.lookup 0 = some impl) ∧ s.panicked ≠ some .nilDereference := by
  obtain ⟨s, hrun, hcam⟩ := runs_of_exec LearnsConnected
    (fun s => s.sw.cam.lookup tapMacAddress = some 0)
    (accepts 0 .qemuProtocol ++ [receives 0 (gatewayMacAddress ++ tapMacAddress ++ [8, 0])] ++
      goes 0 4 ++ [⟨0, .send (tapMacAddress ++ gatewayMacAddress ++ [8, 0])⟩] ++ goes 0 5 ++
      [⟨0, .write .ok⟩])
    (by decide)
  obtain ⟨hconns, -, hpanic⟩ := cam_safe_of_learnsConnected hrun
  exact ⟨s, hrun, hcam, hconns tapMacAddress 0 hcam, hpanic⟩

/-- A late learn leaves an address that points at no connection, and the next
packet for it ends the process. -/
theorem lateLearn_nilDereference :
    ∃ s, Reachable gatewayMacAddress s ∧ s.sw.cam.lookup tapMacAddress = some 0 ∧
      s.sw.conns.lookup 0 = none ∧ s.panicked = some .nilDereference := by
  exact reachable_of_exec _
    (lateLearn ++ [⟨2, .send (tapMacAddress ++ gatewayMacAddress ++ [8, 0])⟩] ++ goes 2 6)
    (by decide)

end GvisorTapVsock.Tap
