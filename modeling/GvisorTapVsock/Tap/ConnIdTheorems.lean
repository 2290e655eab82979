/-
GvisorTapVsock.Tap.ConnIdTheorems — connection ids over whole runs.

`disconnect` can run twice for one id, from a failed write and from the
deferred call of `Accept`, and between the two the rx loop of the connection
can learn addresses again. The clean-up is complete all the same, because
every id in `e.conns` and in `e.cam` belongs to an `Accept` that has not
reached its deferred `disconnect` yet (`live_of_conns`, `live_of_cam`).
-/
import GvisorTapVsock.Tap.SwitchMoves

namespace GvisorTapVsock.Tap

open GvisorTapVsock.Go GvisorTapVsock.Lts

variable {gateway : LinkAddress} {s s' : State}

/-! ## The connection lock -/

/-- Who holds `connLock` is where the lock is held. -/
theorem connLock_holder (hreach : Reachable gateway s) :
    ∀ t, s.sw.connLock.holder = some t ↔ (s.pc t).holdsConn = true := by
  induction hreach using Reachable.invariant with
  | init =>
    intro t
    simp [State.init, Switch.new, Mutex.unlocked, Pc.holdsConn]
  | step s t pc a sw _ ih hs =>
    obtain ⟨hfree, hholder⟩ := Switch.connLock_apply hs.applies
    obtain ⟨htakes, hreleases, hpc⟩ := hs.moves.holdsConn
    intro t'
    show sw.connLock.holder = some t' ↔ (Function.update s.pc t pc t').holdsConn = true
    rw [hholder]
    by_cases ht : t' = t
    · subst ht
      rw [Function.update_self, hpc]
      cases a.takesConn <;> cases a.releasesConn <;> simp [ih t']
    · rw [Function.update_of_ne ht, ← ih t']
      cases htake : a.takesConn with
      | true => simp [hfree htake, Ne.symm ht]
      | false =>
        cases hrel : a.releasesConn with
        | true => simp [(ih t).mpr (hreleases hrel), Ne.symm ht]
        | false => simp

/-- Two goroutines are never both under `connLock`. -/
theorem eq_of_holdsConn (hreach : Reachable gateway s) {t t' : Goroutine}
    (h : (s.pc t).holdsConn = true) (h' : (s.pc t').holdsConn = true) : t = t' := by
  have ht := (connLock_holder hreach t).mpr h
  have ht' := (connLock_holder hreach t').mpr h'
  exact Option.some.inj (ht.symm.trans ht')

/-- Under `connLock` no other goroutine changes `e.conns`. -/
theorem Steps.conns_of_other (hreach : Reachable gateway s) {t t' : Goroutine} {pc : Pc}
    {a : Action} {sw : Switch} (hs : Steps gateway s t pc a sw) (ht : t' ≠ t)
    (hholds : (s.pc t').holdsConn = true) : sw.conns = s.sw.conns := by
  have hfree : (s.pc t).holdsConn ≠ true := fun h => ht (eq_of_holdsConn hreach hholds h)
  rcases Switch.conns_apply hs.applies with ⟨id, impl, rfl, -⟩ | ⟨id, rfl, -⟩ | ⟨-, -, heq⟩
  · exact absurd (hs.moves.holdsConn.2.1 rfl) hfree
  · exact absurd hs.moves.holdsConn_of_disconnect hfree
  · exact heq

/-! ## Ids -/

/-- Ids in use have been given out. -/
theorem acceptOf_lt (hreach : Reachable gateway s) :
    ∀ t i, (s.pc t).acceptOf = some i → i < s.sw.nextConnID := by
  induction hreach using Reachable.invariant with
  | init =>
    intro t i h
    simp [State.init, Pc.acceptOf, Pc.rx?] at h
  | step s t pc a sw _ ih hs =>
    intro t' i h
    have hle := Switch.nextConnID_le_apply hs.applies
    show i < sw.nextConnID
    by_cases ht : t' = t
    · subst ht
      simp only [Function.update_self] at h
      rcases hs.moves.acceptOf with hsame | ⟨impl, rfl, -, hnew⟩ | ⟨_, -, -, -, hnone⟩
      · exact Nat.lt_of_lt_of_le (ih t' i (hsame ▸ h)) hle
      · rw [hnew, Option.some.injEq] at h
        rw [Switch.nextConnID_connect hs.applies, ← h]
        exact Nat.lt_succ_self _
      · simp [hnone] at h
    · simp only [Function.update_of_ne ht] at h
      exact Nat.lt_of_lt_of_le (ih t' i h) hle

/-- A connection has one `Accept`. -/
theorem acceptOf_unique (hreach : Reachable gateway s) :
    Exclusive (fun pc i => pc.acceptOf = some i) s.pc := by
  induction hreach using Reachable.invariant with
  | init =>
    intro t t' i h
    simp [State.init, Pc.acceptOf, Pc.rx?] at h
  | step s t pc a sw hreach ih hs =>
    refine ih.update fun i hpc => ?_
    -- a goroutine that moved serves what it served, or an id nobody had
    rcases hs.moves.acceptOf with hsame | ⟨impl, -, -, hnew⟩ | ⟨_, -, -, -, hnone⟩
    · exact Or.inl (hsame ▸ hpc)
    · refine Or.inr fun t' hother => ?_
      have hlt := acceptOf_lt hreach t' i hother
      rw [hnew, Option.some.injEq] at hpc
      exact absurd hpc (Nat.ne_of_gt hlt)
    · simp [hnone] at hpc

/-- A step leaves an id with its `Accept`, except the deferred `disconnect` of
that id. -/
theorem Steps.live {t : Goroutine} {pc : Pc} {a : Action} {sw : Switch}
    (hs : Steps gateway s t pc a sw) {i : ConnId} (hi : a ≠ .disconnect i)
    (hlive : ∃ t', (s.pc t').liveId = some i) :
    ∃ t', (Function.update s.pc t pc t').liveId = some i := by
  obtain ⟨t', ht'⟩ := hlive
  by_cases ht : t' = t
  · subst ht
    refine ⟨t', ?_⟩
    rw [Function.update_self]
    rcases hs.moves.liveId with hsame | ⟨_, -, hnone, -⟩ | ⟨id, hid, hlive, -⟩
    · rw [hsame, ht']
    · simp [hnone] at ht'
    · rw [hlive, Option.some.injEq] at ht'
      exact absurd (ht' ▸ hid) hi
  · exact ⟨t', by rw [Function.update_of_ne ht, ht']⟩

/-- Connections in `e.conns` are being served. -/
theorem live_of_conns (hreach : Reachable gateway s) :
    ∀ i impl, s.sw.conns.lookup i = some impl → ∃ t, (s.pc t).liveId = some i := by
  induction hreach using Reachable.invariant with
  | init =>
    intro i impl h
    simp [State.init, Switch.new] at h
  | step s t pc a sw _ ih hs =>
    intro i impl h
    rcases Switch.conns_apply hs.applies with ⟨id, impl', rfl, heq⟩ | ⟨id, rfl, heq⟩ | ⟨-, hd, heq⟩
    all_goals simp only [heq] at h
    · obtain ⟨rfl, hpc⟩ := hs.moves.connect_eq
      by_cases hi : i = s.sw.nextConnID
      · refine ⟨t, ?_⟩
        show (Function.update s.pc t pc t).liveId = some i
        rw [Function.update_self, hpc, hi]
      · rw [AList.lookup_insert_ne hi] at h
        exact hs.live nofun (ih i impl h)
    · by_cases hi : i = id
      · rw [hi, AList.lookup_erase] at h
        exact absurd h nofun
      · rw [AList.lookup_erase_ne hi] at h
        exact hs.live (fun hd => hi (Action.disconnect.inj hd).symm) (ih i impl h)
    · exact hs.live (hd i) (ih i impl h)

/-- Connections in `e.cam` are being served. -/
theorem live_of_cam (hreach : Reachable gateway s) :
    ∀ m i, s.sw.cam.lookup m = some i → ∃ t, (s.pc t).liveId = some i := by
  induction hreach using Reachable.invariant with
  | init =>
    intro m i h
    simp [State.init, Switch.new] at h
  | step s t pc a sw _ ih hs =>
    intro m i h
    rcases Switch.cam_apply hs.applies with ⟨id, src, rfl, heq⟩ | ⟨id, rfl, heq⟩ | ⟨-, hd, heq⟩
    all_goals simp only [heq] at h
    · by_cases hm : m = src
      · subst hm
        rw [AList.lookup_insert, Option.some.injEq] at h
        exact hs.live nofun ⟨t, h ▸ hs.moves.liveId_of_learn⟩
      · rw [AList.lookup_insert_ne hm] at h
        exact hs.live nofun (ih m i h)
    · obtain ⟨h, hi⟩ := (Switch.cam_disconnect _ _ _ _).mp h
      exact hs.live (fun hd => hi (Action.disconnect.inj hd).symm) (ih m i h)
    · exact hs.live (hd i) (ih m i h)

/-- An `Accept` that has returned serves nothing. -/
theorem acceptOf_ne_of_returned (hreach : Reachable gateway s) :
    ∀ i, .acceptReturn i ∈ s.log →
      i < s.sw.nextConnID ∧ ∀ t, (s.pc t).acceptOf ≠ some i := by
  induction hreach using Reachable.invariant with
  | init =>
    intro i h
    simp [State.init] at h
  | step s t pc a sw hreach ih hs =>
    intro i h
    have hle := Switch.nextConnID_le_apply hs.applies
    rcases List.mem_append.mp h with hold | hnew
    · obtain ⟨hlt, hnone⟩ := ih i hold
      refine ⟨Nat.lt_of_lt_of_le hlt hle, fun t' => ?_⟩
      by_cases ht : t' = t
      · subst ht
        simp only [Function.update_self]
        rcases hs.moves.acceptOf with hsame | ⟨impl, -, -, hnew⟩ | ⟨_, -, -, -, hidle⟩
        · exact hsame ▸ hnone t'
        · rw [hnew, ne_eq, Option.some.injEq]
          exact Nat.ne_of_gt hlt
        · simp [hidle]
      · simpa only [Function.update_of_ne ht] using hnone t'
    · rw [List.mem_singleton] at hnew
      subst hnew
      obtain ⟨hexit, rfl⟩ := hs.moves.acceptReturn_eq
      have hown : (s.pc t).acceptOf = some i := by rw [hexit]; rfl
      refine ⟨Nat.lt_of_lt_of_le (acceptOf_lt hreach t i hown) hle, fun t' => ?_⟩
      show (Function.update s.pc t .idle t').acceptOf ≠ some i
      by_cases ht : t' = t
      · rw [ht, Function.update_self]
        exact nofun
      · rw [Function.update_of_ne ht]
        exact fun hother => ht (acceptOf_unique hreach t' t i hother hown)

/-- The ids `connect` has returned, in order. -/
def connectIds (log : List Action) : List ConnId :=
  log.filterMap (fun a => match a with | .connect id _ => some id | _ => none)

theorem mem_connectIds {log : List Action} {i : ConnId} :
    i ∈ connectIds log ↔ ∃ impl, .connect i impl ∈ log := by
  simp only [connectIds, List.mem_filterMap]
  constructor
  · rintro ⟨a, ha, hi⟩
    split at hi
    · rename_i id impl
      obtain rfl := Option.some.inj hi
      exact ⟨impl, ha⟩
    · exact absurd hi nofun
  · rintro ⟨impl, h⟩
    exact ⟨_, h, rfl⟩

theorem connectIds_lt (hreach : Reachable gateway s) :
    ∀ i ∈ connectIds s.log, i < s.sw.nextConnID := by
  induction hreach using Reachable.invariant with
  | init => exact nofun
  | step s t pc a sw _ ih hs =>
    intro i hi
    have hle := Switch.nextConnID_le_apply hs.applies
    obtain ⟨impl, hi⟩ := mem_connectIds.mp hi
    rcases List.mem_append.mp hi with hold | hnew
    · exact Nat.lt_of_lt_of_le (ih i (mem_connectIds.mpr ⟨impl, hold⟩)) hle
    · obtain rfl := List.mem_singleton.mp hnew
      show i < sw.nextConnID
      rw [Switch.nextConnID_connect hs.applies, ← (hs.moves.connect_eq).1]
      exact Nat.lt_succ_self _

/-- `connect` never returns an id twice. -/
theorem connectIds_nodup (hreach : Reachable gateway s) : (connectIds s.log).Nodup := by
  induction hreach using Reachable.invariant with
  | init => exact List.nodup_nil
  | step s t pc a sw hreach ih hs =>
    show (connectIds (s.log ++ [a])).Nodup
    rw [connectIds, List.filterMap_append, List.nodup_append]
    refine ⟨ih, ?_, ?_⟩
    · rw [List.filterMap_cons]
      split <;> simp
    · rintro i hi j hj rfl
      obtain ⟨impl, hconnect⟩ := mem_connectIds.mp hj
      obtain rfl := List.mem_singleton.mp hconnect
      exact Nat.lt_irrefl _ ((hs.moves.connect_eq).1 ▸ connectIds_lt hreach i hi)

/-! ## Later states -/

theorem log_grows (hrun : Reach (step gateway) s s') : s.log <+: s'.log := by
  induction hrun with
  | refl => exact List.prefix_refl _
  | step e _ _ next ih =>
    obtain ⟨pc, a, sw, -, -, rfl⟩ := step_moves next
    exact ih.trans (List.prefix_append _ _)

/-- An id that has been given out and is not in `e.conns` stays out. -/
theorem conns_none_of_run {i : ConnId} (hlt : i < s.sw.nextConnID)
    (hnone : s.sw.conns.lookup i = none) (hrun : Reach (step gateway) s s') :
    i < s'.sw.nextConnID ∧ s'.sw.conns.lookup i = none := by
  induction hrun with
  | refl => exact ⟨hlt, hnone⟩
  | step e _ _ next ih =>
    obtain ⟨hlt, hnone⟩ := ih
    obtain ⟨pc, a, sw, -, hs, rfl⟩ := step_moves next
    refine ⟨Nat.lt_of_lt_of_le hlt (Switch.nextConnID_le_apply hs.applies), ?_⟩
    show sw.conns.lookup i = none
    rcases Switch.conns_apply hs.applies with ⟨id, impl, rfl, heq⟩ | ⟨id, -, heq⟩ | ⟨-, -, heq⟩
    · have hne : i ≠ id := by
        rw [(hs.moves.connect_eq).1]
        exact Nat.ne_of_lt hlt
      rw [heq, AList.lookup_insert_ne hne, hnone]
    · rw [heq, GoMap.lookup_erase_eq, hnone, ite_self]
    · rw [heq, hnone]

/-- After `Accept` has returned nothing refers to its id. -/
theorem clean_of_returned (hreach : Reachable gateway s) {i : ConnId}
    (hret : .acceptReturn i ∈ s.log) :
    s.sw.conns.lookup i = none ∧ ∀ m, s.sw.cam.lookup m ≠ some i := by
  obtain ⟨-, hnone⟩ := acceptOf_ne_of_returned hreach i hret
  constructor
  · rw [Option.eq_none_iff_forall_ne_some]
    intro impl h
    obtain ⟨t, ht⟩ := live_of_conns hreach i impl h
    exact hnone t (Pc.acceptOf_of_liveId ht)
  · intro m h
    obtain ⟨t, ht⟩ := live_of_cam hreach m i h
    exact hnone t (Pc.acceptOf_of_liveId ht)

/-- A `disconnect` step, on both maps. -/
theorem disconnect_step {e : Event} {id : ConnId} (hstep : step gateway s e = some s')
    (hact : s.action gateway e = some (.disconnect id)) :
    (∀ m, s'.sw.cam.lookup m =
        if s.sw.cam.lookup m = some id then none else s.sw.cam.lookup m) ∧
      ∀ i, s'.sw.conns.lookup i = if i = id then none else s.sw.conns.lookup i := by
  obtain ⟨pc, a, sw, haction, hs, rfl⟩ := step_moves hstep
  obtain rfl := Option.some.inj (hact.symm.trans haction)
  have hsw : sw = { s.sw.disconnect id with camLock := s.sw.camLock.unlock } :=
    (Option.some.inj hs.applies).symm
  subst hsw
  refine ⟨fun m => Option.ext fun i => ?_, fun i => GoMap.lookup_erase_eq _ _ _⟩
  show (s.sw.disconnect id).cam.lookup m = some i ↔ _
  rw [Switch.cam_disconnect]
  split
  · rename_i hid
    rw [hid, Option.some.injEq]
    exact ⟨fun h => absurd h.1.symm h.2, nofun⟩
  · rename_i hid
    exact ⟨fun h => h.1, fun h => ⟨h, fun hi => hid (hi ▸ h)⟩⟩

/-- **Connection ids.** In every state reachable up to a panic, whatever the
interleaving: no id was given out twice; a `disconnect(id)` step removes the
entries of `id` and nothing else; an id that is not in `e.conns` any more is in
`e.conns` of no later state; once `Accept` for an id has returned, no entry of a
later state refers to it. -/
theorem connIds_stable (hreach : Reachable gateway s) :
    (connectIds s.log).Nodup ∧
      (∀ e s' id, step gateway s e = some s' → s.action gateway e = some (.disconnect id) →
        (∀ m, s'.sw.cam.lookup m =
          if s.sw.cam.lookup m = some id then none else s.sw.cam.lookup m) ∧
        ∀ i, s'.sw.conns.lookup i = if i = id then none else s.sw.conns.lookup i) ∧
      (∀ s' i, Reach (step gateway) s s' → i ∈ connectIds s.log →
        s.sw.conns.lookup i = none → s'.sw.conns.lookup i = none) ∧
      (∀ s' i, Reach (step gateway) s s' → .acceptReturn i ∈ s.log →
        s'.sw.conns.lookup i = none ∧ ∀ m, s'.sw.cam.lookup m ≠ some i) := by
  refine ⟨connectIds_nodup hreach, fun e s' id hstep hact => disconnect_step hstep hact, ?_, ?_⟩
  · intro s' i hrun hi hnone
    exact (conns_none_of_run (connectIds_lt hreach i hi) hnone hrun).2
  · intro s' i hrun hret
    exact clean_of_returned (hreach.trans hrun) ((log_grows hrun).subset hret)

/-- Connection 0 has read a frame for the gateway. Before it learns the
frame's source a broadcast from connection 1 fails on it, and it is
disconnected; then it learns. -/
def lateLearn : List Event :=
  accepts 0 .hyperKitProtocol ++ accepts 1 .hyperKitProtocol ++
    [receives 0 (gatewayMacAddress ++ tapMacAddress ++ [8, 0]),
      receives 1 (ethernetBroadcastAddress ++ [2, 0, 0, 0, 0, 1] ++ [8, 0])] ++
    goes 1 7 ++ [⟨1, .order [0, 1]⟩, ⟨1, .write (.err 0)⟩] ++ goes 1 3 ++ goes 0 2

/-- The address that was learned late is gone when `Accept` returns. -/
theorem connIds_stable_lateLearn :
    ∃ s, Reachable gatewayMacAddress s ∧ .learn 0 tapMacAddress ∈ s.log ∧
      .acceptReturn 0 ∈ s.log ∧ s.sw.conns.lookup 0 = none ∧
      ∀ m, s.sw.cam.lookup m ≠ some 0 := by
  obtain ⟨s, hreach, hlearn, hret⟩ := reachable_of_exec
    (fun s => .learn 0 tapMacAddress ∈ s.log ∧ .acceptReturn 0 ∈ s.log)
    (lateLearn ++ goes 0 4 ++ [⟨0, .stop⟩] ++ goes 0 4)
    (by decide)
  exact ⟨s, hreach, hlearn, hret, (connIds_stable hreach).2.2.2 s 0 Run.refl hret⟩

end GvisorTapVsock.Tap
