/-
GvisorTapVsock.Services.Forwarder.UdpTheorems — which UDP flows of the guest
are served.

`Run` ends when `ReadFrom` fails, and does nothing else (`run_ended_iff`): the
endpoint stays in the stack. From then on every datagram of the flow is queued
on an endpoint that nobody reads, and none reaches the handler that would start
a new proxy (`Unserved.forever`). Ninety seconds without a datagram or a reply
are enough.

`served_iff` says that this is the only way: while no `ReadFrom` that waits has
come to its deadline or has an error to return, every registered endpoint is
read, and as soon as one has, the next step may leave a flow unserved.
-/
import GvisorTapVsock.Services.Forwarder.Udp

namespace GvisorTapVsock.Services.Forwarder

open GvisorTapVsock.Go GvisorTapVsock.Lts

/-! ## The end of `Run` -/

theorem writeFrom_ne_ended (data : List UInt8) (sender : UDPAddr) (c : Backend) (i : Nat) :
    RunPc.writeFrom data sender c i ≠ .ended := by
  unfold RunPc.writeFrom
  split <;> simp

/-- A failed read ends `Run`, and nothing else does. -/
theorem UDPProxy.runStep_ended_iff {p p' : UDPProxy} {m : RunMove} (h : p.runStep m = some p') :
    p'.run = .ended ↔ m = .readFailed := by
  cases UDPProxy.runSteps_of_runStep h with
  | dialled => simp [UDPProxy.dialled]
  | unlock | wrote => simp [writeFrom_ne_ended]
  | _ => simp

/-- **`Run` ends by a failed read, and in no other way.** -/
theorem UDPProxy.run_ended_iff {p p' : UDPProxy} {e : UDPProxy.Event} (h : p.step e = some p') :
    p'.run = .ended ↔ p.run = .ended ∨ e = .run .readFailed := by
  cases e with
  | run m =>
    rw [runStep_ended_iff h, UDPProxy.Event.run.injEq]
    refine ⟨Or.inr, fun hor => hor.resolve_left ?_⟩
    -- `Run` has no step after its end
    intro hended
    simp [UDPProxy.step, UDPProxy.runStep, hended] at h
  | reply c m =>
    rw [UDPProxy.step] at h
    cases hloop : p.loops c with
    | none => simp [hloop] at h
    | some loop =>
      rw [hloop] at h
      simp [(replyStep_frame h).1]
  | close i m => simp [(closeStep_frame h).1]

/-- A read can only fail if `Run` waits in it. -/
theorem UDPProxy.read_of_readFailed {p p' : UDPProxy} (h : p.runStep .readFailed = some p') :
    p.run = .read := by
  cases UDPProxy.runSteps_of_runStep h with
  | readFailed hrun => exact hrun

/-! ## Sessions -/

/-- A step of a session is a step of its proxy, and a failed read has a cause. -/
theorem Session.step_proxy {session session' : Session} {now : Nat} {id : TransportEndpointID}
    {e : UDPProxy.Event} (h : session.step now id e = some session') :
    session.proxy.step e = some session'.proxy ∧
      (e = .run .readFailed → session.lastError = true ∨ session.readDeadline ≤ now) := by
  unfold Session.step at h
  split at h
  · simp at h
  · split at h
    · simp at h
    · split at h
      · obtain ⟨p, hp, rfl⟩ := Option.map_eq_some_iff.mp h
        exact ⟨hp, by simp⟩
      · simp at h
  · split at h
    · next hcause =>
      obtain ⟨p, hp, rfl⟩ := Option.map_eq_some_iff.mp h
      exact ⟨hp, fun _ => hcause⟩
    · simp at h
  · next hother =>
    obtain ⟨p, hp, rfl⟩ := Option.map_eq_some_iff.mp h
    exact ⟨hp, fun he => absurd he hother⟩

/-- A read that waits fails when its deadline has come. -/
theorem Session.step_readFailed {session : Session} {now : Nat} (id : TransportEndpointID)
    (hrun : session.proxy.run = .read)
    (hcause : session.lastError = true ∨ session.readDeadline ≤ now) :
    ∃ session', session.step now id (.run .readFailed) = some session' ∧
      session'.proxy.run = .ended := by
  refine ⟨{ session with lastError := false, proxy := { session.proxy with run := .ended } },
    ?_, rfl⟩
  rw [Session.step, if_pos hcause]
  simp [UDPProxy.step, UDPProxy.runStep, hrun]

/-! ## Flows -/

namespace Flows

variable {nat : GoMap IP IP} {s s' : Flows}

/-- Every endpoint in the stack has a `Run` that reads it. -/
def Served (s : Flows) : Prop :=
  ∀ id session, s.endpoints id = some session → session.proxy.run ≠ .ended

/-- No `ReadFrom` that waits is at its deadline or has an error to return. -/
def Awake (s : Flows) : Prop :=
  ∀ id session, s.endpoints id = some session → session.proxy.run = .read →
    session.lastError = false ∧ s.now < session.readDeadline

@[simp] theorem endpoints_set (s : Flows) (id : TransportEndpointID) (session : Session)
    (id' : TransportEndpointID) :
    (s.set id session).endpoints id' = if id' = id then some session else s.endpoints id' := by
  rw [Flows.set]
  by_cases hid : id' = id
  · subst hid
    simp
  · simp [hid]

/-- A new session has a running proxy. -/
theorem udpHandler_run {now : Nat} {id : TransportEndpointID} {data : List UInt8}
    {created : Bool} {session : Session}
    (h : udpHandler nat now id data created = some session) : session.proxy.run = .read := by
  unfold udpHandler at h
  split at h
  · simp at h
  · split at h
    · rw [← Option.some.inj h]
      rfl
    · simp at h

/-- What a step can do to the session of a flow. -/
inductive Changes (s : Flows) (id : TransportEndpointID) : Session → Prop where
  | opens {session : Session} (hid : s.endpoints id = none) (hrun : session.proxy.run = .read) :
      Changes s id session
  /-- a datagram is queued, or an error is left -/
  | keeps {old session : Session} (hid : s.endpoints id = some old)
      (hproxy : session.proxy = old.proxy) (hqueue : old.queue <+: session.queue) :
      Changes s id session
  | steps {old session : Session} {e : UDPProxy.Event} (hid : s.endpoints id = some old)
      (hstep : old.step s.now id e = some session) : Changes s id session

/-- A step changes one session or none. -/
theorem step_changes {e : Event} (hstep : Flows.step nat s e = some s') :
    s'.endpoints = s.endpoints ∨ ∃ id session, s' = s.set id session ∧ Changes s id session := by
  cases e with
  | datagram id data created =>
    rw [Flows.step] at hstep
    cases hid : s.endpoints id with
    | some old =>
      rw [hid] at hstep
      exact Or.inr ⟨id, _, (Option.some.inj hstep).symm,
        .keeps hid rfl (List.prefix_append _ _)⟩
    | none =>
      simp only [hid] at hstep
      cases hnew : udpHandler nat s.now id data created with
      | some session =>
        rw [hnew] at hstep
        exact Or.inr ⟨id, session, (Option.some.inj hstep).symm, .opens hid (udpHandler_run hnew)⟩
      | none =>
        rw [hnew] at hstep
        exact Or.inl (by rw [← Option.some.inj hstep])
  | unreachable id =>
    rw [Flows.step] at hstep
    cases hid : s.endpoints id with
    | some old =>
      rw [hid] at hstep
      exact Or.inr ⟨id, _, (Option.some.inj hstep).symm, .keeps hid rfl (List.prefix_refl _)⟩
    | none => simp [hid] at hstep
  | proxy id e =>
    rw [Flows.step] at hstep
    cases hid : s.endpoints id with
    | some old =>
      rw [hid] at hstep
      obtain ⟨session, hsession, rfl⟩ := Option.map_eq_some_iff.mp hstep
      exact Or.inr ⟨id, session, rfl, .steps hid hsession⟩
    | none => simp [hid] at hstep
  | tick seconds =>
    rw [Flows.step] at hstep
    exact Or.inl (by rw [← Option.some.inj hstep])

theorem served_start : Served start := by
  intro id session h
  simp [start] at h

theorem Served.set (h : Served s) {id : TransportEndpointID} {session : Session}
    (hsession : session.proxy.run ≠ .ended) : Served (s.set id session) := by
  intro id' session' h'
  rw [endpoints_set] at h'
  split at h'
  · rw [← Option.some.inj h']
    exact hsession
  · exact h id' session' h'

/-- From a state that is awake no step leaves a flow unserved. -/
theorem Served.step (h : Served s) (hawake : Awake s) {e : Event}
    (hstep : Flows.step nat s e = some s') : Served s' := by
  rcases step_changes hstep with hsame | ⟨id, session, rfl, hchanges⟩
  · rw [Served, hsame]
    exact h
  · refine h.set ?_
    cases hchanges with
    | opens _ hrun => simp [hrun]
    | keeps hid hproxy _ =>
      rw [hproxy]
      exact h id _ hid
    | steps hid hsession =>
      obtain ⟨hproxy, hcause⟩ := Session.step_proxy hsession
      rw [ne_eq, UDPProxy.run_ended_iff hproxy, not_or]
      refine ⟨h id _ hid, fun he => ?_⟩
      -- the read that fails would have a cause
      subst he
      obtain ⟨hnoerror, hbefore⟩ := hawake id _ hid (UDPProxy.read_of_readFailed hproxy)
      rcases hcause rfl with herror | hdeadline
      · simp [hnoerror] at herror
      · omega

/-- From a state that is not, one does. -/
theorem not_served_of_not_awake (hawake : ¬ Awake s) :
    ∃ e s', Flows.step nat s e = some s' ∧ ¬ Served s' := by
  unfold Awake at hawake
  push Not at hawake
  obtain ⟨id, session, hid, hread, hcause⟩ := hawake
  have hfails : session.lastError = true ∨ session.readDeadline ≤ s.now := by
    by_cases herror : session.lastError = false
    · exact Or.inr (hcause herror)
    · exact Or.inl (by simpa using herror)
  obtain ⟨session', hsession, hended⟩ := Session.step_readFailed id hread hfails
  refine ⟨.proxy id (.run .readFailed), s.set id session', by simp [Flows.step, hid, hsession], ?_⟩
  intro hserved
  exact hserved id session' (by simp) hended

/-- **While the flows are awake every endpoint in the stack is read, and they
stay served in the next step, whatever it is, exactly if they are awake.** -/
theorem served_iff (hrun : Run (Flows.step nat) (fun s _ => Awake s) start s) :
    Served s ∧ (Awake s ↔ ∀ e s', Flows.step nat s e = some s' → Served s') := by
  have hserved : Served s := by
    induction hrun with
    | refl => exact served_start
    | step e run hawake next ih => exact ih.step hawake next
  refine ⟨hserved, fun hawake e s' hstep => hserved.step hawake hstep, fun h => ?_⟩
  by_contra hawake
  obtain ⟨e, s', hstep, hnot⟩ := not_served_of_not_awake hawake
  exact hnot (h e s' hstep)

/-! ## Flows that are not served -/

/-- A session whose `Run` has ended, with datagrams that wait. -/
def Unserved (s : Flows) (id : TransportEndpointID) (waiting : List (List UInt8)) : Prop :=
  ∃ session, s.endpoints id = some session ∧ session.proxy.run = .ended ∧
    waiting <+: session.queue

theorem Unserved.set {id id' : TransportEndpointID} {waiting : List (List UInt8)}
    {session : Session} (h : Unserved s id waiting)
    (hsession : id' = id → session.proxy.run = .ended ∧ waiting <+: session.queue) :
    Unserved (s.set id' session) id waiting := by
  by_cases hid : id' = id
  · subst hid
    exact ⟨session, by simp, hsession rfl⟩
  · obtain ⟨old, hold, hrest⟩ := h
    exact ⟨old, by simp [hold, Ne.symm hid], hrest⟩

/-- A proxy whose `Run` has ended takes nothing from the queue. -/
theorem Session.step_ended {session session' : Session} {now : Nat} {id : TransportEndpointID}
    {e : UDPProxy.Event} (hended : session.proxy.run = .ended)
    (h : session.step now id e = some session') :
    session'.proxy.run = .ended ∧ session'.queue = session.queue := by
  refine ⟨(UDPProxy.run_ended_iff (Session.step_proxy h).1).mpr (Or.inl hended), ?_⟩
  unfold Session.step at h
  split at h
  · simp at h
  · -- a datagram that is read
    split at h
    · simp at h
    · simp [UDPProxy.step, UDPProxy.runStep, hended] at h
  · split at h
    · obtain ⟨p, _, rfl⟩ := Option.map_eq_some_iff.mp h
      rfl
    · simp at h
  · obtain ⟨p, _, rfl⟩ := Option.map_eq_some_iff.mp h
    rfl

theorem Unserved.step {id : TransportEndpointID} {waiting : List (List UInt8)}
    (h : Unserved s id waiting) {e : Event} (hstep : Flows.step nat s e = some s') :
    Unserved s' id waiting := by
  rcases step_changes hstep with hsame | ⟨id', session', rfl, hchanges⟩
  · rw [Unserved, hsame]
    exact h
  · refine h.set (fun heq => ?_)
    subst heq
    obtain ⟨session, hid, hended, hwaiting⟩ := h
    cases hchanges with
    | opens hid' _ => simp [hid] at hid'
    | keeps hid' hproxy hqueue =>
      rw [hid, Option.some.injEq] at hid'
      subst hid'
      exact ⟨by rw [hproxy, hended], hwaiting.trans hqueue⟩
    | steps hid' hsession =>
      rw [hid, Option.some.injEq] at hid'
      subst hid'
      obtain ⟨hended', hqueue⟩ := Session.step_ended hended hsession
      exact ⟨hended', hqueue ▸ hwaiting⟩

/-- **A flow whose `Run` has ended is never served again, and the datagrams
that wait for it wait for ever.** -/
theorem Unserved.forever {id : TransportEndpointID} {waiting : List (List UInt8)}
    (h : Unserved s id waiting) (hrun : Reach (Flows.step nat) s s') :
    Unserved s' id waiting := by
  induction hrun with
  | refl => exact h
  | step e _ _ next ih => exact ih.step next

/-! ## A name server -/

/-- A flow from the guest to a name server. -/
def nameServer : TransportEndpointID := ⟨53, [1, 1, 1, 1], 5353, [192, 168, 127, 2], rfl⟩

/-- A move of the `Run` that serves it. -/
def serverRun (m : UDPProxy.RunMove) : Event := .proxy nameServer (.run m)

/-- One query is forwarded. -/
def firstQuery : List Event :=
  [.datagram nameServer [1] true, serverRun (.received [1] nameServer.sender), serverRun .lock,
    serverRun .lookup, serverRun .dialled, serverRun .unlock, serverRun (.wrote 1)]

/-- Two minutes later the guest sends another. -/
def queries : List Event :=
  firstQuery ++ [.tick 120, serverRun .readFailed, .datagram nameServer [2] true]

/-- The second query is not forwarded, then or later. -/
theorem second_query_unserved :
    ∃ s, Reach (Flows.step ∅) start s ∧
      ∀ s', Reach (Flows.step ∅) s s' → Unserved s' nameServer [[2]] := by
  have hrun : ∃ s, Reach (Flows.step ∅) start s ∧
      (s.endpoints nameServer).any (fun session =>
        session.proxy.run = .ended ∧ session.queue = [[2]]) = true :=
    run_of_exec queries start (by decide +kernel)
  obtain ⟨s, hs, hsession⟩ := hrun
  obtain ⟨session, hid, hended⟩ := (Option.any_eq_true _ _).mp hsession
  rw [decide_eq_true_eq] at hended
  exact ⟨s, hs, fun s' hrun => Unserved.forever ⟨session, hid, hended.1, by simp [hended.2]⟩ hrun⟩

/-- Whether an event is one of a given flow, or of none. -/
def Event.ofFlow (id : TransportEndpointID) : Event → Bool
  | .datagram id' _ _ | .unreachable id' | .proxy id' _ => decide (id' = id)
  | .tick _ => true

/-- Whether the flow is awake, if it has an endpoint. -/
def awakeAt (s : Flows) (id : TransportEndpointID) : Bool :=
  (s.endpoints id).all fun session => decide (session.proxy.run = .read →
    session.lastError = false ∧ s.now < session.readDeadline)

theorem endpoints_of_ofFlow {id id' : TransportEndpointID} {e : Event}
    (he : e.ofFlow id = true) (hne : id' ≠ id) (hstep : Flows.step nat s e = some s') :
    s'.endpoints id' = s.endpoints id' := by
  cases e with
  | datagram i data created =>
    obtain rfl := of_decide_eq_true he
    rw [Flows.step] at hstep
    split at hstep
    · obtain rfl := Option.some.inj hstep
      simp [hne]
    · split at hstep <;>
      · obtain rfl := Option.some.inj hstep
        simp [hne]
  | unreachable i =>
    obtain rfl := of_decide_eq_true he
    rw [Flows.step] at hstep
    split at hstep
    · obtain rfl := Option.some.inj hstep
      simp [hne]
    · cases hstep
  | proxy i e =>
    obtain rfl := of_decide_eq_true he
    rw [Flows.step] at hstep
    split at hstep
    · obtain ⟨session, -, rfl⟩ := Option.map_eq_some_iff.mp hstep
      simp [hne]
    · cases hstep
  | tick seconds =>
    obtain rfl := Option.some.inj hstep
    rfl

theorem endpoints_of_run {id id' : TransportEndpointID} {ok : Flows → Event → Prop}
    (hflow : ∀ s e, ok s e → e.ofFlow id = true) (hne : id' ≠ id)
    (hrun : Run (Flows.step nat) ok start s) : s.endpoints id' = none := by
  induction hrun with
  | refl => rfl
  | step e _ meets next ih =>
    rw [endpoints_of_ofFlow (hflow _ e meets) hne next]
    exact ih

/-- With one flow alone, it decides whether the flows are awake. -/
theorem run_of_awakeAt {id : TransportEndpointID}
    (hrun : Run (Flows.step nat) (fun s e => e.ofFlow id = true ∧ awakeAt s id = true) start s) :
    Run (Flows.step nat) (fun s _ => Awake s) start s := by
  refine hrun.mono fun t e run meets id' session hsession hread => ?_
  by_cases hid : id' = id
  · subst hid
    have hawake := meets.2
    rw [awakeAt, hsession, Option.all_some] at hawake
    exact of_decide_eq_true hawake hread
  · rw [endpoints_of_run (fun _ _ meets => meets.1) hid run] at hsession
    cases hsession

/-- The guest sends its second query after a minute. The flows are awake all
along, so it is forwarded. -/
theorem first_query_served :
    ∃ s, Run (Flows.step ∅) (fun s _ => Awake s) start s ∧ Served s ∧ s.now = 60 ∧
      (s.endpoints nameServer).any (fun session => session.queue = []) = true := by
  have hexec : ∃ s, Run (Flows.step ∅)
      (fun s e => e.ofFlow nameServer = true ∧ awakeAt s nameServer = true) start s ∧
      (s.now = 60 ∧ (s.endpoints nameServer).any (fun session => session.queue = []) = true) :=
    run_of_exec (firstQuery ++ [.tick 60, .datagram nameServer [2] true,
      serverRun (.received [2] nameServer.sender), serverRun .lock, serverRun .lookup,
      serverRun .unlock, serverRun (.wrote 1)]) start (by decide +kernel)
  obtain ⟨s, hrun, hnow, hqueue⟩ := hexec
  have hawake := run_of_awakeAt hrun
  exact ⟨s, hawake, (served_iff hawake).1, hnow, hqueue⟩

end Flows

end GvisorTapVsock.Services.Forwarder
