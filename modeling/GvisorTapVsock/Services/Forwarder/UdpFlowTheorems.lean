/-
GvisorTapVsock.Services.Forwarder.UdpFlowTheorems — which datagrams the UDP
proxy passes on, and to whom.

The two loops of the proxy are relays that hold one datagram at a time: `Run`
from the clients to the backends, and each `replyLoop` from its backend to its
client. While dials succeed and writes take everything (`inFull`), a step of
either is a `RelayStep` whose test is that the datagram is not EMPTY: the write
loop `for i := 0; i != read;` is left before its first turn for an empty one.
So `Relayed` holds along every trace, for `Run` and for every connection.

The datagrams that came in are read off the events of the trace, those that
went out off the calls of `Write` and `WriteTo` the state records.
-/
import GvisorTapVsock.Lts.Relay
import GvisorTapVsock.Services.Forwarder.UdpProxyTheorems

namespace GvisorTapVsock.Services.Forwarder

open GvisorTapVsock.Go GvisorTapVsock.Lts

/-! ## Where a datagram is -/

/-- A datagram with the client that sent it. -/
abbrev Datagram := UDPAddr × List UInt8

/-- The test of both relays. -/
def nonempty (data : List UInt8) : Bool := data ≠ []

/-- The datagram `Run` is about to pass on. -/
def RunPc.inHand : RunPc → Option Datagram
  | .lock data sender | .lookup data sender | .dial data sender | .unlock data sender _ |
    .write data sender _ _ => some (sender, data)
  | .read | .ended => none

/-- The datagram a `replyLoop` is about to pass on. -/
def ReplyPc.inHand : ReplyPc → Option (List UInt8)
  | .write data _ => some data
  | _ => none

/-- The bytes `Run` has yet to write. -/
def RunPc.left : RunPc → Nat
  | .write data _ _ i => data.length - i
  | _ => 0

/-- The bytes a `replyLoop` has yet to write. -/
def ReplyPc.left : ReplyPc → Nat
  | .write data i => data.length - i
  | _ => 0

/-- `Run` has a connection when it unlocks, and is never within a datagram. -/
def RunPc.Whole : RunPc → Prop
  | .unlock _ _ proxyConn => proxyConn ≠ none
  | .write data _ _ i => i = 0 ∧ data ≠ []
  | _ => True

/-- A `replyLoop` is never within a datagram. -/
def ReplyPc.Whole : ReplyPc → Prop
  | .write data i => i = 0 ∧ data ≠ []
  | _ => True

section WriteFrom

variable {data : List UInt8} (sender : UDPAddr) (c : Backend)

theorem RunPc.writeFrom_zero (h : data ≠ []) :
    RunPc.writeFrom data sender c 0 = .write data sender c 0 :=
  if_neg fun hlen => h (List.length_eq_zero_iff.mp hlen.symm)

theorem ReplyPc.writeFrom_zero (h : data ≠ []) : ReplyPc.writeFrom data 0 = .write data 0 :=
  if_neg fun hlen => h (List.length_eq_zero_iff.mp hlen.symm)

/-- The loop ends with the last byte; for an empty datagram that is at once. -/
theorem RunPc.writeFrom_length (data : List UInt8) :
    RunPc.writeFrom data sender c data.length = .read :=
  if_pos rfl

theorem ReplyPc.writeFrom_length (data : List UInt8) :
    ReplyPc.writeFrom data data.length = .read :=
  if_pos rfl

end WriteFrom

namespace UDPProxy

variable {s s' : UDPProxy}

/-! ## What comes in and goes out -/

/-- The datagram `Run` reads in an event. -/
def Event.received? : Event → Option Datagram
  | .run (.received data sender) => some (sender, data)
  | _ => none

/-- The datagram the `replyLoop` of a connection reads in an event. -/
def Event.replied? (c : Backend) : Event → Option (List UInt8)
  | .reply c' (.read data) => if c' = c then some data else none
  | _ => none

theorem Event.replied?_self (c : Backend) (data : List UInt8) :
    Event.replied? c (.reply c (.read data)) = some data :=
  if_pos rfl

theorem Event.replied?_of_ne {c c' : Backend} (h : c' ≠ c) (m : ReplyMove) :
    Event.replied? c (.reply c' m) = none := by
  cases m with
  | read data => exact if_neg h
  | _ => rfl

/-- The datagrams of the clients, in order. -/
def received (es : List Event) : List Datagram := es.filterMap Event.received?

/-- The datagrams of a backend, in order. -/
def replied (c : Backend) (es : List Event) : List (List UInt8) :=
  es.filterMap (Event.replied? c)

/-- The writes to the backends, with the client each was for. -/
def forwarded (s : UDPProxy) : List Datagram := s.toBackend.map (fun w => (w.sender, w.bytes))

/-- The calls of `WriteTo` for a connection. -/
def returned (s : UDPProxy) (c : Backend) : List Replied :=
  s.toClient.filter (fun r => r.proxyConn = c)

/-- The datagram the `replyLoop` of a connection is about to pass on. -/
def replyInHand (s : UDPProxy) (c : Backend) : Option (List UInt8) :=
  (s.loops c).bind (fun loop => loop.pc.inHand)

/-- Dials succeed, and a write takes all it is given. -/
def inFull (s : UDPProxy) : Event → Bool
  | .run .dialFailed | .run .writeFailed | .reply _ .writeFailed => false
  | .run (.wrote n) => n = s.run.left
  | .reply c (.wrote n) => (s.loops c).all (fun loop => n = loop.pc.left)
  | _ => true

/-- The proxy from its start, through events in which nothing fails. -/
abbrev FullTrace (es : List Event) (s : UDPProxy) : Prop :=
  Trace step (fun s e => inFull s e = true) start es s

/-! ## `Run` -/

/-- A step of `Run` is a step of a relay. -/
theorem runStep_relay {m : RunMove} (h : s.runStep m = some s') (hwhole : s.run.Whole)
    (hfull : inFull s (.run m) = true) :
    s'.run.Whole ∧ ∃ new, forwarded s' = forwarded s ++ new ∧
      RelayStep (fun d : Datagram => nonempty d.2) s.run.inHand (Event.received? (.run m))
        s'.run.inHand new := by
  cases runSteps_of_runStep h with
  | received hrun =>
    rw [hrun]
    exact ⟨trivial, [], by simp [forwarded], .take _⟩
  | readFailed hrun | lock hrun | miss hrun =>
    rw [hrun]
    exact ⟨trivial, [], by simp [forwarded], .idle _⟩
  | hit hrun =>
    rw [hrun]
    exact ⟨by simp [RunPc.Whole], [], by simp [forwarded], .idle _⟩
  | dialled hrun =>
    rw [hrun]
    exact ⟨by simp [RunPc.Whole, dialled], [], by simp [forwarded, dialled], .idle _⟩
  | dialFailed | writeFailed => simp [inFull] at hfull
  | unlockFailed hrun =>
    rw [hrun] at hwhole
    exact absurd rfl hwhole
  | @unlock data sender proxyConn hrun =>
    -- the loop does not start for an empty datagram
    rw [hrun]
    show (RunPc.writeFrom data sender proxyConn 0).Whole ∧ ∃ new, _ ∧
      RelayStep _ _ _ (RunPc.writeFrom data sender proxyConn 0).inHand new
    by_cases hdata : data = []
    · subst hdata
      exact ⟨trivial, [], by simp [forwarded], .drop (by simp [nonempty])⟩
    · rw [RunPc.writeFrom_zero sender proxyConn hdata]
      exact ⟨⟨rfl, hdata⟩, [], by simp [forwarded], .idle _⟩
  | @wrote data sender proxyConn i n hrun =>
    rw [hrun] at hwhole
    obtain ⟨rfl, hdata⟩ := hwhole
    have hn : 0 + n = data.length := by simpa [inFull, hrun, RunPc.left] using hfull
    rw [hrun]
    show (RunPc.writeFrom data sender proxyConn (0 + n)).Whole ∧ ∃ new, _ ∧
      RelayStep _ _ _ (RunPc.writeFrom data sender proxyConn (0 + n)).inHand new
    rw [hn, RunPc.writeFrom_length]
    exact ⟨trivial, [(sender, data)], by simp [forwarded], .send (by simp [nonempty, hdata])⟩

/-- A step of `Run` starts a `replyLoop` at most, and sends nothing to a client. -/
theorem runStep_loops {m : RunMove} (h : s.runStep m = some s') :
    s'.toClient = s.toClient ∧ (s'.loops = s.loops ∨ ∃ sender, s'.loops =
      Function.update s.loops s.dials.length (some ⟨sender, newConnTrackKey sender, .read⟩)) := by
  cases runSteps_of_runStep h with
  | @dialled data sender => exact ⟨rfl, Or.inr ⟨sender, rfl⟩⟩
  | _ => exact ⟨rfl, Or.inl rfl⟩

/-! ## The loops -/

/-- A step of a `replyLoop` is a step of a relay to its client. -/
theorem replyStep_relay {c : Backend} {loop : ReplyLoop} {m : ReplyMove}
    (hloop : s.loops c = some loop) (h : s.replyStep c loop m = some s')
    (hwhole : loop.pc.Whole) (hfull : inFull s (.reply c m) = true) :
    ∃ pc : ReplyPc, s'.loops = Function.update s.loops c (some { loop with pc := pc }) ∧
      pc.Whole ∧ s'.toBackend = s.toBackend ∧
      ∃ new, s'.toClient = s.toClient ++ new.map (fun bytes => ⟨c, loop.clientAddr, bytes⟩) ∧
        RelayStep nonempty loop.pc.inHand (Event.replied? c (.reply c m)) pc.inHand new := by
  cases replySteps_of_replyStep h with
  | @read data hpc =>
    -- an empty datagram is dropped at once
    rw [hpc, Event.replied?_self]
    by_cases hdata : data = []
    · subst hdata
      exact ⟨.read, rfl, trivial, rfl, [], by simp [goto], .skip (by simp [nonempty])⟩
    · refine ⟨.write data 0, ?_, ⟨rfl, hdata⟩, rfl, [], by simp [goto], .take data⟩
      rw [ReplyPc.writeFrom_zero hdata, goto]
  | refused hpc =>
    rw [hpc]
    exact ⟨.read, rfl, trivial, rfl, [], by simp [goto], .idle _⟩
  | readFailed hpc =>
    rw [hpc]
    exact ⟨.lock, rfl, trivial, rfl, [], by simp [goto], .idle _⟩
  | @wrote data i n hpc =>
    rw [hpc] at hwhole
    obtain ⟨rfl, hdata⟩ := hwhole
    have hn : 0 + n = data.length := by simpa [inFull, hloop, hpc, ReplyPc.left] using hfull
    rw [hpc]
    refine ⟨.read, ?_, trivial, rfl, [data], by simp, .send (by simp [nonempty, hdata])⟩
    rw [hn, ReplyPc.writeFrom_length, goto]
  | writeFailed => simp [inFull] at hfull
  | lock hpc =>
    rw [hpc]
    exact ⟨.delete, rfl, trivial, rfl, [], by simp [goto], .idle _⟩
  | delete hpc =>
    rw [hpc]
    exact ⟨.unlock, rfl, trivial, rfl, [], by simp [goto], .idle _⟩
  | unlock hpc =>
    rw [hpc]
    exact ⟨.close, rfl, trivial, rfl, [], by simp [goto], .idle _⟩
  | close hpc =>
    rw [hpc]
    exact ⟨.ended, rfl, trivial, rfl, [], by simp [goto], .idle _⟩

/-- `Close` passes nothing on. -/
theorem closeStep_records {i : Nat} {m : CloseMove} (h : s.closeStep i m = some s') :
    s'.run = s.run ∧ s'.loops = s.loops ∧ s'.toBackend = s.toBackend ∧
      s'.toClient = s.toClient := by
  cases closeSteps_of_closeStep h <;> exact ⟨rfl, rfl, rfl, rfl⟩

/-! ## Traces -/

/-- What holds after the events of a trace. -/
structure Flow (es : List Event) (s : UDPProxy) : Prop where
  runWhole : s.run.Whole
  loopWhole : ∀ c loop, s.loops c = some loop → loop.pc.Whole
  run : Relayed (fun d : Datagram => nonempty d.2) (received es) s.run.inHand (forwarded s)
  loops : ∀ c, Relayed nonempty (replied c es) (replyInHand s c)
    ((returned s c).map Replied.bytes)

theorem flow_start : Flow [] start where
  runWhole := trivial
  loopWhole := by simp [start]
  run := relayed_nil
  loops _ := relayed_nil

theorem received_append (es : List Event) (e : Event) :
    received (es ++ [e]) = received es ++ e.received?.toList := by
  rw [received, List.filterMap_append]
  cases h : e.received? <;> simp [received, h]

theorem replied_append (c : Backend) (es : List Event) (e : Event) :
    replied c (es ++ [e]) = replied c es ++ (e.replied? c).toList := by
  rw [replied, List.filterMap_append]
  cases h : e.replied? c <;> simp [replied, h]

/-- The calls of one loop are its own. -/
theorem returned_append {c : Backend} {a : UDPAddr} {new : List (List UInt8)}
    (h : s'.toClient = s.toClient ++ new.map (fun bytes => ⟨c, a, bytes⟩)) (c' : Backend) :
    (returned s' c').map Replied.bytes =
      (returned s c').map Replied.bytes ++ (if c = c' then new else []) := by
  rw [returned, h, List.filter_append, List.map_append]
  congr 1
  split
  · next hc =>
    rw [List.filter_eq_self.mpr (by simp [hc]), List.map_map]
    exact List.map_id _
  · next hc =>
    rw [List.filter_eq_nil_iff.mpr (by simp [hc])]
    rfl

/-- A `replyLoop` goes on, and the others stay where they are. -/
theorem replyInHand_update {c : Backend} {loop : ReplyLoop}
    (h : s'.loops = Function.update s.loops c (some loop)) (c' : Backend) :
    replyInHand s' c' = if c = c' then loop.pc.inHand else replyInHand s c' := by
  rw [replyInHand, h]
  split
  · next hc =>
    subst hc
    rw [Function.update_self]
    rfl
  · next hc =>
    rw [Function.update_of_ne (Ne.symm hc)]
    rfl

theorem loopWhole_update {c : Backend} {loop : ReplyLoop}
    (h : s'.loops = Function.update s.loops c (some loop)) (hwhole : loop.pc.Whole)
    (hall : ∀ c loop, s.loops c = some loop → loop.pc.Whole) :
    ∀ c loop, s'.loops c = some loop → loop.pc.Whole := by
  intro c' loop' hloop'
  rw [h] at hloop'
  by_cases hc : c' = c
  · subst hc
    rw [Function.update_self] at hloop'
    obtain rfl := Option.some.inj hloop'
    exact hwhole
  · rw [Function.update_of_ne hc] at hloop'
    exact hall c' loop' hloop'

/-- A step of `Run` is nothing to the loops. -/
theorem Flow.runStep {es : List Event} (ht : Tracked s) (h : Flow es s) {m : RunMove}
    (hfull : inFull s (.run m) = true) (hstep : s.runStep m = some s') :
    Flow (es ++ [.run m]) s' := by
  obtain ⟨hwhole, new, hforwarded, hrelay⟩ := runStep_relay hstep h.runWhole hfull
  obtain ⟨hclient, hloops⟩ := runStep_loops hstep
  have hreturned : ∀ c, returned s' c = returned s c := fun c => by
    rw [returned, returned, hclient]
  refine ⟨hwhole, ?_, ?_, ?_⟩
  · rcases hloops with hloops | ⟨sender, hloops⟩
    · rw [hloops]
      exact h.loopWhole
    · exact loopWhole_update hloops trivial h.loopWhole
  · rw [received_append, hforwarded]
    exact h.run.step hrelay
  · intro c
    have hhand : replyInHand s' c = replyInHand s c := by
      rcases hloops with hloops | ⟨sender, hloops⟩
      · rw [replyInHand, replyInHand, hloops]
      · -- the new connection had no loop before
        rw [replyInHand_update hloops]
        split
        · next hc =>
          rw [replyInHand, ← hc, ht.loops_length]
          rfl
        · rfl
    rw [replied_append, hreturned, hhand]
    simpa [Event.replied?] using h.loops c

/-- A step of a `replyLoop` is nothing to `Run` and to the other loops. -/
theorem Flow.replyStep {es : List Event} (h : Flow es s) {c : Backend} {loop : ReplyLoop}
    (hloop : s.loops c = some loop) {m : ReplyMove} (hfull : inFull s (.reply c m) = true)
    (hstep : s.replyStep c loop m = some s') : Flow (es ++ [.reply c m]) s' := by
  obtain ⟨pc, hloops, hwhole, hbackend, new, hclient, hrelay⟩ :=
    replyStep_relay hloop hstep (h.loopWhole c loop hloop) hfull
  obtain ⟨hrun, -⟩ := replyStep_frame hstep
  refine ⟨?_, loopWhole_update hloops hwhole h.loopWhole, ?_, ?_⟩
  · rw [hrun]
    exact h.runWhole
  · have hforwarded : forwarded s' = forwarded s := by rw [forwarded, forwarded, hbackend]
    rw [received_append, hforwarded, hrun]
    simpa [Event.received?] using h.run
  · intro c'
    rw [replied_append, returned_append hclient, replyInHand_update hloops]
    by_cases hc : c = c'
    · subst hc
      have hhand : replyInHand s c = loop.pc.inHand := by rw [replyInHand, hloop]; rfl
      rw [if_pos rfl, if_pos rfl]
      exact (hhand ▸ h.loops c).step hrelay
    · rw [if_neg hc, if_neg hc, Event.replied?_of_ne hc]
      simpa using h.loops c'

theorem Flow.closeStep {es : List Event} (h : Flow es s) {i : Nat} {m : CloseMove}
    (hstep : s.closeStep i m = some s') : Flow (es ++ [.close i m]) s' := by
  obtain ⟨hrun, hloops, hbackend, hclient⟩ := closeStep_records hstep
  refine ⟨?_, ?_, ?_, ?_⟩
  · rw [hrun]
    exact h.runWhole
  · rw [hloops]
    exact h.loopWhole
  · have hforwarded : forwarded s' = forwarded s := by rw [forwarded, forwarded, hbackend]
    rw [received_append, hforwarded, hrun]
    simpa [Event.received?] using h.run
  · intro c
    have hreturned : returned s' c = returned s c := by rw [returned, returned, hclient]
    have hhand : replyInHand s' c = replyInHand s c := by rw [replyInHand, replyInHand, hloops]
    rw [replied_append, hreturned, hhand]
    simpa [Event.replied?] using h.loops c

/-- Along a trace in which nothing fails both directions are relays. -/
theorem FullTrace.flow {es : List Event} (htrace : FullTrace es s) : Flow es s := by
  induction htrace with
  | nil => exact flow_start
  | @snoc es s s' e htrace hfull hstep ih =>
    cases e with
    | run m => exact ih.runStep (Reachable.tracked htrace.run.reach) hfull hstep
    | reply c m =>
      rw [step] at hstep
      cases hloop : s.loops c with
      | none => simp [hloop] at hstep
      | some loop =>
        rw [hloop] at hstep
        exact ih.replyStep hloop hfull hstep
    | close i m => exact ih.closeStep hstep

/-- **Which datagrams are passed on.** After a trace in which dials and writes
succeed, `Run` has dealt with every datagram but the one at hand: those that
are not empty went to a backend of their client, each in one write and in
order, and so everything did exactly if nothing was empty. The same holds for
every connection and the client it was dialled for. -/
theorem forwarded_iff {es : List Event} (htrace : FullTrace es s) :
    (∃ done, received es = done ++ s.run.inHand.toList ∧
        forwarded s = done.filter (fun d => nonempty d.2) ∧
        (forwarded s = done ↔ ∀ d ∈ done, d.2 ≠ [])) ∧
      (∀ w ∈ s.toBackend, s.DialledFor w.proxyConn (newConnTrackKey w.sender)) ∧
      ∀ c, ∃ done, replied c es = done ++ (replyInHand s c).toList ∧
        (returned s c).map Replied.bytes = done.filter nonempty ∧
        ((returned s c).map Replied.bytes = done ↔ ∀ d ∈ done, d ≠ []) ∧
        ∀ r ∈ returned s c, s.dials[c]? = some r.clientAddr := by
  have hflow := htrace.flow
  have htracked : Tracked s := Reachable.tracked htrace.run.reach
  refine ⟨?_, htracked.sent, fun c => ?_⟩
  · obtain ⟨done, hreceived, hforwarded⟩ := hflow.run
    refine ⟨done, hreceived, hforwarded, ?_⟩
    rw [hforwarded, List.filter_eq_self]
    simp [nonempty]
  · obtain ⟨done, hreplied, hreturned⟩ := hflow.loops c
    refine ⟨done, hreplied, hreturned, ?_, ?_⟩
    · rw [hreturned, List.filter_eq_self]
      simp [nonempty]
    · intro r hr
      obtain ⟨hmem, hc⟩ := List.mem_filter.mp hr
      have hc : r.proxyConn = c := by simpa using hc
      rw [← hc]
      exact htracked.replied r hmem

/-- A query of a guest and its answer, each passed on by one write. -/
def query (data answer : List UInt8) : List Event :=
  [.run (.received data guestAddr), .run .lock, .run .lookup, .run .dialled, .run .unlock,
    .run (.wrote data.length), .reply 0 (.read answer), .reply 0 (.wrote answer.length)]

/-- A query and its answer are both passed on. -/
theorem query_forwarded :
    ∃ s, FullTrace (query [1, 2] [3]) s ∧ forwarded s = received (query [1, 2] [3]) := by
  have htrace : ∃ s, FullTrace (query [1, 2] [3]) s ∧ s.run = .read :=
    trace_of_exec (query [1, 2] [3]) start (by decide +kernel)
  obtain ⟨s, hs, hrun⟩ := htrace
  obtain ⟨⟨done, hreceived, -, hiff⟩, -⟩ := forwarded_iff hs
  rw [hrun] at hreceived
  have hdone : done = received (query [1, 2] [3]) := by simpa [RunPc.inHand] using hreceived.symm
  refine ⟨s, hs, hdone ▸ hiff.mpr ?_⟩
  rw [hdone]
  decide

/-- An empty datagram is lost on its way to the backend, and one on its way
back. -/
theorem empty_datagrams_lost :
    ∃ es s, FullTrace es s ∧ s.run = .read ∧ replyInHand s 0 = none ∧
      received es = [(guestAddr, [])] ∧ forwarded s = [] ∧
      replied 0 es = [[]] ∧ returned s 0 = [] := by
  have htrace : ∃ s, FullTrace
      [.run (.received [] guestAddr), .run .lock, .run .lookup, .run .dialled, .run .unlock,
        .reply 0 (.read [])] s ∧
      s.run = .read ∧ replyInHand s 0 = none ∧ forwarded s = [] ∧ returned s 0 = [] :=
    trace_of_exec _ start (by decide +kernel)
  obtain ⟨s, hs, hrun, hhand, hforwarded, hreturned⟩ := htrace
  exact ⟨_, s, hs, hrun, hhand, rfl, hforwarded, rfl, hreturned⟩

end UDPProxy

end GvisorTapVsock.Services.Forwarder
