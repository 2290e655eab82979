/-
GvisorTapVsock.Transport.TunnelTheorems — the handshake of a tunnel loses no
byte, and names the address it means.

  * `tunnel_keeps_bytes` — in every interleaving, what the caller writes after
    `Tunnel` returned is what the destination is given: the server's reader has
    the request and no byte more. That is because the client is silent until it
    has read `OK`, which is written when the reader is out of use. The two ends
    come to rest after a bounded number of steps, and then, if nothing failed,
    everything has arrived.
  * `tunnel_dials` — the address the server dials is the one in the arguments
    of `Tunnel`.

A `Tunnel` that returned without an error says nothing about the dial: `OK`
comes before it.
-/
import GvisorTapVsock.Lts.Measure
import GvisorTapVsock.Transport.Tunnel
import GvisorTapVsock.VirtualNetwork.AddressTheorems

namespace GvisorTapVsock.Transport

open GvisorTapVsock.Go GvisorTapVsock.Lts GvisorTapVsock.VirtualNetwork

/-! ## The invariant -/

/-- The server has not written anything yet. -/
def ServerPc.silent : ServerPc → Bool
  | .serving | .running | .hijacked => true
  | .dialling | .copying | .gone => false

/-- The handler has the connection. -/
def ServerPc.owns : ServerPc → Bool
  | .hijacked | .dialling | .copying => true
  | .serving | .running | .gone => false

structure Session.Ok (x : Exchange) (s : Session) : Prop where
  /-- no byte on the way to the server is lost or made up -/
  up : s.buffer ++ s.forwarded ++ s.toServer ++ s.unsent = x.request ++ s.sent
  /-- no byte on the way back is -/
  down : s.got ++ s.received ++ s.toClient = s.greeting ++ s.answered
  /-- the caller is silent until `Tunnel` has returned -/
  quiet : s.client ≠ .returned true → s.sent = [] ∧ s.received = []
  wrote : s.client = .reading ∨ s.client = .returned true → s.unsent = []
  unfinished : s.client = .writing → s.unsent ≠ [] ∧ s.got = []
  short : s.client = .reading → s.got.length < 2
  shook : s.client = .returned true → s.got = okBytes
  buffered : s.buffer <+: x.request
  handled : s.server ≠ .serving → s.buffer = x.request
  unread : s.server = .serving ∨ s.server = .running → s.forwarded = []
  silent : s.server.silent = true → s.greeting = [] ∧ s.answered = []
  greeted : s.server = .dialling ∨ s.server = .copying → s.greeting = okBytes
  greeting : s.greeting = okBytes ∨
    s.answered = [] ∧ (s.greeting = x.response ∨ s.greeting.length < 2)
  owned : s.server.owns = true → x.accepted = true
  accepted : s.greeting = okBytes → x.accepted = true

theorem Session.ok_start (x : Exchange) : (Session.start x).Ok x where
  up := by simp [Session.start]
  down := rfl
  quiet := fun _ => ⟨rfl, rfl⟩
  wrote := fun h => by simp [Session.start] at h
  unfinished := fun _ => ⟨x.request_ne, rfl⟩
  short := fun h => by cases h
  shook := fun h => by cases h
  buffered := List.nil_prefix
  handled := fun h => absurd rfl h
  unread := fun _ => rfl
  silent := fun _ => ⟨rfl, rfl⟩
  greeted := fun h => by simp [Session.start] at h
  greeting := Or.inr ⟨rfl, Or.inr (by simp [Session.start])⟩
  owned := fun h => by simp [Session.start, ServerPc.owns] at h
  accepted := fun h => by simp [Session.start, okBytes] at h

/-- A client that returned without an error was sent `OK` by the handler. -/
theorem Session.Ok.greeting_of_returned {x : Exchange} {s : Session} (hok : s.Ok x)
    (h : s.client = .returned true) : s.greeting = okBytes := by
  rcases hok.greeting with hgreeting | ⟨hanswered, hgreeting⟩
  · exact hgreeting
  · have hdown := hok.down
    rw [hok.shook h, hanswered, List.append_nil] at hdown
    rcases hgreeting with hgreeting | hgreeting
    · rw [hgreeting] at hdown
      simp [okBytes, Exchange.response] at hdown
    · have hlen := congrArg List.length hdown
      simp only [okBytes, List.length_append, List.length_cons, List.length_nil] at hlen
      omega

/-- While the server still reads, the client has not returned. -/
theorem Session.Ok.not_returned {x : Exchange} {s : Session} (hok : s.Ok x)
    (h : s.server.silent = true) : s.client ≠ .returned true := by
  intro hret
  have hgreeting := hok.greeting_of_returned hret
  rw [(hok.silent h).1] at hgreeting
  cases hgreeting

section Steps

variable {x : Exchange} {s : Session}

theorem Session.Ok.write (hok : s.Ok x) {n : Nat} (hpc : s.client = .writing)
    (hn : n ≤ s.unsent.length) :
    Session.Ok x { s with
      toServer := s.toServer ++ s.unsent.take n
      unsent := s.unsent.drop n
      client := if n = s.unsent.length then .reading else .writing } := by
  obtain ⟨-, hgot⟩ := hok.unfinished hpc
  have hquiet := hok.quiet (by simp [hpc])
  refine { hok with
    up := ?_, quiet := fun _ => hquiet, wrote := ?_, unfinished := ?_,
    short := fun _ => by simp [hgot], shook := ?_ }
  · have hup := hok.up
    simp only [List.append_assoc, List.take_append_drop] at hup ⊢
    exact hup
  · rintro (hc | hc)
    · split at hc
      · next hlen => exact List.drop_eq_nil_of_le hlen.ge
      · cases hc
    · split at hc <;> cases hc
  · intro hc
    split at hc
    · cases hc
    · next hlen =>
      refine ⟨fun hnil => ?_, hgot⟩
      have := List.drop_eq_nil_iff.mp hnil
      omega
  · intro hc
    split at hc <;> cases hc

theorem Session.Ok.read (hok : s.Ok x) {n : Nat} (hpc : s.client = .reading)
    (hroom : s.got.length + n ≤ 2) :
    Session.Ok x { s with
      got := s.got ++ s.toClient.take n
      toClient := s.toClient.drop n
      client := afterRead (s.got ++ s.toClient.take n) } := by
  obtain ⟨hsent, hreceived⟩ := hok.quiet (by simp [hpc])
  have hafter : ∀ pc, afterRead (s.got ++ s.toClient.take n) = pc →
      pc = .returned (decide (s.got ++ s.toClient.take n = okBytes)) ∨
        pc = .reading ∧ (s.got ++ s.toClient.take n).length ≠ 2 := by
    intro pc hc
    unfold afterRead at hc
    split at hc
    · exact Or.inl hc.symm
    · exact Or.inr ⟨hc.symm, ‹_›⟩
  refine { hok with
    down := ?_, quiet := fun _ => ⟨hsent, hreceived⟩, wrote := fun _ => hok.wrote (Or.inl hpc),
    unfinished := fun hc => ?_, short := fun hc => ?_, shook := fun hc => ?_ }
  · have hdown := hok.down
    simp only [hreceived, List.append_nil, List.append_assoc, List.take_append_drop] at hdown ⊢
    exact hdown
  · rcases hafter _ hc with hc | ⟨hc, -⟩ <;> cases hc
  · rcases hafter _ hc with hc | ⟨-, hlen⟩
    · cases hc
    · have hle : (s.got ++ s.toClient.take n).length ≤ 2 := by
        rw [List.length_append, List.length_take]
        omega
      exact lt_of_le_of_ne hle hlen
  · rcases hafter _ hc with hc | ⟨hc, -⟩
    · simpa using hc
    · cases hc

/-- `Tunnel` returns with an error. -/
theorem Session.Ok.giveUp (hok : s.Ok x) (hpc : s.client = .writing ∨ s.client = .reading) :
    Session.Ok x { s with client := .returned false } := by
  have hquiet := hok.quiet (by rcases hpc with hpc | hpc <;> simp [hpc])
  exact { hok with
    quiet := fun _ => hquiet
    wrote := fun hc => by simp at hc
    unfinished := fun hc => by cases hc
    short := fun hc => by cases hc
    shook := fun hc => by cases hc }

theorem Session.Ok.send (hok : s.Ok x) (hpc : s.client = .returned true) (bytes : List UInt8) :
    Session.Ok x { s with sent := s.sent ++ bytes, toServer := s.toServer ++ bytes } := by
  refine { hok with up := ?_, quiet := fun hc => absurd hpc hc }
  have hup := hok.up
  rw [hok.wrote (Or.inr hpc), List.append_nil] at hup
  simp only [hok.wrote (Or.inr hpc), List.append_nil, ← List.append_assoc, hup]

theorem Session.Ok.receive (hok : s.Ok x) (hpc : s.client = .returned true) (n : Nat) :
    Session.Ok x { s with
      received := s.received ++ s.toClient.take n
      toClient := s.toClient.drop n } := by
  refine { hok with down := ?_, quiet := fun hc => absurd hpc hc }
  have hdown := hok.down
  simp only [List.append_assoc, List.take_append_drop] at hdown ⊢
  exact hdown

/-- The reader takes bytes of the request only: the client has not written
anything else. -/
theorem Session.Ok.fill (hok : s.Ok x) (hpc : s.server = .serving ∨ s.server = .running)
    (n : Nat) :
    Session.Ok x { s with
      buffer := s.buffer ++ s.toServer.take n
      toServer := s.toServer.drop n } := by
  have hsilent : s.server.silent = true := by
    rcases hpc with hpc | hpc <;> simp [hpc, ServerPc.silent]
  have hforwarded := hok.unread hpc
  obtain ⟨hsent, -⟩ := hok.quiet (hok.not_returned hsilent)
  have hup := hok.up
  simp only [hforwarded, hsent, List.append_nil] at hup
  have hbuffered : s.buffer ++ s.toServer.take n <+: x.request := by
    rw [← hup, List.append_assoc]
    have htake : s.toServer.take n <+: s.toServer := List.take_prefix n _
    exact (List.prefix_append_right_inj _).mpr (htake.trans (List.prefix_append _ _))
  refine { hok with up := ?_, buffered := hbuffered, handled := fun hs => ?_ }
  · simp only [hforwarded, hsent, List.append_nil, List.append_assoc, ← hup]
    rw [← List.append_assoc (s.toServer.take n), List.take_append_drop]
  · rw [hok.handled hs] at hbuffered ⊢
    exact (hbuffered.eq_of_length_le (by simp)).trans rfl

/-- A step of the server that writes to the client for the first time. -/
theorem Session.Ok.greet (hok : s.Ok x) (hpc : s.server = .running ∨ s.server = .hijacked)
    {greeting : List UInt8} {server : ServerPc}
    (hserver : server = .gone ∨ server = .dialling ∧ greeting = okBytes)
    (hgreeting : greeting = okBytes ∨ greeting = x.response ∨ greeting.length < 2)
    (haccepted : greeting = okBytes → x.accepted = true) :
    Session.Ok x { s with
      server := server
      greeting := greeting
      toClient := s.toClient ++ greeting } := by
  have hsilent : s.server.silent = true := by
    rcases hpc with hpc | hpc <;> simp [hpc, ServerPc.silent]
  obtain ⟨hnone, hanswered⟩ := hok.silent hsilent
  have hbuffer := hok.handled (by rcases hpc with hpc | hpc <;> simp [hpc])
  refine { hok with
    down := ?_, handled := fun _ => hbuffer, unread := fun hs => ?_, silent := fun hs => ?_,
    greeted := fun hs => ?_, greeting := ?_, owned := fun hs => ?_, accepted := haccepted }
  · have hdown := hok.down
    simp only [hnone, hanswered, List.append_nil] at hdown ⊢
    rw [← List.append_assoc, hdown, List.nil_append]
  · rcases hserver with rfl | ⟨rfl, -⟩ <;> simp at hs
  · rcases hserver with rfl | ⟨rfl, -⟩ <;> simp [ServerPc.silent] at hs
  · rcases hserver with rfl | ⟨rfl, hok⟩
    · simp at hs
    · exact hok
  · rcases hgreeting with hgreeting | hgreeting
    · exact Or.inl hgreeting
    · exact Or.inr ⟨hanswered, hgreeting⟩
  · rcases hserver with rfl | ⟨rfl, hok⟩
    · simp [ServerPc.owns] at hs
    · exact haccepted hok

theorem Session.Ok.handle (hok : s.Ok x) (hpc : s.server = .serving)
    (hrequest : x.request <+: s.buffer) : Session.Ok x { s with server := .running } := by
  refine { hok with
    handled := fun _ => ?_, unread := fun _ => hok.unread (Or.inl hpc),
    silent := fun _ => hok.silent (by simp [hpc, ServerPc.silent]),
    greeted := fun hs => by simp at hs, owned := fun hs => by simp [ServerPc.owns] at hs }
  exact hok.buffered.eq_of_length_le hrequest.length_le

theorem Session.Ok.hijack (hok : s.Ok x) (hpc : s.server = .running)
    (haccepted : x.accepted = true) :
    Session.Ok x { s with server := .hijacked } :=
  { hok with
    handled := fun _ => hok.handled (by simp [hpc])
    unread := fun hs => by simp at hs
    silent := fun _ => hok.silent (by simp [hpc, ServerPc.silent])
    greeted := fun hs => by simp at hs
    owned := fun _ => haccepted }

theorem Session.Ok.dialled (hok : s.Ok x) (hpc : s.server = .dialling) :
    Session.Ok x { s with server := .copying } :=
  { hok with
    handled := fun _ => hok.handled (by simp [hpc])
    unread := fun hs => by simp at hs
    silent := fun hs => by simp [ServerPc.silent] at hs
    greeted := fun _ => hok.greeted (Or.inl hpc)
    owned := fun _ => hok.owned (by simp [hpc, ServerPc.owns]) }

theorem Session.Ok.gone (hok : s.Ok x) (hpc : s.server ≠ .serving) :
    Session.Ok x { s with server := .gone } :=
  { hok with
    handled := fun _ => hok.handled hpc
    unread := fun hs => by simp at hs
    silent := fun hs => by simp [ServerPc.silent] at hs
    greeted := fun hs => by simp at hs
    owned := fun hs => by simp [ServerPc.owns] at hs }

theorem Session.Ok.forward (hok : s.Ok x) (hpc : s.server = .copying) (n : Nat) :
    Session.Ok x { s with
      forwarded := s.forwarded ++ s.toServer.take n
      toServer := s.toServer.drop n } := by
  refine { hok with up := ?_, unread := fun hs => by simp [hpc] at hs }
  have hup := hok.up
  simp only [List.append_assoc] at hup ⊢
  rw [← hup, ← List.append_assoc (s.toServer.take n), List.take_append_drop]

theorem Session.Ok.answer (hok : s.Ok x) (hpc : s.server = .copying) (bytes : List UInt8) :
    Session.Ok x { s with answered := s.answered ++ bytes, toClient := s.toClient ++ bytes } := by
  refine { hok with
    down := ?_, silent := fun hs => by simp [hpc, ServerPc.silent] at hs,
    greeting := Or.inl (hok.greeted (Or.inr hpc)) }
  have hdown := hok.down
  simp only [← List.append_assoc] at hdown ⊢
  rw [hdown]

end Steps

theorem Session.Ok.step {x : Exchange} {s s' : Session} (hok : s.Ok x) {e : TunnelEvent}
    (h : s.step x e = some s') : s'.Ok x := by
  cases e <;>
    simp only [Session.step, Option.ite_none_right_eq_some, Option.some.injEq] at h <;>
    obtain ⟨hguard, rfl⟩ := h
  case write n => exact hok.write hguard.1 hguard.2.2
  case read n => exact hok.read hguard.1 hguard.2.2.1
  case eof => exact hok.giveUp (Or.inr hguard.1)
  case fail => exact hok.giveUp hguard
  case send bytes => exact hok.send hguard bytes
  case receive n => exact hok.receive hguard.1 n
  case fill n => exact hok.fill hguard.1 n
  case handle => exact hok.handle hguard.1 hguard.2
  case refuse =>
    refine hok.greet (Or.inl hguard) (Or.inl rfl) (Or.inr (Or.inl rfl)) fun hresponse => ?_
    simp [Exchange.response, okBytes] at hresponse
  case hijack => exact hok.hijack hguard.1 hguard.2
  case writeOK =>
    exact hok.greet (Or.inr hguard) (Or.inr ⟨rfl, rfl⟩) (Or.inl rfl)
      fun _ => hok.owned (by simp [hguard, ServerPc.owns])
  case writeFails n =>
    refine hok.greet (Or.inr hguard.1) (Or.inl rfl) (Or.inr (Or.inr ?_))
      fun _ => hok.owned (by simp [hguard.1, ServerPc.owns])
    rw [List.length_take]
    exact lt_of_le_of_lt (Nat.min_le_left _ _) hguard.2
  case dialled => exact hok.dialled hguard
  case dialFails => exact hok.gone (by simp [hguard])
  case forward n => exact hok.forward hguard.1 n
  case answer bytes => exact hok.answer hguard bytes
  case close => exact hok.gone (by simp [hguard])

theorem Session.ok_of_reach {x : Exchange} {s : Session}
    (hreach : Reach (Session.step x) (Session.start x) s) : s.Ok x := by
  induction hreach with
  | refl => exact Session.ok_start x
  | step e _ _ next ih => exact ih.step next

/-! ## Progress -/

/-- A step that moves what is there already: neither the caller nor the
destination writes anything new, and nothing fails. -/
def TunnelEvent.progress (x : Exchange) : TunnelEvent → Bool
  | .write _ | .read _ | .eof | .receive _ | .fill _ | .handle | .hijack | .writeOK | .dialled |
    .forward _ => true
  | .refuse => !x.accepted
  | .fail | .send _ | .writeFails _ | .dialFails | .answer _ | .close => false

/-- A step in which something fails, or the server's end of the tunnel. -/
def TunnelEvent.failure (x : Exchange) : TunnelEvent → Bool
  | .fail | .writeFails _ | .dialFails | .close => true
  | .refuse => x.accepted
  | .write _ | .read _ | .eof | .send _ | .receive _ | .fill _ | .handle | .hijack | .writeOK |
    .dialled | .forward _ | .answer _ => false

def ClientPc.toGo : ClientPc → Nat
  | .writing | .reading => 1
  | .returned _ => 0

/-- A refusal puts the response into the connection, and `OK` is two bytes. -/
def ServerPc.toGo (x : Exchange) : ServerPc → Nat
  | .serving => x.response.length + 6
  | .running => x.response.length + 5
  | .hijacked => 4
  | .dialling => 1
  | .copying | .gone => 0

/-- A bound on the steps that move what is there already: each byte of the
request is written and read, each byte in the connection is read. -/
def Session.toGo (x : Exchange) (s : Session) : Nat :=
  2 * s.unsent.length + s.toServer.length + s.toClient.length + s.client.toGo + s.server.toGo x

theorem afterRead_toGo (got : List UInt8) : (afterRead got).toGo ≤ 1 := by
  unfold afterRead
  split <;> simp [ClientPc.toGo]

theorem Session.toGo_lt {x : Exchange} {s s' : Session} {e : TunnelEvent}
    (hprogress : e.progress x = true) (h : s.step x e = some s') : s'.toGo x < s.toGo x := by
  cases e <;>
    simp only [Session.step, Option.ite_none_right_eq_some, Option.some.injEq] at h <;>
    obtain ⟨hguard, rfl⟩ := h <;>
    simp only [Session.toGo, List.length_append, List.length_drop, List.length_take]
  case write n =>
    obtain ⟨hpc, hpos, hn⟩ := hguard
    have hclient : (if n = s.unsent.length then ClientPc.reading else .writing).toGo = 1 := by
      split <;> rfl
    rw [hclient, hpc, show ClientPc.writing.toGo = 1 from rfl]
    omega
  case read n =>
    obtain ⟨hpc, hpos, -, hn⟩ := hguard
    have hclient := afterRead_toGo (s.got ++ s.toClient.take n)
    rw [hpc, show ClientPc.reading.toGo = 1 from rfl]
    omega
  case eof => simp [hguard, ClientPc.toGo]
  case receive n => omega
  case fill n => omega
  case handle => simp [hguard, ServerPc.toGo]
  case refuse =>
    simp only [hguard, ServerPc.toGo]
    omega
  case hijack =>
    simp only [hguard, ServerPc.toGo]
    omega
  case writeOK =>
    simp only [hguard, ServerPc.toGo, okBytes, List.length_cons, List.length_nil]
    omega
  case dialled => simp [hguard, ServerPc.toGo]
  case forward n => omega
  all_goals cases hprogress

/-- While `Tunnel` has not returned, somebody can go on. -/
theorem Session.Ok.progress {x : Exchange} {s : Session} (hok : s.Ok x)
    (hpc : s.client = .writing ∨ s.client = .reading) :
    ∃ e s', e.progress x = true ∧ s.step x e = some s' := by
  rcases hpc with hpc | hpc
  · have hlen := List.length_pos_iff.mpr (hok.unfinished hpc).1
    exact ⟨.write 1, _, rfl, if_pos ⟨hpc, by decide, hlen⟩⟩
  · by_cases hread : s.toClient = []
    · obtain ⟨hsent, hreceived⟩ := hok.quiet (by simp [hpc])
      cases hs : s.server with
      | serving =>
        by_cases hfill : s.toServer = []
        · have hup := hok.up
          simp only [hfill, hok.unread (Or.inl hs), hok.wrote (Or.inl hpc), hsent,
            List.append_nil] at hup
          exact ⟨.handle, _, rfl, if_pos ⟨hs, hup ▸ List.prefix_rfl⟩⟩
        · exact ⟨.fill 1, _, rfl, if_pos ⟨Or.inl hs, by decide, List.length_pos_iff.mpr hfill⟩⟩
      | running =>
        cases haccepted : x.accepted with
        | true => exact ⟨.hijack, _, rfl, if_pos ⟨hs, haccepted⟩⟩
        | false => exact ⟨.refuse, _, by simp [TunnelEvent.progress, haccepted], if_pos hs⟩
      | hijacked => exact ⟨.writeOK, _, rfl, if_pos hs⟩
      | dialling | copying =>
        -- `OK` was written, and the client has not read all of it
        have hdown := congrArg List.length hok.down
        have hshort := hok.short hpc
        rw [hok.greeted (by simp [hs]), hreceived, hread] at hdown
        simp [okBytes] at hdown
        omega
      | gone => exact ⟨.eof, _, rfl, if_pos ⟨hpc, hs, hread⟩⟩
    · have hlen := List.length_pos_iff.mpr hread
      exact ⟨.read 1, _, rfl, if_pos ⟨hpc, by decide, hok.short hpc, hlen⟩⟩

/-- No step moves anything any more. -/
def Session.AtRest (x : Exchange) (s : Session) : Prop :=
  ∀ e, e.progress x = true → s.step x e = none

theorem Session.Ok.returned_of_atRest {x : Exchange} {s : Session} (hok : s.Ok x)
    (hrest : s.AtRest x) : ∃ ok, s.client = .returned ok := by
  have hnot : ¬ (s.client = .writing ∨ s.client = .reading) := by
    intro hpc
    obtain ⟨e, s', hprogress, hstep⟩ := hok.progress hpc
    rw [hrest e hprogress] at hstep
    cases hstep
  cases hpc : s.client with
  | writing | reading => simp [hpc] at hnot
  | returned ok => exact ⟨ok, rfl⟩

/-- The reader is done when the first byte is copied. -/
theorem Session.Ok.copied {x : Exchange} {s : Session} (hok : s.Ok x)
    (hserver : s.server ≠ .serving) : s.forwarded ++ s.toServer ++ s.unsent = s.sent := by
  have hup := hok.up
  rw [hok.handled hserver] at hup
  simpa [List.append_assoc] using hup

theorem Session.Ok.forwarded_prefix {x : Exchange} {s : Session} (hok : s.Ok x) :
    s.forwarded <+: s.sent := by
  by_cases hserver : s.server = .serving
  · rw [hok.unread (Or.inl hserver)]
    exact List.nil_prefix
  · rw [← hok.copied hserver, List.append_assoc]
    exact List.prefix_append _ _

/-- After the handshake the two directions carry the caller's bytes only. -/
theorem Session.Ok.carried {x : Exchange} {s : Session} (hok : s.Ok x)
    (hret : s.client = .returned true) :
    x.accepted = true ∧ s.forwarded ++ s.toServer = s.sent ∧
      s.received ++ s.toClient = s.answered := by
  have hgreeting := hok.greeting_of_returned hret
  have hserver : s.server ≠ .serving := fun hs =>
    hok.not_returned (by simp [hs, ServerPc.silent]) hret
  refine ⟨hok.accepted hgreeting, ?_, ?_⟩
  · have hall := hok.copied hserver
    rwa [hok.wrote (Or.inr hret), List.append_nil] at hall
  · have hdown := hok.down
    rw [hok.shook hret, hgreeting, List.append_assoc] at hdown
    exact List.append_cancel_left hdown

/-- A tunnel at rest that is not gone has nothing left in the connection. -/
theorem Session.Ok.copying_of_atRest {x : Exchange} {s : Session} (hok : s.Ok x)
    (hrest : s.AtRest x) (hret : s.client = .returned true) (hserver : s.server ≠ .gone) :
    s.server = .copying ∧ s.toServer = [] ∧ s.toClient = [] := by
  have hcopying : s.server = .copying := by
    cases hs : s.server with
    | serving | running | hijacked =>
      exact absurd hret (hok.not_returned (by simp [hs, ServerPc.silent]))
    | dialling =>
      have hstep := hrest .dialled rfl
      simp [Session.step, hs] at hstep
    | copying => rfl
    | gone => exact absurd hs hserver
  refine ⟨hcopying, ?_, ?_⟩
  · by_contra hne
    have hstep := hrest (.forward 1) rfl
    simp only [Session.step, if_pos (show s.server = .copying ∧ 0 < 1 ∧ 1 ≤ s.toServer.length from
      ⟨hcopying, by decide, List.length_pos_iff.mpr hne⟩)] at hstep
    cases hstep
  · by_contra hne
    have hstep := hrest (.receive 1) rfl
    simp only [Session.step, if_pos (show s.client = .returned true ∧ 0 < 1 ∧
      1 ≤ s.toClient.length from ⟨hret, by decide, List.length_pos_iff.mpr hne⟩)] at hstep
    cases hstep

theorem Session.Ok.delivered_of_atRest {x : Exchange} {s : Session} (hok : s.Ok x)
    (hrest : s.AtRest x) (hret : s.client = .returned true) (hserver : s.server ≠ .gone) :
    s.server = .copying ∧ s.forwarded = s.sent ∧ s.received = s.answered := by
  obtain ⟨hcopying, hup, hdown⟩ := hok.copying_of_atRest hrest hret hserver
  obtain ⟨-, hsent, hanswered⟩ := hok.carried hret
  rw [hup, List.append_nil] at hsent
  rw [hdown, List.append_nil] at hanswered
  exact ⟨hcopying, hsent, hanswered⟩

/-- What holds as long as nothing fails, for a query that passes. -/
structure Session.Smooth (s : Session) : Prop where
  server : s.server ≠ .gone
  client : s.client ≠ .returned false
  greeting : s.greeting = [] ∨ s.greeting = okBytes

theorem Session.Smooth.step {x : Exchange} {s s' : Session} {e : TunnelEvent} (hok : s.Ok x)
    (hs : s.Smooth) (haccepted : x.accepted = true) (hfailure : e.failure x = false)
    (h : s.step x e = some s') : s'.Smooth := by
  cases e <;>
    simp only [Session.step, Option.ite_none_right_eq_some, Option.some.injEq] at h <;>
    obtain ⟨hguard, rfl⟩ := h
  case write n => exact { hs with client := by split <;> nofun }
  case read n =>
    refine { hs with client := fun hclient => ?_ }
    have hlen : (s.got ++ s.toClient.take n).length = 2 := by
      by_contra hne
      rw [afterRead, if_neg hne] at hclient
      cases hclient
    have hne : s.got ++ s.toClient.take n ≠ okBytes := by
      rw [afterRead, if_pos hlen] at hclient
      simpa using hclient
    -- the two bytes are the beginning of what the handler wrote
    have hbegin : s.got ++ s.toClient.take n <+: s.greeting ++ s.answered := by
      have hdown := hok.down
      rw [(hok.quiet (by simp [hguard.1])).2, List.append_nil] at hdown
      rw [← hdown]
      exact (List.prefix_append_right_inj _).mpr (List.take_prefix n _)
    rcases hs.greeting with hnone | hgreeting
    · have hanswered : s.answered = [] := by
        rcases hok.greeting with hgreeting | ⟨hanswered, -⟩
        · rw [hnone] at hgreeting
          cases hgreeting
        · exact hanswered
      rw [hnone, hanswered] at hbegin
      rw [List.prefix_nil.mp hbegin] at hlen
      cases hlen
    · rw [hgreeting] at hbegin
      exact hne ((List.prefix_of_prefix_length_le hbegin (List.prefix_append okBytes _)
        (by rw [hlen]; decide)).eq_of_length hlen)
  case eof => exact absurd hguard.2.1 hs.server
  case send bytes => exact { hs with }
  case receive n => exact { hs with }
  case fill n => exact { hs with }
  case handle => exact { hs with server := nofun }
  case refuse =>
    rw [TunnelEvent.failure, haccepted] at hfailure
    cases hfailure
  case hijack => exact { hs with server := nofun }
  case writeOK => exact { hs with server := nofun, greeting := Or.inr rfl }
  case dialled => exact { hs with server := nofun }
  case forward n => exact { hs with }
  case answer bytes => exact { hs with }
  all_goals cases hfailure

theorem Session.smooth_of_run {x : Exchange} {s : Session} (haccepted : x.accepted = true)
    (hrun : Run (Session.step x) (fun _ e => e.failure x = false) (Session.start x) s) :
    s.Smooth := by
  induction hrun with
  | refl => exact ⟨nofun, nofun, Or.inl rfl⟩
  | step e run meets next ih =>
    exact ih.step (Session.ok_of_reach run.reach) haccepted meets next

/-- **No byte is lost.** In every interleaving of a client, a server and a
destination: the server's reader takes the request and nothing else, and the
destination is given what the caller of `Tunnel` wrote and nothing else, in
order. Once `Tunnel` has returned without an error, the query had passed the
checks, and what was written and answered has arrived or is in the connection.
From every state the two ends come to rest within a bound unless somebody writes
more. At rest `Tunnel` has returned; if it returned without an error, the server
is gone, or all that was written and answered has arrived. If nothing failed on
the way, it is the second for a query that passes the checks, and an error for
any other. -/
theorem tunnel_keeps_bytes (x : Exchange) {s : Session}
    (hreach : Reach (Session.step x) (Session.start x) s) :
    s.buffer <+: x.request ∧ s.forwarded <+: s.sent ∧
    (s.client = .returned true → x.accepted = true ∧ s.forwarded ++ s.toServer = s.sent ∧
      s.received ++ s.toClient = s.answered) ∧
    (∀ es q, Trace (Session.step x) (fun _ e => e.progress x = true) s es q →
      es.length ≤ s.toGo x) ∧
    (s.AtRest x →
      (∃ ok, s.client = .returned ok) ∧
      (s.client = .returned true → s.server = .gone ∨
        s.server = .copying ∧ s.forwarded = s.sent ∧ s.received = s.answered) ∧
      (Run (Session.step x) (fun _ e => e.failure x = false) (Session.start x) s →
        if x.accepted then
          s.client = .returned true ∧ s.server = .copying ∧ s.forwarded = s.sent ∧
            s.received = s.answered
        else s.client = .returned false ∧ s.forwarded = [])) := by
  have hok := Session.ok_of_reach hreach
  refine ⟨hok.buffered, hok.forwarded_prefix, hok.carried, fun es q htrace => ?_, fun hrest => ?_⟩
  · have hlen := Trace.length_le (fun _ _ _ _ => Session.toGo_lt) htrace
    omega
  · obtain ⟨ok, hclient⟩ := hok.returned_of_atRest hrest
    refine ⟨⟨ok, hclient⟩, fun hret => ?_, fun hrun => ?_⟩
    · by_cases hgone : s.server = .gone
      · exact Or.inl hgone
      · exact Or.inr (hok.delivered_of_atRest hrest hret hgone)
    · split
      · next haccepted =>
        have hsmooth := Session.smooth_of_run haccepted hrun
        have hret : s.client = .returned true := by
          cases ok with
          | true => exact hclient
          | false => exact absurd hclient hsmooth.client
        exact ⟨hret, hok.delivered_of_atRest hrest hret hsmooth.server⟩
      · next haccepted =>
        have hfalse : s.client = .returned false := by
          cases ok with
          | true => exact absurd (hok.carried hclient).1 haccepted
          | false => exact hclient
        refine ⟨hfalse, List.prefix_nil.mp ?_⟩
        rw [← (hok.quiet (by simp [hfalse])).1]
        exact hok.forwarded_prefix

/-- A request of three bytes. -/
def threeBytes : Exchange := ⟨[1, 2, 3], .ok ("192.168.127.2", 22), [], by decide⟩

/-- The server takes the request in two reads; the caller writes before there
is a destination, which is given both bytes and answers. -/
theorem tunnel_keeps_bytes_answered :
    ∃ s, Reach (Session.step threeBytes) (Session.start threeBytes) s ∧
      s.sent = [5, 6] ∧ s.forwarded = [5, 6] ∧ s.received = [7] := by
  have hexec : ∃ s, Run (Session.step threeBytes) (fun _ e => e.failure threeBytes = false)
      (Session.start threeBytes) s ∧ (s.client = .returned true ∧ s.server = .copying ∧
        s.toServer = [] ∧ s.toClient = [] ∧ s.sent = [5, 6] ∧ s.answered = [7]) :=
    run_of_exec [.write 2, .fill 1, .write 1, .fill 2, .handle, .hijack, .writeOK, .read 1,
      .read 1, .send [5], .send [6], .dialled, .forward 2, .answer [7], .receive 1] _ (by decide)
  obtain ⟨s, hrun, hclient, hserver, hup, hdown, hsent, hanswered⟩ := hexec
  have hrest : s.AtRest threeBytes := by
    intro e hprogress
    cases e with
    | fail | send | writeFails | dialFails | answer | close => cases hprogress
    | receive n | forward n =>
      refine if_neg fun ⟨_, hpos, hn⟩ => ?_
      simp only [hup, hdown, List.length_nil] at hn
      omega
    | _ => exact if_neg (by simp [hclient, hserver])
  obtain ⟨-, -, -, -, hall⟩ := tunnel_keeps_bytes threeBytes hrun.reach
  obtain ⟨-, -, hforwarded, hreceived⟩ := (hall hrest).2.2 hrun
  exact ⟨s, hrun.reach, hsent, hforwarded.trans hsent, hreceived.trans hanswered⟩

/-! ## The query -/

/-- A character that neither a URL nor a query takes for anything else. -/
def plainChar (c : Char) : Bool := c.isAlphanum || ['.', ':', '-', '_'].contains c

/-- A text of such characters. -/
def Plain (s : List Char) : Prop := s.all plainChar = true

theorem plainChar_digit : ∀ d < 10, plainChar (Nat.digitChar d) = true := by decide

theorem plain_itoa (i : Int) : Plain (itoa i).toList := by
  refine List.all_eq_true.mpr fun c hc => ?_
  rw [itoa, String.toList_ofList, List.mem_append] at hc
  rcases hc with hc | hc
  · split at hc
    · obtain rfl := List.mem_singleton.mp hc
      rfl
    · cases hc
  · obtain ⟨d, hd, rfl⟩ := mem_toDigits _ c hc
    exact plainChar_digit d hd

theorem Plain.not_mem {s : List Char} (h : Plain s) {c : Char} (hc : plainChar c = false) :
    c ∉ s := by
  intro hmem
  have hplain := List.all_eq_true.mp h c hmem
  rw [hc] at hplain
  cases hplain

/-- A piece `key=value` of plain characters. -/
theorem parsePiece_plain {unescape : List Char → Option (List Char)}
    (hunescape : ∀ s, Plain s → unescape s = some s) (m : GoMap String (List String))
    {key value : List Char} (hkey : Plain key) (hvalue : Plain value) :
    parsePiece unescape m (key ++ '=' :: value) =
      m.insert (String.ofList key)
        ((m.lookup (String.ofList key)).getD [] ++ [String.ofList value]) := by
  have hsemicolon : ¬ (';' ∈ key ++ '=' :: value ∨ key ++ '=' :: value = []) := by
    have hk : ';' ∉ key := hkey.not_mem rfl
    have hv : ';' ∉ value := hvalue.not_mem rfl
    simp [hk, hv]
  have hcut : cutEq (key ++ '=' :: value) = (key, value) := by
    have hnone : '=' ∉ key := hkey.not_mem rfl
    have hne : ∀ c ∈ key, decide (c ≠ '=') = true := by
      intro c hc
      have hne : c ≠ '=' := fun heq => hnone (heq ▸ hc)
      simpa using hne
    rw [cutEq, List.takeWhile_append_of_pos hne, List.dropWhile_append_of_pos hne]
    simp
  rw [parsePiece, if_neg hsemicolon, hcut, hunescape key hkey, hunescape value hvalue]

/-- The server finds the arguments of `Tunnel` in its query. -/
theorem getQuery_tunnelQuery {unescape : List Char → Option (List Char)}
    (hunescape : ∀ s, Plain s → unescape s = some s) {ip : String} (hip : Plain ip.toList)
    (port : Int) :
    getQuery (parseQuery unescape (tunnelQuery ip port)) "ip" = ip ∧
      getQuery (parseQuery unescape (tunnelQuery ip port)) "port" = itoa port := by
  have hport := plain_itoa port
  have hpieces : (tunnelQuery ip port).splitOn '&' =
      ["ip".toList ++ '=' :: ip.toList, "port".toList ++ '=' :: (itoa port).toList] := by
    have hsplit : tunnelQuery ip port = ("ip".toList ++ '=' :: ip.toList) ++
        '&' :: ("port".toList ++ '=' :: (itoa port).toList) := by
      simp [tunnelQuery]
    have hfirst : '&' ∉ ip.toList := hip.not_mem rfl
    have hsecond : '&' ∉ (itoa port).toList := hport.not_mem rfl
    rw [hsplit]
    exact splitOn_eq_pair_iff.mpr ⟨rfl, by simp [hfirst], by simp [hsecond]⟩
  have hquery : parseQuery unescape (tunnelQuery ip port) =
      ((∅ : GoMap String (List String)).insert "ip" [ip]).insert "port" [itoa port] := by
    rw [parseQuery, hpieces]
    simp only [List.foldl_cons, List.foldl_nil]
    have hkey : Plain "ip".toList := rfl
    have hkey' : Plain "port".toList := rfl
    rw [parsePiece_plain hunescape _ hkey hip, parsePiece_plain hunescape _ hkey' hport]
    have hne : ¬ "port" = "ip" := by decide
    simp only [String.ofList_toList, GoMap.lookup_insert_eq, AList.lookup_empty, if_neg hne,
      Option.getD_none, List.nil_append]
  have hne : ¬ "ip" = "port" := by decide
  rw [hquery]
  simp only [getQuery, GoMap.lookup_insert_eq, if_neg hne, if_true, Option.getD_some,
    List.headD_cons, and_self]

/-- A query that does not pass ends in `http.Error`, and the connection is left
to `net/http`. -/
theorem tunnelHandler_refused {quote : String → String} {query : GoMap String (List String)}
    {err : String} (h : tunnelTarget quote query = .error err) (w : ResponseWriter)
    (write : Option String) :
    tunnelHandler quote query w write = .httpError err statusInternalServerError := by
  by_cases hip : getQuery query "ip" = ""
  · rw [tunnelTarget, if_pos hip] at h
    obtain rfl := Except.error.inj h
    rw [tunnelHandler, if_pos hip]
  · rw [tunnelTarget, if_neg hip] at h
    rw [tunnelHandler, if_neg hip]
    cases hatoi : atoi (getQuery query "port") with
    | error e =>
      rw [hatoi] at h
      obtain rfl := Except.error.inj h
      rfl
    | ok port =>
      rw [hatoi] at h
      cases h

/-- **The tunnel dials what it was asked for.** For every address without
special characters and every port, the server makes of the request of `Tunnel`
the dial to that address, or a panic if it is no IPv4 address; of the port it
keeps sixteen bits. A query that does not get that far gets an error. -/
theorem tunnel_dials (quote : String → String) (unescape : List Char → Option (List Char))
    (hunescape : ∀ s, Plain s → unescape s = some s) (ip : String) (port : Int)
    (hne : ip ≠ "") (hip : Plain ip.toList) (hlo : -9223372036854775808 ≤ port)
    (hhi : port < 9223372036854775808) :
    (∀ query err w write, tunnelTarget quote query = .error err →
      tunnelHandler quote query w write = .httpError err statusInternalServerError) ∧
    tunnelTarget quote (parseQuery unescape (tunnelQuery ip port)) = .ok (ip, port) ∧
    tunnelHandler quote (parseQuery unescape (tunnelQuery ip port)) noFailure none =
      (parseIP ip).to4.elim .panicked
        (fun addr => .dial ⟨1, addr, UInt16.ofNat (port % 65536).toNat⟩) := by
  obtain ⟨hgetIP, hgetPort⟩ := getQuery_tunnelQuery hunescape hip port
  have hatoi : atoi (getQuery (parseQuery unescape (tunnelQuery ip port)) "port") = .ok port := by
    rw [hgetPort, atoi_itoa hlo hhi]
  refine ⟨fun query err w write h => tunnelHandler_refused h w write, ?_, ?_⟩
  · rw [tunnelTarget, hgetIP, if_neg hne, hatoi]
  · rw [tunnelHandler_noFailure (by rw [hgetIP]; exact hne) hatoi, hgetIP]

theorem tunnel_dials_ssh :
    tunnelHandler id (parseQuery some (tunnelQuery "192.168.127.2" 22)) noFailure none =
      .dial ⟨1, [192, 168, 127, 2], 22⟩ := by
  have hdials := tunnel_dials id some (fun _ _ => rfl) "192.168.127.2" 22 (by decide) rfl
    (by decide) (by decide)
  exact hdials.2.2.trans (by decide)

end GvisorTapVsock.Transport
