/-
GvisorTapVsock.Services.Forwarder.Tcp — the TCP connections of the guest (`TCP`
in `pkg/services/forwarder/tcp.go`).

The handler of a request makes its calls in one goroutine, and how they go
depends on two outcomes only: whether the dial and `CreateEndpoint` succeed.
It is modelled as the list of its calls, from which the use of its two
connections is read off: the one it dialled and the endpoint of the guest.

`tcpHandler_settled_iff` — the handler does what it should except where
`CreateEndpoint` fails after the dial succeeded: it returns without closing
the outbound connection.
-/
import GvisorTapVsock.Lts.Resources
import GvisorTapVsock.Services.Forwarder.Udp

namespace GvisorTapVsock.Services.Forwarder

open GvisorTapVsock.Go GvisorTapVsock.Lts

/-- A call of the handler, with its outcome. -/
inductive TcpCall where
  /-- `r.Complete(sendReset)` -/
  | complete (sendReset : Bool)
  /-- `net.Dial("tcp", address:port)` -/
  | dial (address : IP) (port : Nat) (ok : Bool)
  /-- `r.CreateEndpoint(&wq)` -/
  | createEndpoint (ok : Bool)
  /-- `remote.HandleConn(...)`, with the two connections -/
  | handleConn
  deriving DecidableEq

/-- The connections of a request. -/
inductive TcpConn where
  | outbound
  | guest
  deriving DecidableEq

/-- The handler of `TCP(s, nat, natLock)`; `dialed` and `created` say whether
`net.Dial` and `CreateEndpoint` succeed. -/
def tcpHandler (nat : GoMap IP IP) (id : TransportEndpointID) (dialed created : Bool) :
    List TcpCall :=
  if linkLocalContains id.localAddress then [.complete true]
  else
    let localAddress := (nat.lookup id.localAddress).getD id.localAddress
    if dialed then
      [.dial localAddress id.localPort true, .createEndpoint created, .complete false] ++
        -- the error is logged, and `outbound` stays open
        (if created then [.handleConn] else [])
    else [.dial localAddress id.localPort false, .complete true]

/-- What a call does with the connections. -/
def TcpCall.uses : TcpCall → List (Use TcpConn)
  | .dial _ _ true => [.opens .outbound]
  | .createEndpoint true => [.opens .guest]
  | .handleConn => [.hands .outbound, .hands .guest]
  | .complete _ | .dial _ _ false | .createEndpoint false => []

/-- The reset of each completion. -/
def TcpCall.completed? : TcpCall → Option Bool
  | .complete sendReset => some sendReset
  | _ => none

/-- The address of a dial. -/
def TcpCall.dialled? : TcpCall → Option IP
  | .dial address _ _ => some address
  | _ => none

/-- What is asked of the handler of a request. -/
structure Settled (id : TransportEndpointID) (calls : List TcpCall) : Prop where
  /-- one completion, with a reset unless there is an outbound connection -/
  completed : calls.filterMap TcpCall.completed?
    = [decide (Use.opens TcpConn.outbound ∉ calls.flatMap TcpCall.uses)]
  linkLocal : linkLocalContains id.localAddress = true → calls.filterMap TcpCall.dialled? = []
  /-- the outbound connection is closed, or handed over with that of the guest -/
  released : TcpConn.outbound ∉ held (calls.flatMap TcpCall.uses) ∧
    (TcpConn.outbound ∈ handed (calls.flatMap TcpCall.uses) →
      TcpConn.guest ∈ handed (calls.flatMap TcpCall.uses))

section Paths

variable (nat : GoMap IP IP) (id : TransportEndpointID) (dialed created : Bool)

/-- The handler completes its request once on every path. -/
theorem tcpHandler_completed :
    (tcpHandler nat id dialed created).filterMap TcpCall.completed?
      = [decide (Use.opens TcpConn.outbound ∉
          (tcpHandler nat id dialed created).flatMap TcpCall.uses)] := by
  unfold tcpHandler
  split
  · rfl
  · cases dialed <;> cases created <;> rfl

/-- The address that is dialled: none for a link-local destination. -/
theorem tcpHandler_dialled :
    (tcpHandler nat id dialed created).filterMap TcpCall.dialled? =
      if linkLocalContains id.localAddress then []
      else [(nat.lookup id.localAddress).getD id.localAddress] := by
  unfold tcpHandler
  split
  · rfl
  · cases dialed <;> cases created <;> rfl

/-- What the handler still holds when it returns. -/
theorem held_tcpHandler :
    held ((tcpHandler nat id dialed created).flatMap TcpCall.uses) =
      if linkLocalContains id.localAddress = false ∧ dialed = true ∧ created = false
        then [TcpConn.outbound] else [] := by
  unfold tcpHandler
  cases linkLocalContains id.localAddress <;> cases dialed <;> cases created <;> rfl

/-- The two connections are handed over together. -/
theorem handed_tcpHandler :
    handed ((tcpHandler nat id dialed created).flatMap TcpCall.uses) =
      if linkLocalContains id.localAddress = false ∧ dialed = true ∧ created = true
        then [TcpConn.outbound, TcpConn.guest] else [] := by
  unfold tcpHandler
  cases linkLocalContains id.localAddress <;> cases dialed <;> cases created <;> rfl

end Paths

/-- **A request of the guest** is completed once, never dialled if its
destination is link-local, and leaves no connection behind, exactly unless
`CreateEndpoint` fails after the dial. The address dialled is link-local exactly
if the NAT table puts a link-local one in the place of another. -/
theorem tcpHandler_settled_iff (nat : GoMap IP IP) (id : TransportEndpointID)
    (dialed created : Bool) :
    (Settled id (tcpHandler nat id dialed created) ↔
        ¬ (linkLocalContains id.localAddress = false ∧ dialed = true ∧ created = false)) ∧
      ((∃ a ∈ (tcpHandler nat id dialed created).filterMap TcpCall.dialled?,
          linkLocalContains a = true) ↔
        linkLocalContains id.localAddress = false ∧
          ∃ a, nat.lookup id.localAddress = some a ∧ linkLocalContains a = true) := by
  refine ⟨⟨fun hsettled hleak => ?_, fun hno => ?_⟩, ?_⟩
  · have hheld := hsettled.released.1
    rw [held_tcpHandler, if_pos hleak] at hheld
    exact hheld (List.mem_singleton.mpr rfl)
  · refine ⟨tcpHandler_completed nat id dialed created, fun hlocal => ?_, ?_, ?_⟩
    · rw [tcpHandler_dialled, if_pos hlocal]
    · rw [held_tcpHandler, if_neg hno]
      exact List.not_mem_nil
    · rw [handed_tcpHandler]
      split <;> simp
  · rw [tcpHandler_dialled]
    cases hlocal : linkLocalContains id.localAddress with
    | true => simp
    | false =>
      cases hnat : nat.lookup id.localAddress with
      | none => simp [hlocal]
      | some a => simp

/-- A connection of the guest to 192.0.2.1. -/
def guestFlow : TransportEndpointID := ⟨443, [192, 0, 2, 1], 40000, [192, 168, 127, 3], rfl⟩

/-- The guest resets the connection while it is being accepted: the outbound
connection stays open. -/
theorem outbound_left_open :
    ¬ (∀ (nat : GoMap IP IP) (id : TransportEndpointID) (dialed created : Bool),
        Settled id (tcpHandler nat id dialed created)) ∧
      held ((tcpHandler ∅ guestFlow true false).flatMap TcpCall.uses) = [TcpConn.outbound] := by
  have hheld : held ((tcpHandler ∅ guestFlow true false).flatMap TcpCall.uses)
      = [TcpConn.outbound] := by
    rw [held_tcpHandler]
    rfl
  refine ⟨fun hall => ?_, hheld⟩
  have hreleased := (hall ∅ guestFlow true false).released.1
  rw [hheld] at hreleased
  exact hreleased (List.mem_singleton.mpr rfl)

end GvisorTapVsock.Services.Forwarder
