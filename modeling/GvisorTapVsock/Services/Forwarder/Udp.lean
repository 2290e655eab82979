/-
GvisorTapVsock.Services.Forwarder.Udp — the UDP flows of the guest (`UDP` in
`pkg/services/forwarder/udp.go`, `autoStoppingListener` in `udp_proxy.go`).

A datagram whose 4-tuple has an endpoint in the stack is queued there; any
other goes to the handler, which may create an endpoint for the flow and start
a UDP proxy on it. The endpoint stays registered until it is closed, and no
line of the handler keeps the proxy, so `Close` is never called on it.

Time is a number of seconds. `autoStoppingListener` moves the read deadline of
the endpoint with every `ReadFrom` and every `WriteTo`, and a `ReadFrom` that
waits fails when the deadline comes. It also fails with an error that an ICMP
message has left on the endpoint. `Run` is in its first `ReadFrom` as soon as
it is started.
-/
import GvisorTapVsock.Services.Forwarder.UdpProxy

namespace GvisorTapVsock.Services.Forwarder

open GvisorTapVsock.Go GvisorTapVsock.Lts

/-- `UDPConnTrackTimeout`, in seconds. -/
def udpConnTrackTimeout : Nat := 90

/-- `stack.TransportEndpointID`: the 4-tuple of a flow. The local address is the
one the guest sends to. The stack has no network protocol but IPv4. -/
structure TransportEndpointID where
  localPort : Nat
  localAddress : IP
  remotePort : Nat
  remoteAddress : IP
  length_eq : remoteAddress.length = 4
  deriving DecidableEq

/-- The address `ReadFrom` returns on the endpoint of a flow. -/
def TransportEndpointID.sender (id : TransportEndpointID) : UDPAddr :=
  ⟨id.remoteAddress, id.remotePort, "", Or.inl id.length_eq⟩

/-- `linkLocal().Contains(a)`, for the subnet 169.254.0.0/16. -/
def linkLocalContains (a : IP) : Bool := decide (a.length = 4 ∧ a.take 2 = [169, 254])

/-- `header.IPv4Broadcast`. -/
def ipv4Broadcast : IP := [255, 255, 255, 255]

/-! ## Sessions -/

/-- An endpoint in the stack, and the proxy that was started on it. -/
structure Session where
  /-- datagrams that no `ReadFrom` has returned yet -/
  queue : List (List UInt8)
  readDeadline : Nat
  /-- an ICMP error that no `ReadFrom` has returned yet -/
  lastError : Bool
  /-- what the proxy dials -/
  outbound : IP × Nat
  proxy : UDPProxy

/-- The handler of `UDP(s, nat, natLock)` on a datagram of a new flow; `created`
says whether `CreateEndpoint` succeeds. -/
def udpHandler (nat : GoMap IP IP) (now : Nat) (id : TransportEndpointID) (data : List UInt8)
    (created : Bool) : Option Session :=
  if linkLocalContains id.localAddress ∨ id.localAddress = ipv4Broadcast then none
  else
    let localAddress := (nat.lookup id.localAddress).getD id.localAddress
    if created then
      some
        { queue := [data]
          readDeadline := now + udpConnTrackTimeout
          lastError := false
          outbound := (localAddress, id.localPort)
          proxy := UDPProxy.start }
    else none

/-- Whether a step of the proxy calls `ReadFrom` or `WriteTo` of its listener. -/
def usesListener (p p' : UDPProxy) : UDPProxy.Event → Bool
  | .run _ => decide (p.run ≠ .read ∧ p'.run = .read)
  | .reply _ (.wrote _) | .reply _ .writeFailed => true
  | _ => false

/-- A step of the proxy of a session, as its endpoint allows it. -/
def Session.step (session : Session) (now : Nat) (id : TransportEndpointID)
    (e : UDPProxy.Event) : Option Session :=
  match e with
  | .close _ _ => none
  | .run (.received data sender) =>
      match session.queue with
      | [] => none
      | head :: rest =>
          if session.lastError = false ∧ head = data ∧ id.sender = sender then
            (session.proxy.step e).map (fun p => { session with queue := rest, proxy := p })
          else none
  | .run .readFailed =>
      if session.lastError = true ∨ session.readDeadline ≤ now then
        (session.proxy.step e).map (fun p => { session with lastError := false, proxy := p })
      else none
  | e =>
      (session.proxy.step e).map (fun p =>
        { session with
          readDeadline := if usesListener session.proxy p e then now + udpConnTrackTimeout
            else session.readDeadline
          proxy := p })

/-! ## The stack -/

/-- The flows that have an endpoint. -/
structure Flows where
  now : Nat
  endpoints : TransportEndpointID → Option Session

namespace Flows

def start : Flows := ⟨0, fun _ => none⟩

/-- The flows with another session in one place. -/
def set (s : Flows) (id : TransportEndpointID) (session : Session) : Flows :=
  { s with endpoints := Function.update s.endpoints id (some session) }

inductive Event where
  /-- a datagram of the guest -/
  | datagram (id : TransportEndpointID) (data : List UInt8) (created : Bool)
  /-- the guest answers a reply with "port unreachable" -/
  | unreachable (id : TransportEndpointID)
  | proxy (id : TransportEndpointID) (e : UDPProxy.Event)
  | tick (seconds : Nat)

/-- A step of the system; `none` if it is not possible. -/
def step (nat : GoMap IP IP) (s : Flows) : Event → Option Flows
  | .datagram id data created =>
      match s.endpoints id with
      | some session => some (s.set id { session with queue := session.queue ++ [data] })
      | none =>
          match udpHandler nat s.now id data created with
          | some session => some (s.set id session)
          | none => some s
  | .unreachable id =>
      match s.endpoints id with
      | some session => some (s.set id { session with lastError := true })
      | none => none
  | .proxy id e =>
      match s.endpoints id with
      | some session => (session.step s.now id e).map (s.set id)
      | none => none
  | .tick seconds => some { s with now := s.now + seconds }

end Flows

end GvisorTapVsock.Services.Forwarder
