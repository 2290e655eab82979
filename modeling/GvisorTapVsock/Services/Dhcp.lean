/-
GvisorTapVsock.Services.Dhcp — the DHCP server of the gateway (`handler` in
`pkg/services/dhcp/dhcp.go`, `Serve` of server4).

`Serve` starts a goroutine for every message. What the handlers share is the
pool, and each uses it once, under its lock; so a run of the server is a
sequence of messages in the order in which they take the lock.

A client is known to the pool by the TEXT of its hardware address, of which
`dhcpv4.FromBytes` keeps sixteen bytes at most. `ToBytes` writes `YourIPAddr`
in four bytes: it panics on an IPv6 address, and a panic in a goroutine soon
ends the process. The transaction id of a reply is drawn without error.
-/
import GvisorTapVsock.VirtualNetwork.New
import GvisorTapVsock.Go.Slice

namespace GvisorTapVsock.Services.Dhcp

open GvisorTapVsock.Go
open GvisorTapVsock.Tap
open GvisorTapVsock.VirtualNetwork

/-! ## Messages -/

/-- `dhcpv4.MessageTypeDiscover`. -/
def messageTypeDiscover : UInt8 := 1
/-- `dhcpv4.MessageTypeOffer`. -/
def messageTypeOffer : UInt8 := 2
/-- `dhcpv4.MessageTypeRequest`. -/
def messageTypeRequest : UInt8 := 3
/-- `dhcpv4.MessageTypeAck`. -/
def messageTypeAck : UInt8 := 5

/-- `dhcpv4.DHCPv4` as `FromBytes` makes it; no message type is type 0. -/
structure Message where
  clientHWAddr : HardwareAddr
  messageType : UInt8
  length_le : clientHWAddr.length ≤ 16

/-- The reply on the wire: the fields and options the handler sets. -/
structure Reply where
  clientHWAddr : HardwareAddr
  yourIPAddr : List UInt8
  messageType : UInt8
  serverIdentifier : Option IP
  /-- seconds -/
  leaseTime : Nat
  subnetMask : Option IP
  router : Option IP
  domainNameServer : Option IP
  interfaceMTU : Nat
  dnsDomainSearchList : List String
  deriving DecidableEq

/-- What the handler logs instead of replying. -/
inductive HandlerError where
  /-- "dhcp: cannot assign ip" -/
  | assign
  /-- "dhcp: invalid subnet" -/
  | subnet
  /-- "dhcp: unhandled message type" -/
  | messageType (mt : UInt8)
  deriving DecidableEq

inductive Outcome where
  | replied (reply : Reply)
  | logged (e : HandlerError)
  | panicked (p : Panic)
  deriving DecidableEq

/-- `writeIP(b, ip)`: nil is four zeros, and `ip.To4()[:4]` panics on nil. -/
def writeIP (ip : IP) : Except Panic (List UInt8) :=
  if ip = [] then .ok [0, 0, 0, 0]
  else
    match ip.to4 with
    | some ip4 => .ok ip4
    | none => .error .sliceBounds

/-- `net.CIDRMask(ones, bits)` of a network. -/
def subnetMask (n : IPNet) : IP := beBytes n.ip.length (2 ^ (8 * n.ip.length) - 2 ^ n.hostLen)

/-- The `switch` on the message type. -/
def replyType (mt : UInt8) : Option UInt8 :=
  if mt = messageTypeDiscover then some messageTypeOffer
  else if mt = messageTypeRequest then some messageTypeAck
  else none

/-! ## The handler -/

/-- `handler(configuration, ipPool)` on a message. -/
def handler (c : Configuration) (ipPool : IPPool) (order : List String) (m : Message) :
    Outcome × IPPool :=
  match ipPool.getOrAssign order m.clientHWAddr.string with
  | (none, ipPool) => (.logged .assign, ipPool)
  | (some ip, ipPool) =>
      match parseCIDR c.subnet with
      | none => (.logged .subnet, ipPool)
      | some parsedSubnet =>
          match replyType m.messageType with
          -- the lease stays
          | none => (.logged (.messageType m.messageType), ipPool)
          | some mt =>
              match writeIP ip with
              | .error p => (.panicked p, ipPool)
              | .ok yourIPAddr =>
                  (.replied
                    { clientHWAddr := m.clientHWAddr
                      yourIPAddr := yourIPAddr
                      messageType := mt
                      serverIdentifier := (parseIP c.gatewayIP).to4
                      leaseTime := 3600
                      subnetMask := (subnetMask parsedSubnet).to4
                      router := (parseIP c.gatewayIP).to4
                      domainNameServer := (parseIP c.gatewayIP).to4
                      interfaceMTU := (c.mtu % 2 ^ 16).toNat
                      dnsDomainSearchList := c.dnsSearchDomains }, ipPool)

/-! ## Runs of the server -/

/-- The process: its pool, whether a handler has panicked, and whether the
process has ended. The other goroutines run on between the two. -/
structure Server where
  ipPool : IPPool
  panicking : Bool
  exited : Bool

/-- The process when `New` has returned. -/
def Server.start (ipPool : IPPool) : Server := ⟨ipPool, false, false⟩

/-- The next message: its outcome, if there still is a process, and the server
after it. -/
def Server.serve (c : Configuration) (s : Server) (order : List String) (m : Message) :
    Option Outcome × Server :=
  if s.exited then (none, s)
  else
    match handler c s.ipPool order m with
    | (.panicked p, ipPool) => (some (.panicked p), ⟨ipPool, true, false⟩)
    | (outcome, ipPool) => (some outcome, ⟨ipPool, s.panicking, false⟩)

/-- A message, with the order in which its handler ranges over the table, or
the end that a panic brings. -/
inductive ServerEvent where
  | received (m : Message) (order : List String)
  | exit

/-- A step of the server; `none` if it is not possible. -/
def serverStep (c : Configuration) (s : Server) : ServerEvent → Option Server
  | .received m order =>
      if s.ipPool.leases.RangeOrder order then some (s.serve c order m).2 else none
  | .exit => if s.panicking then some { s with exited := true } else none

end GvisorTapVsock.Services.Dhcp
