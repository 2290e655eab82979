/-
GvisorTapVsock.VirtualNetwork.New — the lease pool `virtualnetwork.New`
builds.

The gateway's address is reserved first, under the TEXT of its MAC, then the
static leases in the order in which the range over the map visits them. Both
sides of a static lease are taken as they stand: an address that does not
parse is reserved as nil, a MAC is not looked at.

`New` goes on only if the gateway's MAC parses (`NewLinkEndpoint`), and it
panics if its address is not IPv4 (`tcpip.AddrFrom4Slice` in `createStack`).
The other steps build the switch, the stack and the services; they do not
touch the pool.
-/
import GvisorTapVsock.Tap.IPPool

namespace GvisorTapVsock.VirtualNetwork

open GvisorTapVsock.Go
open GvisorTapVsock.Tap

/-- `types.Configuration`, the fields the pool and the DHCP server read. -/
structure Configuration where
  mtu : Int
  subnet : String
  gatewayIP : String
  gatewayMacAddress : String
  dnsSearchDomains : List String
  gatewayVirtualIPs : List String
  dhcpStaticLeases : GoMap String String

/-- How `New` ends without a network. -/
inductive NewError where
  /-- "cannot parse subnet cidr" -/
  | parseSubnet
  /-- "cannot create tap endpoint" -/
  | tapEndpoint
  /-- a run-time panic -/
  | panicked
  deriving DecidableEq, Repr

/-- The `Reserve` calls of the loop over `DHCPStaticLeases`. -/
def staticReservations (c : Configuration) (order : List String) : List (IP × String) :=
  order.filterMap (fun ip => (c.dhcpStaticLeases.lookup ip).map (fun mac => (parseIP ip, mac)))

/-- The pool of `New(configuration)`, for an order of the static leases. -/
def new (c : Configuration) (order : List String) : Except NewError IPPool :=
  match parseCIDR c.subnet with
  | none => .error .parseSubnet
  | some subnet =>
      let ipPool := (newIPPool subnet).reserve (parseIP c.gatewayIP) c.gatewayMacAddress
      let ipPool := ipPool.reserveAll (staticReservations c order)
      match parseMAC c.gatewayMacAddress with
      | none => .error .tapEndpoint
      | some _ =>
          match (parseIP c.gatewayIP).to4 with
          | none => .error .panicked
          | some _ => .ok ipPool

/-- The configuration `cmd/gvproxy/main.go` builds, with its default MTU and
without search domains. -/
def gvproxyConfiguration : Configuration where
  mtu := 1500
  subnet := "192.168.127.0/24"
  gatewayIP := "192.168.127.1"
  gatewayMacAddress := "5a:94:ef:e4:0c:dd"
  dnsSearchDomains := []
  gatewayVirtualIPs := ["192.168.127.254"]
  dhcpStaticLeases := GoMap.single "192.168.127.2" "5a:94:ef:e4:0c:ee"

end GvisorTapVsock.VirtualNetwork
