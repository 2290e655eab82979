/-
GvisorTapVsock.VirtualNetwork.Mux — the HTTP interface of gvproxy: which
request reaches which handler, and what the handlers keep.

The muxes are nested (`mux.go`, `addServices` of `services.go`, the `Mux`
methods of the services). gvproxy serves the outer one on its endpoints, with
the profiler if it runs with `-debug` (`withProfiler`), and another one to the
machines, on port 80 of the gateway, with three patterns of it (`run` in
`cmd/gvproxy/main.go`).

What a request can change through its handler is in `ControlPlane`: the
proxies of the forwarder and the zones of the DNS server. The handlers of
`/connect` and `/tunnel` are in `VirtualNetwork.Connect` and
`VirtualNetwork.Addresses`; here they are the names of routes.
-/
import GvisorTapVsock.Go.ServeMux
import GvisorTapVsock.Services.Dns
import GvisorTapVsock.Services.Forwarder.Ports

namespace GvisorTapVsock.VirtualNetwork

open GvisorTapVsock.Go GvisorTapVsock.Go.ServeMux
open GvisorTapVsock.Services GvisorTapVsock.Services.Dns GvisorTapVsock.Services.Forwarder

/-! ## Routes -/

/-- The handlers at the ends of the muxes. -/
inductive Route where
  | stats
  | cam
  | leases
  | connect
  | tunnel
  | forwarderAll
  | expose
  | unexpose
  | dhcpLeases
  | dnsAll
  | dnsAdd
  | pprofIndex
  | pprofCmdline
  | pprofProfile
  | pprofSymbol
  deriving DecidableEq

/-- `f.Mux()` of the forwarder. -/
def forwarderMux : Entries Route :=
  [("/all".toList, handlerFunc .forwarderAll), ("/expose".toList, handlerFunc .expose),
    ("/unexpose".toList, handlerFunc .unexpose)]

/-- `s.Mux()` of the DHCP server. -/
def dhcpMux : Entries Route := [("/leases".toList, handlerFunc .dhcpLeases)]

/-- `s.Mux()` of the DNS server. -/
def dnsMux : Entries Route :=
  [("/all".toList, handlerFunc .dnsAll), ("/add".toList, handlerFunc .dnsAdd)]

/-- The mux of `addServices`. -/
def servicesMux : Entries Route :=
  [("/forwarder/".toList, stripPrefix "/forwarder".toList (serveMux forwarderMux)),
    ("/dhcp/".toList, stripPrefix "/dhcp".toList (serveMux dhcpMux)),
    ("/dns/".toList, stripPrefix "/dns".toList (serveMux dnsMux))]

/-- `n.Mux()`. -/
def mux : Entries Route :=
  [("/services/".toList, stripPrefix "/services".toList (serveMux servicesMux)),
    ("/stats".toList, handlerFunc .stats), ("/cam".toList, handlerFunc .cam),
    ("/leases".toList, handlerFunc .leases), ("/connect".toList, handlerFunc .connect),
    ("/tunnel".toList, handlerFunc .tunnel)]

/-- `withProfiler(vn)`. -/
def withProfiler (debug : Bool) : Entries Route :=
  mux ++
    if debug then
      [("/debug/pprof/".toList, handlerFunc .pprofIndex),
        ("/debug/pprof/cmdline".toList, handlerFunc .pprofCmdline),
        ("/debug/pprof/profile".toList, handlerFunc .pprofProfile),
        ("/debug/pprof/symbol".toList, handlerFunc .pprofSymbol)]
    else []

/-- The mux on port 80 of the gateway. -/
def guestMux : Entries Route :=
  [("/services/forwarder/all".toList, serveMux mux),
    ("/services/forwarder/expose".toList, serveMux mux),
    ("/services/forwarder/unexpose".toList, serveMux mux)]

/-! ## The control plane -/

/-- What requests can change. -/
structure ControlPlane where
  forwarder : PortsForwarder
  zones : List Zone

/-- A request, with what a JSON decoder makes of its body for each of the
handlers that read one, and what the calls of the forwarder return. -/
structure ApiRequest where
  http : HttpRequest
  remoteAddr : String
  exposeBody : Except String ExposeRequest
  unexposeBody : Except String UnexposeRequest
  zoneBody : Except String Zone
  /-- the order in which `/all` ranges over the proxies -/
  order : List String
  calls : Calls

inductive Answer where
  /-- an answer of the forwarder -/
  | forwarder (res : Response)
  /-- status 200, the zones in JSON -/
  | zones (zones : List Zone)
  /-- status 200 without a body -/
  | ok
  /-- `http.Error(w, text, status)` -/
  | error (text : String) (status : Nat)
  /-- another handler, which leaves the control plane alone -/
  | other (i : Route)
  /-- status 301 -/
  | moved (path : List Char)
  | notFound
  | badRequest

/-- The handler of `/add`. -/
def dnsAdd (zones : List Zone) (method : String) (body : Except String Zone) :
    Answer × List Zone :=
  if method ≠ "POST" then (.error "post only" 400, zones)
  else
    match body with
    | .error err => (.error err 400, zones)
    | .ok req => (.ok, addZone zones req)

/-- The request a route makes of the forwarder. -/
def ApiRequest.toForwarder (q : ApiRequest) (method : String) : Route → Option Forwarder.Request
  | .forwarderAll => some .all
  | .expose => some (.expose method q.exposeBody q.remoteAddr)
  | .unexpose => some (.unexpose method q.unexposeBody)
  | _ => none

/-- The handler of a route. -/
def ControlPlane.handle (quote : String → String) (c : ControlPlane) (q : ApiRequest)
    (r : HttpRequest) (i : Route) : Answer × ControlPlane :=
  match q.toForwarder r.method i with
  | some req =>
      let (res, forwarder) := c.forwarder.handle quote q.order q.calls req
      (.forwarder res, { c with forwarder })
  | none =>
      match i with
      | .dnsAll => (.zones c.zones, c)
      | .dnsAdd =>
          let (answer, zones) := dnsAdd c.zones r.method q.zoneBody
          (answer, { c with zones })
      | i => (.other i, c)

/-- One request to a server with this handler. -/
def ControlPlane.serve (quote : String → String) (h : Handler Route) (c : ControlPlane)
    (q : ApiRequest) : Answer × ControlPlane :=
  match h q.http with
  | .handled i r => c.handle quote q r i
  | .redirect path => (.moved path, c)
  | .notFound => (.notFound, c)
  | .badRequest => (.badRequest, c)

/-- Requests, one after the other: the answers, and the control plane then. -/
def ControlPlane.run (quote : String → String) (h : Handler Route) (c : ControlPlane) :
    List ApiRequest → List Answer × ControlPlane
  | [] => ([], c)
  | q :: qs =>
      let (answer, c) := c.serve quote h q
      let (answers, c) := ControlPlane.run quote h c qs
      (answer :: answers, c)

end GvisorTapVsock.VirtualNetwork
