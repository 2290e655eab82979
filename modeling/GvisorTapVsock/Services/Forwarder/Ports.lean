/-
GvisorTapVsock.Services.Forwarder.Ports — the proxies that forward host ports
and sockets into the virtual network (`pkg/services/forwarder/ports.go`).

`Expose` and `Unexpose` hold `proxiesLock` from their first line to their
return, and so does `/all`: a call is ONE step, and a run of the forwarder is a
sequence of calls.

What the host and the libraries answer to a call (`url.Parse`, `os.Remove`,
`net.ResolveUDPAddr`, the listen) is an argument of it, `Calls`. Listeners have
numbers, in the order in which they were opened; `listening` holds those that
are open. A `tcpproxy.Proxy` here has one route, so `Start` opens one listener
or none.

`Expose` looks for `local` in a map whose keys are `key(protocol, local)`.
-/
import GvisorTapVsock.Go.HostPort
import GvisorTapVsock.Go.Sort

namespace GvisorTapVsock.Services.Forwarder

open GvisorTapVsock.Go

/-- `types.TransportProtocol`, a string. -/
abbrev TransportProtocol := String

/-- `types.UDP`. -/
def UDP : TransportProtocol := "udp"
/-- `types.TCP`. -/
def TCP : TransportProtocol := "tcp"
/-- `types.UNIX`. -/
def UNIX : TransportProtocol := "unix"
/-- `types.NPIPE`. -/
def NPIPE : TransportProtocol := "npipe"

/-- How a call ends that does not succeed. -/
inductive Failure where
  | alreadyRunning
  | notFound
  | parseRemote (remote err : String)
  | noKey
  | noPath
  | scheme (scheme : String)
  | invalidRemote
  | port (e : NumError)
  /-- the error of a library call, passed on as it is -/
  | call (err : String)
  | unknownProtocol (protocol : TransportProtocol)
  /-- no error: `tcpip.AddrFrom4Slice` panics -/
  | panicked
  deriving DecidableEq

/-- `err.Error()`; a panic has none. -/
def Failure.error (quote : String → String) : Failure → Option String
  | .alreadyRunning => some "proxy already running"
  | .notFound => some "proxy not found"
  | .parseRemote remote err => some ("failed to parse remote uri :" ++ remote ++ " : " ++ err)
  | .noKey => some "key not provided for unix-ssh connection"
  | .noPath => some "remote uri must contain a path to a socket file"
  | .scheme s => some ("remote protocol for unix forwarder is not implemented: " ++ s)
  | .invalidRemote => some "invalid remote addr"
  | .port e => some (e.error quote)
  | .call err => some err
  | .unknownProtocol p => some ("unknown protocol " ++ p)
  | .panicked => none

/-! ## Addresses in the virtual network -/

/-- `tcpip.FullAddress`. -/
structure FullAddress where
  nic : Nat
  addr : IP
  port : UInt16
  deriving DecidableEq

/-- `tcpipAddress(nicID, remote)`. -/
def tcpipAddress (nicID : Nat) (remote : String) : Except Failure FullAddress :=
  match split remote ':' with
  | [ip, port] =>
      match atoi port with
      | .error e => .error (.port e)
      | .ok port =>
          match (parseIP ip).to4 with
          | none => .error .panicked
          -- `uint16(port)` keeps the low 16 bits
          | some addr => .ok ⟨nicID, addr, UInt16.ofNat (port % 65536).toNat⟩
  | _ => .error .invalidRemote

example : tcpipAddress 1 "192.168.127.2:8080" = .ok ⟨1, [192, 168, 127, 2], 8080⟩ := by
  decide +kernel

/-! ## Proxies -/

/-- What a proxy dials for a connection it accepted. -/
inductive Dial where
  /-- `gonet.DialContextTCP` -/
  | tcp (address : FullAddress)
  /-- `gonet.DialUDP` -/
  | udp (address : FullAddress)
  /-- `Tunnel` of a `CreateSSHForwardPassphrase` -/
  | sshTunnel (host path sshkeypath passphrase : String)
  deriving DecidableEq

/-- `proxy`; `underlying` is the listener its `Close` closes, with what it
serves. -/
structure Proxy where
  localAddr : String
  remote : String
  protocol : TransportProtocol
  underlying : Nat
  dial : Dial
  deriving DecidableEq

/-- `PortsForwarder`, with the listeners of the process. -/
structure PortsForwarder where
  proxies : GoMap String Proxy
  /-- how many listeners were opened so far -/
  opened : Nat
  /-- those that were opened and not closed -/
  listening : List Nat

/-- `NewPortsForwarder(s)`. -/
def newPortsForwarder : PortsForwarder := ⟨∅, 0, []⟩

/-- What the calls of one `Expose` return; `none` is a nil error. -/
structure Calls where
  /-- `url.Parse(remote)` -/
  parseRemote : Except String URL
  /-- `os.Remove(socketPath)`, where "not exist" counts as nil -/
  remove : Option String
  /-- `url.Parse(socketPath)` -/
  parseLocal : Option String
  /-- `net.ResolveUDPAddr` -/
  resolve : Option String
  /-- `net.Listen`, `net.ListenUDP` or `sshclient.ListenNpipe` -/
  listen : Option String

/-- `if err != nil { return err }`. -/
def check : Option String → Except Failure Unit
  | none => .ok ()
  | some err => .error (.call err)

/-- `key(protocol, local)`. -/
def key (protocol : TransportProtocol) (localAddr : String) : String :=
  protocol ++ "/" ++ localAddr

/-- `firstValueOrEmpty(x)`. -/
def firstValueOrEmpty : List String → String
  | [] => ""
  | x :: _ => x

/-- `dialFn` of a unix or npipe proxy, by `remoteURI.Scheme`. -/
def dialFn (remoteURI : URL) : Except Failure Dial :=
  let value (name : String) := firstValueOrEmpty ((remoteURI.query.lookup name).getD [])
  if remoteURI.scheme = "ssh-tunnel" then
    if value "key" = "" then .error .noKey
    else if remoteURI.path = "" ∨ remoteURI.path = "/" then .error .noPath
    else
      -- default ssh port if not set
      let host := if remoteURI.port = "" then remoteURI.hostname ++ ":22" else remoteURI.host
      .ok (.sshTunnel host remoteURI.path (value "key") (value "passphrase"))
  else if remoteURI.scheme = "tcp" then do
    let address ← tcpipAddress 1 (remoteURI.hostname ++ ":" ++ remoteURI.port)
    return .tcp address
  else .error (.scheme remoteURI.scheme)

/-- `p.ListenFunc` of a unix or npipe proxy. -/
def listenFunc (protocol : TransportProtocol) (c : Calls) : Except Failure Unit := do
  if protocol = UNIX then check c.remove else check c.parseLocal
  check c.listen

/-- The `switch` of `Expose` up to the store, in the order of the source. A
listener has been opened exactly if it ends well. -/
def start (protocol : TransportProtocol) (remote : String) (c : Calls) : Except Failure Dial :=
  if protocol = UNIX ∨ protocol = NPIPE then do
    let remoteURI ← c.parseRemote.mapError (.parseRemote remote)
    let dial ← dialFn remoteURI
    listenFunc protocol c
    return dial
  else if protocol = UDP then do
    let address ← tcpipAddress 1 remote
    check c.resolve
    check c.listen
    return .udp address
  else if protocol = TCP then do
    let address ← tcpipAddress 1 remote
    check c.listen
    return .tcp address
  else .error (.unknownProtocol protocol)

/-- `f.proxies[key(protocol, local)] = proxy{...}`, for the listener just
opened. -/
def PortsForwarder.store (f : PortsForwarder) (protocol : TransportProtocol)
    (localAddr remote : String) (dial : Dial) : PortsForwarder :=
  { proxies := f.proxies.insert (key protocol localAddr)
      ⟨localAddr, remote, protocol, f.opened, dial⟩
    opened := f.opened + 1
    listening := f.opened :: f.listening }

/-- `f.Expose(protocol, local, remote)`. -/
def PortsForwarder.expose (f : PortsForwarder) (protocol : TransportProtocol)
    (localAddr remote : String) (c : Calls) : Except Failure Unit × PortsForwarder :=
  if localAddr ∈ f.proxies then (.error .alreadyRunning, f)
  else
    match start protocol remote c with
    | .error e => (.error e, f)
    | .ok dial => (.ok (), f.store protocol localAddr remote dial)

/-- `f.Unexpose(protocol, local)`. -/
def PortsForwarder.unexpose (f : PortsForwarder) (protocol : TransportProtocol)
    (localAddr : String) : Except Failure Unit × PortsForwarder :=
  match f.proxies.lookup (key protocol localAddr) with
  | none => (.error .notFound, f)
  | some proxy =>
      (.ok (),
        { f with
          proxies := f.proxies.erase (key protocol localAddr)
          listening := f.listening.filter (fun l => l ≠ proxy.underlying) })

/-! ## Requests -/

/-- `less` of `/all`. -/
def proxyLess (a b : Proxy) : Bool :=
  if a.localAddr = b.localAddr then a.protocol < b.protocol else a.localAddr < b.localAddr

/-- `/all`, for the order in which the loop ranges over the map. -/
def PortsForwarder.all (f : PortsForwarder) (order : List String) : List Proxy :=
  sortSlice proxyLess (order.filterMap f.proxies.lookup)

/-- `types.ExposeRequest`. -/
structure ExposeRequest where
  localAddr : String
  remote : String
  protocol : TransportProtocol

/-- `types.UnexposeRequest`. -/
structure UnexposeRequest where
  localAddr : String
  protocol : TransportProtocol

/-- `remote(req, ip)`. -/
def remote (req : ExposeRequest) (ip : String) : Except AddrError String := do
  let (remoteIP, _) ← splitHostPort req.remote
  if remoteIP = "" then
    let (host, _) ← splitHostPort ip
    return host ++ req.remote
  else return req.remote

/-- A request; its body is what the JSON decoder made of it. -/
inductive Request where
  | all
  | expose (method : String) (body : Except String ExposeRequest) (remoteAddr : String)
  | unexpose (method : String) (body : Except String UnexposeRequest)

inductive Response where
  /-- status 200 without a body -/
  | ok
  /-- status 200, the JSON texts of local, remote and protocol -/
  | proxies (ret : List (String × String × TransportProtocol))
  /-- `http.Error(w, text, status)` -/
  | error (text : String) (status : Nat)
  /-- the handler panicked: `net/http` recovers and drops the connection -/
  | dropped
  deriving DecidableEq

/-- The protocol of a request: tcp if it names none. -/
def protocolOr (protocol : TransportProtocol) : TransportProtocol :=
  if protocol = "" then TCP else protocol

/-- The answer to a call. -/
def respond (quote : String → String) : Except Failure Unit → Response
  | .ok () => .ok
  | .error e =>
      match e.error quote with
      | some text => .error text 500
      | none => .dropped

/-- The remote a request hands to `Expose`: TCP and UDP rely on `remote`. -/
def remoteAddr (req : ExposeRequest) (addr : String) : Except AddrError String :=
  if protocolOr req.protocol ≠ UNIX ∧ protocolOr req.protocol ≠ NPIPE then remote req addr
  else .ok req.remote

/-- The handlers of `f.Mux()`. -/
def PortsForwarder.handle (quote : String → String) (f : PortsForwarder) (order : List String)
    (c : Calls) : Request → Response × PortsForwarder
  | .all => (.proxies ((f.all order).map (fun p => (p.localAddr, p.remote, p.protocol))), f)
  | .expose method body addr =>
      if method ≠ "POST" then (.error "post only" 400, f)
      else
        match body with
        | .error err => (.error err 400, f)
        | .ok req =>
            match remoteAddr req addr with
            | .error e => (.error e.error 400, f)
            | .ok remote =>
                (f.expose (protocolOr req.protocol) req.localAddr remote c).map (respond quote) id
  | .unexpose method body =>
      if method ≠ "POST" then (.error "post only" 400, f)
      else
        match body with
        | .error err => (.error err 400, f)
        | .ok req =>
            (f.unexpose (protocolOr req.protocol) req.localAddr).map (respond quote) id

/-! ## Runs -/

/-- A call of the forwarder. -/
inductive Call where
  | expose (protocol : TransportProtocol) (localAddr remote : String) (c : Calls)
  | unexpose (protocol : TransportProtocol) (localAddr : String)

/-- What a call returns, and the forwarder after it. -/
def PortsForwarder.apply (f : PortsForwarder) : Call → Except Failure Unit × PortsForwarder
  | .expose protocol localAddr remote c => f.expose protocol localAddr remote c
  | .unexpose protocol localAddr => f.unexpose protocol localAddr

/-- The forwarder after a sequence of calls. -/
def after (calls : List Call) : PortsForwarder :=
  calls.foldl (fun f call => (f.apply call).2) newPortsForwarder

/-- The forwarder after a sequence of requests, each with the order in which
`/all` ranges over the map and what the calls of `Expose` return. -/
def afterRequests (quote : String → String) (reqs : List (Request × List String × Calls)) :
    PortsForwarder :=
  reqs.foldl (fun f r => (f.handle quote r.2.1 r.2.2 r.1).2) newPortsForwarder

end GvisorTapVsock.Services.Forwarder
