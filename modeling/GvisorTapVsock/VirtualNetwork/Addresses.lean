/-
GvisorTapVsock.VirtualNetwork.Addresses — the texts that become addresses of
the virtual network: the arguments of `Dial`, `DialContextTCP` and `Listen`
(`pkg/virtualnetwork/conn.go`), the query of `/tunnel` (`mux.go`) and the NAT
table of the configuration (`services.go`).

All of them end in `tcpip.AddrFrom4Slice(net.ParseIP(text).To4())`, which
panics unless it is given four bytes. A dial or a listen is modelled up to the
`tcpip.FullAddress` it hands to `gonet`. In `/tunnel`, `HandleConn` calls
`DialContext` on the goroutine of the handler.

The fourth conversion, `tcpipAddress`, is in `Services.Forwarder.Ports`.
-/
import GvisorTapVsock.Services.Forwarder.Ports
import GvisorTapVsock.VirtualNetwork.Connect

namespace GvisorTapVsock.VirtualNetwork

open GvisorTapVsock.Go
open GvisorTapVsock.Services.Forwarder

/-- How a conversion ends that yields no address. -/
inductive AddressFailure where
  | onlyTCP
  | addr (e : AddrError)
  | port (num : String) (err : NumErr)
  | notIP
  /-- no error: `tcpip.AddrFrom4Slice` panics -/
  | panicked
  deriving DecidableEq

/-- `err.Error()`, where `quote` is `strconv.Quote`; a panic has none. -/
def AddressFailure.error (quote : String → String) : AddressFailure → Option String
  | .onlyTCP => some "only tcp is supported"
  | .addr e => some e.error
  | .port num err =>
      some ("strconv.ParseUint: parsing " ++ quote num ++ ": " ++
        match err with
        | .invalid => "invalid syntax"
        | .range => "value out of range")
  | .notIP => some "invalid address, must be an IP"
  | .panicked => none

/-! ## Dial and listen -/

/-- `splitIPPort(network, addr)`. -/
def splitIPPort (network addr : String) : Except AddressFailure (IP × Nat) :=
  if network ≠ "tcp" then .error .onlyTCP
  else
    match splitHostPort addr with
    | .error e => .error (.addr e)
    | .ok (host, portString) =>
        match parseUint portString 16 with
        | .error err => .error (.port portString err)
        | .ok port =>
            if parseIP host = [] then .error .notIP else .ok (parseIP host, port)

/-- The `tcpip.FullAddress` that `Dial`, `DialContextTCP` and `Listen` build
alike. -/
def fullAddress (network addr : String) : Except AddressFailure FullAddress :=
  match splitIPPort network addr with
  | .error e => .error e
  | .ok (ip, port) =>
      match ip.to4 with
      | none => .error .panicked
      | some addr => .ok ⟨1, addr, UInt16.ofNat port⟩

/-- `n.Dial(network, addr)`. -/
def dial (network addr : String) : Except AddressFailure FullAddress := fullAddress network addr

/-- `n.DialContextTCP(ctx, addr)`. -/
def dialContextTCP (addr : String) : Except AddressFailure FullAddress := fullAddress "tcp" addr

/-- `n.Listen(network, addr)`. -/
def listen (network addr : String) : Except AddressFailure FullAddress := fullAddress network addr

/-! ## The tunnel -/

/-- How the handler ends: in `http.Error`, in a dial, or in a panic. -/
inductive TunnelResult where
  | httpError (error : String) (code : Nat)
  | dial (address : FullAddress)
  | panicked
  deriving DecidableEq

/-- The handler of `/tunnel`; `write` is the error of writing `OK` to the
hijacked connection. -/
def tunnelHandler (quote : String → String) (query : GoMap String (List String))
    (w : ResponseWriter) (write : Option String) : TunnelResult :=
  let ip := getQuery query "ip"
  if ip = "" then .httpError "ip is mandatory" statusInternalServerError
  else
    match atoi (getQuery query "port") with
    | .error e => .httpError (e.error quote) statusInternalServerError
    | .ok port =>
        match w.hijack with
        | none => .httpError "webserver doesn't support hijacking" statusInternalServerError
        | some (.error err) => .httpError err statusInternalServerError
        | some (.ok (_, bufrw)) =>
            match bufrw.flush, write with
            | some err, _ => .httpError err statusInternalServerError
            | none, some err => .httpError err statusInternalServerError
            | none, none =>
                match (parseIP ip).to4 with
                | none => .panicked
                -- `uint16(port)` keeps the low 16 bits
                | some addr => .dial ⟨1, addr, UInt16.ofNat (port % 65536).toNat⟩

/-! ## The NAT table -/

/-- One entry of the table; nothing is a panic. -/
def translate (nat : GoMap String String) (translation : GoMap IP IP) (source : String) :
    Option (GoMap IP IP) :=
  match nat.lookup source with
  | none => some translation
  | some destination =>
      match (parseIP source).to4, (parseIP destination).to4 with
      | some s, some d => some (translation.insert s d)
      | _, _ => none

/-- `parseNATTable(configuration)`, over the keys in the given order. -/
def parseNATTable (nat : GoMap String String) (order : List String) : Option (GoMap IP IP) :=
  order.foldlM (translate nat) ∅

end GvisorTapVsock.VirtualNetwork
