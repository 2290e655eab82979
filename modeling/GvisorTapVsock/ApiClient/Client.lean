/-
GvisorTapVsock.ApiClient.Client — the client of the control plane
(`pkg/client/client.go`), on a gvproxy it talks to over HTTP.

A method marshals its argument, sends a request, and makes a result or an error
of the response. On the way are the `http.Client`, which follows redirects, the
nested muxes with their handlers (`VirtualNetwork.Mux`), and `net/http`, which
writes a status and a body. The URL of a request is the client's base with a
path behind it; of the base only the path counts here, which is empty in
`http://unix` and a slash in `http://unix/`.

Each handler takes the lock of what it reads or writes for its whole call, so
the calls of any number of clients are a sequence, in some order.

`service` is what the client stands for: the operations of the forwarder and
the DNS server themselves. That the one refines the other is in
`ApiClient.ClientTheorems`.
-/
import GvisorTapVsock.Go.Strings
import GvisorTapVsock.Types.Wire
import GvisorTapVsock.VirtualNetwork.Mux

namespace GvisorTapVsock.ApiClient

open GvisorTapVsock.Go GvisorTapVsock.Go.ServeMux GvisorTapVsock.Types
open GvisorTapVsock.Services.Dns GvisorTapVsock.Services.Forwarder GvisorTapVsock.VirtualNetwork

/-! ## Requests and responses -/

/-- A response: status 200 with a body of JSON or none, or another status with
a text. -/
inductive HttpResponse where
  | ok (body : Option Json)
  | error (status : Nat) (text : String)

/-- `http.Error(w, text, status)`. -/
def httpError (text : String) (status : Nat) : HttpResponse := .error status (text ++ "\n")

/-- The JSON of a `proxy`. -/
def marshalProxy (p : String × String × TransportProtocol) : Json :=
  .obj [("local", .str p.1), ("remote", .str p.2.1), ("protocol", .str p.2.2)]

/-- The response to an answer of the control plane. There is none if the
handler panicked, or if the client was sent from redirect to redirect; the
other handlers are not those of the client. -/
def response : Answer → Option HttpResponse
  | .forwarder .ok => some (.ok none)
  | .forwarder (.proxies ret) => some (.ok (some (.arr (ret.map marshalProxy))))
  | .forwarder (.error text status) => some (httpError text status)
  | .forwarder .dropped => none
  | .zones zones =>
      match marshalZones zones with
      | .ok j => some (.ok (some j))
      -- the error of `Encode` is dropped, and nothing was written
      | .error _ => some (.ok none)
  | .ok => some (.ok none)
  | .error text status => some (httpError text status)
  | .notFound => some (httpError "404 page not found" 404)
  | .badRequest => some (.error 400 "")
  | .moved _ => none
  | .other _ => none

/-- What a call meets on its way: the address the server sees, the order in
which `/all` ranges over the proxies, and what the calls of `Expose` return. -/
structure Env where
  remoteAddr : String
  order : List String
  calls : Calls

/-- `Client`, by the host and the path of its base. -/
structure Client where
  host : String
  base : List Char

/-- The request for a path. -/
def Client.request (cl : Client) (method : String) (path : List Char) : HttpRequest :=
  { method := method
    host := cl.host
    requestURI := String.ofList (cl.base ++ path)
    urlHost := ""
    path := cl.base ++ path
    rawPath := [] }

/-- The error of a decoder that reads nothing. -/
def eof : String := "EOF"

/-- What a decoder makes of a body, if there is one. -/
def decodeBody {α : Type} (unmarshal : Json → Except String α) : Option Json → Except String α
  | none => .error eof
  | some j => unmarshal j

/-- The limit on redirects of an `http.Client`. -/
def maxRedirects : Nat := 10

/-- A request with its body, as the handlers decode it. -/
def Client.apiRequest (zeroRegexp : String → Bool) (cl : Client) (env : Env) (method : String)
    (path : List Char) (body : Option Json) : ApiRequest :=
  { http := cl.request method path
    remoteAddr := env.remoteAddr
    exposeBody := decodeBody unmarshalExposeRequest body
    unexposeBody := decodeBody unmarshalUnexposeRequest body
    zoneBody := decodeBody (unmarshalZone zeroRegexp) body
    order := env.order
    calls := env.calls }

/-- `c.client.Get` and `c.client.Post` on a server with the handler `h`. A
redirect changes a POST to a GET, for which no handler reads the body. -/
def Client.send (quote : String → String) (zeroRegexp : String → Bool) (h : Handler Route)
    (cl : Client) (env : Env) (method : String) (path : List Char) (body : Option Json)
    (c : ControlPlane) : Option HttpResponse × ControlPlane :=
  (c.serve quote (follow h maxRedirects) (cl.apiRequest zeroRegexp env method path body)).map
    response id

/-! ## The methods -/

/-- The error of a method. -/
inductive ClientError where
  /-- an error of the `http.Client` -/
  | request
  | text (s : String)
  deriving DecidableEq

/-- `errors.New(strings.TrimSpace(s))`. -/
def trimmed (s : String) : ClientError := .text (String.ofList (trimSpace s.toList))

/-- What `List` and `ListDNS` make of a response. -/
def listed {α : Type} (unmarshal : Json → Except String α) :
    Option HttpResponse → Except ClientError α
  | none => .error .request
  | some (.error status _) => .error (.text ("unexpected status: " ++ toString status))
  | some (.ok body) => (decodeBody unmarshal body).mapError .text

/-- What `Expose`, `Unexpose` and `AddDNS` make of a response. -/
def posted : Option HttpResponse → Except ClientError Unit
  | none => .error .request
  | some (.error _ text) => .error (trimmed text)
  | some (.ok _) => .ok ()

/-- A call of a method. -/
inductive ApiCall where
  | list
  | expose (req : ExposeRequest)
  | unexpose (req : UnexposeRequest)
  | listDNS
  | addDNS (zone : Zone)

inductive ApiResult where
  | ports (ret : Except ClientError (List ExposeRequest))
  | zones (ret : Except ClientError (List Zone))
  | done (ret : Except ClientError Unit)

section

variable (quote : String → String) (zeroRegexp : String → Bool) (h : Handler Route)

/-- The methods of a `Client`. -/
def Client.call (cl : Client) (env : Env) (c : ControlPlane) : ApiCall → ApiResult × ControlPlane
  | .list =>
      (cl.send quote zeroRegexp h env "GET" "/services/forwarder/all".toList none c).map
        (fun res => .ports (listed unmarshalExposeRequests res)) id
  | .expose req =>
      (cl.send quote zeroRegexp h env "POST" "/services/forwarder/expose".toList
        (some (marshalExposeRequest req)) c).map (fun res => .done (posted res)) id
  | .unexpose req =>
      (cl.send quote zeroRegexp h env "POST" "/services/forwarder/unexpose".toList
        (some (marshalUnexposeRequest req)) c).map (fun res => .done (posted res)) id
  | .listDNS =>
      (cl.send quote zeroRegexp h env "GET" "/services/dns/all".toList none c).map
        (fun res => .zones (listed (unmarshalZones zeroRegexp) res)) id
  | .addDNS zone =>
      match marshalZone zone with
      | .error err => (.done (.error (.text err)), c)
      | .ok bin =>
          (cl.send quote zeroRegexp h env "POST" "/services/dns/add".toList (some bin) c).map
            (fun res => .done (posted res)) id

/-- The calls of some clients, in an order. -/
def runClients (c : ControlPlane) : List (Client × Env × ApiCall) → List ApiResult × ControlPlane
  | [] => ([], c)
  | (cl, env, call) :: calls =>
      let (res, c) := cl.call quote zeroRegexp h env c call
      let (results, c) := runClients c calls
      (res :: results, c)

end

/-! ## The service -/

/-- What a call of the forwarder returns to a client. -/
def outcome (quote : String → String) : Except Failure Unit → Except ClientError Unit
  | .ok () => .ok ()
  | .error e =>
      match e.error quote with
      | some text => .error (trimmed text)
      | none => .error .request

/-- A call, on the services themselves. A client without `post` cannot change
anything. -/
def service (quote : String → String) (zeroRegexp : String → Bool) (post : Bool) (env : Env)
    (c : ControlPlane) : ApiCall → ApiResult × ControlPlane
  | .list =>
      (.ports (.ok ((c.forwarder.all env.order).map fun p => ⟨p.localAddr, p.remote, p.protocol⟩)),
        c)
  | .expose req =>
      if post then
        match remoteAddr req env.remoteAddr with
        | .error e => (.done (.error (trimmed e.error)), c)
        | .ok remote =>
            let (res, forwarder) :=
              c.forwarder.expose (protocolOr req.protocol) req.localAddr remote env.calls
            (.done (outcome quote res), { c with forwarder })
      else (.done (.error (.text "post only")), c)
  | .unexpose req =>
      if post then
        let (res, forwarder) := c.forwarder.unexpose (protocolOr req.protocol) req.localAddr
        (.done (outcome quote res), { c with forwarder })
      else (.done (.error (.text "post only")), c)
  | .listDNS =>
      if ∀ zone ∈ c.zones, invalidIP? zone = none then
        (.zones (.ok (c.zones.map (wireZone zeroRegexp))), c)
      else (.zones (.error (.text eof)), c)
  | .addDNS zone =>
      match invalidIP? zone with
      | some ip => (.done (.error (.text ip.marshalError)), c)
      | none =>
          if post then
            (.done (.ok ()), { c with zones := addZone c.zones (wireZone zeroRegexp zone) })
          else (.done (.error (.text "post only")), c)

/-- A sequence of calls, each with its right to `post`. -/
def runService (quote : String → String) (zeroRegexp : String → Bool) (c : ControlPlane) :
    List (Bool × Env × ApiCall) → List ApiResult × ControlPlane
  | [] => ([], c)
  | (post, env, call) :: calls =>
      let (res, c) := service quote zeroRegexp post env c call
      let (results, c) := runService quote zeroRegexp c calls
      (res :: results, c)

end GvisorTapVsock.ApiClient
