/-
GvisorTapVsock.ApiClient.ClientTheorems — the calls of clients are the
operations of the services.

`client_refines` — whatever clients call in whatever order, each result and the
control plane in the end are those of the operations themselves: through JSON
and back, through the redirects and the nested muxes, through the statuses and
the texts of errors. Two things come out changed. A zone arrives with zero
values for its regexps. And a client whose base ends in a slash reads
everything and can change nothing: its POST is redirected, arrives as a GET,
and fails with `post only`.
-/
import GvisorTapVsock.ApiClient.Client
import GvisorTapVsock.VirtualNetwork.MuxTheorems

namespace GvisorTapVsock.ApiClient

open GvisorTapVsock.Go GvisorTapVsock.Go.ServeMux GvisorTapVsock.Go.Path GvisorTapVsock.Types
open GvisorTapVsock.Services.Dns GvisorTapVsock.Services.Forwarder GvisorTapVsock.VirtualNetwork

/-! ## Getting there -/

/-- The base is that of the server's root: no path, or one that comes to
nothing. -/
structure Client.Rooted (cl : Client) : Prop where
  slash : cl.base = [] ∨ cl.base.head? = some '/'
  nothing : elements cl.base = []

/-- The method with which a request arrives. -/
def Client.arriving (cl : Client) (method : String) : String :=
  if cl.base = [] then method else "GET"

theorem Client.plain_request {cl : Client} (hcl : cl.Rooted) (method : String) {path : List Char}
    (hpath : path.head? = some '/') : (cl.request method path).Plain := by
  refine ⟨fun hstar => ?_, rfl⟩
  have hchars : cl.base ++ path = "*".toList := by
    simpa [Client.request] using congrArg String.toList hstar
  have hhead : (cl.base ++ path).head? = some '/' := by
    rcases hcl.slash with hbase | hbase
    · rw [hbase, List.nil_append, hpath]
    · rw [List.head?_append, hbase]
      rfl
  rw [hchars] at hhead
  exact absurd hhead (by decide)

theorem canonical_path (i : Route) : Canonical i.path := clean_path i ▸ canonical_cleanPath i.path

/-- A request of a client arrives at the handler of its path. -/
theorem Client.follow_request (debug : Bool) {cl : Client} (hcl : cl.Rooted) {i : Route}
    (hi : i.profiler = false) {method : String} (hmethod : method = "GET" ∨ method = "POST") :
    ∃ r, follow (serveMux (withProfiler debug)) maxRedirects (cl.request method i.path) =
      .handled i r ∧ r.method = cl.arriving method := by
  have hprofiler : i.profiler = true → debug = true := fun h => by simp [hi] at h
  have hplain := Client.plain_request hcl method (canonical_path i).head
  by_cases hbase : cl.base = []
  · obtain ⟨r, hr⟩ : ∃ r, serveMux (withProfiler debug) (cl.request method i.path) =
        .handled i r := handled_of_path hplain hprofiler (by simp [Client.request, hbase])
    refine ⟨r, by simp [maxRedirects, follow, hr], ?_⟩
    rw [(reached hr).method, Client.arriving, if_pos hbase]
    rfl
  · have hconnect : (cl.request method i.path).method ≠ "CONNECT" := by
      rcases hmethod with rfl | rfl <;> simp [Client.request]
    have hclean : cleanPath (cl.request method i.path).path = i.path :=
      cleanPath_append hcl.slash hcl.nothing (canonical_path i)
    have hredirect := redirect_to_path debug hconnect hplain hclean (by simp [Client.request, hbase])
    obtain ⟨r, hr⟩ := handled_of_path (r := redirected (cl.request method i.path) i.path)
      (plain_redirected (canonical_path i)) hprofiler rfl
    refine ⟨r, by simp [maxRedirects, follow, hredirect, hr], ?_⟩
    rw [(reached hr).method, Client.arriving, if_neg hbase]
    rcases hmethod with rfl | rfl <;> rfl

/-! ## Coming back -/

/-- The newline of `http.Error` is trimmed. -/
theorem trimmed_newline (s : String) : trimmed (s ++ "\n") = trimmed s := by
  have hspace : isSpace '\n' = true := by decide
  have htrim : trimSpace (s.toList ++ ['\n']) = trimSpace s.toList := by
    unfold trimSpace
    rw [List.dropWhile_append]
    split
    · next hempty => simp [List.isEmpty_iff.mp hempty, hspace]
    · simp [hspace]
  rw [trimmed, trimmed, String.toList_append]
  exact congrArg (fun t => ClientError.text (String.ofList t)) htrim

theorem posted_httpError (text : String) (status : Nat) :
    posted (some (httpError text status)) = .error (trimmed text) := by
  simp only [httpError, posted, trimmed_newline]

theorem trimmed_postOnly : trimmed "post only" = .text "post only" := by decide

theorem posted_respond (quote : String → String) (res : Except Failure Unit) :
    posted (response (.forwarder (respond quote res))) = outcome quote res := by
  cases res with
  | ok u => rfl
  | error e =>
    cases herror : e.error quote with
    | none => simp [respond, outcome, herror, response, posted]
    | some text => simp [respond, outcome, herror, response, posted_httpError]

section

variable (quote : String → String) (zeroRegexp : String → Bool) (debug : Bool)

/-- A request of a client is answered by the handler of its path. -/
theorem Client.send_eq {cl : Client} (hcl : cl.Rooted) (env : Env) {i : Route}
    (hi : i.profiler = false) {method : String} (hmethod : method = "GET" ∨ method = "POST")
    (body : Option Json) (c : ControlPlane) :
    ∃ r : HttpRequest, r.method = cl.arriving method ∧
      cl.send quote zeroRegexp (serveMux (withProfiler debug)) env method i.path body c =
        (c.handle quote (cl.apiRequest zeroRegexp env method i.path body) r i).map response id := by
  obtain ⟨r, hfollow, hr⟩ := Client.follow_request debug hcl hi hmethod
  refine ⟨r, hr, ?_⟩
  have hhttp : (cl.apiRequest zeroRegexp env method i.path body).http =
      cl.request method i.path := rfl
  simp only [Client.send, ControlPlane.serve, hhttp, hfollow]

/-- Whether the POST of a client arrives as one. -/
def Client.posts (cl : Client) : Bool := decide (cl.base = [])

theorem Client.arriving_post (cl : Client) :
    cl.arriving "POST" = if cl.posts then "POST" else "GET" := by
  simp [Client.arriving, Client.posts]

/-! ## The methods -/

variable {cl : Client} (env : Env) (c : ControlPlane)

theorem Client.call_list (hcl : cl.Rooted) :
    cl.call quote zeroRegexp (serveMux (withProfiler debug)) env c .list =
      service quote zeroRegexp cl.posts env c .list := by
  obtain ⟨r, -, hsend⟩ := Client.send_eq quote zeroRegexp debug hcl env (i := .forwarderAll) rfl
    (Or.inl rfl) none c
  have hpath : "/services/forwarder/all".toList = Route.forwarderAll.path := rfl
  have hports := unmarshal_exposeRequests
    ((c.forwarder.all env.order).map fun p => ⟨p.localAddr, p.remote, p.protocol⟩)
  rw [List.map_map] at hports
  have hlisted : listed unmarshalExposeRequests (response (.forwarder (.proxies
      ((c.forwarder.all env.order).map fun p => (p.localAddr, p.remote, p.protocol))))) =
      .ok ((c.forwarder.all env.order).map fun p => ⟨p.localAddr, p.remote, p.protocol⟩) := by
    rw [response, List.map_map, listed, decodeBody]
    exact congrArg (Except.mapError ClientError.text) hports
  rw [Client.call, hpath, hsend]
  exact congrArg (fun ret => (ApiResult.ports ret, c)) hlisted

theorem Client.call_expose (hcl : cl.Rooted) (req : ExposeRequest) :
    cl.call quote zeroRegexp (serveMux (withProfiler debug)) env c (.expose req) =
      service quote zeroRegexp cl.posts env c (.expose req) := by
  obtain ⟨r, hr, hsend⟩ := Client.send_eq quote zeroRegexp debug hcl env (i := .expose) rfl
    (Or.inr rfl) (some (marshalExposeRequest req)) c
  have hpath : "/services/forwarder/expose".toList = Route.expose.path := rfl
  have hbody : decodeBody unmarshalExposeRequest (some (marshalExposeRequest req)) = .ok req :=
    unmarshal_exposeRequest req
  rw [Client.call, hpath, hsend]
  simp only [ControlPlane.handle, ApiRequest.toForwarder, Client.apiRequest, hbody, hr,
    Client.arriving_post, PortsForwarder.handle, service]
  cases cl.posts with
  | false =>
    simp [response, posted_httpError, trimmed_postOnly]
  | true =>
    cases hremote : remoteAddr req env.remoteAddr with
    | error e => simp [response, posted_httpError]
    | ok remote => simp [posted_respond]

theorem Client.call_unexpose (hcl : cl.Rooted) (req : UnexposeRequest) :
    cl.call quote zeroRegexp (serveMux (withProfiler debug)) env c (.unexpose req) =
      service quote zeroRegexp cl.posts env c (.unexpose req) := by
  obtain ⟨r, hr, hsend⟩ := Client.send_eq quote zeroRegexp debug hcl env (i := .unexpose) rfl
    (Or.inr rfl) (some (marshalUnexposeRequest req)) c
  have hpath : "/services/forwarder/unexpose".toList = Route.unexpose.path := rfl
  have hbody : decodeBody unmarshalUnexposeRequest (some (marshalUnexposeRequest req)) = .ok req :=
    unmarshal_unexposeRequest req
  rw [Client.call, hpath, hsend]
  simp only [ControlPlane.handle, ApiRequest.toForwarder, Client.apiRequest, hbody, hr,
    Client.arriving_post, PortsForwarder.handle, service]
  cases cl.posts with
  | false => simp [response, posted_httpError, trimmed_postOnly]
  | true => simp [posted_respond]

theorem Client.call_listDNS (hcl : cl.Rooted) :
    cl.call quote zeroRegexp (serveMux (withProfiler debug)) env c .listDNS =
      service quote zeroRegexp cl.posts env c .listDNS := by
  obtain ⟨r, -, hsend⟩ := Client.send_eq quote zeroRegexp debug hcl env (i := .dnsAll) rfl
    (Or.inl rfl) none c
  have hpath : "/services/dns/all".toList = Route.dnsAll.path := rfl
  rw [Client.call, hpath, hsend]
  simp only [ControlPlane.handle, ApiRequest.toForwarder, Prod.map, response, service]
  rcases unmarshal_zones zeroRegexp c.zones with
    ⟨j, hvalid, hmarshal, hunmarshal⟩ | ⟨err, ⟨z, hz, hinvalid⟩, hmarshal⟩
  · rw [if_pos hvalid, hmarshal]
    simp only [listed, decodeBody, hunmarshal]
    rfl
  · rw [if_neg fun hvalid => hinvalid (hvalid z hz), hmarshal]
    rfl

theorem Client.call_addDNS (hcl : cl.Rooted) (z : Zone) :
    cl.call quote zeroRegexp (serveMux (withProfiler debug)) env c (.addDNS z) =
      service quote zeroRegexp cl.posts env c (.addDNS z) := by
  rw [Client.call, service]
  cases hinvalid : invalidIP? z with
  | some ip => rw [marshalZone_eq_error hinvalid]
  | none =>
    obtain ⟨hrecords, hdefault⟩ := valid_of_invalidIP?_eq_none hinvalid
    obtain ⟨bin, hmarshal, hunmarshal⟩ := unmarshal_zone zeroRegexp hrecords hdefault
    obtain ⟨r, hr, hsend⟩ := Client.send_eq quote zeroRegexp debug hcl env (i := .dnsAdd) rfl
      (Or.inr rfl) (some bin) c
    have hpath : "/services/dns/add".toList = Route.dnsAdd.path := rfl
    have hbody : decodeBody (unmarshalZone zeroRegexp) (some bin) =
        .ok (wireZone zeroRegexp z) :=
      Json.decode_eq_ok hunmarshal
    simp only [hmarshal, hpath, hsend, ControlPlane.handle, ApiRequest.toForwarder,
      Client.apiRequest, hbody, hr, Client.arriving_post, dnsAdd]
    cases cl.posts with
    | false => simp [response, posted_httpError, trimmed_postOnly]
    | true => rfl

theorem Client.call_eq (hcl : cl.Rooted) (call : ApiCall) :
    cl.call quote zeroRegexp (serveMux (withProfiler debug)) env c call =
      service quote zeroRegexp cl.posts env c call := by
  cases call with
  | list => exact Client.call_list quote zeroRegexp debug env c hcl
  | expose req => exact Client.call_expose quote zeroRegexp debug env c hcl req
  | unexpose req => exact Client.call_unexpose quote zeroRegexp debug env c hcl req
  | listDNS => exact Client.call_listDNS quote zeroRegexp debug env c hcl
  | addDNS z => exact Client.call_addDNS quote zeroRegexp debug env c hcl z

end

/-- **The client refines the services.** The calls of any clients, in any
order, return what the operations return, and leave what they leave. A client
may have a path as its base that comes to nothing; then its calls that post
fail, and change nothing. -/
theorem client_refines (quote : String → String) (zeroRegexp : String → Bool) (debug : Bool)
    (c : ControlPlane) {calls : List (Client × Env × ApiCall)}
    (hrooted : ∀ call ∈ calls, call.1.Rooted) :
    runClients quote zeroRegexp (serveMux (withProfiler debug)) c calls =
      runService quote zeroRegexp c (calls.map fun (cl, env, call) => (cl.posts, env, call)) := by
  induction calls generalizing c with
  | nil => rfl
  | cons call calls ih =>
    obtain ⟨cl, env, call⟩ := call
    have hcl : cl.Rooted := hrooted _ List.mem_cons_self
    have hcalls := fun c => ih c fun call hmem => hrooted call (List.mem_cons_of_mem _ hmem)
    simp only [runClients, List.map_cons, runService,
      Client.call_eq quote zeroRegexp debug env c hcl, hcalls]

/-- A zone with one record and a regexp. -/
def crcZone : Zone :=
  { name := "crc.testing."
    records := [⟨"gateway", [192, 168, 127, 1], none⟩, ⟨"", [192, 168, 127, 2], some fun _ => true⟩]
    defaultIP := [] }

/-- Nothing is asked of the host. -/
def quietEnv : Env := ⟨"@", [], ⟨.error "", none, none, none, none⟩⟩

/-- The zone is added, added again by a client whose base ends in a slash, and
listed by it. -/
theorem client_refines_slash :
    runClients id (fun _ => false) (serveMux (withProfiler false)) ⟨newPortsForwarder, []⟩
      [(⟨"unix", []⟩, quietEnv, .addDNS crcZone),
        (⟨"unix", ['/']⟩, quietEnv, .addDNS crcZone), (⟨"unix", ['/']⟩, quietEnv, .listDNS)] =
      ([.done (.ok ()), .done (.error (.text "post only")),
        .zones (.ok [wireZone (fun _ => false) (wireZone (fun _ => false) crcZone)])],
        ⟨newPortsForwarder, [wireZone (fun _ => false) crcZone]⟩) := by
  rw [client_refines id (fun _ => false) false]
  · rfl
  · intro call hcall
    simp only [List.mem_cons, List.not_mem_nil, or_false] at hcall
    rcases hcall with rfl | rfl | rfl
    · exact ⟨Or.inl rfl, by decide⟩
    all_goals exact ⟨Or.inr rfl, by decide⟩

end GvisorTapVsock.ApiClient
