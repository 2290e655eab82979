/-
GvisorTapVsock.VirtualNetwork.MuxTheorems — what a request to gvproxy can
reach.

  * `reached`, `handled_of_path` — a handler is reached through the nested
    muxes by its own path and no other, whatever the method and the host;
  * `guest_confined` — the machines reach the forwarder and nothing else;
  * `follow_ends` — a client that follows redirects comes to an end after two
    of them, and to a handler exactly if the clean path is that of the handler.
-/
import GvisorTapVsock.VirtualNetwork.Mux

namespace GvisorTapVsock.VirtualNetwork

open GvisorTapVsock.Go GvisorTapVsock.Go.ServeMux GvisorTapVsock.Go.Path
open GvisorTapVsock.Services GvisorTapVsock.Services.Dns GvisorTapVsock.Services.Forwarder

/-! ## Paths -/

/-- The path of a handler. -/
def Route.path : Route → List Char
  | .stats => "/stats".toList
  | .cam => "/cam".toList
  | .leases => "/leases".toList
  | .connect => "/connect".toList
  | .tunnel => "/tunnel".toList
  | .forwarderAll => "/services/forwarder/all".toList
  | .expose => "/services/forwarder/expose".toList
  | .unexpose => "/services/forwarder/unexpose".toList
  | .dhcpLeases => "/services/dhcp/leases".toList
  | .dnsAll => "/services/dns/all".toList
  | .dnsAdd => "/services/dns/add".toList
  | .pprofIndex => "/debug/pprof/".toList
  | .pprofCmdline => "/debug/pprof/cmdline".toList
  | .pprofProfile => "/debug/pprof/profile".toList
  | .pprofSymbol => "/debug/pprof/symbol".toList

/-- The routes the machines are given. -/
def guestRoutes : List Route := [.forwarderAll, .expose, .unexpose]

/-- Whether a handler belongs to the profiler. -/
def Route.profiler : Route → Bool
  | .pprofIndex | .pprofCmdline | .pprofProfile | .pprofSymbol => true
  | _ => false

/-! ## The muxes -/

theorem rooted_forwarderMux : ∀ e ∈ forwarderMux, e.1.head? = some '/' := by decide

theorem rooted_dhcpMux : ∀ e ∈ dhcpMux, e.1.head? = some '/' := by decide

theorem rooted_dnsMux : ∀ e ∈ dnsMux, e.1.head? = some '/' := by decide

theorem rooted_servicesMux : ∀ e ∈ servicesMux, e.1.head? = some '/' := by decide

theorem rooted_withProfiler (debug : Bool) : ∀ e ∈ withProfiler debug, e.1.head? = some '/' := by
  cases debug <;> decide

theorem rooted_guestMux : ∀ e ∈ guestMux, e.1.head? = some '/' := by decide

/-- A mux of plain handlers: a request gets through by the path of one. -/
theorem handled_leaf {entries : Entries Route} {r r' : HttpRequest} {i : Route}
    (hrooted : ∀ e ∈ entries, e.1.head? = some '/')
    (hleaf : ∀ e ∈ entries, e.1.getLast? ≠ some '/')
    (h : serveMux entries r = .handled i r') :
    ∃ e ∈ entries, r.path = e.1 ∧ e.2 r = .handled i r' := by
  obtain ⟨e, he, hmatch, hr⟩ := handled_serveMux hrooted h
  rcases hmatch with hmatch | ⟨hslash, -⟩
  · exact ⟨e, he, hmatch.symm, hr⟩
  · exact absurd hslash (hleaf e he)

/-- A subtree that is served by a mux of plain handlers. -/
theorem handled_subtree {entries : Entries Route} {r r' : HttpRequest} {i : Route}
    (start : List Char) (hrooted : ∀ e ∈ entries, e.1.head? = some '/')
    (hleaf : ∀ e ∈ entries, e.1.getLast? ≠ some '/')
    (h : stripPrefix start (serveMux entries) r = .handled i r') (hstart : start ≠ []) :
    ∃ e ∈ entries, r.path = start ++ e.1 ∧
      ∃ r₀ : HttpRequest, r₀.method = r.method ∧ e.2 r₀ = .handled i r' := by
  rcases stripPrefix_eq (h := serveMux entries) (r := r) hstart with hnone | ⟨rest, raw, hpath, hr⟩
  · rw [hnone] at h
    cases h
  · rw [hr] at h
    obtain ⟨e, he, hrest, hh⟩ := handled_leaf hrooted hleaf h
    exact ⟨e, he, hpath.trans (congrArg (start ++ ·) hrest),
      { r with path := rest, rawPath := raw }, rfl, hh⟩

/-- A service is reached by the path of its handler. -/
theorem handled_services {r r' : HttpRequest} {i : Route}
    (h : serveMux servicesMux r = .handled i r') :
    "/services".toList ++ r.path = i.path ∧ i.profiler = false ∧ r'.method = r.method := by
  obtain ⟨e, he, -, hr⟩ := handled_serveMux rooted_servicesMux h
  simp only [servicesMux, List.mem_cons, List.not_mem_nil, or_false] at he
  rcases he with rfl | rfl | rfl
  · obtain ⟨e, he, hpath, r₀, hmethod, hi⟩ :=
      handled_subtree "/forwarder".toList rooted_forwarderMux (by decide) hr (by decide)
    rw [hpath]
    simp only [forwarderMux, List.mem_cons, List.not_mem_nil, or_false] at he
    rcases he with rfl | rfl | rfl <;> cases hi <;> exact ⟨rfl, rfl, hmethod⟩
  · obtain ⟨e, he, hpath, r₀, hmethod, hi⟩ :=
      handled_subtree "/dhcp".toList rooted_dhcpMux (by decide) hr (by decide)
    rw [hpath]
    obtain rfl := List.mem_singleton.mp he
    cases hi
    exact ⟨rfl, rfl, hmethod⟩
  · obtain ⟨e, he, hpath, r₀, hmethod, hi⟩ :=
      handled_subtree "/dns".toList rooted_dnsMux (by decide) hr (by decide)
    rw [hpath]
    simp only [dnsMux, List.mem_cons, List.not_mem_nil, or_false] at he
    rcases he with rfl | rfl <;> cases hi <;> exact ⟨rfl, rfl, hmethod⟩

/-- What a request that reached a handler says about it. -/
structure Reached (debug : Bool) (r : HttpRequest) (i : Route) (r' : HttpRequest) : Prop where
  path : i ≠ .pprofIndex → r.path = i.path
  profiler : i.profiler = true → debug = true
  method : r'.method = r.method

/-- The same for `mux`, which `withProfiler` extends. -/
theorem handled_mem_mux {r r' : HttpRequest} {i : Route} (debug : Bool)
    {e : List Char × Handler Route} (he : e ∈ mux) (hmatch : Matches e.1 r.path)
    (h : e.2 r = .handled i r') : Reached debug r i r' := by
  simp only [mux, List.mem_cons, List.not_mem_nil, or_false] at he
  rcases he with rfl | rfl | rfl | rfl | rfl | rfl
  · have hstrip := stripPrefix_eq (h := serveMux servicesMux) (r := r)
      (show "/services".toList ≠ [] by decide)
    rcases hstrip with hnone | ⟨rest, raw, hpath, hr⟩
    · cases hnone.symm.trans h
    · obtain ⟨hi, hprofiler, hmethod⟩ := handled_services (hr.symm.trans h)
      exact ⟨fun _ => hpath.trans hi, fun hp => absurd (hprofiler.symm.trans hp) (by simp), hmethod⟩
  all_goals
    cases h
    rcases hmatch with hmatch | ⟨hslash, -⟩
    · exact ⟨fun _ => hmatch.symm, nofun, rfl⟩
    · exact absurd hslash (by decide)

/-- **A handler is reached by its own path.** -/
theorem reached {debug : Bool} {r r' : HttpRequest} {i : Route}
    (h : serveMux (withProfiler debug) r = .handled i r') : Reached debug r i r' := by
  obtain ⟨e, he, hmatch, hr⟩ := handled_serveMux (rooted_withProfiler debug) h
  rcases List.mem_append.mp he with he | he
  · exact handled_mem_mux debug he hmatch hr
  · cases debug with
    | false => cases he
    | true =>
      simp only [if_true, List.mem_cons, List.not_mem_nil, or_false] at he
      rcases he with rfl | rfl | rfl | rfl
      · cases hr
        exact ⟨fun h => absurd rfl h, fun _ => rfl, rfl⟩
      all_goals
        cases hr
        rcases hmatch with hmatch | ⟨hslash, -⟩
        · exact ⟨fun _ => hmatch.symm, fun _ => rfl, rfl⟩
        · exact absurd hslash (by decide)

/-! ## Getting through -/

theorem clean_path (i : Route) : cleanPath i.path = i.path := by
  cases i <;> decide

/-- No handler's path is one that a subtree only lacks the slash of. -/
theorem stay_path (debug : Bool) (i : Route) :
    ∀ e ∈ withProfiler debug, ¬ (i.path ++ ['/']) <:+ e.1 := by
  cases debug <;> cases i <;> decide

theorem matchPath_services (debug : Bool) (t : List Char) :
    matchPath (withProfiler debug) ("/services/".toList ++ t) =
      some (stripPrefix "/services".toList (serveMux servicesMux)) := by
  cases debug <;> cases t <;> rfl

/-- The prefixes that the muxes cut off in front of a service stand in the path
as it was sent. -/
def PrefixesSent (start raw : List Char) : Prop :=
  KeepsPrefix "/services".toList raw ∧
    KeepsPrefix ('/' :: start) (trimPrefix raw "/services".toList)

instance (start raw : List Char) : Decidable (PrefixesSent start raw) :=
  inferInstanceAs (Decidable (_ ∧ _))

theorem prefixesSent_nil (start : List Char) : PrefixesSent start [] :=
  ⟨Or.inl rfl, Or.inl rfl⟩

/-- The request that a handler of a service is given. -/
def inService (start leaf : List Char) (r : HttpRequest) : HttpRequest :=
  { r with
    path := leaf
    rawPath := trimPrefix (trimPrefix r.rawPath "/services".toList) ('/' :: start) }

/-- A service with plain handlers answers on the path of one, unless a prefix of
it was encoded. -/
theorem serveMux_service {debug : Bool} {r : HttpRequest} (huri : r.requestURI ≠ "*")
    (start leaf : List Char) {entries : Entries Route} {i : Route} (hpath : r.path = i.path)
    (hi : i.path = "/services".toList ++ ('/' :: start ++ leaf))
    (hrooted : ∀ e ∈ entries, e.1.head? = some '/')
    (hclean : cleanPath ('/' :: start ++ leaf) = '/' :: start ++ leaf)
    (hstay : ∀ e ∈ servicesMux, ¬ ('/' :: start ++ leaf ++ ['/']) <:+ e.1)
    (hmatch : matchPath servicesMux ('/' :: start ++ leaf) =
      some (stripPrefix ('/' :: start) (serveMux entries)))
    (hleaf : cleanPath leaf = leaf) (hentry : lookupEntry entries leaf = some (handlerFunc i)) :
    serveMux (withProfiler debug) r =
      if PrefixesSent start r.rawPath then .handled i (inService start leaf r) else .notFound := by
  rw [serveMux_strip (rooted_withProfiler debug) huri (hpath.trans hi) (by decide)
    (hi ▸ clean_path i) (hi ▸ stay_path debug i) (matchPath_services debug (start ++ leaf))]
  -- the mux of the services sees the rest of both forms of the path
  let r₁ : HttpRequest :=
    { r with path := '/' :: start ++ leaf, rawPath := trimPrefix r.rawPath "/services".toList }
  have hservice : serveMux servicesMux r₁ =
      if KeepsPrefix ('/' :: start) r₁.rawPath then serveMux entries (inService start leaf r)
      else .notFound :=
    serveMux_strip (r := r₁) rooted_servicesMux huri rfl (List.cons_ne_nil _ _) hclean hstay hmatch
  have hhandler : serveMux entries (inService start leaf r) =
      .handled i (inService start leaf r) :=
    serveMux_of_entry (r := inService start leaf r) hrooted huri hleaf hentry
  rw [hservice, hhandler]
  exact (ite_and _ _ _ _).symm

/-- A handler of the forwarder answers on its path. -/
theorem serveMux_forwarder (debug : Bool) {r : HttpRequest} {i : Route}
    (huri : r.requestURI ≠ "*") (hi : i ∈ guestRoutes) (hpath : r.path = i.path) :
    ∃ leaf, serveMux (withProfiler debug) r =
      if PrefixesSent "forwarder".toList r.rawPath then
        .handled i (inService "forwarder".toList leaf r)
      else .notFound := by
  simp only [guestRoutes, List.mem_cons, List.not_mem_nil, or_false] at hi
  rcases hi with rfl | rfl | rfl
  · exact ⟨_, serveMux_service huri "forwarder".toList "/all".toList hpath rfl
      rooted_forwarderMux (by decide) (by decide) rfl (by decide) rfl⟩
  · exact ⟨_, serveMux_service huri "forwarder".toList "/expose".toList hpath rfl
      rooted_forwarderMux (by decide) (by decide) rfl (by decide) rfl⟩
  · exact ⟨_, serveMux_service huri "forwarder".toList "/unexpose".toList hpath rfl
      rooted_forwarderMux (by decide) (by decide) rfl (by decide) rfl⟩

/-- A handler answers on its path. -/
theorem handled_of_path {debug : Bool} {r : HttpRequest} {i : Route} (hplain : r.Plain)
    (hprofiler : i.profiler = true → debug = true) (hpath : r.path = i.path) :
    ∃ r', serveMux (withProfiler debug) r = .handled i r' := by
  have hentry : ∀ {h : Handler Route}, lookupEntry (withProfiler debug) i.path = some h →
      serveMux (withProfiler debug) r = h r :=
    fun hentry => serveMux_of_entry (rooted_withProfiler debug) hplain.1
      (by rw [hpath, clean_path]) (by rw [hpath, hentry])
  have hservice : ∀ {start leaf : List Char}, serveMux (withProfiler debug) r =
      (if PrefixesSent start r.rawPath then .handled i (inService start leaf r) else .notFound) →
      ∃ r', serveMux (withProfiler debug) r = .handled i r' := by
    intro start leaf h
    rw [if_pos (hplain.2 ▸ prefixesSent_nil start)] at h
    exact ⟨_, h⟩
  cases i with
  | stats | cam | leases | connect | tunnel =>
    exact ⟨r, hentry (by cases debug <;> rfl)⟩
  | pprofIndex | pprofCmdline | pprofProfile | pprofSymbol =>
    obtain rfl := hprofiler rfl
    exact ⟨r, hentry rfl⟩
  | forwarderAll | expose | unexpose =>
    obtain ⟨leaf, h⟩ := serveMux_forwarder debug hplain.1 (by decide) hpath
    exact hservice h
  | dhcpLeases =>
    exact hservice (serveMux_service hplain.1 "dhcp".toList "/leases".toList hpath rfl
      rooted_dhcpMux (by decide) (by decide) rfl (by decide) rfl)
  | dnsAll =>
    exact hservice (serveMux_service hplain.1 "dns".toList "/all".toList hpath rfl
      rooted_dnsMux (by decide) (by decide) rfl (by decide) rfl)
  | dnsAdd =>
    exact hservice (serveMux_service hplain.1 "dns".toList "/add".toList hpath rfl
      rooted_dnsMux (by decide) (by decide) rfl (by decide) rfl)

/-! ## The machines -/

theorem handled_guestMux {r r' : HttpRequest} {i : Route}
    (h : serveMux guestMux r = .handled i r') :
    i ∈ guestRoutes ∧ r.path = i.path ∧ r'.method = r.method := by
  obtain ⟨e, he, hmatch, hr⟩ := handled_serveMux rooted_guestMux h
  have hpath : r.path ∈ guestRoutes.map Route.path := by
    rcases hmatch with hmatch | ⟨hslash, -⟩
    · rw [← hmatch]
      exact List.mem_map_of_mem (f := Prod.fst) he
    · exact absurd hslash ((by decide : ∀ e ∈ guestMux, e.1.getLast? ≠ some '/') e he)
  have hmux : e.2 = serveMux (withProfiler false) := by
    simp only [guestMux, List.mem_cons, List.not_mem_nil, or_false] at he
    rcases he with rfl | rfl | rfl <;> simp [withProfiler]
  rw [hmux] at hr
  obtain ⟨hreached, hprofiler, hmethod⟩ := reached hr
  have hi : i ≠ .pprofIndex := by
    rintro rfl
    cases hprofiler rfl
  rw [hreached hi] at hpath
  have hroute : ∀ i : Route, i.path ∈ guestRoutes.map Route.path → i ∈ guestRoutes := by
    intro i
    cases i <;> decide
  exact ⟨hroute i hpath, hreached hi, hmethod⟩

theorem serveMux_guestMux {r : HttpRequest} {i : Route} (huri : r.requestURI ≠ "*")
    (hi : i ∈ guestRoutes) (hpath : r.path = i.path) :
    ∃ leaf, serveMux guestMux r =
      if PrefixesSent "forwarder".toList r.rawPath then
        .handled i (inService "forwarder".toList leaf r)
      else .notFound := by
  have hentry : serveMux guestMux r = serveMux (withProfiler false) r := by
    rw [show withProfiler false = mux from List.append_nil mux]
    simp only [guestRoutes, List.mem_cons, List.not_mem_nil, or_false] at hi
    rcases hi with rfl | rfl | rfl
    all_goals
      exact serveMux_of_entry rooted_guestMux huri (by rw [hpath]; decide) (by rw [hpath]; rfl)
  rw [hentry]
  exact serveMux_forwarder false huri hi hpath

/-- A request of the forwarder, with what its calls return. -/
abbrev Sent : Type := Forwarder.Request × List String × Calls

/-- The request that a machine's request makes of the forwarder, if the mux lets
it through. -/
def ApiRequest.sent? (q : ApiRequest) : Option Sent :=
  match serveMux guestMux q.http with
  | .handled i r => (q.toForwarder r.method i).map fun req => (req, q.order, q.calls)
  | _ => none

/-- The request that the path of a request makes of the forwarder. -/
def ApiRequest.forwarderRequest? (q : ApiRequest) : Option Sent :=
  (guestRoutes.find? fun i => decide (i.path = q.http.path)).bind fun i =>
    (q.toForwarder q.http.method i).map fun req => (req, q.order, q.calls)

/-- An answer of the forwarder, or of `net/http` itself. -/
def Answer.confined : Answer → Bool
  | .forwarder _ | .moved _ | .notFound | .badRequest => true
  | .zones _ | .ok | .error _ _ | .other _ => false

def Answer.response? : Answer → Option Response
  | .forwarder res => some res
  | _ => none

/-- Requests to the forwarder itself, one after the other. -/
def runForwarder (quote : String → String) (f : PortsForwarder) :
    List Sent → List Response × PortsForwarder
  | [] => ([], f)
  | (req, order, calls) :: reqs =>
      let (res, f) := f.handle quote order calls req
      let (responses, f) := runForwarder quote f reqs
      (res :: responses, f)

theorem find_guestRoutes {i : Route} (hi : i ∈ guestRoutes) :
    (guestRoutes.find? fun j => decide (j.path = i.path)) = some i := by
  simp only [guestRoutes, List.mem_cons, List.not_mem_nil, or_false] at hi
  rcases hi with rfl | rfl | rfl <;> rfl

theorem requestURI_of_handled {r r' : HttpRequest} {i : Route}
    (h : serveMux guestMux r = .handled i r') : r.requestURI ≠ "*" := by
  intro huri
  rw [serveMux, if_pos huri] at h
  cases h

/-- **Which requests get through**: those for one of the three paths, unless a
prefix that the muxes cut off was sent encoded. -/
theorem sent?_eq (q : ApiRequest) :
    q.sent? =
      if q.http.requestURI ≠ "*" ∧ PrefixesSent "forwarder".toList q.http.rawPath then
        q.forwarderRequest?
      else none := by
  cases ho : serveMux guestMux q.http with
  | handled i r' =>
    obtain ⟨hi, hpath, hmethod⟩ := handled_guestMux ho
    have huri := requestURI_of_handled ho
    have hsent : PrefixesSent "forwarder".toList q.http.rawPath := by
      by_contra hnot
      obtain ⟨leaf, h⟩ := serveMux_guestMux huri hi hpath
      rw [ho, if_neg hnot] at h
      cases h
    rw [if_pos ⟨huri, hsent⟩, ApiRequest.sent?, ho, ApiRequest.forwarderRequest?, hpath,
      find_guestRoutes hi, Option.bind_some]
    simp only [hmethod]
  | redirect path | notFound | badRequest =>
    have hnone : q.sent? = none := by rw [ApiRequest.sent?, ho]
    rw [hnone]
    refine (ite_eq_right_iff.mpr fun ⟨huri, hsent⟩ => ?_).symm
    -- a path of the three would have been handled
    rw [ApiRequest.forwarderRequest?, List.find?_eq_none.mpr, Option.bind_none]
    intro i hi hpath
    obtain ⟨leaf, h⟩ := serveMux_guestMux huri hi (of_decide_eq_true hpath).symm
    rw [ho, if_pos hsent] at h
    cases h

/-- One request of a machine: the forwarder answers it, or it is turned away. -/
theorem serve_guestMux (quote : String → String) (c : ControlPlane) (q : ApiRequest) :
    (∃ req order calls, q.sent? = some (req, order, calls) ∧
        c.serve quote (serveMux guestMux) q =
          (.forwarder (c.forwarder.handle quote order calls req).1,
            { c with forwarder := (c.forwarder.handle quote order calls req).2 })) ∨
      q.sent? = none ∧ ∃ a, c.serve quote (serveMux guestMux) q = (a, c) ∧
        a.confined = true ∧ a.response? = none := by
  unfold ControlPlane.serve ApiRequest.sent?
  cases ho : serveMux guestMux q.http with
  | handled i r' =>
    obtain ⟨hi, -, -⟩ := handled_guestMux ho
    obtain ⟨req, hreq⟩ : ∃ req, q.toForwarder r'.method i = some req := by
      simp only [guestRoutes, List.mem_cons, List.not_mem_nil, or_false] at hi
      rcases hi with rfl | rfl | rfl <;> exact ⟨_, rfl⟩
    refine Or.inl ⟨req, q.order, q.calls, by simp [hreq], ?_⟩
    simp only [ControlPlane.handle, hreq]
  | redirect path | notFound | badRequest => exact Or.inr ⟨rfl, _, rfl, rfl, rfl⟩

theorem run_guestMux (quote : String → String) (c : ControlPlane) (qs : List ApiRequest) :
    (∀ a ∈ (c.run quote (serveMux guestMux) qs).1, a.confined = true) ∧
    (c.run quote (serveMux guestMux) qs).2.zones = c.zones ∧
    ((c.run quote (serveMux guestMux) qs).1.filterMap Answer.response?,
      (c.run quote (serveMux guestMux) qs).2.forwarder) =
        runForwarder quote c.forwarder (qs.filterMap ApiRequest.sent?) := by
  induction qs generalizing c with
  | nil => exact ⟨nofun, rfl, rfl⟩
  | cons q qs ih =>
    rcases serve_guestMux quote c q with
      ⟨req, order, calls, hsent, hserve⟩ | ⟨hsent, a, hserve, hconfined, hresponse⟩
    · obtain ⟨hanswers, hzones, hrun⟩ :=
        ih { c with forwarder := (c.forwarder.handle quote order calls req).2 }
      simp only [ControlPlane.run, hserve, List.forall_mem_cons]
      refine ⟨⟨rfl, hanswers⟩, hzones, ?_⟩
      dsimp only at hrun
      rw [List.filterMap_cons_some hsent]
      simp only [runForwarder, ← hrun]
      rfl
    · obtain ⟨hanswers, hzones, hrun⟩ := ih c
      simp only [ControlPlane.run, hserve, List.forall_mem_cons]
      refine ⟨⟨hconfined, hanswers⟩, hzones, ?_⟩
      rw [List.filterMap_cons_none hsent, List.filterMap_cons_none hresponse, ← hrun]

/-- Where a canonical path may be redirected: to a canonical path with a slash
at its end, which is one of those the muxes have subtrees for. -/
def Onward (p : List Char) : Prop := Canonical p ∧ p.getLast? = some '/'

theorem onward_slash {p : List Char} (h : Canonical p) (hlast : p.getLast? ≠ some '/') :
    Onward (p ++ ['/']) :=
  ⟨h.slash hlast, by simp⟩

/-- A mux of plain handlers redirects no canonical path. -/
theorem redirect_leaf {entries : Entries Route} {r : HttpRequest} {p : List Char}
    (hrooted : ∀ e ∈ entries, e.1.head? = some '/')
    (hleaf : ∀ e ∈ entries, e.1.getLast? ≠ some '/')
    (hplain : ∀ e ∈ entries, ∀ r p, e.2 r ≠ .redirect p) (hconnect : r.method ≠ "CONNECT")
    (hcanonical : Canonical r.path) : serveMux entries r ≠ .redirect p := by
  intro h
  rcases redirect_serveMux hrooted hconnect (cleanPath_of_canonical hcanonical) h with
    ⟨rfl, -, e, he, t, ht⟩ | ⟨e, he, -, hr⟩
  · refine hleaf e he ?_
    rw [← ht]
    simp
  · exact hplain e he r p hr

/-- A path inside the subtree `start/`. -/
theorem tail_of_matches {start p rest : List Char} (hstart : '/' ∉ start)
    (hpath : p = '/' :: start ++ rest)
    (hmatch : Matches ('/' :: start ++ ['/']) p) (hcanonical : Canonical p) :
    Canonical rest ∧ rest.getLast? = p.getLast? := by
  obtain ⟨t, ht⟩ : '/' :: start ++ ['/'] <+: p := by
    rcases hmatch with rfl | ⟨-, hpre⟩
    · exact List.prefix_refl _
    · exact hpre
  obtain rfl : rest = '/' :: t := by
    rw [hpath, List.append_assoc] at ht
    exact (List.append_cancel_left ht).symm
  subst hpath
  refine ⟨hcanonical.tail hstart, ?_⟩
  rw [List.getLast?_append_of_ne_nil _ (List.cons_ne_nil _ _)]

/-- A subtree that is served by a mux of plain handlers redirects no canonical
path. -/
theorem redirect_subtree {entries : Entries Route} {r : HttpRequest} {p : List Char}
    (start : List Char) (hrooted : ∀ e ∈ entries, e.1.head? = some '/')
    (hleaf : ∀ e ∈ entries, e.1.getLast? ≠ some '/')
    (hplain : ∀ e ∈ entries, ∀ r p, e.2 r ≠ .redirect p) (hconnect : r.method ≠ "CONNECT")
    (hcanonical : Canonical r.path) (hstart : '/' ∉ start)
    (hmatch : Matches ('/' :: start ++ ['/']) r.path) :
    stripPrefix ('/' :: start) (serveMux entries) r ≠ .redirect p := by
  intro h
  have hstrip := stripPrefix_eq (h := serveMux entries) (r := r) (List.cons_ne_nil '/' start)
  rcases hstrip with hnone | ⟨rest, raw, hpath, hr⟩
  · cases hnone.symm.trans h
  · obtain ⟨hrest, -⟩ := tail_of_matches hstart hpath hmatch hcanonical
    exact redirect_leaf (r := { r with path := rest, rawPath := raw }) hrooted hleaf hplain
      hconnect hrest (hr.symm.trans h)

theorem redirect_services {r : HttpRequest} {p : List Char} (hconnect : r.method ≠ "CONNECT")
    (hcanonical : Canonical r.path) (h : serveMux servicesMux r = .redirect p) :
    Onward p ∧ r.path.getLast? ≠ some '/' := by
  rcases redirect_serveMux rooted_servicesMux hconnect (cleanPath_of_canonical hcanonical) h with
    ⟨rfl, hlast, -⟩ | ⟨e, he, hmatch, hr⟩
  · exact ⟨onward_slash hcanonical hlast, hlast⟩
  · simp only [servicesMux, List.mem_cons, List.not_mem_nil, or_false] at he
    rcases he with rfl | rfl | rfl
    · exact absurd hr (redirect_subtree "forwarder".toList rooted_forwarderMux (by decide)
        (by simp [forwarderMux, handlerFunc]) hconnect hcanonical (by decide) hmatch)
    · exact absurd hr (redirect_subtree "dhcp".toList rooted_dhcpMux (by decide)
        (by simp [dhcpMux, handlerFunc]) hconnect hcanonical (by decide) hmatch)
    · exact absurd hr (redirect_subtree "dns".toList rooted_dnsMux (by decide)
        (by simp [dnsMux, handlerFunc]) hconnect hcanonical (by decide) hmatch)

/-- A canonical path is redirected at most once, and not if it ends in a slash. -/
theorem redirect_canonical {debug : Bool} {r : HttpRequest} {p : List Char}
    (hconnect : r.method ≠ "CONNECT") (hcanonical : Canonical r.path)
    (h : serveMux (withProfiler debug) r = .redirect p) :
    Onward p ∧ r.path.getLast? ≠ some '/' := by
  rcases redirect_serveMux (rooted_withProfiler debug) hconnect
    (cleanPath_of_canonical hcanonical) h with ⟨rfl, hlast, -⟩ | ⟨e, he, hmatch, hr⟩
  · exact ⟨onward_slash hcanonical hlast, hlast⟩
  · have hservices : e = ("/services/".toList,
        stripPrefix "/services".toList (serveMux servicesMux)) := by
      have hfunc : ∀ i : Route, e.2 ≠ handlerFunc i := by
        intro i heq
        rw [heq] at hr
        cases hr
      rcases List.mem_append.mp he with he | he
      · simp only [mux, List.mem_cons, List.not_mem_nil, or_false] at he
        rcases he with rfl | rfl | rfl | rfl | rfl | rfl
        · rfl
        all_goals exact absurd rfl (hfunc _)
      · cases debug with
        | false => cases he
        | true =>
          simp only [if_true, List.mem_cons, List.not_mem_nil, or_false] at he
          rcases he with rfl | rfl | rfl | rfl <;> exact absurd rfl (hfunc _)
    subst hservices
    have hstrip := stripPrefix_eq (h := serveMux servicesMux) (r := r)
      (show "/services".toList ≠ [] by decide)
    rcases hstrip with hnone | ⟨rest, raw, hpath, hr'⟩
    · cases hnone.symm.trans hr
    · obtain ⟨hrest, hlast⟩ :=
        tail_of_matches (show '/' ∉ "services".toList by decide) hpath hmatch hcanonical
      have hredirect := redirect_services (r := { r with path := rest, rawPath := raw }) hconnect
        hrest (hr'.symm.trans hr)
      rwa [← hlast]

/-- Where a client is sent at first: to the clean path, or onward from it. -/
theorem redirect_first {debug : Bool} {r : HttpRequest} {p : List Char}
    (hconnect : r.method ≠ "CONNECT") (h : serveMux (withProfiler debug) r = .redirect p) :
    Canonical p ∧ (p = cleanPath r.path ∨ p.getLast? = some '/') := by
  have hcanonical := canonical_cleanPath r.path
  have hs := serves (rooted_withProfiler debug) r
  by_cases hclean : cleanPath r.path = r.path
  · rw [hclean] at hcanonical
    obtain ⟨⟨hp, hlast⟩, -⟩ := redirect_canonical hconnect hcanonical h
    exact ⟨hp, Or.inr hlast⟩
  · generalize serveMux (withProfiler debug) r = o at h hs
    cases hs with
    | badRequest | notFound => cases h
    | subtree method noSlash registered =>
      obtain rfl := Outcome.redirect.inj h
      obtain rfl := method hconnect
      exact ⟨hcanonical.slash noSlash, Or.inr (by simp)⟩
    | clean unclean =>
      obtain rfl := Outcome.redirect.inj h
      exact ⟨hcanonical, Or.inl rfl⟩
    | handler entry pathMatches method => exact absurd (method hconnect) hclean

theorem path_getLast {i : Route} (hi : i ≠ .pprofIndex) : i.path.getLast? ≠ some '/' := by
  cases i <;> first | decide | exact absurd rfl hi

/-- A path that is not clean is sent to a handler's path, if that is what it
means. -/
theorem redirect_to_path (debug : Bool) {r : HttpRequest} {i : Route}
    (hconnect : r.method ≠ "CONNECT") (hplain : r.Plain) (hclean : cleanPath r.path = i.path)
    (hne : r.path ≠ i.path) : serveMux (withProfiler debug) r = .redirect i.path := by
  have hstay : ∀ host, shouldRedirect (withProfiler debug) host i.path = false := by
    intro host
    cases hredirect : shouldRedirect (withProfiler debug) host i.path with
    | false => rfl
    | true =>
      obtain ⟨-, e, he, hsub⟩ := registered_of_shouldRedirect hredirect
      exact absurd hsub (stay_path debug i e he)
  unfold serveMux
  simp [hplain.1, hconnect, hclean, hstay, Ne.symm hne]

theorem plain_redirected {r : HttpRequest} {p : List Char} (h : Canonical p) :
    (redirected r p).Plain := by
  refine ⟨fun hstar => ?_, rfl⟩
  have hchars : p = "*".toList := by
    have := congrArg String.toList hstar
    simpa [redirected] using this
  have hhead := h.head
  rw [hchars] at hhead
  exact absurd hhead (by decide)

theorem redirected_method (r : HttpRequest) (p : List Char) :
    (redirected r p).method ≠ "CONNECT" ∧ (redirected r p).method ≠ "POST" := by
  simp only [redirected]
  split <;> decide

/-- The requests of a client that follows redirects: each was sent as it is, was
sent to a path the mux had cleaned, or goes to a subtree. -/
theorem followed {debug : Bool} {r : HttpRequest} {o : Outcome Route}
    (hconnect : r.method ≠ "CONNECT")
    (h : follow (serveMux (withProfiler debug)) 2 r = o) :
    (∀ p, o ≠ .redirect p) ∧
      ∃ r₁, serveMux (withProfiler debug) r₁ = o ∧
        (r₁ = r ∨ r₁.method ≠ "POST" ∧
          (r₁.path = cleanPath r.path ∨ r₁.path.getLast? = some '/')) := by
  rcases follow_succ h with ⟨hr, hno⟩ | ⟨p, hp, h⟩
  · exact ⟨hno, r, hr, Or.inl rfl⟩
  obtain ⟨hcanonical, hwhere⟩ := redirect_first hconnect hp
  obtain ⟨hconnect₁, hpost₁⟩ := redirected_method r p
  rcases follow_succ h with ⟨hr, hno⟩ | ⟨q, hq, h⟩
  · exact ⟨hno, redirected r p, hr, Or.inr ⟨hpost₁, hwhere⟩⟩
  obtain ⟨⟨honward, hslash⟩, -⟩ := redirect_canonical hconnect₁ hcanonical hq
  obtain ⟨hconnect₂, hpost₂⟩ := redirected_method (redirected r p) q
  refine ⟨fun p' hp' => ?_, _, h, Or.inr ⟨hpost₂, Or.inr hslash⟩⟩
  -- the second redirect goes to a path with a slash, from where there is none
  exact (redirect_canonical hconnect₂ honward (h.trans hp')).2 hslash

/-- **Redirects come to an end, at the handler the path means.** A client that
asks for any path and follows up to two redirects is not redirected again. It
reaches a handler exactly if the clean path is that of the handler; and if its
own path was another one, its POST has become a GET. -/
theorem follow_ends (debug : Bool) {r : HttpRequest} (hconnect : r.method ≠ "CONNECT")
    (hplain : r.Plain) :
    (∀ p, follow (serveMux (withProfiler debug)) 2 r ≠ .redirect p) ∧
    ∀ i, i ≠ .pprofIndex →
      ((∃ r', follow (serveMux (withProfiler debug)) 2 r = .handled i r') ↔
        cleanPath r.path = i.path ∧ (i.profiler = true → debug = true)) ∧
      ∀ r', follow (serveMux (withProfiler debug)) 2 r = .handled i r' → r.path ≠ i.path →
        r'.method ≠ "POST" := by
  refine ⟨(followed hconnect rfl).1, fun i hi => ⟨⟨?_, ?_⟩, ?_⟩⟩
  · rintro ⟨r', h⟩
    obtain ⟨-, r₁, hr₁, hwhere⟩ := followed hconnect h
    have hreached := reached hr₁
    have hpath := hreached.path hi
    refine ⟨?_, hreached.profiler⟩
    rcases hwhere with rfl | ⟨-, hclean | hslash⟩
    · rw [hpath, clean_path]
    · rw [← hclean, hpath]
    · rw [hpath] at hslash
      exact absurd hslash (path_getLast hi)
  · rintro ⟨hclean, hprofiler⟩
    by_cases hpath : r.path = i.path
    · obtain ⟨r', hr⟩ := handled_of_path hplain hprofiler hpath
      exact ⟨r', by simp [follow, hr]⟩
    · have hredirect := redirect_to_path debug hconnect hplain hclean hpath
      have hcanonical : Canonical i.path := hclean ▸ canonical_cleanPath r.path
      obtain ⟨r', hr⟩ := handled_of_path (r := redirected r i.path)
        (plain_redirected hcanonical) hprofiler rfl
      exact ⟨r', by simp [follow, hredirect, hr]⟩
  · intro r' h hne
    obtain ⟨-, r₁, hr₁, hwhere⟩ := followed hconnect h
    have hreached := reached hr₁
    rw [hreached.method]
    rcases hwhere with rfl | ⟨hpost, -⟩
    · exact absurd (hreached.path hi) hne
    · exact hpost

/-- A POST to expose a port, by a path with a slash too many. -/
def exposeTwoSlashes : HttpRequest :=
  { method := "POST", host := "gateway", requestURI := "/services//forwarder/expose",
    urlHost := "", path := "/services//forwarder/expose".toList, rawPath := [] }

theorem follow_ends_two_slashes :
    (∃ r', follow (serveMux (withProfiler false)) 2 exposeTwoSlashes = .handled .expose r') ∧
    ∀ r', follow (serveMux (withProfiler false)) 2 exposeTwoSlashes = .handled .expose r' →
      r'.method ≠ "POST" := by
  have hends := follow_ends false (r := exposeTwoSlashes) (by decide) ⟨by decide, rfl⟩
  obtain ⟨hhandled, hmethod⟩ := hends.2 .expose (by decide)
  exact ⟨hhandled.mpr ⟨by decide, fun h => h⟩, fun r' h => hmethod r' h (by decide)⟩

end GvisorTapVsock.VirtualNetwork
