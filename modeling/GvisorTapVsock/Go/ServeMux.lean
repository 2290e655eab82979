/-
GvisorTapVsock.Go.ServeMux — `http.ServeMux` and `http.StripPrefix`, as of
Go 1.20.

A handler is a function of the request; what it does beyond choosing another
handler is named by an index. So muxes inside muxes need no tree: `serveMux` of
some entries is a handler like any other.

`serves` is the inversion: a request gets through a mux by a pattern that
matches its path as it is, never by a cleaned one, and a mux sends a client to
the clean path or to a subtree it has a pattern for. `serveMux_of_entry` and
`serveMux_of_match` say when a request does get through.
-/
import GvisorTapVsock.Go.HostPort
import GvisorTapVsock.Go.Path

namespace GvisorTapVsock.Go

open GvisorTapVsock.Go.Path

/-- The parts of an `http.Request` that decide about its handler. -/
structure HttpRequest where
  method : String
  /-- `r.Host` -/
  host : String
  requestURI : String
  /-- `r.URL.Host` -/
  urlHost : String
  /-- `r.URL.Path` -/
  path : List Char
  /-- `r.URL.RawPath` -/
  rawPath : List Char

/-- A request for a path that needed no encoding. -/
def HttpRequest.Plain (r : HttpRequest) : Prop := r.requestURI ≠ "*" ∧ r.rawPath = []

/-- How a request ends: in a handler, which may see a shorter path, or in an
answer of `net/http`. -/
inductive Outcome (ι : Type) where
  | handled (i : ι) (r : HttpRequest)
  /-- `StatusMovedPermanently` to a path -/
  | redirect (path : List Char)
  | notFound
  | badRequest

abbrev Handler (ι : Type) := HttpRequest → Outcome ι

namespace ServeMux

variable {ι : Type}

/-- `http.HandlerFunc`, by its index. -/
def handlerFunc (i : ι) : Handler ι := fun r => .handled i r

/-- The patterns of a mux, in the order in which they were registered. -/
abbrev Entries (ι : Type) := List (List Char × Handler ι)

/-- `mux.m[pattern]`. -/
def lookupEntry (entries : Entries ι) (pattern : List Char) : Option (Handler ι) :=
  (entries.find? fun e => decide (e.1 = pattern)).map Prod.snd

/-- `appendSorted(es, e)`, which keeps longer patterns in front. -/
def appendSorted (es : Entries ι) (e : List Char × Handler ι) : Entries ι :=
  match es with
  | [] => [e]
  | x :: es => if x.1.length < e.1.length then e :: x :: es else x :: appendSorted es e

/-- `mux.es`: the patterns that end in a slash. -/
def subtrees (entries : Entries ι) : Entries ι :=
  (entries.filter fun e => decide (e.1.getLast? = some '/')).foldl appendSorted []

/-- `mux.hosts`. -/
def hosts (entries : Entries ι) : Bool := entries.any fun e => decide (e.1.head? ≠ some '/')

/-- `mux.match(path)`. -/
def matchPath (entries : Entries ι) (path : List Char) : Option (Handler ι) :=
  match lookupEntry entries path with
  | some h => some h
  | none => ((subtrees entries).find? fun e => e.1.isPrefixOf path).map Prod.snd

/-- `mux.handler(host, path)`, on a request. -/
def dispatch (entries : Entries ι) (host path : List Char) (r : HttpRequest) : Outcome ι :=
  let byHost := if hosts entries then matchPath entries (host ++ path) else none
  match byHost, matchPath entries path with
  | some h, _ => h r
  | none, some h => h r
  | none, none => .notFound

/-- Whether a text is a pattern. -/
def registered (entries : Entries ι) (c : List Char) : Bool := (lookupEntry entries c).isSome

/-- `mux.shouldRedirectRLocked(host, path)`. -/
def shouldRedirect (entries : Entries ι) (host path : List Char) : Bool :=
  if registered entries path || registered entries (host ++ path) then false
  else if path = [] then false
  else if registered entries (path ++ ['/']) || registered entries (host ++ path ++ ['/']) then
    decide (path.getLast? ≠ some '/')
  else false

/-- `stripHostPort(h)`. -/
def stripHostPort (h : String) : String :=
  if ':' ∉ h.toList then h
  else
    match splitHostPort h with
    | .ok (host, _) => host
    | .error _ => h

/-- `mux.ServeHTTP`. -/
def serveMux (entries : Entries ι) : Handler ι := fun r =>
  if r.requestURI = "*" then .badRequest
  -- the path of a CONNECT is not cleaned
  else if r.method = "CONNECT" then
    if shouldRedirect entries r.urlHost.toList r.path then .redirect (r.path ++ ['/'])
    else dispatch entries r.host.toList r.path r
  else
    let host := (stripHostPort r.host).toList
    let path := cleanPath r.path
    if shouldRedirect entries host path then .redirect (path ++ ['/'])
    else if path ≠ r.path then .redirect path
    else dispatch entries host r.path r

/-- `strings.TrimPrefix`. -/
def trimPrefix (s start : List Char) : List Char :=
  if start.isPrefixOf s then s.drop start.length else s

/-- `http.StripPrefix(start, h)`. -/
def stripPrefix (start : List Char) (h : Handler ι) : Handler ι := fun r =>
  if start = [] then h r
  else
    let p := trimPrefix r.path start
    let rp := trimPrefix r.rawPath start
    if p.length < r.path.length ∧ (r.rawPath = [] ∨ rp.length < r.rawPath.length) then
      h { r with path := p, rawPath := rp }
    else .notFound

/-! ## Matching -/

/-- A pattern matches a path: it is the path, or a subtree the path is in. -/
def Matches (pattern path : List Char) : Prop :=
  pattern = path ∨ pattern.getLast? = some '/' ∧ pattern <+: path

theorem mem_of_lookupEntry {entries : Entries ι} {pattern : List Char} {h : Handler ι}
    (hentry : lookupEntry entries pattern = some h) : (pattern, h) ∈ entries := by
  obtain ⟨⟨p, h'⟩, hfind, rfl⟩ := Option.map_eq_some_iff.mp hentry
  have hp := List.find?_some hfind
  obtain rfl : p = pattern := by simpa using hp
  exact List.mem_of_find?_eq_some hfind

theorem mem_appendSorted {es : Entries ι} {e x : List Char × Handler ι}
    (h : x ∈ appendSorted es e) : x = e ∨ x ∈ es := by
  induction es with
  | nil => exact Or.inl (List.mem_singleton.mp h)
  | cons y es ih =>
    unfold appendSorted at h
    split at h
    · exact List.mem_cons.mp h
    · rcases List.mem_cons.mp h with rfl | h
      · exact Or.inr List.mem_cons_self
      · exact (ih h).imp_right (List.mem_cons_of_mem y)

theorem mem_of_mem_subtrees {entries : Entries ι} {x : List Char × Handler ι}
    (h : x ∈ subtrees entries) : x ∈ entries ∧ x.1.getLast? = some '/' := by
  have hall : ∀ (more es : Entries ι), x ∈ more.foldl appendSorted es → x ∈ more ∨ x ∈ es := by
    intro more
    induction more with
    | nil => exact fun es hx => Or.inr hx
    | cons e more ih =>
      intro es hx
      rcases ih _ hx with hx | hx
      · exact Or.inl (List.mem_cons_of_mem e hx)
      · rcases mem_appendSorted hx with rfl | hx
        · exact Or.inl List.mem_cons_self
        · exact Or.inr hx
  rcases hall _ _ h with h | h
  · simpa using List.mem_filter.mp h
  · cases h

theorem mem_of_matchPath {entries : Entries ι} {path : List Char} {h : Handler ι}
    (hmatch : matchPath entries path = some h) :
    ∃ pattern, (pattern, h) ∈ entries ∧ Matches pattern path := by
  unfold matchPath at hmatch
  split at hmatch
  · next h' hentry =>
    obtain rfl := Option.some.inj hmatch
    exact ⟨path, mem_of_lookupEntry hentry, Or.inl rfl⟩
  · obtain ⟨⟨p, h'⟩, hfind, rfl⟩ := Option.map_eq_some_iff.mp hmatch
    obtain ⟨hmem, hslash⟩ := mem_of_mem_subtrees (List.mem_of_find?_eq_some hfind)
    have hpre := List.find?_some hfind
    exact ⟨p, hmem, Or.inr ⟨hslash, by simpa using hpre⟩⟩

/-! ## Redirects to a subtree -/

theorem registered_of_shouldRedirect {entries : Entries ι} {host path : List Char}
    (h : shouldRedirect entries host path = true) :
    path.getLast? ≠ some '/' ∧ ∃ e ∈ entries, (path ++ ['/']) <:+ e.1 := by
  have hmem : ∀ {c : List Char}, registered entries c = true → ∃ e ∈ entries, e.1 = c := by
    intro c hc
    obtain ⟨h, hh⟩ := Option.isSome_iff_exists.mp hc
    exact ⟨(c, h), mem_of_lookupEntry hh, rfl⟩
  unfold shouldRedirect at h
  split at h
  · cases h
  · split at h
    · cases h
    · split at h
      · next hsub =>
        refine ⟨of_decide_eq_true h, ?_⟩
        rcases Bool.or_eq_true_iff.mp hsub with hsub | hsub
        · obtain ⟨e, he, heq⟩ := hmem hsub
          exact ⟨e, he, heq ▸ List.suffix_refl _⟩
        · obtain ⟨e, he, heq⟩ := hmem hsub
          exact ⟨e, he, heq ▸ ⟨host, by simp⟩⟩
      · cases h

theorem shouldRedirect_of_entry {entries : Entries ι} {host path : List Char} {h : Handler ι}
    (hentry : lookupEntry entries path = some h) : shouldRedirect entries host path = false := by
  unfold shouldRedirect
  simp [registered, hentry]

/-! ## What gets through -/

/-- How a mux answers a request. -/
inductive Serves (entries : Entries ι) (r : HttpRequest) : Outcome ι → Prop where
  | badRequest : Serves entries r .badRequest
  /-- to a subtree, for a path that was cleaned or came with a CONNECT -/
  | subtree {path : List Char} (method : r.method ≠ "CONNECT" → path = cleanPath r.path)
      (noSlash : path.getLast? ≠ some '/')
      (registered : ∃ e ∈ entries, (path ++ ['/']) <:+ e.1) :
      Serves entries r (.redirect (path ++ ['/']))
  | clean (unclean : cleanPath r.path ≠ r.path) : Serves entries r (.redirect (cleanPath r.path))
  | handler {pattern : List Char} {h : Handler ι} (entry : (pattern, h) ∈ entries)
      (pathMatches : Matches pattern r.path)
      (method : r.method ≠ "CONNECT" → cleanPath r.path = r.path) : Serves entries r (h r)
  | notFound : Serves entries r .notFound

section Rooted

variable {entries : Entries ι} (hrooted : ∀ e ∈ entries, e.1.head? = some '/')
include hrooted

theorem dispatch_rooted (host path : List Char) (r : HttpRequest) :
    dispatch entries host path r = ((matchPath entries path).map (· r)).getD .notFound := by
  have hhosts : hosts entries = false := by
    rw [hosts, List.any_eq_false]
    intro e he
    simp [hrooted e he]
  unfold dispatch
  rw [hhosts]
  cases matchPath entries path <;> rfl

theorem serves_dispatch (host : List Char) (r : HttpRequest)
    (hmethod : r.method ≠ "CONNECT" → cleanPath r.path = r.path) :
    Serves entries r (dispatch entries host r.path r) := by
  rw [dispatch_rooted hrooted]
  cases hmatch : matchPath entries r.path with
  | none => exact .notFound
  | some h =>
    obtain ⟨pattern, hmem, hmatches⟩ := mem_of_matchPath hmatch
    exact .handler hmem hmatches hmethod

/-- **Inversion.** A mux whose patterns are paths does nothing else. -/
theorem serves (r : HttpRequest) : Serves entries r (serveMux entries r) := by
  unfold serveMux
  split
  · exact .badRequest
  · split
    · next hconnect =>
      split
      · next hredirect =>
        obtain ⟨hne, hregistered⟩ := registered_of_shouldRedirect hredirect
        exact .subtree (fun h => absurd hconnect h) hne hregistered
      · exact serves_dispatch hrooted _ r fun h => absurd hconnect h
    · dsimp only
      split
      · next hredirect =>
        obtain ⟨hne, hregistered⟩ := registered_of_shouldRedirect hredirect
        exact .subtree (fun _ => rfl) hne hregistered
      · split
        · next hunclean => exact .clean hunclean
        · next hclean => exact serves_dispatch hrooted _ r fun _ => not_not.mp hclean

/-- A request that reached a handler went by a pattern that matches its path. -/
theorem handled_serveMux {r r' : HttpRequest} {i : ι} (h : serveMux entries r = .handled i r') :
    ∃ e ∈ entries, Matches e.1 r.path ∧ e.2 r = .handled i r' := by
  have hs := serves hrooted r
  generalize serveMux entries r = o at h hs
  cases hs with
  | badRequest | subtree | clean | notFound => cases h
  | handler entry pathMatches => exact ⟨_, entry, pathMatches, h⟩

/-- A canonical path is redirected to a subtree, by this mux or by a handler. -/
theorem redirect_serveMux {r : HttpRequest} {p : List Char} (hconnect : r.method ≠ "CONNECT")
    (hcanonical : cleanPath r.path = r.path) (h : serveMux entries r = .redirect p) :
    (p = r.path ++ ['/'] ∧ r.path.getLast? ≠ some '/' ∧ ∃ e ∈ entries, p <:+ e.1) ∨
      ∃ e ∈ entries, Matches e.1 r.path ∧ e.2 r = .redirect p := by
  have hs := serves hrooted r
  generalize serveMux entries r = o at h hs
  cases hs with
  | badRequest | notFound => cases h
  | subtree method noSlash registered =>
    obtain rfl := Outcome.redirect.inj h
    obtain rfl := (method hconnect).trans hcanonical
    exact Or.inl ⟨rfl, noSlash, registered⟩
  | clean unclean => exact absurd hcanonical unclean
  | handler entry pathMatches => exact Or.inr ⟨_, entry, pathMatches, h⟩

/-- A canonical path that leads to no redirect is dispatched. -/
theorem serveMux_eq_dispatch {r : HttpRequest} (huri : r.requestURI ≠ "*")
    (hclean : cleanPath r.path = r.path)
    (hstay : ∀ host, shouldRedirect entries host r.path = false) :
    serveMux entries r = ((matchPath entries r.path).map (· r)).getD .notFound := by
  unfold serveMux
  simp only [huri, hclean, hstay, dispatch_rooted hrooted]
  simp

/-- A canonical path that is a pattern gets through. -/
theorem serveMux_of_entry {r : HttpRequest} {h : Handler ι} (huri : r.requestURI ≠ "*")
    (hclean : cleanPath r.path = r.path) (hentry : lookupEntry entries r.path = some h) :
    serveMux entries r = h r := by
  rw [serveMux_eq_dispatch hrooted huri hclean fun _ => shouldRedirect_of_entry hentry]
  simp [matchPath, hentry]

/-- So does one inside a subtree, unless it names a smaller one. -/
theorem serveMux_of_match {r : HttpRequest} (huri : r.requestURI ≠ "*")
    (hclean : cleanPath r.path = r.path)
    (hstay : ∀ e ∈ entries, ¬ (r.path ++ ['/']) <:+ e.1) :
    serveMux entries r = ((matchPath entries r.path).map (· r)).getD .notFound := by
  refine serveMux_eq_dispatch hrooted huri hclean fun host => ?_
  cases hredirect : shouldRedirect entries host r.path with
  | false => rfl
  | true =>
    obtain ⟨-, e, he, hsub⟩ := registered_of_shouldRedirect hredirect
    exact absurd hsub (hstay e he)

end Rooted

theorem stripPrefix_eq {start : List Char} {h : Handler ι} {r : HttpRequest}
    (hstart : start ≠ []) :
    stripPrefix start h r = .notFound ∨
      ∃ rest raw, r.path = start ++ rest ∧
        stripPrefix start h r = h { r with path := rest, rawPath := raw } := by
  unfold stripPrefix
  rw [if_neg hstart]
  dsimp only
  split
  · next hlt =>
    right
    have hpath : start.isPrefixOf r.path = true := by
      by_contra hnot
      simp [trimPrefix, hnot] at hlt
    have hsplit : start <+: r.path := by simpa using hpath
    obtain ⟨rest, hrest⟩ := hsplit
    have htrim : trimPrefix r.path start = rest := by simp [trimPrefix, ← hrest]
    exact ⟨rest, trimPrefix r.rawPath start, hrest.symm, by rw [htrim]⟩
  · exact Or.inl rfl

/-- Whether a prefix can be cut off the path as it was sent: there is only the
decoded path, or the prefix was not encoded. -/
def KeepsPrefix (start raw : List Char) : Prop := raw = [] ∨ start <+: raw

instance (start raw : List Char) : Decidable (KeepsPrefix start raw) :=
  inferInstanceAs (Decidable (_ ∨ _))

theorem trimPrefix_lt_iff {start : List Char} (hstart : start ≠ []) (raw : List Char) :
    (trimPrefix raw start).length < raw.length ↔ start <+: raw := by
  have hpos : 0 < start.length := List.length_pos_iff.mpr hstart
  by_cases hpre : start <+: raw
  · obtain ⟨rest, rfl⟩ := hpre
    simp [trimPrefix, hpos]
  · simp [trimPrefix, hpre]

/-- A path is cut at the prefix, if it was not sent in another form. -/
theorem stripPrefix_of_path {start rest : List Char} {h : Handler ι} {r : HttpRequest}
    (hstart : start ≠ []) (hpath : r.path = start ++ rest) :
    stripPrefix start h r =
      if KeepsPrefix start r.rawPath then
        h { r with path := rest, rawPath := trimPrefix r.rawPath start }
      else .notFound := by
  have htrim : trimPrefix r.path start = rest := by simp [trimPrefix, hpath]
  have hshorter : rest.length < r.path.length := by
    rw [← htrim, trimPrefix_lt_iff hstart, hpath]
    exact List.prefix_append start rest
  have hkeeps : (rest.length < r.path.length ∧
      (r.rawPath = [] ∨ (trimPrefix r.rawPath start).length < r.rawPath.length)) ↔
        KeepsPrefix start r.rawPath := by
    simp only [hshorter, true_and, KeepsPrefix, trimPrefix_lt_iff hstart]
  rw [stripPrefix, if_neg hstart, htrim]
  exact if_congr hkeeps rfl rfl

/-- A subtree whose handler cuts its name off. -/
theorem serveMux_strip {entries : Entries ι} {r : HttpRequest} {start rest : List Char}
    {h : Handler ι} (hrooted : ∀ e ∈ entries, e.1.head? = some '/') (huri : r.requestURI ≠ "*")
    (hpath : r.path = start ++ rest) (hstart : start ≠ [])
    (hclean : cleanPath (start ++ rest) = start ++ rest)
    (hstay : ∀ e ∈ entries, ¬ (start ++ rest ++ ['/']) <:+ e.1)
    (hmatch : matchPath entries (start ++ rest) = some (stripPrefix start h)) :
    serveMux entries r =
      if KeepsPrefix start r.rawPath then
        h { r with path := rest, rawPath := trimPrefix r.rawPath start }
      else .notFound := by
  rw [serveMux_of_match hrooted huri (by rw [hpath, hclean]) (by rwa [hpath]), hpath, hmatch]
  exact stripPrefix_of_path hstart hpath

/-! ## Following redirects -/

/-- The request of a client that follows a redirect with status 301. -/
def redirected (r : HttpRequest) (p : List Char) : HttpRequest :=
  { r with
    method := if r.method = "HEAD" then "HEAD" else "GET"
    requestURI := String.ofList p
    path := p
    rawPath := [] }

/-- What a client gets that follows up to `n` redirects. -/
def follow (h : Handler ι) : Nat → HttpRequest → Outcome ι
  | 0, r => h r
  | n + 1, r =>
      match h r with
      | .redirect p => follow h n (redirected r p)
      | o => o

theorem follow_succ {h : Handler ι} {n : Nat} {r : HttpRequest} {o : Outcome ι}
    (hfollow : follow h (n + 1) r = o) :
    (h r = o ∧ ∀ p, o ≠ .redirect p) ∨
      ∃ p, h r = .redirect p ∧ follow h n (redirected r p) = o := by
  unfold follow at hfollow
  split at hfollow
  case h_1 p hp => exact Or.inr ⟨p, hp, hfollow⟩
  case h_2 o' hother => exact Or.inl ⟨hfollow, fun p hp => hother p (hfollow.trans hp)⟩

end ServeMux

end GvisorTapVsock.Go
