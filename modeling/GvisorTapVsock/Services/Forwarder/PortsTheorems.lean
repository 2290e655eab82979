/-
GvisorTapVsock.Services.Forwarder.PortsTheorems — which listeners the ports
forwarder has open, over any sequence of calls.

`start` ends well exactly for the requests that `Accepted` describes, and a
call that fails changes nothing (`expose_failed`, `unexpose_failed`). So a
listener comes with an entry and an entry with a listener, until an `Expose`
that was accepted finds its own KEY taken: the entry is overwritten and nothing
closes the listener it had. The check at the top of `Expose` does not see it,
because it looks for `local`. A TCP or UDP listen on a port that is taken fails
and hides this; a unix socket is removed first and listened on again.

`listeners_match_iff` says that no other sequence of calls loses a listener.
-/
import Mathlib.Data.List.Induction
import GvisorTapVsock.Services.Forwarder.Ports

namespace GvisorTapVsock.Services.Forwarder

open GvisorTapVsock.Go

variable {f : PortsForwarder} {protocol : TransportProtocol} {localAddr remote : String}
  {c : Calls} {e : Failure}

/-! ## What is accepted -/

/-- The text of an address in the virtual network. -/
def IsAddress (remote : String) : Prop := ∃ address, tcpipAddress 1 remote = .ok address

/-- A remote of a unix or npipe proxy. -/
def Dialable (u : URL) : Prop :=
  (u.scheme = "ssh-tunnel" ∧ firstValueOrEmpty ((u.query.lookup "key").getD []) ≠ "" ∧
    u.path ≠ "" ∧ u.path ≠ "/") ∨
  (u.scheme = "tcp" ∧ IsAddress (u.hostname ++ ":" ++ u.port))

/-- The requests for which a listener is opened: a known protocol, a valid
remote, and nothing the host refuses. -/
inductive Accepted : TransportProtocol → String → Calls → Prop where
  | unix {remote : String} {c : Calls} {u : URL} (hremote : c.parseRemote = .ok u)
      (hdial : Dialable u) (hremove : c.remove = none) (hlisten : c.listen = none) :
      Accepted UNIX remote c
  | npipe {remote : String} {c : Calls} {u : URL} (hremote : c.parseRemote = .ok u)
      (hdial : Dialable u) (hlocal : c.parseLocal = none) (hlisten : c.listen = none) :
      Accepted NPIPE remote c
  | udp {remote : String} {c : Calls} (hremote : IsAddress remote) (hresolve : c.resolve = none)
      (hlisten : c.listen = none) : Accepted UDP remote c
  | tcp {remote : String} {c : Calls} (hremote : IsAddress remote) (hlisten : c.listen = none) :
      Accepted TCP remote c

/-- A sequence of two steps ends well if both do. -/
theorem bind_ok_iff {α β : Type} (x : Except Failure α) (g : α → Except Failure β) (b : β) :
    (x >>= g) = .ok b ↔ ∃ a, x = .ok a ∧ g a = .ok b := by
  cases x with
  | error e => simp [bind, Except.bind]
  | ok a => simp [bind, Except.bind]

theorem mapError_ok_iff {α : Type} {x : Except String α} {g : String → Failure} {a : α} :
    x.mapError g = .ok a ↔ x = .ok a := by
  cases x with
  | error err => simp [Except.mapError]
  | ok b => simp [Except.mapError]

@[simp] theorem check_ok_iff (err : Option String) (u : Unit) :
    check err = .ok u ↔ err = none := by
  cases err with
  | none => simp [check]
  | some err => simp [check]

theorem dialFn_ok_iff (u : URL) : (∃ dial, dialFn u = .ok dial) ↔ Dialable u := by
  unfold dialFn Dialable
  by_cases hssh : u.scheme = "ssh-tunnel"
  · by_cases hkey : firstValueOrEmpty ((u.query.lookup "key").getD []) = ""
    · simp [hssh, hkey]
    · by_cases hpath : u.path = "" ∨ u.path = "/"
      · rcases hpath with hpath | hpath <;> simp [hssh, hkey, hpath]
      · rw [if_pos hssh]
        simp only [if_neg hkey, if_neg hpath]
        exact ⟨fun _ => Or.inl ⟨hssh, hkey, not_or.mp hpath⟩, fun _ => ⟨_, rfl⟩⟩
  · by_cases htcp : u.scheme = "tcp"
    · simp only [htcp, IsAddress]
      constructor
      · rintro ⟨dial, h⟩
        obtain ⟨address, haddress, -⟩ := (bind_ok_iff _ _ _).mp h
        exact Or.inr ⟨trivial, address, haddress⟩
      · rintro (⟨h, -⟩ | ⟨-, address, haddress⟩)
        · exact absurd h (by decide)
        · exact ⟨.tcp address, (bind_ok_iff _ _ _).mpr ⟨address, haddress, rfl⟩⟩
    · simp [hssh, htcp]

theorem listenFunc_ok_iff (u : Unit) :
    listenFunc protocol c = .ok u ↔
      (if protocol = UNIX then c.remove else c.parseLocal) = none ∧ c.listen = none := by
  unfold listenFunc
  by_cases hunix : protocol = UNIX <;> simp [hunix, bind_ok_iff]

/-- A unix or npipe request that names a dialable remote is accepted if its
listen goes well. -/
theorem start_socket_iff (hsocket : protocol = UNIX ∨ protocol = NPIPE) :
    (∃ dial, start protocol remote c = .ok dial) ↔
      (∃ u, c.parseRemote = .ok u ∧ Dialable u) ∧
        (if protocol = UNIX then c.remove else c.parseLocal) = none ∧ c.listen = none := by
  rw [start, if_pos hsocket]
  constructor
  · rintro ⟨dial, h⟩
    obtain ⟨u, hparse, h⟩ := (bind_ok_iff _ _ _).mp h
    obtain ⟨_, hdial, h⟩ := (bind_ok_iff _ _ _).mp h
    obtain ⟨_, hlisten, _⟩ := (bind_ok_iff _ _ _).mp h
    exact ⟨⟨u, mapError_ok_iff.mp hparse, (dialFn_ok_iff u).mp ⟨_, hdial⟩⟩,
      (listenFunc_ok_iff _).mp hlisten⟩
  · rintro ⟨⟨u, hparse, hdial⟩, hlisten⟩
    obtain ⟨dial, hdial⟩ := (dialFn_ok_iff u).mpr hdial
    rw [hparse]
    exact ⟨dial, (bind_ok_iff _ _ _).mpr ⟨u, rfl, (bind_ok_iff _ _ _).mpr
      ⟨dial, hdial, (bind_ok_iff _ _ _).mpr ⟨(), (listenFunc_ok_iff ()).mpr hlisten, rfl⟩⟩⟩⟩

theorem start_udp_iff :
    (∃ dial, start UDP remote c = .ok dial) ↔
      IsAddress remote ∧ c.resolve = none ∧ c.listen = none := by
  rw [start, if_neg (by decide), if_pos rfl]
  constructor
  · intro ⟨dial, h⟩
    obtain ⟨address, haddress, h⟩ := (bind_ok_iff _ _ _).mp h
    obtain ⟨_, hresolve, h⟩ := (bind_ok_iff _ _ _).mp h
    obtain ⟨_, hlisten, _⟩ := (bind_ok_iff _ _ _).mp h
    exact ⟨⟨address, haddress⟩, (check_ok_iff _ _).mp hresolve, (check_ok_iff _ _).mp hlisten⟩
  · intro ⟨⟨address, haddress⟩, hresolve, hlisten⟩
    rw [haddress, hresolve, hlisten]
    exact ⟨.udp address, rfl⟩

theorem start_tcp_iff :
    (∃ dial, start TCP remote c = .ok dial) ↔ IsAddress remote ∧ c.listen = none := by
  rw [start, if_neg (by decide), if_neg (by decide), if_pos rfl]
  constructor
  · intro ⟨dial, h⟩
    obtain ⟨address, haddress, h⟩ := (bind_ok_iff _ _ _).mp h
    obtain ⟨_, hlisten, _⟩ := (bind_ok_iff _ _ _).mp h
    exact ⟨⟨address, haddress⟩, (check_ok_iff _ _).mp hlisten⟩
  · intro ⟨⟨address, haddress⟩, hlisten⟩
    rw [haddress, hlisten]
    exact ⟨.tcp address, rfl⟩

/-- **The `switch` opens a listener for the accepted requests, and no other.** -/
theorem start_ok_iff :
    (∃ dial, start protocol remote c = .ok dial) ↔ Accepted protocol remote c := by
  constructor
  · intro h
    by_cases hunix : protocol = UNIX
    · subst hunix
      obtain ⟨⟨u, hremote, hdial⟩, hremove, hlisten⟩ := (start_socket_iff (Or.inl rfl)).mp h
      exact .unix hremote hdial hremove hlisten
    by_cases hnpipe : protocol = NPIPE
    · subst hnpipe
      obtain ⟨⟨u, hremote, hdial⟩, hlocal, hlisten⟩ := (start_socket_iff (Or.inr rfl)).mp h
      exact .npipe hremote hdial hlocal hlisten
    by_cases hudp : protocol = UDP
    · subst hudp
      obtain ⟨hremote, hresolve, hlisten⟩ := start_udp_iff.mp h
      exact .udp hremote hresolve hlisten
    by_cases htcp : protocol = TCP
    · subst htcp
      obtain ⟨hremote, hlisten⟩ := start_tcp_iff.mp h
      exact .tcp hremote hlisten
    simp [start, hunix, hnpipe, hudp, htcp] at h
  · intro h
    cases h with
    | unix hremote hdial hremove hlisten =>
      exact (start_socket_iff (Or.inl rfl)).mpr ⟨⟨_, hremote, hdial⟩, hremove, hlisten⟩
    | npipe hremote hdial hlocal hlisten =>
      exact (start_socket_iff (Or.inr rfl)).mpr ⟨⟨_, hremote, hdial⟩, hlocal, hlisten⟩
    | udp hremote hresolve hlisten => exact start_udp_iff.mpr ⟨hremote, hresolve, hlisten⟩
    | tcp hremote hlisten => exact start_tcp_iff.mpr ⟨hremote, hlisten⟩

instance : Decidable (Accepted protocol remote c) :=
  decidable_of_iff ((start protocol remote c).isOk = true) (by
    rw [← start_ok_iff]
    cases start protocol remote c with
    | error e => simp [Except.isOk, Except.toBool]
    | ok dial => simp [Except.isOk, Except.toBool])

/-! ## What one call does -/

/-- An `Expose` that passes the check and is accepted stores its proxy. -/
theorem expose_accepted (hlocal : localAddr ∉ f.proxies) (haccepted : Accepted protocol remote c) :
    ∃ dial, f.expose protocol localAddr remote c =
      (.ok (), f.store protocol localAddr remote dial) := by
  obtain ⟨dial, hstart⟩ := start_ok_iff.mpr haccepted
  exact ⟨dial, by rw [PortsForwarder.expose, if_neg hlocal, hstart]⟩

/-- Any other fails, and changes nothing. -/
theorem expose_refused (h : localAddr ∈ f.proxies ∨ ¬ Accepted protocol remote c) :
    ∃ e, f.expose protocol localAddr remote c = (.error e, f) := by
  unfold PortsForwarder.expose
  by_cases hlocal : localAddr ∈ f.proxies
  · exact ⟨.alreadyRunning, if_pos hlocal⟩
  · rw [if_neg hlocal]
    cases hstart : start protocol remote c with
    | error e => exact ⟨e, rfl⟩
    | ok dial => exact absurd (start_ok_iff.mp ⟨dial, hstart⟩) (h.resolve_left hlocal)

/-- **A failed `Expose` leaves no listener open, and every entry as it was.** -/
theorem expose_failed (h : (f.expose protocol localAddr remote c).1 = .error e) :
    (f.expose protocol localAddr remote c).2 = f := by
  by_cases hrefused : localAddr ∈ f.proxies ∨ ¬ Accepted protocol remote c
  · obtain ⟨e', hexpose⟩ := expose_refused hrefused
    rw [hexpose]
  · rw [not_or, not_not] at hrefused
    obtain ⟨dial, hexpose⟩ := expose_accepted hrefused.1 hrefused.2
    simp [hexpose] at h

theorem unexpose_present {p : Proxy} (h : f.proxies.lookup (key protocol localAddr) = some p) :
    f.unexpose protocol localAddr =
      (.ok (),
        { f with
          proxies := f.proxies.erase (key protocol localAddr)
          listening := f.listening.filter (fun l => l ≠ p.underlying) }) := by
  rw [PortsForwarder.unexpose, h]

theorem unexpose_absent (h : f.proxies.lookup (key protocol localAddr) = none) :
    f.unexpose protocol localAddr = (.error .notFound, f) := by
  rw [PortsForwarder.unexpose, h]

/-- What every call keeps holds after any sequence of calls. -/
theorem after_induction {P : PortsForwarder → Prop} (hnew : P newPortsForwarder)
    (hexpose : ∀ f protocol localAddr remote dial, P f → localAddr ∉ f.proxies →
      (∃ c, Accepted protocol remote c) → P (f.store protocol localAddr remote dial))
    (hunexpose : ∀ f protocol localAddr, P f → P (f.unexpose protocol localAddr).2)
    (calls : List Call) : P (after calls) := by
  induction calls using List.reverseRecOn with
  | nil => exact hnew
  | append_singleton calls call ih =>
    rw [after, List.foldl_append]
    show P ((after calls).apply call).2
    cases call with
    | expose protocol localAddr remote c =>
      show P ((after calls).expose protocol localAddr remote c).2
      by_cases hrefused : localAddr ∈ (after calls).proxies ∨ ¬ Accepted protocol remote c
      · obtain ⟨e, hcall⟩ := expose_refused hrefused
        rw [hcall]
        exact ih
      · rw [not_or, not_not] at hrefused
        obtain ⟨dial, hcall⟩ := expose_accepted hrefused.1 hrefused.2
        rw [hcall]
        exact hexpose _ _ _ _ _ ih hrefused.1 ⟨c, hrefused.2⟩
    | unexpose protocol localAddr => exact hunexpose _ _ _ ih

/-! ## Listeners and entries -/

/-- The open listeners and the entries correspond one to one: each entry's
underlying is open and its own, and no other listener is open. -/
structure OneToOne (f : PortsForwarder) : Prop where
  open_iff : ∀ l, l ∈ f.listening ↔ ∃ k p, f.proxies.lookup k = some p ∧ p.underlying = l
  own : ∀ k k' p p', f.proxies.lookup k = some p → f.proxies.lookup k' = some p' →
    p.underlying = p'.underlying → k = k'

/-- The numbers of the open listeners have been given out. -/
theorem listening_lt_opened (calls : List Call) :
    ∀ l ∈ (after calls).listening, l < (after calls).opened := by
  refine after_induction (P := fun f => ∀ l ∈ f.listening, l < f.opened) ?_ ?_ ?_ calls
  · intro l hl
    simp [newPortsForwarder] at hl
  · intro f protocol localAddr remote dial ih _ _ l hl
    rcases List.mem_cons.mp hl with rfl | hl
    · exact Nat.lt_succ_self _
    · exact Nat.lt_succ_of_lt (ih l hl)
  · intro f protocol localAddr ih l hl
    cases hlookup : f.proxies.lookup (key protocol localAddr) with
    | none => rw [unexpose_absent hlookup] at hl ⊢; exact ih l hl
    | some p =>
      rw [unexpose_present hlookup] at hl ⊢
      exact ih l (List.mem_filter.mp hl).1

/-- A store under a new key opens a listener for its entry. -/
theorem OneToOne.store (h : OneToOne f) (hfresh : ∀ l ∈ f.listening, l < f.opened)
    (hkey : key protocol localAddr ∉ f.proxies) (dial : Dial) :
    OneToOne (f.store protocol localAddr remote dial) := by
  have hnone : f.proxies.lookup (key protocol localAddr) = none := AList.lookup_eq_none.mpr hkey
  have hold : ∀ k p, f.proxies.lookup k = some p → p.underlying < f.opened := by
    intro k p hp
    exact hfresh _ ((h.open_iff _).mpr ⟨k, p, hp, rfl⟩)
  have hlookup : ∀ k p, (f.store protocol localAddr remote dial).proxies.lookup k = some p ↔
      (k = key protocol localAddr ∧ ⟨localAddr, remote, protocol, f.opened, dial⟩ = p) ∨
        f.proxies.lookup k = some p := by
    intro k p
    rw [PortsForwarder.store, GoMap.lookup_insert_eq]
    by_cases hk : k = key protocol localAddr
    · subst hk
      simp [hnone]
    · simp [hk]
  constructor
  · intro l
    rw [PortsForwarder.store, List.mem_cons, h.open_iff]
    constructor
    · rintro (rfl | ⟨k, p, hp, rfl⟩)
      · exact ⟨key protocol localAddr, _, (hlookup _ _).mpr (Or.inl ⟨rfl, rfl⟩), rfl⟩
      · exact ⟨k, p, (hlookup _ _).mpr (Or.inr hp), rfl⟩
    · rintro ⟨k, p, hp, rfl⟩
      rcases (hlookup k p).mp hp with ⟨_, rfl⟩ | hp
      · exact Or.inl rfl
      · exact Or.inr ⟨k, p, hp, rfl⟩
  · intro k k' p p' hp hp' heq
    rcases (hlookup k p).mp hp with ⟨rfl, rfl⟩ | hp <;>
      rcases (hlookup k' p').mp hp' with ⟨rfl, rfl⟩ | hp'
    · rfl
    · exact absurd heq.symm (hold k' p' hp').ne
    · exact absurd heq (hold k p hp).ne
    · exact h.own k k' p p' hp hp' heq

/-- A store under a key that is taken orphans the listener of its entry. -/
theorem OneToOne.not_store (h : OneToOne f) (hfresh : ∀ l ∈ f.listening, l < f.opened)
    (hkey : key protocol localAddr ∈ f.proxies) (dial : Dial) :
    ¬ OneToOne (f.store protocol localAddr remote dial) := by
  obtain ⟨p, hp⟩ := (GoMap.mem_iff_lookup _ _).mp hkey
  have hopen : p.underlying ∈ f.listening := (h.open_iff _).mpr ⟨_, p, hp, rfl⟩
  intro h'
  obtain ⟨k, p', hp', heq⟩ := (h'.open_iff p.underlying).mp (List.mem_cons_of_mem _ hopen)
  rw [PortsForwarder.store, GoMap.lookup_insert_eq] at hp'
  by_cases hk : k = key protocol localAddr
  · -- the new entry has the listener just opened
    rw [if_pos hk, Option.some.injEq] at hp'
    rw [← hp'] at heq
    exact absurd heq (hfresh _ hopen).ne'
  · rw [if_neg hk] at hp'
    exact hk (h.own k _ p' p hp' hp heq)

/-- `Unexpose` closes the listener of the entry it removes. -/
theorem OneToOne.unexpose (h : OneToOne f) : OneToOne (f.unexpose protocol localAddr).2 := by
  cases hlookup : f.proxies.lookup (key protocol localAddr) with
  | none => rw [unexpose_absent hlookup]; exact h
  | some p =>
    rw [unexpose_present hlookup]
    have hother : ∀ k q, (f.proxies.erase (key protocol localAddr)).lookup k = some q ↔
        k ≠ key protocol localAddr ∧ f.proxies.lookup k = some q := by
      intro k q
      rw [GoMap.lookup_erase_eq]
      by_cases hk : k = key protocol localAddr <;> simp [hk]
    constructor
    · intro l
      simp only [List.mem_filter, h.open_iff, hother, decide_eq_true_eq]
      constructor
      · rintro ⟨⟨k, q, hq, rfl⟩, hl⟩
        refine ⟨k, q, ⟨?_, hq⟩, rfl⟩
        rintro rfl
        rw [hlookup] at hq
        exact hl (by rw [Option.some.inj hq])
      · rintro ⟨k, q, ⟨hk, hq⟩, rfl⟩
        exact ⟨⟨k, q, hq, rfl⟩, fun heq => hk (h.own k _ q p hq hlookup heq)⟩
    · intro k k' q q' hq hq' heq
      exact h.own k k' q q' ((hother k q).mp hq).2 ((hother k' q').mp hq').2 heq

/-! ## Sequences of calls -/

/-- No accepted `Expose` finds its own key taken, unless `local` is itself a
key, so that the check stops it. -/
def FreshKey (f : PortsForwarder) : Call → Prop
  | .expose protocol localAddr remote c =>
      key protocol localAddr ∈ f.proxies →
        localAddr ∈ f.proxies ∨ ¬ Accepted protocol remote c
  | .unexpose _ _ => True

/-- One call keeps the correspondence exactly if its key is fresh. -/
theorem OneToOne.apply_iff (h : OneToOne f) (hfresh : ∀ l ∈ f.listening, l < f.opened)
    (call : Call) : OneToOne (f.apply call).2 ↔ FreshKey f call := by
  cases call with
  | unexpose protocol localAddr => exact ⟨fun _ => trivial, fun _ => h.unexpose⟩
  | expose protocol localAddr remote c =>
    show OneToOne (f.expose protocol localAddr remote c).2 ↔ _
    by_cases hrefused : localAddr ∈ f.proxies ∨ ¬ Accepted protocol remote c
    · obtain ⟨e, hcall⟩ := expose_refused hrefused
      rw [hcall]
      exact ⟨fun _ _ => hrefused, fun _ => h⟩
    · have haccepted := hrefused
      rw [not_or, not_not] at haccepted
      obtain ⟨dial, hcall⟩ := expose_accepted haccepted.1 haccepted.2
      rw [hcall]
      constructor
      · intro h' hkey
        exact absurd h' (h.not_store hfresh hkey dial)
      · intro hok
        exact h.store hfresh (fun hkey => hrefused (hok hkey)) dial

theorem oneToOne_new : OneToOne newPortsForwarder := by
  constructor <;> simp [newPortsForwarder]

theorem after_append (calls : List Call) (call : Call) :
    after (calls ++ [call]) = ((after calls).apply call).2 := by
  rw [after, List.foldl_append]
  rfl

/-- **Over a sequence of calls the open listeners correspond to the entries
after each call exactly if each call finds its key fresh.** -/
theorem listeners_match_iff (calls : List Call) :
    (∀ done, done <+: calls → OneToOne (after done)) ↔
      ∀ done call, done ++ [call] <+: calls → FreshKey (after done) call := by
  have hstep : ∀ done call, OneToOne (after done) →
      (OneToOne (after (done ++ [call])) ↔ FreshKey (after done) call) := by
    intro done call h
    rw [after_append]
    exact h.apply_iff (listening_lt_opened done) call
  constructor
  · intro h done call hdone
    exact (hstep done call (h done ((List.prefix_append _ _).trans hdone))).mp (h _ hdone)
  · -- by induction on the calls done so far
    intro h done
    induction done using List.reverseRecOn with
    | nil => exact fun _ => oneToOne_new
    | append_singleton done call ih =>
      intro hdone
      exact (hstep done call (ih ((List.prefix_append _ _).trans hdone))).mpr (h done call hdone)

/-- `Expose` of a unix socket that forwards to a port of the guest. -/
def exposeSocket : Call :=
  .expose UNIX "/tmp/podman.sock" "tcp://192.168.127.2:8080"
    ⟨.ok ⟨"tcp", "192.168.127.2:8080", "", ∅⟩, none, none, none, none⟩

/-- Exposed twice, a unix socket has two open listeners and one entry. -/
theorem socket_exposed_twice :
    (newPortsForwarder.apply exposeSocket).1 = .ok () ∧
      ((after [exposeSocket]).apply exposeSocket).1 = .ok () ∧
      (after [exposeSocket, exposeSocket]).listening = [1, 0] ∧
      (after [exposeSocket, exposeSocket]).proxies.entries.map (fun p => p.2.underlying) = [1] ∧
      ¬ OneToOne (after [exposeSocket, exposeSocket]) := by
  refine ⟨by decide +kernel, by decide +kernel, by decide +kernel, by decide +kernel, ?_⟩
  intro h
  obtain ⟨k, p, hp, hzero⟩ := (h.open_iff 0).mp (by decide +kernel)
  have hone : (after [exposeSocket, exposeSocket]).proxies.entries.all
      (fun p => p.2.underlying ≠ 0) = true := by decide +kernel
  have hmem := AList.mem_lookup_iff.mp (Option.mem_def.mpr hp)
  have := List.all_eq_true.mp hone ⟨k, p⟩ hmem
  simp [hzero] at this

end GvisorTapVsock.Services.Forwarder
