/-
GvisorTapVsock.VirtualNetwork.Forwards — the forwards of the configuration
(`forwardHostVM` of `pkg/virtualnetwork/services.go`).

The loop ranges over `configuration.Forwards` in an order that is not fixed,
exposes each entry and returns at the first error. What the host answers to
the `Expose` of an entry is an argument, as everywhere.

* The state of the loop is `Exposed`: the forwarder stands for the entries done
  so far, and has one listener for each of them.
* It ends well exactly if every entry is accepted and no entry's address is the
  key of an EARLIER one (`Clash`): the check of `Expose` asks for the bare
  address. A key such as `tcp/:80` is no address that a host resolves, so in
  practice the first half decides, and the order makes no difference.
* After an error the entries done so far stay exposed. The forwarder is not
  returned, so nothing closes their listeners.
-/
import GvisorTapVsock.Go.ServeMux
import GvisorTapVsock.Services.Forwarder.PortsRefinement

namespace GvisorTapVsock.VirtualNetwork

open GvisorTapVsock.Go
open GvisorTapVsock.Services GvisorTapVsock.Services.Forwarder

/-- The protocol and address that an entry's `local` stands for. -/
def forward (loc : String) : TransportProtocol × String :=
  if "udp:".toList.isPrefixOf loc.toList then
    (UDP, String.ofList (ServeMux.trimPrefix loc.toList "udp:".toList))
  else (TCP, loc)

/-- The loop of `forwardHostVM`, over the keys in the given order. -/
def exposeForwards (forwards : GoMap String String) (calls : String → Calls) :
    PortsForwarder → List String → Except Failure Unit × PortsForwarder
  | fw, [] => (.ok (), fw)
  | fw, loc :: order =>
      match forwards.lookup loc with
      | none => exposeForwards forwards calls fw order
      | some remote =>
          match fw.expose (forward loc).1 (forward loc).2 remote (calls loc) with
          | (.error e, fw) => (.error e, fw)
          | (.ok (), fw) => exposeForwards forwards calls fw order

/-- `forwardHostVM(configuration, s)`: its error, and the forwarder when it
returns. With the failure `panicked` it does not: `New` panics. -/
def forwardHostVM (forwards : GoMap String String) (calls : String → Calls)
    (order : List String) : Except Failure Unit × PortsForwarder :=
  exposeForwards forwards calls newPortsForwarder order

/-- The table that the entries of some locals ask for. -/
def configured (forwards : GoMap String String) (locals : List String) : Table := fun pair =>
  (locals.find? (fun loc => forward loc = pair)).bind forwards.lookup

/-- The address of one entry is the key of another. -/
def Clash (earlier later : String) : Prop :=
  (forward later).2 = key (forward earlier).1 (forward earlier).2

/-! ## Entries and pairs -/

/-- An entry for UDP is its pair's address after "udp:". -/
theorem toList_of_forward_udp {loc : String} (h : (forward loc).1 = UDP) :
    loc.toList = "udp:".toList ++ (forward loc).2.toList := by
  unfold forward at h ⊢
  split at h
  · next hudp =>
    obtain ⟨rest, hrest⟩ := List.isPrefixOf_iff_prefix.mp hudp
    rw [if_pos hudp, ServeMux.trimPrefix, if_pos hudp, ← hrest, List.drop_left]
    show _ = "udp:".toList ++ (String.ofList rest).toList
    exact congrArg _ String.toList_ofList.symm
  · exact absurd h (by simp [TCP, UDP])

theorem of_forward_tcp {loc : String} (h : (forward loc).1 = TCP) : (forward loc).2 = loc := by
  unfold forward at h ⊢
  split at h
  · exact absurd h (by simp [TCP, UDP])
  · next hudp => rw [if_neg hudp]

theorem forward_protocol (loc : String) : (forward loc).1 = UDP ∨ (forward loc).1 = TCP := by
  unfold forward
  split
  · exact Or.inl rfl
  · exact Or.inr rfl

/-- No two entries stand for one pair. -/
theorem forward_injective : Function.Injective forward := by
  intro a b h
  rcases forward_protocol a with hp | hp
  · have hb : (forward b).1 = UDP := h ▸ hp
    apply String.toList_inj.mp
    rw [toList_of_forward_udp hp, toList_of_forward_udp hb, h]
  · have hb : (forward b).1 = TCP := h ▸ hp
    rw [← of_forward_tcp hp, ← of_forward_tcp hb, h]

theorem forward_no_slash (loc : String) : '/' ∉ (forward loc).1.toList := by
  rcases forward_protocol loc with h | h <;> rw [h] <;> decide

/-- So no two entries have one key. -/
theorem forward_key_inj {a b : String}
    (h : key (forward a).1 (forward a).2 = key (forward b).1 (forward b).2) : a = b := by
  obtain ⟨hprotocol, hlocal⟩ := key_inj (forward_no_slash a) (forward_no_slash b) h
  exact forward_injective (Prod.ext hprotocol hlocal)

variable {forwards : GoMap String String} {calls : String → Calls} {order done : List String}
  {fw fw' : PortsForwarder} {loc remote : String} {e : Failure}

theorem configured_eq_some {pair : TransportProtocol × String} :
    configured forwards done pair = some remote ↔
      ∃ loc ∈ done, forward loc = pair ∧ forwards.lookup loc = some remote := by
  unfold configured
  constructor
  · intro h
    obtain ⟨loc, hloc, hremote⟩ := Option.bind_eq_some_iff.mp h
    exact ⟨loc, List.mem_of_find?_eq_some hloc, by simpa using List.find?_some hloc, hremote⟩
  · rintro ⟨loc, hmem, rfl, hremote⟩
    cases hfind : done.find? (fun loc' => forward loc' = forward loc) with
    | none =>
      have hnot := List.find?_eq_none.mp hfind loc hmem
      simp at hnot
    | some loc' =>
      have heq : loc' = loc := forward_injective (by simpa using List.find?_some hfind)
      rw [heq]
      exact hremote

theorem configured_append (hremote : forwards.lookup loc = some remote) :
    configured forwards (done ++ [loc]) =
      Function.update (configured forwards done) (forward loc) (some remote) := by
  funext pair
  by_cases hpair : pair = forward loc
  · subst hpair
    rw [Function.update_self]
    exact configured_eq_some.mpr ⟨loc, by simp, rfl, hremote⟩
  · rw [Function.update_of_ne hpair]
    unfold configured
    rw [List.find?_append]
    have hnot : [loc].find? (fun loc => forward loc = pair) = none := by
      simp [Ne.symm hpair]
    rw [hnot, Option.or_none]

/-! ## The loop -/

/-- What holds when the entries `done` have been exposed. -/
structure Exposed (forwards : GoMap String String) (calls : String → Calls)
    (done : List String) (fw : PortsForwarder) : Prop where
  reached : ∃ cs, fw = after cs
  table : tableOf fw = configured forwards done
  listeners : OneToOne fw
  accepted : ∀ loc ∈ done, ∀ remote, forwards.lookup loc = some remote →
    Forwarder.Accepted (forward loc).1 remote (calls loc)
  apart : done.Pairwise (fun earlier later => ¬ Clash earlier later)

theorem Exposed.stored (h : Exposed forwards calls done fw) : Stored fw := by
  obtain ⟨cs, rfl⟩ := h.reached
  exact stored_after cs

theorem Exposed.represents (h : Exposed forwards calls done fw) :
    Represents fw (configured forwards done) := by
  rw [← h.table]
  exact h.stored.represents

/-- The keys of the forwarder are those of the entries done. -/
theorem Exposed.mem_iff (h : Exposed forwards calls done fw)
    (hdone : ∀ loc ∈ done, loc ∈ forwards) (text : String) :
    text ∈ fw.proxies ↔ ∃ loc ∈ done, text = key (forward loc).1 (forward loc).2 := by
  rw [← h.represents.named_iff h.stored]
  constructor
  · rintro ⟨protocol, localAddr, ⟨remote, hpresent⟩, rfl⟩
    obtain ⟨loc, hloc, hpair, -⟩ := configured_eq_some.mp hpresent
    exact ⟨loc, hloc, by rw [hpair]⟩
  · rintro ⟨loc, hloc, rfl⟩
    obtain ⟨remote, hremote⟩ := (GoMap.mem_iff_lookup _ _).mp (hdone loc hloc)
    exact ⟨_, _, ⟨remote, configured_eq_some.mpr ⟨loc, hloc, rfl, hremote⟩⟩, rfl⟩

theorem exposed_nil : Exposed forwards calls [] newPortsForwarder where
  reached := ⟨[], rfl⟩
  table := by
    funext pair
    simp [tableOf, newPortsForwarder, configured]
  listeners := oneToOne_new
  accepted := by simp
  apart := List.Pairwise.nil

/-- One entry that is accepted and whose address is no key. -/
theorem Exposed.expose (h : Exposed forwards calls done fw)
    (hdone : ∀ loc ∈ done, loc ∈ forwards) (hloc : loc ∉ done)
    (hremote : forwards.lookup loc = some remote)
    (haccepted : Forwarder.Accepted (forward loc).1 remote (calls loc))
    (hclear : (forward loc).2 ∉ fw.proxies) :
    ∃ fw', fw.expose (forward loc).1 (forward loc).2 remote (calls loc) = (.ok (), fw') ∧
      Exposed forwards calls (done ++ [loc]) fw' := by
  obtain ⟨dial, hexpose⟩ := expose_accepted hclear haccepted
  -- the key is free, since entries have keys of their own
  have hkey : key (forward loc).1 (forward loc).2 ∉ fw.proxies := by
    intro hmem
    obtain ⟨loc', hloc', heq⟩ := (h.mem_iff hdone _).mp hmem
    exact hloc (forward_key_inj heq ▸ hloc')
  refine ⟨_, hexpose, ?_, ?_, ?_, ?_, ?_⟩
  · obtain ⟨cs, rfl⟩ := h.reached
    refine ⟨cs ++ [.expose (forward loc).1 (forward loc).2 remote (calls loc)], ?_⟩
    rw [after_append, PortsForwarder.apply, hexpose]
  · rw [tableOf_store hkey, h.table, configured_append hremote]
  · obtain ⟨cs, rfl⟩ := h.reached
    exact h.listeners.store (listening_lt_opened cs) hkey dial
  · intro loc' hloc' remote' hremote'
    rcases List.mem_append.mp hloc' with hloc' | hloc'
    · exact h.accepted loc' hloc' remote' hremote'
    · obtain rfl := List.mem_singleton.mp hloc'
      rw [hremote] at hremote'
      exact Option.some.inj hremote' ▸ haccepted
  · refine List.pairwise_append.mpr ⟨h.apart, List.pairwise_singleton _ _, ?_⟩
    intro earlier hearlier later hlater hclash
    obtain rfl := List.mem_singleton.mp hlater
    exact hclear ((h.mem_iff hdone _).mpr ⟨earlier, hearlier, hclash⟩)

/-- Where the loop stops, and why. -/
inductive Ends (forwards : GoMap String String) (calls : String → Calls) (order : List String) :
    Except Failure Unit → List String → Prop where
  | all : Ends forwards calls order (.ok ()) order
  | refused {done rest : List String} {loc remote : String} (e : Failure)
      (horder : order = done ++ loc :: rest) (hremote : forwards.lookup loc = some remote)
      (h : (∃ earlier ∈ done, Clash earlier loc) ∨
        ¬ Forwarder.Accepted (forward loc).1 remote (calls loc)) :
      Ends forwards calls order (.error e) done

/-- The loop, from the entries done so far. -/
theorem Exposed.run (hall : ∀ loc ∈ order, loc ∈ forwards) (hnodup : order.Nodup) :
    ∀ (rest done : List String) (fw : PortsForwarder), order = done ++ rest →
      Exposed forwards calls done fw →
      ∃ exposed, Ends forwards calls order (exposeForwards forwards calls fw rest).1 exposed ∧
        Exposed forwards calls exposed (exposeForwards forwards calls fw rest).2 := by
  intro rest
  induction rest with
  | nil =>
    intro done fw horder h
    rw [List.append_nil] at horder
    subst horder
    exact ⟨order, .all, h⟩
  | cons loc rest ih =>
    intro done fw horder h
    have hdone : ∀ loc ∈ done, loc ∈ forwards := fun loc hloc =>
      hall loc (horder ▸ List.mem_append_left _ hloc)
    have hloc : loc ∉ done := fun hmem =>
      (List.nodup_append.mp (horder ▸ hnodup)).2.2 loc hmem loc (by simp) rfl
    obtain ⟨remote, hremote⟩ :=
      (GoMap.mem_iff_lookup _ _).mp (hall loc (by simp [horder]))
    simp only [exposeForwards, hremote]
    by_cases hrefused : (forward loc).2 ∈ fw.proxies ∨
        ¬ Forwarder.Accepted (forward loc).1 remote (calls loc)
    · obtain ⟨e, hexpose⟩ := expose_refused hrefused
      rw [hexpose]
      refine ⟨done, .refused e horder hremote (hrefused.imp_left ?_), h⟩
      exact fun hmem => (h.mem_iff hdone _).mp hmem
    · rw [not_or, not_not] at hrefused
      obtain ⟨fw', hexpose, h'⟩ := h.expose hdone hloc hremote hrefused.2 hrefused.1
      rw [hexpose]
      exact ih (done ++ [loc]) fw' (by simp [horder]) h'

/-- An entry that stops the loop is not accepted, or clashes with an earlier
one. -/
theorem Ends.not_both {exposed : List String}
    (h : Ends forwards calls order (.error e) exposed) :
    ¬ ((∀ loc ∈ order, ∀ remote, forwards.lookup loc = some remote →
          Forwarder.Accepted (forward loc).1 remote (calls loc)) ∧
        order.Pairwise (fun earlier later => ¬ Clash earlier later)) := by
  rintro ⟨haccepted, hapart⟩
  cases h with
  | refused _ horder hremote h =>
    subst horder
    rcases h with ⟨earlier, hearlier, hclash⟩ | hnot
    · exact (List.pairwise_append.mp hapart).2.2 earlier hearlier _ (by simp) hclash
    · exact hnot (haccepted _ (by simp) _ hremote)

/-- **In whatever order the loop ranges over the configuration and whatever
the host answers: `forwardHostVM` succeeds exactly if every entry is accepted
and none has the key of an earlier one for its address. The forwarder then
stands for the configuration, entry by entry; after an error it stands for the
entries before the one that failed, and each of these has its listener open.** -/
theorem forwardHostVM_exposes (forwards : GoMap String String) (calls : String → Calls)
    (order : List String) (horder : forwards.RangeOrder order) :
    ((forwardHostVM forwards calls order).1 = .ok () ↔
      (∀ loc remote, forwards.lookup loc = some remote →
        Forwarder.Accepted (forward loc).1 remote (calls loc)) ∧
      order.Pairwise (fun earlier later => ¬ Clash earlier later)) ∧
    ∃ exposed, Ends forwards calls order (forwardHostVM forwards calls order).1 exposed ∧
      Represents (forwardHostVM forwards calls order).2 (configured forwards exposed) ∧
      OneToOne (forwardHostVM forwards calls order).2 := by
  have hall : ∀ loc ∈ order, loc ∈ forwards := fun loc hloc =>
    AList.mem_keys.mp (horder.mem_iff.mp hloc)
  have hnodup : order.Nodup := horder.nodup_iff.mpr forwards.nodupKeys
  obtain ⟨exposed, hends, h⟩ :=
    Exposed.run hall hnodup order [] newPortsForwarder rfl (exposed_nil : Exposed _ calls _ _)
  refine ⟨?_, exposed, hends, h.represents, h.listeners⟩
  constructor
  · intro hok
    rw [forwardHostVM] at hok
    rw [hok] at hends
    cases hends
    exact ⟨fun loc remote hremote =>
      h.accepted loc (GoMap.mem_of_rangeOrder horder hremote) remote hremote, h.apart⟩
  · rintro ⟨haccepted, hapart⟩
    change (exposeForwards forwards calls newPortsForwarder order).1 = .ok ()
    cases hresult : (exposeForwards forwards calls newPortsForwarder order).1 with
    | ok u => rfl
    | error e =>
      rw [hresult] at hends
      exact absurd ⟨fun loc _ => haccepted loc, hapart⟩ hends.not_both

/-- Calls of a host that refuses nothing. -/
def granted : Calls := ⟨.error "", none, none, none, none⟩

/-- The ssh port that `gvproxy` forwards, and one of UDP. -/
def sshAndDNS : GoMap String String :=
  (GoMap.single "127.0.0.1:2222" "192.168.127.2:22").insert "udp::5353" "192.168.127.2:53"

/-- Both are exposed, whichever comes first. -/
theorem forwardHostVM_exposes_both :
    (forwardHostVM sshAndDNS (fun _ => granted) ["127.0.0.1:2222", "udp::5353"]).1 = .ok () ∧
    configured sshAndDNS ["127.0.0.1:2222", "udp::5353"] (UDP, ":5353") =
      some "192.168.127.2:53" ∧
    ∃ exposed, Ends sshAndDNS (fun _ => granted) ["udp::5353", "127.0.0.1:2222"]
        (forwardHostVM sshAndDNS (fun _ => granted) ["udp::5353", "127.0.0.1:2222"]).1 exposed ∧
      Represents
        (forwardHostVM sshAndDNS (fun _ => granted) ["udp::5353", "127.0.0.1:2222"]).2
        (configured sshAndDNS exposed) ∧
      OneToOne (forwardHostVM sshAndDNS (fun _ => granted) ["udp::5353", "127.0.0.1:2222"]).2 :=
  ⟨by decide +kernel, by decide +kernel,
    (forwardHostVM_exposes _ _ _ (by decide +kernel)).2⟩

end GvisorTapVsock.VirtualNetwork
