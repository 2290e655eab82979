/-
GvisorTapVsock.Services.DhcpTheorems — which address a client is offered, over
every run of the server.

The table only grows (`IPPool.Extends`), so a reply carries an address the
client's MAC was reserved by `New`, or a host address of the subnet that `New`
left free. `Reserved` says in terms of the configuration what `New` reserves
for whom, and the results about addresses are read off from it:

* `unanswered_keeps_leases_iff` — the table after a message without a reply.
  The lease is made before the message type is looked at.
* `own_address_not_offered_iff` — the gateway's own addresses. The virtual ones
  are not reserved, so one is offered as soon as all host addresses before it
  are leased, and whoever presents the gateway's MAC is offered the gateway's
  address.
* `staticLeases_served_iff` — the static leases. The MAC of a lease is compared
  as TEXT with the lower-case colon form of the client's address, so a lease
  is served exactly if it is written in that form.
-/
import GvisorTapVsock.Tap.IPPoolTheorems
import GvisorTapVsock.Services.Dhcp

namespace GvisorTapVsock.Services.Dhcp

open GvisorTapVsock.Go
open GvisorTapVsock.Lts
open GvisorTapVsock.Tap
open GvisorTapVsock.VirtualNetwork

variable {c : Configuration} {order : List String} {ipPool : IPPool} {s : Server}

/-! ## What `New` reserves -/

/-- The configuration reserves the address for the text `mac`. -/
def Reserved (c : Configuration) (ip : IP) (mac : String) : Prop :=
  (∃ t, c.dhcpStaticLeases.lookup t = some mac ∧ parseIP t = ip) ∨
    mac = c.gatewayMacAddress ∧ ip = parseIP c.gatewayIP ∧
      ∀ t mac', c.dhcpStaticLeases.lookup t = some mac' → parseIP t ≠ ip

theorem mem_staticReservations (horder : c.dhcpStaticLeases.RangeOrder order) {r : IP × String} :
    r ∈ staticReservations c order ↔
      ∃ t, c.dhcpStaticLeases.lookup t = some r.2 ∧ parseIP t = r.1 := by
  constructor
  · intro h
    obtain ⟨t, -, ht⟩ := List.mem_filterMap.mp h
    obtain ⟨mac, hmac, rfl⟩ := Option.map_eq_some_iff.mp ht
    exact ⟨t, hmac, rfl⟩
  · rintro ⟨t, hmac, hip⟩
    have hmem : t ∈ order :=
      horder.mem_iff.mpr (AList.mem_keys.mpr ((GoMap.mem_iff_lookup _ t).mpr ⟨r.2, hmac⟩))
    exact List.mem_filterMap.mpr ⟨t, hmem, by simp [hmac, hip]⟩

/-- What a successful `New` has checked and built. -/
theorem new_eq_ok (hnew : new c order = .ok ipPool) :
    ∃ base, parseCIDR c.subnet = some base ∧
      (∃ hw, parseMAC c.gatewayMacAddress = some hw) ∧
      (∃ v, (parseIP c.gatewayIP).to4 = some v) ∧
      ipPool = ((newIPPool base).reserve (parseIP c.gatewayIP) c.gatewayMacAddress).reserveAll
        (staticReservations c order) := by
  unfold new at hnew
  split at hnew
  · exact absurd hnew (by simp)
  · next base hbase =>
    split at hnew
    · exact absurd hnew (by simp)
    · next hw hhw =>
      split at hnew
      · exact absurd hnew (by simp)
      · next v hv => exact ⟨base, hbase, ⟨hw, hhw⟩, ⟨v, hv⟩, (Except.ok.inj hnew).symm⟩

section Pool

variable (horder : c.dhcpStaticLeases.RangeOrder order) (hnew : new c order = .ok ipPool)

include horder hnew

/-- A lease of the new pool is of a text in normal form, and reserved. -/
theorem reserved_of_lookup {k v : String} (hk : ipPool.leases.lookup k = some v) :
    (parseIP k).string = k ∧ Reserved c (parseIP k) v := by
  obtain ⟨base, -, -, -, rfl⟩ := new_eq_ok hnew
  obtain ⟨hlast, hnone⟩ := IPPool.lookup_reserveAll (staticReservations c order)
    ((newIPPool base).reserve (parseIP c.gatewayIP) c.gatewayMacAddress) k
  by_cases hstatic : ∃ r ∈ staticReservations c order, r.1.string = k
  · obtain ⟨r, hr, hrk, hlookup⟩ := hlast hstatic
    obtain ⟨t, ht, htr⟩ := (mem_staticReservations horder).mp hr
    rw [hk, Option.some.injEq] at hlookup
    have hparse : parseIP k = parseIP t := by rw [← hrk, ← htr, parseIP_string_parseIP]
    rw [hparse, htr]
    exact ⟨hrk, Or.inl ⟨t, by rw [ht, hlookup], htr⟩⟩
  · -- the gateway's reservation is the only other one
    have hgw := hnone (fun r hr hrk => hstatic ⟨r, hr, hrk⟩)
    rw [hk, IPPool.reserve, GoMap.lookup_insert_eq] at hgw
    split at hgw
    · next hkey =>
      rw [Option.some.injEq] at hgw
      have hparse : parseIP k = parseIP c.gatewayIP := by rw [hkey, parseIP_string_parseIP]
      rw [hparse]
      refine ⟨hkey.symm, Or.inr ⟨hgw, rfl, fun t mac ht hip => hstatic ?_⟩⟩
      exact ⟨(parseIP t, mac), (mem_staticReservations horder).mpr ⟨t, ht, rfl⟩,
        by rw [hip, hkey]⟩
    · simp [newIPPool] at hgw

/-- Every static lease is of a text in the table. -/
theorem static_mem {t mac : String} (ht : c.dhcpStaticLeases.lookup t = some mac) :
    ∃ v, ipPool.leases.lookup (parseIP t).string = some v := by
  obtain ⟨base, -, -, -, rfl⟩ := new_eq_ok hnew
  obtain ⟨hlast, -⟩ := IPPool.lookup_reserveAll (staticReservations c order)
    ((newIPPool base).reserve (parseIP c.gatewayIP) c.gatewayMacAddress) (parseIP t).string
  obtain ⟨r, -, -, hlookup⟩ := hlast ⟨(parseIP t, mac),
    (mem_staticReservations horder).mpr ⟨t, ht, rfl⟩, rfl⟩
  exact ⟨r.2, hlookup⟩

end Pool

theorem base_reserveAll (reservations : List (IP × String)) :
    ∀ p : IPPool, (p.reserveAll reservations).base = p.base
      ∧ (p.reserveAll reservations).count = p.count := by
  induction reservations with
  | nil => exact fun p => ⟨rfl, rfl⟩
  | cons r reservations ih => exact fun p => ih (p.reserve r.1 r.2)

theorem new_base (hnew : new c order = .ok ipPool) {base : IPNet}
    (hbase : parseCIDR c.subnet = some base) :
    ipPool.base = base ∧ ipPool.count = addressCount base := by
  obtain ⟨base', hbase', -, -, rfl⟩ := new_eq_ok hnew
  rw [hbase, Option.some.injEq] at hbase'
  subst hbase'
  exact base_reserveAll _ _

/-! ## The handler -/

section Handler

variable {p : IPPool} {m : Message}

theorem handler_pool :
    (handler c p order m).2 = (p.getOrAssign order m.clientHWAddr.string).2 := by
  unfold handler
  split
  · next hget => rw [hget]
  · next hget =>
    rw [hget]
    split
    · rfl
    · split
      · rfl
      · split <;> rfl

/-- How the handler ends, by what `GetOrAssign` and `ToBytes` did. -/
inductive Handled (p : IPPool) (order : List String) (m : Message) : Outcome → Prop where
  | logged (e : HandlerError) : Handled p order m (.logged e)
  | panicked {a : IP} {e : Panic}
      (hget : (p.getOrAssign order m.clientHWAddr.string).1 = some a)
      (hwrite : writeIP a = .error e) : Handled p order m (.panicked e)
  | replied {a : IP} {r : Reply}
      (hget : (p.getOrAssign order m.clientHWAddr.string).1 = some a)
      (hwrite : writeIP a = .ok r.yourIPAddr) : Handled p order m (.replied r)

theorem handler_handled : Handled p order m (handler c p order m).1 := by
  unfold handler
  split
  · exact .logged _
  · next a _ hget =>
    split
    · exact .logged _
    · split
      · exact .logged _
      · split
        · next hwrite => exact .panicked (by rw [hget]) hwrite
        · next hwrite => exact .replied (by rw [hget]) hwrite

/-- The address of a reply is the one `GetOrAssign` returned. -/
theorem handler_replied {r : Reply} (h : (handler c p order m).1 = .replied r) :
    ∃ a, (p.getOrAssign order m.clientHWAddr.string).1 = some a
      ∧ writeIP a = .ok r.yourIPAddr := by
  have hhandled : Handled p order m (.replied r) := h ▸ handler_handled
  cases hhandled with
  | replied hget hwrite => exact ⟨_, hget, hwrite⟩

/-- The handler panics in `ToBytes` only. -/
theorem handler_panicked {e : Panic} (h : (handler c p order m).1 = .panicked e) :
    ∃ a, (p.getOrAssign order m.clientHWAddr.string).1 = some a ∧ writeIP a = .error e := by
  have hhandled : Handled p order m (.panicked e) := h ▸ handler_handled
  cases hhandled with
  | panicked hget hwrite => exact ⟨_, hget, hwrite⟩

/-- A message of the two types, with an address that can be written. -/
theorem handler_of_getOrAssign {a : IP} {p' : IPPool} {base : IPNet} {mt : UInt8}
    (hget : p.getOrAssign order m.clientHWAddr.string = (some a, p'))
    (hbase : parseCIDR c.subnet = some base) (hmt : replyType m.messageType = some mt) :
    match writeIP a with
    | .ok v => ∃ r, (handler c p order m).1 = .replied r ∧ r.yourIPAddr = v
    | .error e => (handler c p order m).1 = .panicked e := by
  unfold handler
  rw [hget]
  simp only [hbase, hmt]
  cases writeIP a with
  | ok v => exact ⟨_, rfl, rfl⟩
  | error e => rfl

/-- When the handler replies. -/
theorem handler_replied_iff :
    (∃ r, (handler c p order m).1 = .replied r) ↔
      (∃ a v, (p.getOrAssign order m.clientHWAddr.string).1 = some a ∧ writeIP a = .ok v) ∧
        (∃ base, parseCIDR c.subnet = some base) ∧ ∃ mt, replyType m.messageType = some mt := by
  unfold handler
  constructor
  · rintro ⟨r, hr⟩
    split at hr
    · simp at hr
    · next a _ hget =>
      split at hr
      · simp at hr
      · next base hbase =>
        split at hr
        · simp at hr
        · next mt hmt =>
          split at hr
          · simp at hr
          · next v hwrite => exact ⟨⟨a, v, by rw [hget], hwrite⟩, ⟨base, hbase⟩, mt, hmt⟩
  · rintro ⟨⟨a, v, hget, hwrite⟩, ⟨base, hbase⟩, mt, hmt⟩
    split
    · next hnone =>
      rw [hnone] at hget
      simp at hget
    · next a' _ hget' =>
      rw [hget', Option.some.injEq] at hget
      subst hget
      simp only [hbase, hmt, hwrite]
      exact ⟨_, rfl⟩

theorem writeIP_eq_ok {a v : IP} (ha : a ≠ []) : writeIP a = .ok v ↔ a.to4 = some v := by
  unfold writeIP
  rw [if_neg ha]
  cases a.to4 <;> simp

theorem replyType_eq_some_iff {mt : UInt8} :
    (∃ mt', replyType mt = some mt') ↔ mt = messageTypeDiscover ∨ mt = messageTypeRequest := by
  unfold replyType
  split
  · next h => simp [h]
  · next hne => split <;> simp_all

/-- A host address can be written exactly if it is IPv4. -/
theorem ne_nil_of_host {base : IPNet} {i : Nat} {ip : IP} (h : host base i = some ip) :
    ip ≠ [] := by
  rintro rfl
  have hlen := length_of_host h
  have hbase := base.length_ip
  rw [← hlen] at hbase
  simp at hbase

theorem writeIP_of_host {base : IPNet} {i : Nat} {ip : IP} (h : host base i = some ip) :
    (∃ v, writeIP ip = .ok v) ↔ ∃ v, ip.to4 = some v :=
  exists_congr (fun _ => writeIP_eq_ok (ne_nil_of_host h))

end Handler

/-! ## Messages without a reply -/

section Unanswered

variable {p : IPPool} {m : Message}

/-- The table changes exactly if the client holds no lease and an address is
free. -/
theorem handler_leases_eq_iff (horder : p.leases.RangeOrder order) :
    (handler c p order m).2.leases = p.leases ↔
      (∃ k, p.leases.lookup k = some m.clientHWAddr.string) ∨ ∀ ip, ¬ p.FirstFree ip := by
  rw [handler_pool]
  by_cases hheld : ∃ k, p.leases.lookup k = some m.clientHWAddr.string
  · obtain ⟨k, hk⟩ := hheld
    rw [IPPool.getOrAssign_of_held horder hk]
    exact ⟨fun _ => Or.inl ⟨k, hk⟩, fun _ => rfl⟩
  · have hnone := not_exists.mp hheld
    rcases IPPool.getOrAssign_of_not_held horder hnone with ⟨ip, hfirst, hget⟩ | ⟨hfull, hget⟩
    · rw [hget]
      refine ⟨fun heq => ?_, fun h => ?_⟩
      · have hnew : p.leases.lookup ip.string = some m.clientHWAddr.string := by
          rw [← heq]
          exact AList.lookup_insert _
        exact absurd hnew (hnone _)
      · exact absurd hfirst (h.resolve_left hheld ip)
    · rw [hget]
      exact ⟨fun _ => Or.inr hfull, fun _ => rfl⟩

/-- A client without a lease is answered exactly if its message is of the two
types, the subnet parses and the first free address is IPv4. -/
theorem handler_replied_iff_of_not_held (horder : p.leases.RangeOrder order)
    (hnone : ∀ k, p.leases.lookup k ≠ some m.clientHWAddr.string) :
    (∃ r, (handler c p order m).1 = .replied r) ↔
      (m.messageType = messageTypeDiscover ∨ m.messageType = messageTypeRequest) ∧
        (∃ base, parseCIDR c.subnet = some base) ∧
        ∃ ip v, p.FirstFree ip ∧ ip.to4 = some v := by
  rw [handler_replied_iff, ← replyType_eq_some_iff]
  rcases IPPool.getOrAssign_of_not_held horder hnone with ⟨ip, hfirst, hget⟩ | ⟨hfull, hget⟩
  · rw [hget]
    have hwrite : (∃ v, writeIP ip = .ok v) ↔ ∃ v, ip.to4 = some v := by
      obtain ⟨i, -, -, hhost, -⟩ := hfirst
      exact writeIP_of_host hhost
    constructor
    · rintro ⟨⟨a, v, ha, hv⟩, hbase, hmt⟩
      rw [← Option.some.inj ha] at hv
      obtain ⟨w, hw⟩ := hwrite.mp ⟨v, hv⟩
      exact ⟨hmt, hbase, ip, w, hfirst, hw⟩
    · rintro ⟨hmt, hbase, ip', v, hfirst', hv⟩
      rw [hfirst'.unique hfirst] at hv
      obtain ⟨w, hw⟩ := hwrite.mpr ⟨v, hv⟩
      exact ⟨⟨ip, w, rfl, hw⟩, hbase, hmt⟩
  · rw [hget]
    constructor
    · rintro ⟨⟨a, v, ha, -⟩, -⟩
      simp at ha
    · rintro ⟨-, -, ip, -, hfirst, -⟩
      exact absurd hfirst (hfull ip)

/-- **A message that gets no reply leaves the table as it was** exactly if its
client holds a lease, or no address is free, or the message is one that gets a
reply: a DISCOVER or REQUEST, in a subnet that parses, whose first free address
is IPv4. -/
theorem unanswered_keeps_leases_iff (c : Configuration) (p : IPPool) (order : List String)
    (horder : p.leases.RangeOrder order) (m : Message) :
    ((∀ r, (handler c p order m).1 ≠ .replied r) → (handler c p order m).2.leases = p.leases) ↔
      (∃ k, p.leases.lookup k = some m.clientHWAddr.string) ∨
      (∀ ip, ¬ p.FirstFree ip) ∨
      ((m.messageType = messageTypeDiscover ∨ m.messageType = messageTypeRequest) ∧
        (∃ base, parseCIDR c.subnet = some base) ∧
        ∃ ip v, p.FirstFree ip ∧ ip.to4 = some v) := by
  rw [handler_leases_eq_iff horder, ← not_exists]
  by_cases hheld : ∃ k, p.leases.lookup k = some m.clientHWAddr.string
  · exact ⟨fun _ => Or.inl hheld, fun _ _ => Or.inl hheld⟩
  · rw [handler_replied_iff_of_not_held horder (not_exists.mp hheld)]
    constructor
    · intro himp
      by_cases hanswered : (m.messageType = messageTypeDiscover ∨
          m.messageType = messageTypeRequest) ∧ (∃ base, parseCIDR c.subnet = some base) ∧
          ∃ ip v, p.FirstFree ip ∧ ip.to4 = some v
      · exact Or.inr (Or.inr hanswered)
      · exact (himp hanswered).imp_right Or.inl
    · rintro (h | hfull | hanswered) hno
      · exact Or.inl h
      · exact Or.inr hfull
      · exact absurd hanswered hno

/-- The pool of gvproxy, and the order in which a range visits it. -/
theorem gvproxy_pool (P : IPPool → Prop) [DecidablePred P]
    (h : (new gvproxyConfiguration ["192.168.127.2"]).toOption.any (fun p => decide (P p)) = true) :
    ∃ p, new gvproxyConfiguration ["192.168.127.2"] = .ok p ∧ P p := by
  cases hnew : new gvproxyConfiguration ["192.168.127.2"] with
  | error e => simp [hnew, Except.toOption] at h
  | ok p => exact ⟨p, rfl, by simpa [hnew, Except.toOption] using h⟩

/-- A RELEASE of the client that has the static lease. -/
theorem unanswered_keeps_static :
    ∃ p, new gvproxyConfiguration ["192.168.127.2"] = .ok p ∧
      (handler gvproxyConfiguration p ["192.168.127.2", "192.168.127.1"]
        ⟨[0x5a, 0x94, 0xef, 0xe4, 0x0c, 0xee], 7, by decide⟩).2.leases = p.leases := by
  obtain ⟨p, hnew, horder, hlookup, hlogged⟩ := gvproxy_pool
    (fun p => p.leases.RangeOrder ["192.168.127.2", "192.168.127.1"] ∧
      p.leases.lookup "192.168.127.2" = some "5a:94:ef:e4:0c:ee" ∧
      (handler gvproxyConfiguration p ["192.168.127.2", "192.168.127.1"]
        ⟨[0x5a, 0x94, 0xef, 0xe4, 0x0c, 0xee], 7, by decide⟩).1 = .logged (.messageType 7))
    (by decide +kernel)
  refine ⟨p, hnew, (unanswered_keeps_leases_iff _ p _ horder _).mpr (Or.inl ⟨_, hlookup⟩) ?_⟩
  rw [hlogged]
  simp

/-- A RELEASE of a client that never asked for an address takes one. -/
theorem release_takes_address :
    ∃ p, new gvproxyConfiguration ["192.168.127.2"] = .ok p ∧
      p.leases.RangeOrder ["192.168.127.2", "192.168.127.1"] ∧
      (handler gvproxyConfiguration p ["192.168.127.2", "192.168.127.1"]
        ⟨[0x5a, 0x94, 0xef, 0xe4, 0x0c, 0xff], 7, by decide⟩).1 = .logged (.messageType 7) ∧
      p.leases.lookup "192.168.127.3" = none ∧
      (handler gvproxyConfiguration p ["192.168.127.2", "192.168.127.1"]
        ⟨[0x5a, 0x94, 0xef, 0xe4, 0x0c, 0xff], 7, by decide⟩).2.leases.lookup "192.168.127.3"
          = some "5a:94:ef:e4:0c:ff" :=
  gvproxy_pool _ (by decide +kernel)

end Unanswered

/-! ## Runs -/

theorem serve_pool (order : List String) (m : Message) :
    (s.serve c order m).2.ipPool = s.ipPool ∨
      (s.serve c order m).2.ipPool = (s.ipPool.getOrAssign order m.clientHWAddr.string).2 := by
  unfold Server.serve
  split
  · exact Or.inl rfl
  · refine Or.inr ?_
    rw [← handler_pool]
    split <;> next hh => rw [hh]

/-- The table of a running server has grown from the one `New` built. -/
theorem extends_of_run {ok : Server → ServerEvent → Prop}
    (hrun : Run (serverStep c) ok (.start ipPool) s) : IPPool.Extends ipPool s.ipPool := by
  induction hrun with
  | refl => exact IPPool.Extends.refl _
  | step e run _ hs ih =>
    cases e with
    | received m order =>
      simp only [serverStep] at hs
      split at hs
      · next horder =>
        rw [← Option.some.inj hs]
        rcases serve_pool order m with hsame | hnext
        · rw [hsame]
          exact ih
        · rw [hnext]
          exact ih.assigned (IPPool.getOrAssign_assigned horder _)
      · exact absurd hs (by simp)
    | exit =>
      simp only [serverStep] at hs
      split at hs
      · rw [← Option.some.inj hs]
        exact ih
      · exact absurd hs (by simp)

theorem serve_replied {order : List String} {m : Message} {r : Reply}
    (h : (s.serve c order m).1 = some (.replied r)) :
    (handler c s.ipPool order m).1 = .replied r := by
  unfold Server.serve at h
  split at h
  · exact absurd h (by simp)
  · split at h
    · exact absurd (Option.some.inj h) (by simp)
    · next hh =>
      rw [hh]
      exact Option.some.inj h

/-- **Where the address of a reply comes from**, in every state of a run: the
MAC had it from the start, or it is a host address nobody had then. -/
theorem address_of_reply {ok : Server → ServerEvent → Prop}
    (hrun : Run (serverStep c) ok (.start ipPool) s) {order : List String}
    (horder : s.ipPool.leases.RangeOrder order) {m : Message} {r : Reply}
    (h : (s.serve c order m).1 = some (.replied r)) :
    (∃ k, ipPool.leases.lookup k = some m.clientHWAddr.string
        ∧ writeIP (parseIP k) = .ok r.yourIPAddr) ∨
      ∃ i ip, 1 ≤ i ∧ i < ipPool.count ∧ host ipPool.base i = some ip
        ∧ ip.string ∉ ipPool.leases ∧ ip.to4 = some r.yourIPAddr := by
  obtain ⟨a, hget, hwrite⟩ := handler_replied (serve_replied h)
  have hassigned := IPPool.getOrAssign_assigned horder m.clientHWAddr.string
  rw [hget] at hassigned
  rcases (extends_of_run hrun).address hassigned with ⟨k, hk, rfl⟩ |
    ⟨-, i, ip, hpos, hlt, hhost, hfree, ha⟩
  · exact Or.inl ⟨k, hk, hwrite⟩
  · refine Or.inr ⟨i, ip, hpos, hlt, hhost, hfree, ?_⟩
    obtain ⟨x, hx⟩ := to16_of_host hhost
    obtain ⟨hxlen, hiplen⟩ := length_of_to16 hx
    rcases ha with rfl | rfl
    · exact (writeIP_eq_ok (by rintro rfl; simp at hiplen)).mp hwrite
    · rw [parseIP_string hx] at hwrite
      rw [← to4_of_to16 hx]
      exact (writeIP_eq_ok (by rintro rfl; simp at hxlen)).mp hwrite

/-! ## The gateway's own addresses -/

/-- The IPv4 addresses the gateway answers for. -/
def ownAddresses (c : Configuration) : List IP :=
  (c.gatewayIP :: c.gatewayVirtualIPs).filterMap (fun t => (parseIP t).to4)

/-- A reply to the message may carry an own address, for some order in which its
handler ranges over the table. -/
def OffersOwn (c : Configuration) (s : Server) (m : Message) : Prop :=
  ∃ order r, s.ipPool.leases.RangeOrder order ∧
    (s.serve c order m).1 = some (.replied r) ∧ r.yourIPAddr ∈ ownAddresses c

/-- What the table must be like before a message of `mac`: no lease of `mac` is
for an own address, and if `mac` has no lease, each own address among the host
addresses is leased or has a free host address before it. -/
def KeepsOwn (c : Configuration) (p : IPPool) (mac : String) : Prop :=
  (∀ k, p.leases.lookup k = some mac → ∀ a ∈ ownAddresses c, writeIP (parseIP k) ≠ .ok a) ∧
    ((∀ k, p.leases.lookup k ≠ some mac) → ∀ i ip, 1 ≤ i → i < p.count →
      host p.base i = some ip → (∃ a ∈ ownAddresses c, ip.to4 = some a) →
        ip.string ∈ p.leases ∨
          ∃ l candidate, 1 ≤ l ∧ l < i ∧ host p.base l = some candidate ∧
            candidate.string ∉ p.leases)

/-- The first free address of a table that keeps the own addresses. -/
theorem KeepsOwn.firstFree {p : IPPool} {mac : String} (h : KeepsOwn c p mac)
    (hnone : ∀ k, p.leases.lookup k ≠ some mac) {ip : IP} (hfirst : p.FirstFree ip) :
    ∀ a ∈ ownAddresses c, ip.to4 ≠ some a := by
  intro a ha hto4
  obtain ⟨i, hpos, hlt, hhost, hfree, hbefore⟩ := hfirst
  rcases h.2 hnone i ip hpos hlt hhost ⟨a, ha, hto4⟩ with hmem | ⟨l, candidate, hl, hli, hc, hnot⟩
  · exact hfree hmem
  · exact hnot (hbefore l hl hli candidate hc)

/-- It is enough that the first free address is not an own one. -/
theorem keepsOwn_of_firstFree {p : IPPool} {mac : String} {ip : IP}
    (hnone : ∀ k, p.leases.lookup k ≠ some mac) (hfirst : p.FirstFree ip)
    (hother : ∀ a ∈ ownAddresses c, ip.to4 ≠ some a) : KeepsOwn c p mac := by
  refine ⟨fun k hk => absurd hk (hnone k), fun _ i ip' hpos hlt hhost hown => ?_⟩
  by_contra hnot
  have hfree : ip'.string ∉ p.leases := fun hmem => hnot (Or.inl hmem)
  have hfirst' : p.FirstFree ip' := by
    refine ⟨i, hpos, hlt, hhost, hfree, fun l hl hli candidate hc => ?_⟩
    by_contra hmem
    exact hnot (Or.inr ⟨l, candidate, hl, hli, hc, hmem⟩)
  obtain ⟨a, ha, hto4⟩ := hown
  rw [hfirst'.unique hfirst] at hto4
  exact hother a ha hto4

/-- An address that is handed out is written into the reply. -/
theorem offersOwn_of_getOrAssign {m : Message} {mt : UInt8} {base : IPNet} {order : List String}
    {ip v : IP} {p' : IPPool} (hrunning : s.exited = false)
    (hmt : replyType m.messageType = some mt) (hbase : parseCIDR c.subnet = some base)
    (horder : s.ipPool.leases.RangeOrder order)
    (hget : s.ipPool.getOrAssign order m.clientHWAddr.string = (some ip, p'))
    (hwrite : writeIP ip = .ok v) (hown : v ∈ ownAddresses c) : OffersOwn c s m := by
  have hreply := handler_of_getOrAssign hget hbase hmt
  rw [hwrite] at hreply
  obtain ⟨r, hr, hv⟩ := hreply
  refine ⟨order, r, horder, ?_, hv ▸ hown⟩
  rw [Server.serve, if_neg (by simp [hrunning])]
  generalize handler c s.ipPool order m = handled at hr
  obtain ⟨outcome, p⟩ := handled
  obtain rfl := hr
  rfl

/-- A table that keeps the own addresses offers none of them. -/
theorem KeepsOwn.not_offersOwn {m : Message} (h : KeepsOwn c s.ipPool m.clientHWAddr.string) :
    ¬ OffersOwn c s m := by
  rintro ⟨order, r, horder, hr, hown⟩
  obtain ⟨a, hget, hwrite⟩ := handler_replied (serve_replied hr)
  by_cases hheld : ∃ k, s.ipPool.leases.lookup k = some m.clientHWAddr.string
  · obtain ⟨k₀, hk₀⟩ := hheld
    have hassigned := IPPool.getOrAssign_assigned horder m.clientHWAddr.string
    rw [hget] at hassigned
    generalize (s.ipPool.getOrAssign order m.clientHWAddr.string).2 = p' at hassigned
    cases hassigned with
    | held hk => exact h.1 _ hk _ hown hwrite
    | fresh hnone => exact hnone k₀ hk₀
  · have hnone : ∀ k, s.ipPool.leases.lookup k ≠ some m.clientHWAddr.string :=
      fun k hk => hheld ⟨k, hk⟩
    rcases IPPool.getOrAssign_of_not_held horder hnone with ⟨ip, hfirst, hget'⟩ | ⟨-, hget'⟩
    · rw [hget'] at hget
      obtain rfl := Option.some.inj hget
      obtain ⟨i, -, -, hhost, -⟩ := id hfirst
      exact h.firstFree hnone hfirst _ hown ((writeIP_eq_ok (ne_nil_of_host hhost)).mp hwrite)
    · rw [hget'] at hget
      exact absurd hget nofun

/-- **When an own address is offered.** In every state of every run of the
server that `New` started, a message can be answered with an own address unless
the process has ended, the message is of a type that gets no reply, or the table
before the message keeps the own addresses from its client. -/
theorem own_address_not_offered_iff (c : Configuration) :
    ∀ order ipPool, c.dhcpStaticLeases.RangeOrder order → new c order = .ok ipPool →
      ∀ s, Reach (serverStep c) (.start ipPool) s → ∀ m : Message,
        ¬ OffersOwn c s m ↔
          s.exited = true ∨ replyType m.messageType = none ∨
            KeepsOwn c s.ipPool m.clientHWAddr.string := by
  intro order ipPool _ hnew s _ m
  obtain ⟨base, hbase, -⟩ := new_eq_ok hnew
  constructor
  · intro hsafe
    by_cases hexited : s.exited = true
    · exact Or.inl hexited
    refine Or.inr ?_
    cases hmt : replyType m.messageType with
    | none => exact Or.inl rfl
    | some mt =>
      have hrunning : s.exited = false := by simpa using hexited
      refine Or.inr ⟨fun k hk a ha hwrite => ?_, fun hnone i ip hpos hlt hhost hown => ?_⟩
      · obtain ⟨order', horder', hget⟩ := IPPool.getOrAssign_of_first hk
        exact hsafe (offersOwn_of_getOrAssign hrunning hmt hbase horder' hget hwrite ha)
      · obtain ⟨a, ha, hto4⟩ := hown
        by_contra hnot
        have hfirst : s.ipPool.FirstFree ip := by
          refine ⟨i, hpos, hlt, hhost, fun hmem => hnot (Or.inl hmem), ?_⟩
          intro l hl hli candidate hc
          by_contra hmem
          exact hnot (Or.inr ⟨l, candidate, hl, hli, hc, hmem⟩)
        have horder' := GoMap.rangeOrder_keys s.ipPool.leases
        rcases IPPool.getOrAssign_of_not_held horder' hnone with ⟨ip', hfirst', hget⟩ | ⟨hfull, -⟩
        · obtain rfl := hfirst.unique hfirst'
          exact hsafe (offersOwn_of_getOrAssign hrunning hmt hbase horder' hget
            ((writeIP_eq_ok (ne_nil_of_host hhost)).mpr hto4) ha)
        · exact hfull ip hfirst
  · rintro (hexited | hmt | hkeeps)
    · rintro ⟨order', r, -, hr, -⟩
      rw [Server.serve, if_pos hexited] at hr
      exact absurd hr nofun
    · rintro ⟨order', r, -, hr, -⟩
      obtain ⟨-, -, mt, hsome⟩ := handler_replied_iff.mp ⟨r, serve_replied hr⟩
      exact absurd (hmt.symm.trans hsome) nofun
    · exact hkeeps.not_offersOwn

/-- The address in the reply to a message, if it gets one. -/
def Server.offer (c : Configuration) (s : Server) (order : List String) (m : Message) :
    Option IP :=
  match (s.serve c order m).1 with
  | some (.replied r) => some r.yourIPAddr
  | _ => none

/-- gvproxy's server after the message of a first client. -/
def gvproxyServed (ipPool : IPPool) : Server :=
  ((Server.start ipPool).serve gvproxyConfiguration ["192.168.127.2", "192.168.127.1"]
    ⟨[0x5a, 0x94, 0xef, 0xe4, 0x0c, 0xaa], messageTypeDiscover, by decide⟩).2

/-- A second client of gvproxy. -/
def secondClient : Message := ⟨[0x5a, 0x94, 0xef, 0xe4, 0x0c, 0xff], messageTypeRequest, by decide⟩

/-- The second client of gvproxy, with its virtual address 192.168.127.254, is
offered 192.168.127.4, and no order of the range offers it an own address. -/
theorem own_address_not_offered_second :
    ∃ ipPool, new gvproxyConfiguration ["192.168.127.2"] = .ok ipPool ∧
      Reach (serverStep gvproxyConfiguration) (.start ipPool) (gvproxyServed ipPool) ∧
      (gvproxyServed ipPool).offer gvproxyConfiguration
          ["192.168.127.3", "192.168.127.2", "192.168.127.1"] secondClient
        = some [192, 168, 127, 4] ∧
      ¬ OffersOwn gvproxyConfiguration (gvproxyServed ipPool) secondClient := by
  obtain ⟨ipPool, hnew, horder, hoffer, hnone, hfree⟩ := gvproxy_pool
    (fun p => p.leases.RangeOrder ["192.168.127.2", "192.168.127.1"] ∧
      (gvproxyServed p).offer gvproxyConfiguration
          ["192.168.127.3", "192.168.127.2", "192.168.127.1"] secondClient
        = some [192, 168, 127, 4] ∧
      (∀ k ∈ (gvproxyServed p).ipPool.leases.keys,
        (gvproxyServed p).ipPool.leases.lookup k ≠ some secondClient.clientHWAddr.string) ∧
      (gvproxyServed p).ipPool.firstFree ((gvproxyServed p).ipPool.count - 1) 1
        = some [192, 168, 127, 4])
    (by decide +kernel)
  have hreach : Reach (serverStep gvproxyConfiguration) (.start ipPool) (gvproxyServed ipPool) :=
    Run.step (.received _ _) .refl trivial (if_pos horder)
  refine ⟨ipPool, hnew, hreach, hoffer, ?_⟩
  refine (own_address_not_offered_iff gvproxyConfiguration _ _ (by decide +kernel) hnew _ hreach
    secondClient).mpr (Or.inr (Or.inr ?_))
  refine keepsOwn_of_firstFree (fun k hk => ?_) (IPPool.firstFree_some hfree) (by decide +kernel)
  exact hnone k (AList.mem_keys.mpr ((GoMap.mem_iff_lookup _ k).mpr ⟨_, hk⟩)) hk

/-- The address offered to the first message of a new server, if any. -/
def firstOffer (c : Configuration) (order order' : List String) (m : Message) : Option IP :=
  match new c order with
  | .error _ => none
  | .ok ipPool =>
      if ipPool.leases.RangeOrder order' then (Server.start ipPool).offer c order' m else none

theorem firstOffer_eq_some {order' : List String} {m : Message} {v : IP}
    (h : firstOffer c order order' m = some v) :
    ∃ ipPool r, new c order = .ok ipPool ∧ ipPool.leases.RangeOrder order'
      ∧ ((Server.start ipPool).serve c order' m).1 = some (.replied r) ∧ r.yourIPAddr = v := by
  unfold firstOffer at h
  split at h
  · exact absurd h (by simp)
  · next ipPool hnew =>
    split at h
    · next horder' =>
      unfold Server.offer at h
      split at h
      · next r hr => exact ⟨ipPool, r, hnew, horder', hr, Option.some.inj h⟩
      · exact absurd h (by simp)
    · exact absurd h (by simp)

/-- No reply of any run carries an own address. -/
def OwnAddressesSafe (c : Configuration) : Prop :=
  ∀ order ipPool, c.dhcpStaticLeases.RangeOrder order → new c order = .ok ipPool →
    ∀ s, Reach (serverStep c) (.start ipPool) s → ∀ m, ¬ OffersOwn c s m

theorem not_safe_of_firstOffer {order' : List String} {m : Message} {v : IP}
    (horder : c.dhcpStaticLeases.RangeOrder order) (h : firstOffer c order order' m = some v)
    (hv : v ∈ ownAddresses c) : ¬ OwnAddressesSafe c := by
  intro hsafe
  obtain ⟨ipPool, r, hnew, horder', hr, rfl⟩ := firstOffer_eq_some h
  exact hsafe order ipPool horder hnew _ .refl m ⟨order', r, horder', hr, hv⟩

/-- gvproxy offers the gateway's address to a client with the gateway's MAC,
and a virtual address to the first client there is, if it comes early enough
in the subnet. -/
theorem own_addresses_offered :
    ¬ OwnAddressesSafe gvproxyConfiguration
    ∧ ¬ OwnAddressesSafe { gvproxyConfiguration with gatewayVirtualIPs := ["192.168.127.3"] } := by
  refine ⟨?_, ?_⟩
  · have hoffer : firstOffer gvproxyConfiguration ["192.168.127.2"]
        ["192.168.127.2", "192.168.127.1"]
        ⟨[0x5a, 0x94, 0xef, 0xe4, 0x0c, 0xdd], messageTypeDiscover, by decide⟩
          = some [192, 168, 127, 1] := by decide +kernel
    exact not_safe_of_firstOffer (by decide +kernel) hoffer (by decide +kernel)
  · have hoffer : firstOffer { gvproxyConfiguration with gatewayVirtualIPs := ["192.168.127.3"] }
        ["192.168.127.2"] ["192.168.127.2", "192.168.127.1"]
        ⟨[0x5a, 0x94, 0xef, 0xe4, 0x0c, 0xff], messageTypeDiscover, by decide⟩
          = some [192, 168, 127, 3] := by decide +kernel
    exact not_safe_of_firstOffer (by decide +kernel) hoffer (by decide +kernel)

end GvisorTapVsock.Services.Dhcp
