/-
GvisorTapVsock.Services.StaticLeaseTheorems — when the DHCP server honours the
static leases of the configuration.

The pool compares the MAC of a lease, as it stands in the configuration, with
the text `ClientHWAddr.String()`. Colon form and lower case are therefore part
of the condition (`LeasesServable`), and so is that no other lease denotes the
same address, since the later of two reservations wins.

`ParseMAC` also accepts twenty bytes, but no DHCP client has so many: such a
lease blocks its address and serves nobody.

The subnet matters in one way. The addresses of a subnet written in IPv6 form
are no IPv4 addresses, and the first one offered ends the process
(`mapped_subnet_panics`).
-/
import GvisorTapVsock.Services.DhcpTheorems

namespace GvisorTapVsock.Services.Dhcp

open GvisorTapVsock.Go
open GvisorTapVsock.Lts
open GvisorTapVsock.Tap
open GvisorTapVsock.VirtualNetwork

/-- Every static lease is served, in every run from the pool: its client is
always answered with its address, and nobody else is. -/
def StaticLeasesServed (c : Configuration) (ipPool : IPPool) : Prop :=
  ∀ t mac hw, c.dhcpStaticLeases.lookup t = some mac → parseMAC mac = some hw →
    ∀ s, Reach (serverStep c) (.start ipPool) s →
      ∀ order, s.ipPool.leases.RangeOrder order → ∀ m : Message,
        (m.clientHWAddr = hw →
          m.messageType = messageTypeDiscover ∨ m.messageType = messageTypeRequest →
          ∃ r, (s.serve c order m).1 = some (.replied r)
            ∧ (parseIP t).to4 = some r.yourIPAddr) ∧
        (m.clientHWAddr ≠ hw → ∀ r, (s.serve c order m).1 = some (.replied r) →
          (parseIP t).to4 ≠ some r.yourIPAddr)

/-- Each static lease that a client can have is of an IPv4 address, has its
MAC in the form `HardwareAddr.String` prints, and is the only one of its
address; and the subnet is written in IPv4 form or has but one address. -/
def LeasesServable (c : Configuration) (base : IPNet) : Prop :=
  ∀ t mac hw, c.dhcpStaticLeases.lookup t = some mac → parseMAC mac = some hw →
    hw.length ≤ 16 →
      mac = hw.string ∧ (parseIP t).to4.isSome = true
        ∧ (∀ t' mac', c.dhcpStaticLeases.lookup t' = some mac' → parseIP t' = parseIP t → t' = t)
        ∧ (base.ip.length = 4 ∨ base.hostLen = 0)

/-- The configurations in question: a `New` that succeeds, and static leases
of addresses in the subnet, with MACs that parse and that differ from each
other and from the gateway's. -/
structure Configured (c : Configuration) (base : IPNet) (order : List String)
    (ipPool : IPPool) : Prop where
  subnet : parseCIDR c.subnet = some base
  range : c.dhcpStaticLeases.RangeOrder order
  new_ok : new c order = .ok ipPool
  in_subnet : ∀ {t mac}, c.dhcpStaticLeases.lookup t = some mac →
    base.contains (parseIP t) = true
  parses : ∀ {t mac}, c.dhcpStaticLeases.lookup t = some mac → ∃ hw, parseMAC mac = some hw
  different : ∀ {t t' mac mac'}, c.dhcpStaticLeases.lookup t = some mac →
    c.dhcpStaticLeases.lookup t' = some mac' → parseMAC mac = parseMAC mac' → t = t'
  not_gateway : ∀ {t mac}, c.dhcpStaticLeases.lookup t = some mac →
    parseMAC mac ≠ parseMAC c.gatewayMacAddress

/-! ## Networks -/

/-- An address in an IPv4 network is an IPv4 address. -/
theorem to4_of_contains {base : IPNet} {ip : IP} (hbase : (base.ip.to4.getD base.ip).length = 4)
    (h : base.contains ip = true) : ∃ v, ip.to4 = some v := by
  simp only [IPNet.contains, decide_eq_true_eq] at h
  cases hip : ip.to4 with
  | some v => exact ⟨v, rfl⟩
  | none =>
    have hlen := h.1
    rw [hip, hbase] at hlen
    rw [IP.to4, if_pos (by simpa using hlen)] at hip
    exact absurd hip (by simp)

/-- The network of an IPv4 address is an IPv4 network. -/
theorem length_getD_of_contains {base : IPNet} {ip v : IP} (h : base.contains ip = true)
    (hip : ip.to4 = some v) : (base.ip.to4.getD base.ip).length = 4 := by
  simp only [IPNet.contains, decide_eq_true_eq] at h
  have hlen := h.1
  rw [hip, Option.getD_some, length_of_to4 hip] at hlen
  exact hlen.symm

theorem not_contains_nil (base : IPNet) : base.contains [] = false := by
  have hbase : (base.ip.to4.getD base.ip).length ≠ 0 := by
    cases hto4 : base.ip.to4 with
    | some v =>
      rw [Option.getD_some, length_of_to4 hto4]
      decide
    | none =>
      rw [Option.getD_none]
      have := base.length_ip
      omega
  have hnil : (IP.to4 []).getD [] = [] := by decide
  simp only [IPNet.contains, hnil, List.length_nil, decide_eq_false_iff_not, not_and]
  intro hlen
  exact absurd hlen.symm hbase

section Served

variable {c : Configuration} {base : IPNet} {order : List String} {ipPool : IPPool}

/-! ## MACs as texts -/

/-- The text of a client's address parses to the address, or not at all. -/
theorem eq_of_parseMAC_string {hw hw' : HardwareAddr} (h : parseMAC hw.string = some hw') :
    hw' = hw := by
  rw [parseMAC_string] at h
  split at h
  · exact (Option.some.inj h).symm
  · exact absurd h (by simp)

/-- Whoever holds a reservation by its text is the gateway, or the client of a
lease in normal form. -/
theorem Configured.reserved_client (hc : Configured c base order ipPool) {ip : IP}
    {hw : HardwareAddr} (h : Reserved c ip hw.string) :
    (∃ t, c.dhcpStaticLeases.lookup t = some hw.string ∧ parseMAC hw.string = some hw
        ∧ parseIP t = ip) ∨
      hw.string = c.gatewayMacAddress ∧ ip = parseIP c.gatewayIP := by
  rcases h with ⟨t, ht, hip⟩ | ⟨hmac, hip, -⟩
  · obtain ⟨hw', hparse⟩ := hc.parses ht
    have heq := eq_of_parseMAC_string hparse
    subst heq
    exact Or.inl ⟨t, ht, hparse, hip⟩
  · exact Or.inr ⟨hmac, hip⟩

theorem Configured.gateway_to4 (hc : Configured c base order ipPool) :
    ∃ v, (parseIP c.gatewayIP).to4 = some v := by
  obtain ⟨-, -, -, hv, -⟩ := new_eq_ok hc.new_ok
  exact hv

/-- No reservation is of the nil address. -/
theorem Configured.reserved_ne_nil (hc : Configured c base order ipPool) {ip : IP} {mac : String}
    (h : Reserved c ip mac) : ip ≠ [] := by
  rintro rfl
  rcases h with ⟨t, ht, hip⟩ | ⟨-, hip, -⟩
  · have hin := hc.in_subnet ht
    rw [hip, not_contains_nil] at hin
    exact absurd hin (by simp)
  · obtain ⟨v, hv⟩ := hc.gateway_to4
    rw [← hip] at hv
    exact absurd hv (by simp)

/-! ## The leases of the pool -/

/-- A lease that can be served is in the table. -/
theorem Configured.lookup_static (hc : Configured c base order ipPool)
    (hservable : LeasesServable c base) {t mac : String} {hw : HardwareAddr}
    (ht : c.dhcpStaticLeases.lookup t = some mac) (hhw : parseMAC mac = some hw)
    (hlen : hw.length ≤ 16) : ipPool.leases.lookup (parseIP t).string = some hw.string := by
  obtain ⟨hmac, -, honly, -⟩ := hservable t mac hw ht hhw hlen
  obtain ⟨v, hv⟩ := static_mem hc.range hc.new_ok ht
  have hreserved := (reserved_of_lookup hc.range hc.new_ok hv).2
  rw [parseIP_string_parseIP] at hreserved
  rcases hreserved with ⟨t', ht', hip⟩ | ⟨-, -, hnone⟩
  · rw [honly t' v ht' hip, ht, Option.some.injEq] at ht'
    rw [hv, ← ht', hmac]
  · exact absurd rfl (hnone t mac ht)

/-- And it is the only one of its client. -/
theorem Configured.lookup_unique (hc : Configured c base order ipPool) {t mac : String}
    {hw : HardwareAddr} (ht : c.dhcpStaticLeases.lookup t = some mac)
    (hhw : parseMAC mac = some hw) {k : String} (hk : ipPool.leases.lookup k = some hw.string) :
    k = (parseIP t).string ∧ mac = hw.string := by
  obtain ⟨hnormal, hreserved⟩ := reserved_of_lookup hc.range hc.new_ok hk
  rcases hc.reserved_client hreserved with ⟨t', ht', hparse, hip⟩ | ⟨hgw, -⟩
  · have hsame := hc.different ht ht' (hhw.trans hparse.symm)
    subst hsame
    rw [ht, Option.some.injEq] at ht'
    rw [hip, hnormal]
    exact ⟨rfl, ht'⟩
  · -- a printed address that parses is the one printed
    obtain ⟨-, -, ⟨hw', hhw'⟩, -⟩ := new_eq_ok hc.new_ok
    rw [← hgw] at hhw'
    have heq := eq_of_parseMAC_string hhw'
    rw [heq, hgw] at hhw'
    exact absurd (hhw.trans hhw'.symm) (hc.not_gateway ht)

/-! ## Sufficiency -/

/-- What a client can be given can be written, if some lease can be served. -/
theorem Configured.writeIP_ne_error (hc : Configured c base order ipPool)
    (hservable : LeasesServable c base) (hsubnet : base.ip.length = 4 ∨ base.hostLen = 0)
    {p p' : IPPool} (hext : IPPool.Extends ipPool p) {m : Message} {a : IP}
    (ha : IPPool.Assigned p m.clientHWAddr.string (some a) p') (e : Panic) :
    writeIP a ≠ .error e := by
  have hwrite : ∀ v, a.to4 = some v → writeIP a ≠ .error e := by
    intro v hv
    unfold writeIP
    split
    · simp
    · simp [hv]
  rcases hext.address ha with ⟨k, hk, rfl⟩ | ⟨-, i, ip, hpos, hlt, hhost, -, ha⟩
  · obtain ⟨-, hreserved⟩ := reserved_of_lookup hc.range hc.new_ok hk
    rcases hc.reserved_client hreserved with ⟨t, ht, hparse, hip⟩ | ⟨-, hip⟩
    · obtain ⟨-, hsome, -, -⟩ := hservable t _ _ ht hparse m.length_le
      obtain ⟨v, hv⟩ := Option.isSome_iff_exists.mp hsome
      exact hwrite v (by rw [← hip]; exact hv)
    · obtain ⟨v, hv⟩ := hc.gateway_to4
      exact hwrite v (by rw [hip]; exact hv)
  · obtain ⟨hpbase, hpcount⟩ := new_base hc.new_ok hc.subnet
    rw [hpbase] at hhost
    rw [hpcount] at hlt
    rcases hsubnet with h4 | h0
    · have hip4 : ip.to4 = some ip := by rw [IP.to4, if_pos (by rw [length_of_host hhost, h4])]
      rcases ha with rfl | rfl
      · exact hwrite a hip4
      · rw [parseIP_string (to16_of_to4 hip4)] at hwrite ⊢
        exact hwrite ip (by rw [to4_of_to16 (to16_of_to4 hip4), hip4])
    · -- a single address has no hosts
      rw [addressCount, h0] at hlt
      exact absurd hlt (by omega)

/-- The process does not end. -/
theorem Configured.not_exited (hc : Configured c base order ipPool)
    (hservable : LeasesServable c base) (hsubnet : base.ip.length = 4 ∨ base.hostLen = 0)
    {s : Server} (hrun : Reach (serverStep c) (.start ipPool) s) :
    s.panicking = false ∧ s.exited = false := by
  induction hrun with
  | refl => exact ⟨rfl, rfl⟩
  | step e run _ hs ih =>
    cases e with
    | received m order' =>
      simp only [serverStep] at hs
      split at hs
      · next horder =>
        rw [← Option.some.inj hs]
        unfold Server.serve
        rw [if_neg (by rw [ih.2]; simp)]
        split
        · next p ipPool' hpanic =>
          -- no address that was assigned makes the handler panic
          obtain ⟨a, hget, herror⟩ := handler_panicked (by rw [hpanic])
          have ha := IPPool.getOrAssign_assigned horder m.clientHWAddr.string
          rw [hget] at ha
          exact absurd herror
            (hc.writeIP_ne_error hservable hsubnet (extends_of_run run) ha p)
        · exact ⟨ih.1, rfl⟩
      · exact absurd hs (by simp)
    | exit =>
      simp only [serverStep] at hs
      split at hs
      · next hpanicking => exact absurd hpanicking (by rw [ih.1]; simp)
      · exact absurd hs (by simp)

theorem replyType_of_served {mt : UInt8}
    (h : mt = messageTypeDiscover ∨ mt = messageTypeRequest) : ∃ mt', replyType mt = some mt' := by
  rcases h with rfl | rfl
  · exact ⟨_, rfl⟩
  · exact ⟨_, rfl⟩

/-- The client of a lease is answered with its address. -/
theorem Configured.answered (hc : Configured c base order ipPool)
    (hservable : LeasesServable c base) {t mac : String} {hw : HardwareAddr}
    (ht : c.dhcpStaticLeases.lookup t = some mac) (hhw : parseMAC mac = some hw) {s : Server}
    (hrun : Reach (serverStep c) (.start ipPool) s) {order' : List String}
    (horder : s.ipPool.leases.RangeOrder order') {m : Message} (hm : m.clientHWAddr = hw)
    (hmt : m.messageType = messageTypeDiscover ∨ m.messageType = messageTypeRequest) :
    ∃ r, (s.serve c order' m).1 = some (.replied r) ∧ (parseIP t).to4 = some r.yourIPAddr := by
  have hlen : hw.length ≤ 16 := hm ▸ m.length_le
  obtain ⟨-, hsome, -, hsubnet⟩ := hservable t mac hw ht hhw hlen
  obtain ⟨v, hv⟩ := Option.isSome_iff_exists.mp hsome
  have hext := extends_of_run hrun
  have hinit := hc.lookup_static hservable ht hhw hlen
  -- the range finds the lease, and no other
  have hfind : s.ipPool.findLease order' hw.string = some (parseIP t).string := by
    cases hfind : s.ipPool.findLease order' hw.string with
    | none => exact absurd (hext.keep hinit) (IPPool.findLease_eq_none horder hfind _)
    | some k =>
      rcases hext.added (IPPool.findLease_eq_some hfind) with hold | ⟨hnone, -⟩
      · rw [(hc.lookup_unique ht hhw hold).1]
      · exact absurd hinit (hnone _)
  have hget : s.ipPool.getOrAssign order' m.clientHWAddr.string = (some (parseIP t), s.ipPool) := by
    rw [IPPool.getOrAssign, hm, hfind]
    simp only [parseIP_string_parseIP]
  obtain ⟨mt, hreply⟩ := replyType_of_served hmt
  have hhandler := handler_of_getOrAssign hget hc.subnet hreply
  have hnil : parseIP t ≠ [] := by
    intro hnil
    rw [hnil] at hv
    exact absurd hv (by simp)
  rw [(writeIP_eq_ok hnil).mpr hv] at hhandler
  obtain ⟨r, hr, hrv⟩ := hhandler
  refine ⟨r, ?_, by rw [hv, hrv]⟩
  unfold Server.serve
  rw [if_neg (by rw [(hc.not_exited hservable hsubnet hrun).2]; simp)]
  split
  · next hpanic =>
    rw [hpanic] at hr
    exact absurd hr (by simp)
  · next hh =>
    rw [hh] at hr
    exact congrArg some hr

/-- Nobody else is. -/
theorem Configured.not_answered (hc : Configured c base order ipPool)
    (hservable : LeasesServable c base) {t mac : String} {hw : HardwareAddr}
    (ht : c.dhcpStaticLeases.lookup t = some mac) (hhw : parseMAC mac = some hw) {s : Server}
    (hrun : Reach (serverStep c) (.start ipPool) s) {order' : List String}
    (horder : s.ipPool.leases.RangeOrder order') {m : Message} (hm : m.clientHWAddr ≠ hw)
    {r : Reply} (hr : (s.serve c order' m).1 = some (.replied r)) :
    (parseIP t).to4 ≠ some r.yourIPAddr := by
  intro hv
  have ht16 : (parseIP t).length = 16 := by
    rcases parseIP_eq_nil_or t with hnil | h16
    · rw [hnil] at hv
      exact absurd hv (by simp)
    · exact h16
  rcases address_of_reply hrun horder hr with ⟨k, hk, hwrite⟩ |
    ⟨i, ip, -, -, -, hfree, hto4⟩
  · obtain ⟨-, hreserved⟩ := reserved_of_lookup hc.range hc.new_ok hk
    have hnil := hc.reserved_ne_nil hreserved
    have hk4 := (writeIP_eq_ok hnil).mp hwrite
    have hk16 := (parseIP_eq_nil_or k).resolve_left hnil
    rw [eq_of_to4 hk16 ht16 hk4 hv] at hreserved
    rcases hreserved with ⟨t', ht', hip⟩ | ⟨-, -, hnone⟩
    · -- another lease of the same address, and a client that can have it
      obtain ⟨hw', hparse⟩ := hc.parses ht'
      have heq := eq_of_parseMAC_string hparse
      subst heq
      obtain ⟨-, -, honly, -⟩ := hservable t' _ _ ht' hparse m.length_le
      have hsame := honly t mac ht hip.symm
      subst hsame
      rw [ht, Option.some.injEq] at ht'
      rw [ht', hparse, Option.some.injEq] at hhw
      exact hm hhw
    · exact absurd rfl (hnone t mac ht)
  · obtain ⟨v, hlookup⟩ := static_mem hc.range hc.new_ok ht
    rw [string_of_to4 hv hto4] at hlookup
    exact hfree ((GoMap.mem_iff_lookup _ _).mpr ⟨v, hlookup⟩)

/-! ## Necessity -/

/-- A hardware address of one byte is in no configuration. -/
theorem Configured.no_short_client (hc : Configured c base order ipPool) (k : String) :
    ipPool.leases.lookup k ≠ some (HardwareAddr.string [0]) := by
  intro hk
  have hparse : parseMAC (HardwareAddr.string [0]) = none := by decide
  obtain ⟨-, hreserved⟩ := reserved_of_lookup hc.range hc.new_ok hk
  rcases hc.reserved_client hreserved with ⟨t, -, hsome, -⟩ | ⟨hgw, -⟩
  · rw [hparse] at hsome
    exact absurd hsome (by simp)
  · obtain ⟨-, -, ⟨hw, hhw⟩, -⟩ := new_eq_ok hc.new_ok
    rw [← hgw, hparse] at hhw
    exact absurd hhw (by simp)

/-- All the addresses reserved in an IPv4 subnet are IPv4. -/
theorem Configured.free_of_to4_eq_none (hc : Configured c base order ipPool)
    (hnet : (base.ip.to4.getD base.ip).length = 4) {ip : IP} (hlen : ip.length = 16)
    (hip : ip.to4 = none) : ip.string ∉ ipPool.leases := by
  intro hmem
  obtain ⟨mac, hk⟩ := (GoMap.mem_iff_lookup _ _).mp hmem
  obtain ⟨-, hreserved⟩ := reserved_of_lookup hc.range hc.new_ok hk
  have hparse : parseIP ip.string = ip :=
    parseIP_string (by rw [IP.to16, if_neg (by omega), if_pos hlen])
  rw [hparse] at hreserved
  have h4 : ∃ w, ip.to4 = some w := by
    rcases hreserved with ⟨t, ht, rfl⟩ | ⟨-, rfl, -⟩
    · exact to4_of_contains hnet (hc.in_subnet ht)
    · exact hc.gateway_to4
  obtain ⟨w, hw⟩ := h4
  rw [hip] at hw
  exact absurd hw (by simp)

/-- An IPv4 subnet written in IPv6 form that has host bits has a host to assign. -/
theorem Configured.mapped_count (hc : Configured c base order ipPool)
    (hlen : base.ip.length = 16) {v : IP} (hbase : base.ip.to4 = some v)
    (hhosts : base.hostLen ≠ 0) : ∃ k, ipPool.count - 1 = k + 1 := by
  obtain ⟨-, hcount⟩ := new_base hc.new_ok hc.subnet
  have hle := hostLen_le_of_to4 hlen hbase
  have h2 : 2 ≤ 2 ^ base.hostLen := Nat.le_self_pow hhosts 2
  have h32 : 2 ^ base.hostLen ≤ 2 ^ 32 := Nat.pow_le_pow_right (by decide) hle
  refine ⟨2 ^ base.hostLen - 2, ?_⟩
  rw [hcount, addressCount, Nat.mod_eq_of_lt (by omega)]
  omega

/-- In such a subnet the first client without a lease is assigned an address
that is not IPv4. -/
theorem Configured.mapped_assigns (hc : Configured c base order ipPool)
    (hlen : base.ip.length = 16) {v : IP} (hbase : base.ip.to4 = some v)
    (hhosts : base.hostLen ≠ 0) :
    ∃ ip ipPool', ipPool.getOrAssign ipPool.leases.keys (HardwareAddr.string [0])
      = (some ip, ipPool') ∧ ip ≠ [] ∧ ip.to4 = none := by
  have hnet : (base.ip.to4.getD base.ip).length = 4 := by
    rw [hbase, Option.getD_some, length_of_to4 hbase]
  obtain ⟨ip, hhost, hiplen, hip4⟩ := host_one_of_to4 hlen hbase hhosts
  obtain ⟨hpbase, -⟩ := new_base hc.new_ok hc.subnet
  have hfree := hc.free_of_to4_eq_none hnet hiplen hip4
  obtain ⟨k, hk⟩ := hc.mapped_count hlen hbase hhosts
  have hassign : (ipPool.getOrAssign ipPool.leases.keys (HardwareAddr.string [0])).1 = some ip := by
    cases hfind : ipPool.findLease ipPool.leases.keys (HardwareAddr.string [0]) with
    | some key => exact absurd (IPPool.findLease_eq_some hfind) (hc.no_short_client key)
    | none =>
      rw [IPPool.getOrAssign, hfind, hk, IPPool.firstFree, hpbase, hhost]
      simp only [hfree, if_false]
  exact ⟨ip, _, Prod.ext hassign rfl, by rintro rfl; simp at hiplen, hip4⟩

/-- A panic of the handler ends the process. -/
theorem exited_of_panicked {s : Server} (hrun : Reach (serverStep c) (.start ipPool) s)
    (hs : s.exited = false) {order' : List String}
    (horder : s.ipPool.leases.RangeOrder order') {m : Message} {p : Panic}
    (hpanic : (handler c s.ipPool order' m).1 = .panicked p) :
    ∃ s', Reach (serverStep c) (.start ipPool) s' ∧ s'.exited = true := by
  have hpanicking : (s.serve c order' m).2.panicking = true := by
    unfold Server.serve
    rw [if_neg (by rw [hs]; simp)]
    split
    · rfl
    · next houtcome hh =>
      have hh' := congrArg Prod.fst hh
      exact absurd (hh'.symm.trans hpanic) (houtcome _)
  exact ⟨{ (s.serve c order' m).2 with exited := true },
    .step .exit (.step (.received m order') hrun trivial (if_pos horder)) trivial
      (if_pos hpanicking), rfl⟩

/-- The first message of a client without a lease, in a subnet written in IPv6
form: the address assigned cannot be written, and the process ends. -/
theorem Configured.mapped_subnet_panics (hc : Configured c base order ipPool)
    (hlen : base.ip.length = 16) {v : IP} (hbase : base.ip.to4 = some v)
    (hhosts : base.hostLen ≠ 0) :
    ∃ s, Reach (serverStep c) (.start ipPool) s ∧ s.exited = true := by
  obtain ⟨ip, ipPool', hget, hnil, hip4⟩ := hc.mapped_assigns hlen hbase hhosts
  have hpanic := handler_of_getOrAssign (m := ⟨[0], messageTypeDiscover, by decide⟩) hget hc.subnet
    (replyType_of_served (Or.inl rfl)).choose_spec
  have hwrite : writeIP ip = .error .sliceBounds := by
    rw [writeIP, if_neg hnil, hip4]
  rw [hwrite] at hpanic
  exact exited_of_panicked .refl rfl (GoMap.rangeOrder_keys _) hpanic

theorem Configured.servable_of_served (hc : Configured c base order ipPool)
    (hserved : StaticLeasesServed c ipPool) : LeasesServable c base := by
  intro t mac hw ht hhw hlen
  have hstart := hserved t mac hw ht hhw
  -- the first message of the client, in a new server
  have hinit : Reach (serverStep c) (.start ipPool) (.start ipPool) := .refl
  obtain ⟨r, hr, hv⟩ := (hstart _ hinit _ (GoMap.rangeOrder_keys _)
    ⟨hw, messageTypeDiscover, hlen⟩).1 rfl (Or.inl rfl)
  refine ⟨?_, by rw [hv]; rfl, ?_, ?_⟩
  · -- it was answered with the address of the lease, so the table has its text
    rcases address_of_reply hinit (GoMap.rangeOrder_keys _) hr with ⟨k, hk, -⟩ |
      ⟨i, ip, -, -, -, hfree, hto4⟩
    · exact (hc.lookup_unique ht hhw hk).2
    · obtain ⟨w, hlookup⟩ := static_mem hc.range hc.new_ok ht
      rw [string_of_to4 hv hto4] at hlookup
      exact absurd ((GoMap.mem_iff_lookup _ _).mpr ⟨w, hlookup⟩) hfree
  · -- the client of the one lease is another client for the other
    intro t' mac' ht' hip
    by_contra hne
    obtain ⟨hw', hhw'⟩ := hc.parses ht'
    have hdiff : hw ≠ hw' := by
      rintro rfl
      exact hne (hc.different ht' ht (hhw'.trans hhw.symm))
    refine (hserved t' mac' hw' ht' hhw' _ hinit _ (GoMap.rangeOrder_keys _)
      ⟨hw, messageTypeDiscover, hlen⟩).2 hdiff r hr ?_
    rw [hip, hv]
  · by_contra hsubnet
    rw [not_or] at hsubnet
    have h16 := base.length_ip.resolve_left hsubnet.1
    have hbase : ∃ v, base.ip.to4 = some v := by
      have h4 := length_getD_of_contains (hc.in_subnet ht) hv
      cases hto4 : base.ip.to4 with
      | some v => exact ⟨v, rfl⟩
      | none =>
        rw [hto4, Option.getD_none] at h4
        omega
    obtain ⟨v, hbase⟩ := hbase
    obtain ⟨s, hreach, hexited⟩ := hc.mapped_subnet_panics h16 hbase hsubnet.2
    obtain ⟨r', hr', -⟩ := (hstart s hreach _ (GoMap.rangeOrder_keys _)
      ⟨hw, messageTypeDiscover, hlen⟩).1 rfl (Or.inl rfl)
    rw [Server.serve, if_pos hexited] at hr'
    exact absurd hr' (by simp)

end Served

/-- **The static leases are served exactly if they are servable**, for every
order in which `New` reserved them. -/
theorem staticLeases_served_iff (c : Configuration) (base : IPNet) (order : List String)
    (ipPool : IPPool) (hc : Configured c base order ipPool) :
    StaticLeasesServed c ipPool ↔ LeasesServable c base := by
  refine ⟨hc.servable_of_served, fun hservable t mac hw ht hhw s hrun order' horder m => ?_⟩
  refine ⟨fun hm hmt => ?_, fun hm r hr => ?_⟩
  · exact hc.answered hservable ht hhw hrun horder hm hmt
  · exact hc.not_answered hservable ht hhw hrun horder hm hr

/-! One static lease -/

theorem configured_single {c : Configuration} {t mac : String} {hw : HardwareAddr}
    (hc : c.dhcpStaticLeases = GoMap.single t mac) {base : IPNet}
    (hbase : parseCIDR c.subnet = some base) {ipPool : IPPool} (hnew : new c [t] = .ok ipPool)
    (hin : base.contains (parseIP t) = true) (hparse : parseMAC mac = some hw)
    (hgw : parseMAC mac ≠ parseMAC c.gatewayMacAddress) : Configured c base [t] ipPool := by
  have hlookup : ∀ {t' mac'}, c.dhcpStaticLeases.lookup t' = some mac' → t' = t ∧ mac' = mac := by
    intro t' mac' h
    rw [hc, GoMap.lookup_single] at h
    split at h
    · next ht => exact ⟨ht, (Option.some.inj h).symm⟩
    · exact absurd h (by simp)
  refine ⟨hbase, ?_, hnew, fun h => ?_, fun h => ?_, fun h h' _ => ?_, fun h => ?_⟩
  · rw [hc]
    exact List.Perm.refl _
  · rw [(hlookup h).1]
    exact hin
  · rw [(hlookup h).2]
    exact ⟨hw, hparse⟩
  · rw [(hlookup h).1, (hlookup h').1]
  · rw [(hlookup h).2]
    exact hgw

theorem gvproxy_subnet : ∃ base, parseCIDR "192.168.127.0/24" = some base
    ∧ base.contains (parseIP "192.168.127.2") = true ∧ base.ip.length = 4 := by
  have hcheck : (parseCIDR "192.168.127.0/24").any (fun base =>
      base.contains (parseIP "192.168.127.2") && decide (base.ip.length = 4)) = true := by
    decide +kernel
  cases hbase : parseCIDR "192.168.127.0/24" with
  | none => simp [hbase] at hcheck
  | some base =>
    rw [hbase] at hcheck
    simp only [Option.any_some, Bool.and_eq_true, decide_eq_true_eq] at hcheck
    exact ⟨base, rfl, hcheck⟩

/-- gvproxy's own static lease is served. -/
theorem gvproxy_lease_served :
    ∃ ipPool, new gvproxyConfiguration ["192.168.127.2"] = .ok ipPool
      ∧ StaticLeasesServed gvproxyConfiguration ipPool := by
  have hoffer : firstOffer gvproxyConfiguration ["192.168.127.2"]
      ["192.168.127.2", "192.168.127.1"]
      ⟨[0x5a, 0x94, 0xef, 0xe4, 0x0c, 0xee], messageTypeDiscover, by decide⟩
        = some [192, 168, 127, 2] := by decide +kernel
  obtain ⟨ipPool, -, hnew, -⟩ := firstOffer_eq_some hoffer
  obtain ⟨base, hbase, hin, h4⟩ := gvproxy_subnet
  have hparse : parseMAC "5a:94:ef:e4:0c:ee" = some [0x5a, 0x94, 0xef, 0xe4, 0x0c, 0xee] := by
    decide +kernel
  have hc : Configured gvproxyConfiguration base ["192.168.127.2"] ipPool :=
    configured_single rfl hbase hnew hin hparse (by decide +kernel)
  refine ⟨ipPool, hnew, (staticLeases_served_iff _ base _ ipPool hc).mpr ?_⟩
  intro t mac hw ht hhw _
  simp only [gvproxyConfiguration, GoMap.lookup_single] at ht
  split at ht
  · next heq =>
    rw [Option.some.injEq] at ht
    subst heq ht
    refine ⟨?_, by decide +kernel, fun t' mac' ht' _ => ?_, Or.inl h4⟩
    · rw [hparse, Option.some.injEq] at hhw
      rw [← hhw]
      decide +kernel
    · simp only [gvproxyConfiguration, GoMap.lookup_single] at ht'
      split at ht'
      · next heq => exact heq
      · exact absurd ht' (by simp)
  · exact absurd ht (by simp)

/-- The same lease with its MAC in capitals is not. -/
theorem capital_lease_not_served :
    ¬ ∀ (c : Configuration) (base : IPNet) (order : List String) (ipPool : IPPool),
      Configured c base order ipPool → StaticLeasesServed c ipPool := by
  intro hall
  have hoffer : firstOffer { gvproxyConfiguration with
      dhcpStaticLeases := GoMap.single "192.168.127.2" "5A:94:EF:E4:0C:EE" }
      ["192.168.127.2"] ["192.168.127.2", "192.168.127.1"]
      ⟨[0x5a, 0x94, 0xef, 0xe4, 0x0c, 0xee], messageTypeDiscover, by decide⟩
        = some [192, 168, 127, 3] := by decide +kernel
  obtain ⟨ipPool, r, hnew, horder, hr, hv⟩ := firstOffer_eq_some hoffer
  obtain ⟨base, hbase, hin, -⟩ := gvproxy_subnet
  have hparse : parseMAC "5A:94:EF:E4:0C:EE" = some [0x5a, 0x94, 0xef, 0xe4, 0x0c, 0xee] := by
    decide +kernel
  have hserved := hall _ base _ ipPool
    (configured_single rfl hbase hnew hin hparse (by decide +kernel))
  have hlookup : (GoMap.single "192.168.127.2" "5A:94:EF:E4:0C:EE").lookup "192.168.127.2"
      = some "5A:94:EF:E4:0C:EE" := by
    rw [GoMap.lookup_single, if_pos rfl]
  obtain ⟨r', hr', hv'⟩ := (hserved "192.168.127.2" _ _ hlookup hparse _ .refl _ horder
    ⟨[0x5a, 0x94, 0xef, 0xe4, 0x0c, 0xee], messageTypeDiscover, by decide⟩).1 rfl (Or.inl rfl)
  rw [hr, Option.some.injEq, Outcome.replied.injEq] at hr'
  rw [← hr', hv] at hv'
  exact absurd hv' (by decide +kernel)

end GvisorTapVsock.Services.Dhcp
