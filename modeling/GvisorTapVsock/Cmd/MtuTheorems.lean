/-
GvisorTapVsock.Cmd.MtuTheorems — one MTU, from the `-mtu` flag to the four
places that announce it.

The flag takes any `int` and `virtualnetwork.New` does not look at it. Three
packages then cut it to a width of their own: the DHCP server and the vpnkit
handshake to 16 bits, the link endpoint to 32, and the handshake adds the size
of an Ethernet header in 16 bits once more. Each place has its own range in
which nothing is lost, and the frame size of the handshake has the smallest.
-/
import GvisorTapVsock.Cmd.CommandLineTheorems
import GvisorTapVsock.Services.DhcpTheorems
import GvisorTapVsock.Tap.LinkEndpoint
import GvisorTapVsock.VirtualNetwork.VpnKitTheorems

namespace GvisorTapVsock.Cmd.Gvproxy

open GvisorTapVsock.Go
open GvisorTapVsock.Tap
open GvisorTapVsock.VirtualNetwork
open GvisorTapVsock.Services.Dhcp

/-! ## What is asked -/

/-- `dhcpv4.Uint16(…).ToBytes()`: the value of the interface-MTU option. -/
def interfaceMTUOption (reply : Reply) : List UInt8 := beBytes 2 reply.interfaceMTU

/-- All places announce the configured MTU. -/
structure MtuAnnounced (c : Configuration) : Prop where
  /-- the option of every DHCP reply -/
  dhcp : ∀ ipPool order m reply, (handler c ipPool order m).1 = .replied reply →
    (beNat (interfaceMTUOption reply) : Int) = c.mtu
  /-- bytes 1 and 2 of the handshake -/
  vpnkit : ∀ mac, (leNat (((resp c.mtu mac).drop 1).take 2) : Int) = c.mtu
  /-- bytes 3 and 4 of the handshake -/
  frame : ∀ mac, (leNat (((resp c.mtu mac).drop 3).take 2) : Int) = c.mtu + ethernetMinimumSize
  /-- what the stack sees -/
  link : ((linkEndpointMTU c.mtu).toNat : Int) = c.mtu

/-! ## The flag -/

/-- Every `int` can be given. -/
theorem flagParse_mtu (mtu : Int64) :
    ∃ s, flagParse ["-mtu", itoa mtu.toInt] = some (.ok (s, [])) ∧ (globals s).mtu = mtu := by
  obtain ⟨formal, hline, hformal⟩ := commandLine_eq
  let setting : Flag.Setting := ⟨"mtu", some (itoa mtu.toInt)⟩
  have htaken : ∀ a ∈ [setting], ∃ i, Flag.Takes (flagSet formal) a i := by
    intro a ha
    obtain rfl := List.mem_singleton.mp ha
    exact ⟨.mtu, takes_of_set hformal .mtu (some _) rfl
      fun _ => ⟨mtu, Flag.intSet_itoa mtu⟩⟩
  refine ⟨Flag.putAll (flagSet formal) ⟨defaults, []⟩ [setting], ?_, ?_⟩
  · rw [flagParse, hline, Option.map_some]
    exact congrArg some (Flag.parse_cmdline htaken ⟨defaults, []⟩)
  · show (Flag.putAll (flagSet formal) ⟨defaults, []⟩ [setting]).values .mtu = mtu
    rw [Flag.values_putAll, Flag.textsOf_singleton (hformal .mtu)]
    simp [setting, Variable.flag, Flag.Setting.value, Flag.FlagSet.setTo, flagSet, set,
      Flag.intSet_itoa]

/-! ## The four places -/

theorem handler_interfaceMTU {c : Configuration} {ipPool : IPPool} {order : List String}
    {m : Message} {reply : Reply} (h : (handler c ipPool order m).1 = .replied reply) :
    reply.interfaceMTU = (c.mtu % 2 ^ 16).toNat := by
  unfold handler at h
  repeat' split at h
  all_goals cases h
  rfl

theorem interfaceMTUOption_eq_iff {c : Configuration} {ipPool : IPPool} {order : List String}
    {m : Message} {reply : Reply} (h : (handler c ipPool order m).1 = .replied reply) :
    (beNat (interfaceMTUOption reply) : Int) = c.mtu ↔ 0 ≤ c.mtu ∧ c.mtu < 65536 := by
  rw [interfaceMTUOption, beNat_beBytes, handler_interfaceMTU h]
  omega

/-- The two numbers of the handshake, in bytes 1 to 4. -/
theorem take_drop_resp_mtu (mtu : Int) (mac : HardwareAddr) :
    ((resp mtu mac).drop 1).take 2 = leBytes 2 (mtu % 65536).toNat ∧
      ((resp mtu mac).drop 3).take 2
        = leBytes 2 (((mtu % 65536).toNat + ethernetMinimumSize) % 65536) :=
  ⟨rfl, rfl⟩

theorem resp_mtu_eq_iff (mtu : Int) (mac : HardwareAddr) :
    (leNat (((resp mtu mac).drop 1).take 2) : Int) = mtu ↔ 0 ≤ mtu ∧ mtu < 65536 := by
  rw [(take_drop_resp_mtu mtu mac).1, leNat_leBytes]
  omega

/-- The frame size wraps before the MTU does, and wraps back for a negative one. -/
theorem resp_frame_eq_iff (mtu : Int) (mac : HardwareAddr) :
    (leNat (((resp mtu mac).drop 3).take 2) : Int) = mtu + ethernetMinimumSize ↔
      -14 ≤ mtu ∧ mtu ≤ 65521 := by
  rw [(take_drop_resp_mtu mtu mac).2, leNat_leBytes, ethernetMinimumSize]
  omega

theorem linkEndpointMTU_eq_iff (mtu : Int) :
    ((linkEndpointMTU mtu).toNat : Int) = mtu ↔ 0 ≤ mtu ∧ mtu < 4294967296 := by
  rw [linkEndpointMTU, UInt32.toNat_ofNat']
  omega

/-- The ranges of the four places, taken together. -/
theorem mtuAnnounced_iff (c : Configuration) : MtuAnnounced c ↔ 0 ≤ c.mtu ∧ c.mtu ≤ 65521 := by
  constructor
  · intro h
    exact ⟨((resp_mtu_eq_iff c.mtu []).mp (h.vpnkit [])).1,
      ((resp_frame_eq_iff c.mtu []).mp (h.frame [])).2⟩
  · rintro ⟨hlo, hhi⟩
    exact
      { dhcp := fun _ _ _ _ hreplied => (interfaceMTUOption_eq_iff hreplied).mpr ⟨hlo, by omega⟩
        vpnkit := fun mac => (resp_mtu_eq_iff c.mtu mac).mpr ⟨hlo, by omega⟩
        frame := fun mac => (resp_frame_eq_iff c.mtu mac).mpr ⟨by omega, hhi⟩
        link := (linkEndpointMTU_eq_iff c.mtu).mpr ⟨hlo, by omega⟩ }

/-! ## From the flag to the places -/

/-- `New` does not look at the MTU. -/
theorem new_mtu (c : Configuration) (mtu : Int) (order : List String) :
    new { c with mtu := mtu } order = new c order := rfl

/-- **The MTU is announced as it was given** exactly from 0 to 65521. The flag
and `New` take every other `int` as well. -/
theorem mtu_announced_as_given_iff (c : Configuration) (mtu : Int64) :
    (∃ s, flagParse ["-mtu", itoa mtu.toInt] = some (.ok (s, [])) ∧ (globals s).mtu = mtu) ∧
      (∀ order, new { c with mtu := mtu.toInt } order = new c order) ∧
      (MtuAnnounced { c with mtu := mtu.toInt } ↔ 0 ≤ mtu.toInt ∧ mtu.toInt ≤ 65521) :=
  ⟨flagParse_mtu mtu, new_mtu c mtu.toInt, mtuAnnounced_iff _⟩

/-- gvproxy with another MTU. -/
def withMTU (mtu : Int) : Configuration := { gvproxyConfiguration with mtu := mtu }

/-- A client of that gvproxy gets a reply. -/
theorem withMTU_replies (mtu : Int) :
    ∃ ipPool, new (withMTU mtu) ["192.168.127.2"] = .ok ipPool ∧
      ∃ reply, (handler (withMTU mtu) ipPool ["192.168.127.2", "192.168.127.1"]
        ⟨[0x5a, 0x94, 0xef, 0xe4, 0x0c, 0xee], messageTypeDiscover, by decide⟩).1
          = .replied reply := by
  obtain ⟨ipPool, hnew, hget⟩ := gvproxy_pool
    (fun p => (p.getOrAssign ["192.168.127.2", "192.168.127.1"] "5a:94:ef:e4:0c:ee").1
      = some (parseIP "192.168.127.2")) (by decide +kernel)
  have hbase : (parseCIDR "192.168.127.0/24").isSome = true := by decide
  refine ⟨ipPool, (new_mtu gvproxyConfiguration mtu _).trans hnew,
    handler_replied_iff.mpr ⟨⟨_, [192, 168, 127, 2], hget, by decide⟩, ?_, ?_⟩⟩
  · exact Option.isSome_iff_exists.mp hbase
  · exact ⟨messageTypeOffer, by decide⟩

/-- Three `int`s that `main` takes. With 65522 the frame size of the handshake
wraps to 0; with 65536 the client's DHCP and the handshake announce 0; with -1
they announce 65535, and the stack sees 4294967295. -/
theorem mtu_misannounced :
    ((∃ s, flagParse ["-mtu", "65522"] = some (.ok (s, [])) ∧ (globals s).mtu = 65522) ∧
      ¬ MtuAnnounced (withMTU 65522) ∧
      leNat (((resp 65522 []).drop 3).take 2) = 0) ∧
    ((∃ s, flagParse ["-mtu", "65536"] = some (.ok (s, [])) ∧ (globals s).mtu = 65536) ∧
      ¬ MtuAnnounced (withMTU 65536) ∧
      leNat (((resp 65536 []).drop 1).take 2) = 0 ∧
      ∃ ipPool reply, new (withMTU 65536) ["192.168.127.2"] = .ok ipPool ∧
        (handler (withMTU 65536) ipPool ["192.168.127.2", "192.168.127.1"]
          ⟨[0x5a, 0x94, 0xef, 0xe4, 0x0c, 0xee], messageTypeDiscover, by decide⟩).1
            = .replied reply ∧
        beNat (interfaceMTUOption reply) = 0) ∧
    (∃ s, flagParse ["-mtu", "-1"] = some (.ok (s, [])) ∧ (globals s).mtu = -1) ∧
      ¬ MtuAnnounced (withMTU (-1)) ∧
      leNat (((resp (-1) []).drop 1).take 2) = 65535 ∧
      linkEndpointMTU (-1) = 4294967295 := by
  have hbad : ∀ mtu : Int, mtu < 0 ∨ 65521 < mtu → ¬ MtuAnnounced (withMTU mtu) := by
    intro mtu hmtu h
    obtain ⟨hlo, hhi⟩ : 0 ≤ mtu ∧ mtu ≤ 65521 := (mtuAnnounced_iff (withMTU mtu)).mp h
    omega
  obtain ⟨ipPool, hnew, reply, hreply⟩ := withMTU_replies 65536
  have hoption : beNat (interfaceMTUOption reply) = 0 := by
    rw [interfaceMTUOption, handler_interfaceMTU hreply]
    decide
  exact ⟨⟨flagParse_mtu 65522, hbad _ (by decide), by decide⟩,
    ⟨flagParse_mtu 65536, hbad _ (by decide), by decide, ipPool, reply, hnew, hreply, hoption⟩,
    flagParse_mtu (-1), hbad _ (by decide), by decide, by decide⟩

end GvisorTapVsock.Cmd.Gvproxy
