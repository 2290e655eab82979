/-
GvisorTapVsock.Tap.LinkEndpoint — what the gateway's stack sends into the
switch (`NewLinkEndpoint`, `WritePackets`, `writePacket` in `pkg/tap/link.go`),
with `header.ARP` and `header.Ethernet.Encode` under it.

Every packet gets an Ethernet header. Then the bytes of its network header are
read as ARP, whatever they are: a valid ARP reply passes only if the text of its
sender is the gateway's or a virtual address, as the configuration writes them.

Two things make the filter exact. An IPv4 header begins with the nibble 4 where
ARP has the hardware type 1, so no IPv4 packet is taken for ARP
(`not_arpIsValid_of_ipv4`). And two IPv4 addresses have the same text only if
they are the same, so the comparison of texts is one of addresses
(`writePacket_eq`).
-/
import GvisorTapVsock.Go.Map
import GvisorTapVsock.Go.NetTheorems
import GvisorTapVsock.Tap.Ethernet

namespace GvisorTapVsock.Tap

open GvisorTapVsock.Go

/-! ## Headers -/

/-- `header.ARPSize`. -/
def arpSize : Nat := 28

/-- `header.ARPReply`. -/
def arpReply : Nat := 2

/-- `header.IPv4ProtocolNumber`. -/
def ipv4ProtocolNumber : Nat := 0x0800

/-- `a.IsValid()`: ARP for IPv4 over Ethernet. -/
def arpIsValid (a : List UInt8) : Bool :=
  arpSize ≤ a.length ∧ beNat (a.take 2) = 1 ∧ beNat ((a.drop 2).take 2) = ipv4ProtocolNumber ∧
    a[4]? = some 6 ∧ a[5]? = some 4

/-- `a.Op()`, of a valid header. -/
def arpOp (a : List UInt8) : Nat := beNat ((a.drop 6).take 2)

/-- `a.ProtocolAddressSender()`, of a valid header. -/
def protocolAddressSender (a : List UInt8) : IP := (a.drop 14).take 4

/-- `copy(b[:EthernetAddressSize], a)` on a fresh header, which is zero. -/
def copyAddress (a : LinkAddress) : List UInt8 :=
  a.take ethernetAddressSize ++ List.replicate (ethernetAddressSize - a.length) 0

/-- `header.Ethernet.Encode` on a fresh header; the type is cut to 16 bits. -/
def encodeEthernet (type : UInt32) (srcAddr dstAddr : LinkAddress) : List UInt8 :=
  copyAddress dstAddr ++ copyAddress srcAddr ++ beBytes 2 type.toNat

/-! ## The endpoint -/

/-- `LinkEndpoint`, the fields that decide what is sent. -/
structure LinkEndpoint where
  mac : LinkAddress
  ip : String
  virtualIPs : GoMap String Unit

/-- `NewLinkEndpoint(debug, mtu, macAddress, ip, virtualIPs)`; `none` is the
error of `net.ParseMAC`. -/
def newLinkEndpoint (macAddress ip : String) (virtualIPs : List String) : Option LinkEndpoint :=
  (parseMAC macAddress).map (fun linkAddr =>
    ⟨linkAddr, ip, virtualIPs.foldl (fun set virtualIP => set.insert virtualIP ()) ∅⟩)

/-- `e.MTU()` of an endpoint made with `mtu`, an `int`. -/
def linkEndpointMTU (mtu : Int) : UInt32 := UInt32.ofNat (mtu % 4294967296).toNat

/-- `stack.RouteInfo`, the link addresses. -/
structure RouteInfo where
  localLinkAddress : LinkAddress
  remoteLinkAddress : LinkAddress

/-- `stack.PacketBuffer` as it is handed to the endpoint. -/
structure PacketBuffer where
  egressRoute : RouteInfo
  networkProtocolNumber : UInt32
  networkHeader : List UInt8
  /-- the transport header and the data -/
  payload : List UInt8

/-- `a.String()`, for an address of four bytes. -/
def addressString (a : IP) : String := String.ofList (text4 a)

/-- The address a packet is sent from: the route's, if it is set. -/
def LinkEndpoint.srcAddr (e : LinkEndpoint) (r : RouteInfo) : LinkAddress :=
  if r.localLinkAddress ≠ [] then r.localLinkAddress else e.mac

/-- The bytes of a packet after its link header has been pushed. -/
def LinkEndpoint.frame (e : LinkEndpoint) (p : PacketBuffer) : List UInt8 :=
  encodeEthernet p.networkProtocolNumber (e.srcAddr p.egressRoute) p.egressRoute.remoteLinkAddress
    ++ p.networkHeader ++ p.payload

/-- What `DeliverNetworkPacket` of the switch is called with. -/
structure Delivered where
  protocol : UInt32
  frame : List UInt8
  deriving DecidableEq

/-- `e.writePacket(r, protocol, pkt)`: the call of the switch, unless the packet
is dropped. The error is nil on every path. -/
def LinkEndpoint.writePacket (e : LinkEndpoint) (p : PacketBuffer) : Option Delivered :=
  let h := p.networkHeader
  if arpIsValid h ∧ arpOp h = arpReply ∧
      addressString (protocolAddressSender h) ≠ e.ip ∧
      e.virtualIPs.lookup (addressString (protocolAddressSender h)) = none
  -- dropping spoofing packets from the gateway
  then none
  else some ⟨p.networkProtocolNumber, e.frame p⟩

/-- The loop of `WritePackets`, with the count and the calls so far. -/
def LinkEndpoint.writePacketsFrom (e : LinkEndpoint) (n : Nat) (calls : List Delivered) :
    List PacketBuffer → Nat × List Delivered
  | [] => (n, calls)
  | p :: pkts => e.writePacketsFrom (n + 1) (calls ++ (e.writePacket p).toList) pkts

/-- `e.WritePackets(pkts)`: the count it returns, and the calls of the switch. -/
def LinkEndpoint.writePackets (e : LinkEndpoint) (pkts : List PacketBuffer) :
    Nat × List Delivered :=
  e.writePacketsFrom 0 [] pkts

/-! ## The filter -/

/-- The packet is a valid ARP reply whose sender is none of the addresses. -/
def PacketBuffer.foreignReply (p : PacketBuffer) (addrs : List IP) : Bool :=
  arpIsValid p.networkHeader ∧ arpOp p.networkHeader = arpReply ∧
    protocolAddressSender p.networkHeader ∉ addrs

/-- The packet has an IPv4 header. -/
def PacketBuffer.isIPv4 (p : PacketBuffer) : Prop :=
  ∃ b rest, p.networkHeader = b :: rest ∧ b.toNat / 16 = 4

/-- The first byte of valid ARP is zero. -/
theorem not_arpIsValid_of_ipv4 {p : PacketBuffer} (h : p.isIPv4) :
    arpIsValid p.networkHeader = false := by
  obtain ⟨b, rest, hheader, hnibble⟩ := h
  rw [hheader]
  cases rest with
  | nil => rfl
  | cons c rest =>
    have htype : beNat ((b :: c :: rest).take 2) = b.toNat * 256 + c.toNat := by
      simp [beNat, leNat]
      omega
    simp only [arpIsValid, htype]
    simp
    omega

theorem length_protocolAddressSender {a : List UInt8} (h : arpIsValid a = true) :
    (protocolAddressSender a).length = 4 := by
  have hlen : arpSize ≤ a.length := by
    simp only [arpIsValid, decide_eq_true_eq] at h
    exact h.1
  simp only [arpSize] at hlen
  rw [protocolAddressSender, List.length_take, List.length_drop]
  omega

theorem addressString_eq {a : IP} (h : a.length = 4) : addressString a = a.string := by
  simp [addressString, IP.string, IP.to4, h]

/-- IPv4 addresses are compared by their texts. -/
theorem addressString_inj {a b : IP} (ha : a.length = 4) (hb : b.length = 4) :
    addressString a = addressString b ↔ a = b := by
  have h16 : ∀ {x : IP}, x.length = 4 → x.to16 = some (IP.v4InV6 ++ x) := by
    intro x hx
    simp [IP.to16, hx]
  rw [addressString_eq ha, addressString_eq hb, string_inj (h16 ha) (h16 hb)]
  simp

/-- The set that `NewLinkEndpoint` makes of a slice. -/
theorem lookup_foldl_insert (texts : List String) (set : GoMap String Unit) (text : String) :
    (texts.foldl (fun set t => set.insert t ()) set).lookup text = none ↔
      text ∉ texts ∧ set.lookup text = none := by
  induction texts generalizing set with
  | nil => simp
  | cons t texts ih =>
    rw [List.foldl_cons, ih, GoMap.lookup_insert_eq]
    by_cases ht : text = t <;> simp [ht]

section Endpoint

variable {macAddress : String} {gatewayIP : IP} {virtualIPs : List IP} {e : LinkEndpoint}

/-- What the configuration makes of the endpoint. -/
theorem newLinkEndpoint_eq_some {ip : String} {texts : List String}
    (h : newLinkEndpoint macAddress ip texts = some e) :
    parseMAC macAddress = some e.mac ∧ e.ip = ip ∧
      ∀ text, e.virtualIPs.lookup text = none ↔ text ∉ texts := by
  obtain ⟨mac, hmac, rfl⟩ := Option.map_eq_some_iff.mp h
  refine ⟨hmac, rfl, fun text => ?_⟩
  rw [lookup_foldl_insert]
  simp

/-- The texts in the configuration stand for their addresses. -/
theorem mem_map_string_iff {a : IP} (ha : a.length = 4) {addrs : List IP}
    (haddrs : ∀ x ∈ addrs, x.length = 4) :
    addressString a ∈ addrs.map IP.string ↔ a ∈ addrs := by
  rw [List.mem_map]
  constructor
  · rintro ⟨x, hx, heq⟩
    rw [← addressString_eq (haddrs x hx), addressString_inj (haddrs x hx) ha] at heq
    exact heq ▸ hx
  · intro hmem
    exact ⟨a, hmem, (addressString_eq ha).symm⟩

/-- A packet is dropped exactly if it is a reply in the name of another. -/
theorem writePacket_eq (hg : gatewayIP.length = 4) (hv : ∀ v ∈ virtualIPs, v.length = 4)
    (he : newLinkEndpoint macAddress gatewayIP.string (virtualIPs.map IP.string) = some e)
    (p : PacketBuffer) :
    e.writePacket p =
      if p.foreignReply (gatewayIP :: virtualIPs) then none
      else some ⟨p.networkProtocolNumber, e.frame p⟩ := by
  obtain ⟨-, hip, hset⟩ := newLinkEndpoint_eq_some he
  rw [LinkEndpoint.writePacket, hip]
  simp only [hset]
  by_cases hvalid : arpIsValid p.networkHeader = true
  · have hlen := length_protocolAddressSender hvalid
    have hgate : addressString (protocolAddressSender p.networkHeader) = gatewayIP.string ↔
        protocolAddressSender p.networkHeader = gatewayIP := by
      rw [← addressString_eq hg, addressString_inj hlen hg]
    simp only [PacketBuffer.foreignReply, hvalid, ne_eq, hgate, mem_map_string_iff hlen hv,
      List.mem_cons, not_or, decide_eq_true_eq]
  · simp [PacketBuffer.foreignReply, hvalid]

/-- The loop counts every packet, and calls the switch in order. -/
theorem writePacketsFrom_eq (e : LinkEndpoint) (pkts : List PacketBuffer) (n : Nat)
    (calls : List Delivered) :
    e.writePacketsFrom n calls pkts = (n + pkts.length, calls ++ pkts.filterMap e.writePacket) := by
  induction pkts generalizing n calls with
  | nil => simp [LinkEndpoint.writePacketsFrom]
  | cons p pkts ih =>
    rw [LinkEndpoint.writePacketsFrom, ih, List.length_cons, List.filterMap_cons]
    cases e.writePacket p <;> simp [Nat.add_assoc, Nat.add_comm 1]

/-! ## The Ethernet header -/

theorem length_copyAddress (a : LinkAddress) : (copyAddress a).length = 6 := by
  simp only [copyAddress, ethernetAddressSize, List.length_append, List.length_take,
    List.length_replicate]
  omega

theorem copyAddress_of_length {a : LinkAddress} (h : a.length = 6) : copyAddress a = a := by
  simp [copyAddress, ethernetAddressSize, h, List.take_of_length_le]

/-- The fields of a frame, as the switch reads them. -/
theorem frame_fields (e : LinkEndpoint) (p : PacketBuffer) :
    destinationAddress (viewSlice (e.frame p))
        = .ok (copyAddress p.egressRoute.remoteLinkAddress) ∧
      sourceAddress (viewSlice (e.frame p)) = .ok (copyAddress (e.srcAddr p.egressRoute)) ∧
      ethernetType (viewSlice (e.frame p)) = .ok (p.networkProtocolNumber.toNat % 65536) ∧
      (e.frame p).drop ethernetMinimumSize = p.networkHeader ++ p.payload := by
  have hdst := length_copyAddress p.egressRoute.remoteLinkAddress
  have hsrc := length_copyAddress (e.srcAddr p.egressRoute)
  have htype : (beBytes 2 p.networkProtocolNumber.toNat).length = 2 := length_beBytes _ _
  have hlen : 14 ≤ (e.frame p).length := by
    simp only [LinkEndpoint.frame, encodeEthernet, List.length_append, hdst, hsrc, htype]
    omega
  have hbytes : e.frame p = copyAddress p.egressRoute.remoteLinkAddress ++
      (copyAddress (e.srcAddr p.egressRoute) ++
        (beBytes 2 p.networkProtocolNumber.toNat ++ (p.networkHeader ++ p.payload))) := by
    simp [LinkEndpoint.frame, encodeEthernet]
  refine ⟨?_, ?_, ?_, ?_⟩
  · rw [destinationAddress_of_le _ (by simp; omega), toList_viewSlice, hbytes,
      List.take_left' hdst]
  · rw [sourceAddress_of_le _ (by simp; omega), toList_viewSlice, hbytes, List.drop_left' hdst,
      List.take_left' hsrc]
  · have hdrop : (e.frame p).drop 12
        = beBytes 2 p.networkProtocolNumber.toNat ++ (p.networkHeader ++ p.payload) := by
      rw [hbytes, ← List.append_assoc]
      exact List.drop_left' (by simp [hdst, hsrc])
    rw [ethernetType_of_le _ (by simpa using hlen), toList_viewSlice, hdrop,
      List.take_left' htype, beNat_beBytes]
    rfl
  · rw [hbytes, ← List.append_assoc, ← List.append_assoc]
    exact List.drop_left' (by simp [hdst, hsrc, htype, ethernetMinimumSize])

end Endpoint

/-- **What the gateway sends.** Of every batch, the switch gets in order exactly
the packets that are no valid ARP reply in the name of an address other than
the gateway's and the virtual ones; no IPv4 packet is among those dropped. Each
frame has the addresses of its route, the gateway's own where none is set, and
its protocol; the whole batch is counted. -/
theorem writePackets_exact (macAddress : String) (gatewayIP : IP) (virtualIPs : List IP)
    (hg : gatewayIP.length = 4) (hv : ∀ v ∈ virtualIPs, v.length = 4) (e : LinkEndpoint)
    (he : newLinkEndpoint macAddress gatewayIP.string (virtualIPs.map IP.string) = some e)
    (pkts : List PacketBuffer) :
    (e.writePackets pkts).1 = pkts.length ∧
      (e.writePackets pkts).2 =
        (pkts.filter (fun p => !p.foreignReply (gatewayIP :: virtualIPs))).map
          (fun p => ⟨p.networkProtocolNumber, e.frame p⟩) ∧
      (∀ p ∈ pkts, p.isIPv4 → p.foreignReply (gatewayIP :: virtualIPs) = false) ∧
      parseMAC macAddress = some e.mac ∧
      (∀ p ∈ pkts,
        destinationAddress (viewSlice (e.frame p))
            = .ok (copyAddress p.egressRoute.remoteLinkAddress) ∧
          sourceAddress (viewSlice (e.frame p)) =
            .ok (copyAddress (if p.egressRoute.localLinkAddress ≠ []
              then p.egressRoute.localLinkAddress else e.mac)) ∧
          ethernetType (viewSlice (e.frame p)) = .ok (p.networkProtocolNumber.toNat % 65536) ∧
          (e.frame p).drop ethernetMinimumSize = p.networkHeader ++ p.payload) ∧
      ∀ a : LinkAddress, a.length = 6 → copyAddress a = a := by
  rw [LinkEndpoint.writePackets, writePacketsFrom_eq]
  refine ⟨by simp, ?_, ?_, (newLinkEndpoint_eq_some he).1, fun p _ => frame_fields e p,
    fun a ha => copyAddress_of_length ha⟩
  · rw [List.nil_append, ← List.filterMap_eq_map, List.filterMap_filter]
    refine List.filterMap_congr fun p _ => ?_
    rw [writePacket_eq hg hv he]
    cases p.foreignReply (gatewayIP :: virtualIPs) <;> rfl
  · intro p _ hipv4
    simp [PacketBuffer.foreignReply, not_arpIsValid_of_ipv4 hipv4]

/-- An ARP reply in the name of an address. -/
def replyFrom (sender : IP) : PacketBuffer where
  egressRoute := ⟨[], [0x5a, 0x94, 0xef, 0xe4, 0x0c, 0xee]⟩
  networkProtocolNumber := 0x0806
  networkHeader := [0, 1, 8, 0, 6, 4, 0, 2, 0x5a, 0x94, 0xef, 0xe4, 0x0c, 0xdd] ++ sender ++
    [0x5a, 0x94, 0xef, 0xe4, 0x0c, 0xee, 192, 168, 127, 2]
  payload := []

/-- Of three replies the gateway sends those in its own name and in the name of
its virtual address. -/
theorem writePackets_three_replies :
    ∃ e, newLinkEndpoint "5a:94:ef:e4:0c:dd" (IP.string [192, 168, 127, 1])
        ([[192, 168, 127, 254]].map IP.string) = some e ∧
      (e.writePackets [replyFrom [192, 168, 127, 1], replyFrom [10, 0, 0, 1],
          replyFrom [192, 168, 127, 254]]).2
        = [⟨0x0806, e.frame (replyFrom [192, 168, 127, 1])⟩,
          ⟨0x0806, e.frame (replyFrom [192, 168, 127, 254])⟩] := by
  have hsome : (newLinkEndpoint "5a:94:ef:e4:0c:dd" (IP.string [192, 168, 127, 1])
      ([[192, 168, 127, 254]].map IP.string)).isSome = true := by decide
  obtain ⟨e, he⟩ := Option.isSome_iff_exists.mp hsome
  exact ⟨e, he, (writePackets_exact "5a:94:ef:e4:0c:dd" [192, 168, 127, 1] [[192, 168, 127, 254]]
    rfl (by simp) e he _).2.1⟩

end GvisorTapVsock.Tap
