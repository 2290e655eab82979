/-
GvisorTapVsock.Services.Forwarder.UdpKeyTheorems — which clients share a
connection-tracking key.

`newConnTrackKey` puts the four bytes of an IPv4 address where an IPv6 address
has its last four, below twelve zero bytes, and leaves the zone out. So a key
stands for the sixteen bytes `wide ip` and the port (`newConnTrackKey_eq_iff`),
and is right about a pair of clients unless

  * they differ in their zones only, or
  * one of them has the four-byte form of an address and the other the sixteen
    bytes `::a.b.c.d`, an address of its own, or `::ffff:a.b.c.d`, the same
    address.
-/
import GvisorTapVsock.Go.NetTheorems
import GvisorTapVsock.Services.Forwarder.UdpProxy

namespace GvisorTapVsock.Services.Forwarder

open GvisorTapVsock.Go

variable {a b : UDPAddr}

/-- The clients are one UDP endpoint. -/
def UDPAddr.SameEndpoint (a b : UDPAddr) : Prop :=
  IP.equal a.ip b.ip = true ∧ a.port = b.port ∧ a.zone = b.zone

instance (a b : UDPAddr) : Decidable (a.SameEndpoint b) :=
  inferInstanceAs (Decidable (IP.equal a.ip b.ip = true ∧ a.port = b.port ∧ a.zone = b.zone))

/-- An address in sixteen bytes: twelve are put before the four of IPv4. -/
def widen (pre : List UInt8) (ip : IP) : IP := if ip.length = 4 then pre ++ ip else ip

/-- The bytes a key has before those of an IPv4 address. -/
def zeros12 : List UInt8 := List.replicate 12 0

/-- `long` has sixteen bytes, those of `short` after `pre`. -/
def UDPAddr.Widens (pre : List UInt8) (long short : UDPAddr) : Prop :=
  short.ip.length = 4 ∧ long.ip = pre ++ short.ip

/-! ## The key -/

theorem length_widen (pre : List UInt8) (hpre : pre.length = 12) (addr : UDPAddr) :
    (widen pre addr.ip).length = 16 := by
  rcases addr.length_eq with h | h <;> simp [widen, h, hpre]

/-- Two addresses are the same sixteen bytes if they are the same, or one has
the bytes of the other after the twelve. -/
theorem widen_eq_iff (pre : List UInt8) (hpre : pre.length = 12) (a b : UDPAddr) :
    widen pre a.ip = widen pre b.ip ↔ a.ip = b.ip ∨ a.Widens pre b ∨ b.Widens pre a := by
  have hlong : ∀ long short : UDPAddr, long.ip.length = 4 → ¬ long.Widens pre short := by
    rintro long short hlen ⟨-, hlong⟩
    rw [hlong, List.length_append, hpre] at hlen
    omega
  rcases a.length_eq with ha | ha <;> rcases b.length_eq with hb | hb
  · simp [widen, ha, hb, hlong a b ha, hlong b a hb]
  · have hne : a.ip ≠ b.ip := fun h => by rw [h, hb] at ha; omega
    simp [widen, ha, hb, UDPAddr.Widens, hne, eq_comm]
  · have hne : a.ip ≠ b.ip := fun h => by rw [h, hb] at ha; omega
    simp [widen, ha, hb, UDPAddr.Widens, hne]
  · simp [widen, ha, hb, UDPAddr.Widens]

/-- Eight bytes and the word they make determine each other. -/
theorem ofNat_beNat_inj {bs cs : List UInt8} (hb : bs.length = 8) (hc : cs.length = 8) :
    UInt64.ofNat (beNat bs) = UInt64.ofNat (beNat cs) ↔ bs = cs := by
  have hlt : ∀ {ds : List UInt8}, ds.length = 8 → beNat ds < 2 ^ 64 := by
    intro ds hds
    have := beNat_lt ds
    rw [hds] at this
    exact this
  rw [← UInt64.toNat_inj, UInt64.toNat_ofNat', UInt64.toNat_ofNat', Nat.mod_eq_of_lt (hlt hb),
    Nat.mod_eq_of_lt (hlt hc), beNat_inj (hb.trans hc.symm)]

theorem newConnTrackKey_wide (addr : UDPAddr) :
    newConnTrackKey addr =
      ⟨UInt64.ofNat (beNat ((widen zeros12 addr.ip).take 8)),
        UInt64.ofNat (beNat ((widen zeros12 addr.ip).drop 8)), addr.port⟩ := by
  by_cases h : addr.ip.length = 4
  · have hhigh : beNat (List.replicate 8 (0 : UInt8)) = 0 := by decide
    have hlow : beNat (List.replicate 4 (0 : UInt8) ++ addr.ip) = beNat addr.ip := by
      rw [beNat_append, show beNat (List.replicate 4 (0 : UInt8)) = 0 by decide]
      simp
    have htake : (zeros12 ++ addr.ip).take 8 = List.replicate 8 0 := rfl
    have hdrop : (zeros12 ++ addr.ip).drop 8 = List.replicate 4 0 ++ addr.ip := rfl
    rw [newConnTrackKey, if_pos h, widen, if_pos h, htake, hdrop, hhigh, hlow]
    rfl
  · rw [newConnTrackKey, if_neg h, widen, if_neg h]

/-- A key is sixteen bytes and a port. -/
theorem newConnTrackKey_eq_iff (a b : UDPAddr) :
    newConnTrackKey a = newConnTrackKey b ↔
      widen zeros12 a.ip = widen zeros12 b.ip ∧ a.port = b.port := by
  have ha := length_widen zeros12 rfl a
  have hb := length_widen zeros12 rfl b
  rw [newConnTrackKey_wide, newConnTrackKey_wide, ConnTrackKey.mk.injEq,
    ofNat_beNat_inj (by simp [ha]) (by simp [hb]), ofNat_beNat_inj (by simp [ha]) (by simp [hb]),
    ← and_assoc]
  refine and_congr_left fun _ => ⟨fun ⟨htake, hdrop⟩ => ?_, fun h => by simp [h]⟩
  rw [← List.take_append_drop 8 (widen zeros12 a.ip), htake, hdrop, List.take_append_drop]

/-! ## Endpoints -/

theorem UDPAddr.to16_eq (addr : UDPAddr) : addr.ip.to16 = some (widen IP.v4InV6 addr.ip) := by
  rcases addr.length_eq with h | h <;> simp [IP.to16, widen, h]

/-- An endpoint is sixteen bytes, a port and a zone. -/
theorem sameEndpoint_iff (a b : UDPAddr) :
    a.SameEndpoint b ↔
      widen IP.v4InV6 a.ip = widen IP.v4InV6 b.ip ∧ a.port = b.port ∧ a.zone = b.zone := by
  rw [UDPAddr.SameEndpoint, equal_iff a.to16_eq b.to16_eq]

/-- The two sets of twelve bytes differ. -/
theorem UDPAddr.Widens.not_mapped {long short : UDPAddr} (h : long.Widens zeros12 short) :
    ¬ long.Widens IP.v4InV6 short := by
  rintro ⟨-, hmapped⟩
  rw [h.2] at hmapped
  exact absurd (List.append_cancel_right hmapped) (by decide)

theorem UDPAddr.Widens.not_symm {pre pre' : List UInt8} (hpre : pre.length = 12)
    {long short : UDPAddr} (h : long.Widens pre short) : ¬ short.Widens pre' long := by
  rintro ⟨hlen, -⟩
  rw [h.2, List.length_append, hpre] at hlen
  omega

theorem UDPAddr.Widens.ne {pre : List UInt8} (hpre : pre.length = 12) {long short : UDPAddr}
    (h : long.Widens pre short) : long.ip ≠ short.ip := by
  intro heq
  have hlen := congrArg List.length (heq.symm.trans h.2)
  rw [List.length_append, hpre] at hlen
  omega

/-- **Keys and endpoints.** Two clients have equal keys exactly if they are the
same endpoint, unless their ports are equal and they are one address in two
zones, an IPv4 address and the IPv6 address `::a.b.c.d` of its bytes, or the
two forms of one IPv4 address. -/
theorem newConnTrackKey_exact_iff (a b : UDPAddr) :
    (newConnTrackKey a = newConnTrackKey b ↔ a.SameEndpoint b) ↔
      ¬ (a.port = b.port ∧
        (a.ip = b.ip ∧ a.zone ≠ b.zone ∨
          a.Widens zeros12 b ∨ b.Widens zeros12 a ∨
          (a.Widens IP.v4InV6 b ∨ b.Widens IP.v4InV6 a) ∧ a.zone = b.zone)) := by
  rw [newConnTrackKey_eq_iff, sameEndpoint_iff, widen_eq_iff zeros12 rfl,
    widen_eq_iff IP.v4InV6 rfl]
  -- at most one of the five relations between the addresses holds
  have hzeros : (a.Widens zeros12 b ∨ b.Widens zeros12 a) →
      a.ip ≠ b.ip ∧ ¬ (a.Widens IP.v4InV6 b ∨ b.Widens IP.v4InV6 a) := by
    rintro (h | h)
    · exact ⟨h.ne rfl, fun hm => hm.elim h.not_mapped (h.not_symm rfl)⟩
    · exact ⟨(h.ne rfl).symm, fun hm => hm.elim (h.not_symm rfl) h.not_mapped⟩
  have hmapped : (a.Widens IP.v4InV6 b ∨ b.Widens IP.v4InV6 a) → a.ip ≠ b.ip := by
    rintro (h | h)
    · exact h.ne rfl
    · exact (h.ne rfl).symm
  by_cases hport : a.port = b.port
  · simp only [hport, and_true, true_and]
    by_cases hz : a.Widens zeros12 b ∨ b.Widens zeros12 a
    · obtain ⟨hne, hnot⟩ := hzeros hz
      rcases hz with hz | hz <;> simp [hz, hne, hnot]
    · rw [not_or] at hz
      by_cases hm : a.Widens IP.v4InV6 b ∨ b.Widens IP.v4InV6 a
      · have hne := hmapped hm
        simp [hz, hm, hne]
      · simp [hz, hm]
  · simp [hport]

/-- `fe80::1` on the link of a zone. -/
def linkLocalAddr (zone : String) : UDPAddr :=
  ⟨[0xfe, 0x80, 0, 0, 0, 0, 0, 0, 0, 0, 0, 0, 0, 0, 0, 1], 5353, zone, Or.inr rfl⟩

/-- `10.0.0.1` in four bytes, or in sixteen after `pre`. -/
def tenAddr (pre : List UInt8) (h : pre.length = 0 ∨ pre.length = 12) : UDPAddr :=
  ⟨pre ++ [10, 0, 0, 1], 5353, "", by rcases h with h | h <;> simp [h]⟩

/-- Two neighbours on two links share a key, and so do `10.0.0.1` and
`::10.0.0.1`; `10.0.0.1` and `::ffff:10.0.0.1` are one client with two keys. -/
theorem newConnTrackKey_confuses :
    (newConnTrackKey (linkLocalAddr "eth0") = newConnTrackKey (linkLocalAddr "eth1") ∧
        ¬ (linkLocalAddr "eth0").SameEndpoint (linkLocalAddr "eth1")) ∧
      (newConnTrackKey (tenAddr [] (Or.inl rfl)) = newConnTrackKey (tenAddr zeros12 (Or.inr rfl)) ∧
        ¬ (tenAddr [] (Or.inl rfl)).SameEndpoint (tenAddr zeros12 (Or.inr rfl))) ∧
      newConnTrackKey (tenAddr [] (Or.inl rfl)) ≠ newConnTrackKey (tenAddr IP.v4InV6 (Or.inr rfl)) ∧
        (tenAddr [] (Or.inl rfl)).SameEndpoint (tenAddr IP.v4InV6 (Or.inr rfl)) := by
  decide

end GvisorTapVsock.Services.Forwarder
