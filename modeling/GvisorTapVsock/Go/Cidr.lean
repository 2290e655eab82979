/-
GvisorTapVsock.Go.Cidr — the host addresses of a network (`cidr.Host`,
`cidr.AddressCount` of go-cidr).

The library computes with big integers: a host number is OR-ed into the
address of the network, shifted by the bits behind the family's length. For a
network in four bytes the shift is zero. For an IPv4 network in SIXTEEN bytes
the family is IPv4, the length 128, and the number lands in the first four
bytes.
-/
import Mathlib.Algebra.Order.Ring.Nat
import GvisorTapVsock.Go.NetTheorems

namespace GvisorTapVsock.Go

/-- `cidr.AddressCount(network)`: `1 << hostLen` in a `uint64`. -/
def addressCount (network : IPNet) : Nat := 2 ^ network.hostLen % 2 ^ 64

/-- `insertNumIntoIP(ip, bigNum, prefixLen)`. -/
def insertNumIntoIP (ip : IP) (num prefixLen : Nat) : IP :=
  beBytes ip.length (beNat ip ||| num <<< (8 * ip.length - prefixLen))

/-- `cidr.Host(base, num)` for `num ≥ 0`; `none` is its error. -/
def host (base : IPNet) (num : Nat) : Option IP :=
  if 2 ^ base.hostLen - 1 < num then none
  else some (insertNumIntoIP base.ip num (if base.ip.to4.isSome then 32 else 128))

theorem length_of_host {base : IPNet} {num : Nat} {ip : IP} (h : host base num = some ip) :
    ip.length = base.ip.length := by
  unfold host at h
  split at h
  · exact absurd h (by simp)
  · rw [← Option.some.inj h, insertNumIntoIP, length_beBytes]

/-- A host address has a text `ParseIP` reads. -/
theorem to16_of_host {base : IPNet} {num : Nat} {ip : IP} (h : host base num = some ip) :
    ∃ x, ip.to16 = some x := by
  have hlen := length_of_host h
  rcases base.length_ip with h4 | h16
  · exact ⟨_, by rw [IP.to16, if_pos (by omega)]⟩
  · exact ⟨_, by rw [IP.to16, if_neg (by omega), if_pos (by omega)]⟩

/-! ## IPv4 networks -/

/-- The address of a network with `i` in its host bits. -/
def IPNet.hostAddress (n : IPNet) (i : Nat) : IP := beBytes n.ip.length (beNat n.ip + i)

section IPv4

variable {base : IPNet} (h4 : base.ip.length = 4)

include h4

theorem hostLen_le : base.hostLen ≤ 32 := by
  rw [IPNet.hostLen, h4]
  omega

theorem addressCount_eq : addressCount base = 2 ^ base.hostLen := by
  rw [addressCount, Nat.mod_eq_of_lt]
  exact Nat.pow_lt_pow_right (by decide) (Nat.lt_of_le_of_lt (hostLen_le h4) (by decide))

/-- The host bits of the network's address are clear, so a host number is
added where it is OR-ed in. -/
theorem host_eq (i : Nat) :
    host base i = if i < 2 ^ base.hostLen then some (base.hostAddress i) else none := by
  have hpos : 0 < 2 ^ base.hostLen := Nat.two_pow_pos _
  have hsome : base.ip.to4.isSome = true := by rw [IP.to4, if_pos h4]; rfl
  rw [host]
  by_cases hi : i < 2 ^ base.hostLen
  · rw [if_neg (by omega), if_pos hi, hsome, if_pos rfl, insertNumIntoIP, h4, Nat.shiftLeft_zero,
      IPNet.hostAddress, h4]
    obtain ⟨q, hq⟩ := Nat.dvd_of_mod_eq_zero base.masked
    rw [← IPNet.hostLen] at hq
    rw [hq, Nat.two_pow_add_eq_or_of_lt hi]
  · rw [if_pos (by omega), if_neg hi]

/-- A host address fits in the address. -/
theorem beNat_hostAddress {i : Nat} (hi : i < 2 ^ base.hostLen) :
    beNat (base.hostAddress i) = beNat base.ip + i := by
  obtain ⟨q, hq⟩ := Nat.dvd_of_mod_eq_zero base.masked
  rw [← IPNet.hostLen] at hq
  have hlt := beNat_lt base.ip
  have hpow : 256 ^ base.ip.length = 2 ^ base.hostLen * 2 ^ (32 - base.hostLen) := by
    rw [h4, ← Nat.pow_add, Nat.add_sub_cancel' (hostLen_le h4)]
    rfl
  -- the next multiple of the block size is still in range
  have hq' : q + 1 ≤ 2 ^ (32 - base.hostLen) := by
    rw [hq, hpow] at hlt
    exact Nat.lt_of_mul_lt_mul_left hlt
  have hblock := Nat.mul_le_mul_left (2 ^ base.hostLen) hq'
  rw [IPNet.hostAddress, beNat_beBytes, Nat.mod_eq_of_lt]
  rw [hpow, hq]
  rw [Nat.mul_add, Nat.mul_one] at hblock
  omega

/-- Different host numbers have different texts. -/
theorem hostAddress_string_inj {i j : Nat} (hi : i < 2 ^ base.hostLen)
    (hj : j < 2 ^ base.hostLen)
    (h : (base.hostAddress i).string = (base.hostAddress j).string) : i = j := by
  have hlen : ∀ k, (base.hostAddress k).length = 4 := fun k => by
    rw [IPNet.hostAddress, length_beBytes, h4]
  have h16 : ∀ k, (base.hostAddress k).to16 = some (IP.v4InV6 ++ base.hostAddress k) := fun k => by
    rw [IP.to16, if_pos (hlen k)]
  have heq := List.append_cancel_left ((string_inj (h16 i) (h16 j)).mp h)
  have hnat := congrArg beNat heq
  rw [beNat_hostAddress h4 hi, beNat_hostAddress h4 hj] at hnat
  omega

end IPv4

/-! ## IPv4 networks in IPv6 form -/

/-- The address of such a network, as a number. -/
theorem beNat_of_to4 {ip v : IP} (hlen : ip.length = 16) (h : ip.to4 = some v) :
    beNat ip = 65535 * 2 ^ 32 + beNat v := by
  have h16 := to16_of_to4 h
  rw [IP.to16, if_neg (by omega), if_pos hlen, Option.some.injEq] at h16
  rw [h16, beNat_append, length_of_to4 h]
  rfl

/-- Its host bits lie within the IPv4 part: the mask keeps the sixteen ones. -/
theorem hostLen_le_of_to4 {base : IPNet} {v : IP} (hlen : base.ip.length = 16)
    (h : base.ip.to4 = some v) : base.hostLen ≤ 32 := by
  by_contra hgt
  have hmasked := base.masked
  have hdvd : 2 ^ 33 ∣ beNat base.ip := by
    refine Nat.dvd_trans (Nat.pow_dvd_pow 2 ?_) (Nat.dvd_of_mod_eq_zero hmasked)
    rw [← IPNet.hostLen]
    omega
  have hv := beNat_lt v
  rw [length_of_to4 h] at hv
  rw [beNat_of_to4 hlen h] at hdvd
  omega

/-- **Its first host address is no IPv4 address**: the number lands in front of
the sixteen ones. -/
theorem host_one_of_to4 {base : IPNet} {v : IP} (hlen : base.ip.length = 16)
    (h : base.ip.to4 = some v) (hhosts : base.hostLen ≠ 0) :
    ∃ ip, host base 1 = some ip ∧ ip.length = 16 ∧ ip.to4 = none := by
  have hpow : 2 ≤ 2 ^ base.hostLen := Nat.le_self_pow hhosts 2
  refine ⟨_, by rw [host, if_neg (by omega)], ?_, ?_⟩
  · rw [insertNumIntoIP, length_beBytes, hlen]
  · rw [h, Option.isSome_some, if_pos rfl, insertNumIntoIP, hlen]
    cases hto4 : IP.to4 (beBytes 16 (beNat base.ip ||| 1 <<< (8 * 16 - 32))) with
    | none => rfl
    | some w =>
      have hnat := beNat_of_to4 (length_beBytes _ _) hto4
      have hw := beNat_lt w
      rw [length_of_to4 hto4] at hw
      have hlt : beNat base.ip < 2 ^ 128 := by
        have := beNat_lt base.ip
        rwa [hlen] at this
      have hor : beNat base.ip ||| 1 <<< (8 * 16 - 32) < 2 ^ 128 :=
        Nat.or_lt_two_pow hlt (by decide)
      rw [beNat_beBytes, Nat.mod_eq_of_lt (by simpa using hor)] at hnat
      have hge : 1 <<< (8 * 16 - 32) ≤ beNat base.ip ||| 1 <<< (8 * 16 - 32) := Nat.right_le_or
      rw [hnat] at hge
      have hbig : 1 <<< (8 * 16 - 32) = 2 ^ 96 := by decide
      omega

end GvisorTapVsock.Go
