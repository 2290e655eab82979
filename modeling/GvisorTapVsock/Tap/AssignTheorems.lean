/-
GvisorTapVsock.Tap.AssignTheorems — which address a MAC without a lease gets,
in an IPv4 subnet.

The search of `GetOrAssign` runs over the host numbers 1 to `count - 1`, so
what it assigns is the LEAST free host number (`IsLeast`), and it fails exactly
if there is none. The range ends with all host bits one:

* `getOrAssign_least_free` — the search, for every table;
* `assigned_proper_iff` — a new address is neither the address of the network
  nor the directed broadcast address exactly if a host number before the last
  was free.
-/
import Mathlib.Order.Bounds.Basic
import Mathlib.Order.WellFounded
import GvisorTapVsock.Tap.IPPoolTheorems

namespace GvisorTapVsock.Tap

open GvisorTapVsock.Go
open GvisorTapVsock.Lts

namespace IPPool

variable {p p' : IPPool} {order : List String} {mac : String}

/-- Somebody holds the host number. -/
def HostHeld (p : IPPool) (i : Nat) : Prop := ∃ mac, p.Holds mac (p.base.hostAddress i)

/-- The host numbers `GetOrAssign` may assign. -/
def freeHosts (p : IPPool) : Set Nat :=
  {i | 1 ≤ i ∧ i < 2 ^ p.base.hostLen ∧ ¬ p.HostHeld i}

theorem mem_leases_iff (p : IPPool) (i : Nat) :
    (p.base.hostAddress i).string ∈ p.leases ↔ p.HostHeld i :=
  GoMap.mem_iff_lookup _ _

section IPv4

variable (h4 : p.base.ip.length = 4)

include h4

/-- An address of the search is the host address of its number. -/
theorem eq_hostAddress {i : Nat} {ip : IP} (h : host p.base i = some ip) :
    i < 2 ^ p.base.hostLen ∧ ip = p.base.hostAddress i := by
  rw [host_eq h4] at h
  split at h
  · next hi => exact ⟨hi, (Option.some.inj h).symm⟩
  · simp at h

/-- What `GetOrAssign` assigns is the least free host number. -/
theorem Assigned.isLeast {ip : IP} (h : Assigned p mac (some ip) p')
    (hnone : ∀ k, p.leases.lookup k ≠ some mac) :
    (∃ i, IsLeast p.freeHosts i ∧ ip = p.base.hostAddress i) ∧
      p' = { p with leases := p.leases.insert ip.string mac } := by
  cases h with
  | held holds => exact absurd holds (hnone _)
  | fresh _ hpos hlt hhost hfree hsmallest =>
    obtain ⟨hi, rfl⟩ := eq_hostAddress h4 hhost
    rw [mem_leases_iff] at hfree
    refine ⟨⟨_, ⟨⟨hpos, hi, hfree⟩, ?_⟩, rfl⟩, rfl⟩
    rintro l ⟨hl, hlt', hlfree⟩
    by_contra hlt''
    have hl' := hsmallest l hl (by omega) _ (by rw [host_eq h4, if_pos hlt'])
    exact hlfree ((mem_leases_iff p l).mp hl')

/-- It fails only if no host number is free. -/
theorem Assigned.freeHosts_eq_empty (hcount : p.count = addressCount p.base)
    (h : Assigned p mac none p') :
    p.freeHosts = ∅ ∧ p' = p := by
  cases h with
  | exhausted _ hfull =>
    refine ⟨Set.eq_empty_iff_forall_notMem.mpr ?_, rfl⟩
    rintro i ⟨hpos, hlt, hfree⟩
    have hrange : i < 1 + (p.count - 1) := by
      rw [hcount, addressCount_eq h4]
      omega
    have hmem := mem_of_firstFree_eq_none hfull i hpos hrange _ (by rw [host_eq h4, if_pos hlt])
    exact hfree ((mem_leases_iff p i).mp hmem)

end IPv4

theorem Assigned.base {a : Option IP} (h : Assigned p mac a p') :
    p'.base = p.base ∧ p'.count = p.count := by
  cases h <;> exact ⟨rfl, rfl⟩

/-- The base and the count stay what `NewIPPool` made them. -/
theorem base_of_reach {base : IPNet} (h : Reach opStep (newIPPool base) p) :
    p.base = base ∧ p.count = addressCount base := by
  induction h with
  | refl => exact ⟨rfl, rfl⟩
  | step op _ _ hs ih =>
    cases op with
    | reserve ip mac =>
      rw [← Option.some.inj hs]
      exact ih
    | call c =>
      cases c with
      | getOrAssign mac order =>
        simp only [opStep, poolStep] at hs
        split at hs
        · next horder =>
          rw [← Option.some.inj hs]
          obtain ⟨hbase, hcount⟩ := (getOrAssign_assigned horder mac).base
          exact ⟨hbase.trans ih.1, hcount.trans ih.2⟩
        · simp at hs
      | release given order =>
        simp only [opStep, poolStep] at hs
        split at hs
        · rw [← Option.some.inj hs]
          unfold release
          split
          · split <;> exact ih
          · exact ih
        · simp at hs

end IPPool

/-- **A MAC without a lease gets the least host number that is free**, an error
exactly if none is, and no other entry of the table changes. -/
theorem getOrAssign_least_free (p : IPPool) (h4 : p.base.ip.length = 4)
    (hcount : p.count = addressCount p.base) (order : List String)
    (horder : p.leases.RangeOrder order) (mac : String)
    (hnone : ∀ k, p.leases.lookup k ≠ some mac) :
    (∀ ip, (p.getOrAssign order mac).1 = some ip ↔
      ∃ i, IsLeast p.freeHosts i ∧ ip = p.base.hostAddress i)
    ∧ ((p.getOrAssign order mac).1 = none ↔ p.freeHosts = ∅)
    ∧ ((p.getOrAssign order mac).1 = none → (p.getOrAssign order mac).2 = p)
    ∧ ∀ ip, (p.getOrAssign order mac).1 = some ip → ∀ k,
      (p.getOrAssign order mac).2.leases.lookup k =
        if k = ip.string then some mac else p.leases.lookup k := by
  have h := IPPool.getOrAssign_assigned horder mac
  cases hget : (p.getOrAssign order mac).1 with
  | none =>
    rw [hget] at h
    obtain ⟨hempty, hsame⟩ := IPPool.Assigned.freeHosts_eq_empty h4 hcount h
    refine ⟨fun ip => ⟨by simp, ?_⟩, ⟨fun _ => hempty, fun _ => rfl⟩, fun _ => hsame, by simp⟩
    rintro ⟨i, hleast, -⟩
    rw [hempty] at hleast
    exact absurd hleast.1 (Set.notMem_empty i)
  | some a =>
    rw [hget] at h
    obtain ⟨⟨i, hleast, rfl⟩, hsame⟩ := h.isLeast h4 hnone
    refine ⟨fun ip => ⟨?_, ?_⟩, ⟨by simp, ?_⟩, by simp, ?_⟩
    · intro hip
      exact ⟨i, hleast, (Option.some.inj hip).symm⟩
    · rintro ⟨j, hj, rfl⟩
      rw [hleast.unique hj]
    · intro hempty
      rw [hempty] at hleast
      exact absurd hleast.1 (Set.notMem_empty i)
    · intro ip hip k
      rw [← Option.some.inj hip, hsame]
      exact GoMap.lookup_insert_eq _ _ _ _

/-- A network of four addresses. -/
def smallNet : IPNet := ⟨[192, 168, 127, 0], 30, Or.inl rfl, by decide, by decide⟩

/-- Its pool, with the two addresses before the last held. -/
def smallPool : IPPool :=
  ((newIPPool smallNet).reserve [192, 168, 127, 1] "5a:94:ef:e4:0c:dd").reserve
    [192, 168, 127, 2] "5a:94:ef:e4:0c:ee"

theorem getOrAssign_last_free : IsLeast smallPool.freeHosts 3 := by
  have hnone : ∀ k, smallPool.leases.lookup k ≠ some "5a:94:ef:e4:0c:ff" := by
    intro k
    simp only [smallPool, IPPool.reserve, newIPPool, GoMap.lookup_insert_eq, AList.lookup_empty]
    split
    · decide
    · split <;> decide
  obtain ⟨i, hleast, hip⟩ := ((getOrAssign_least_free smallPool rfl rfl
    ["192.168.127.2", "192.168.127.1"] (by decide +kernel) "5a:94:ef:e4:0c:ff" hnone).1
    [192, 168, 127, 3]).mp (by decide +kernel)
  have hlast : IP.string (smallNet.hostAddress 3) = (smallNet.hostAddress i).string :=
    congrArg IP.string hip
  rwa [← hostAddress_string_inj rfl (by decide) hleast.1.2.1 hlast] at hleast

/-! ## The first and the last address -/

/-- The directed broadcast address: all host bits one. -/
def broadcastAddress (n : IPNet) : IP := n.hostAddress (2 ^ n.hostLen - 1)

theorem hostAddress_zero (n : IPNet) : n.hostAddress 0 = n.ip := by
  rw [IPNet.hostAddress, Nat.add_zero, beBytes_beNat]

/-- **A new address is neither the address of the network nor the broadcast
address exactly if a host number before the last is free.** -/
theorem assigned_proper_iff (base : IPNet) (h4 : base.ip.length = 4) (hones : base.ones ≤ 30)
    (p : IPPool) (hreach : Reach opStep (newIPPool base) p) (order : List String)
    (horder : p.leases.RangeOrder order) (mac : String)
    (hnew : ∀ k, p.leases.lookup k ≠ some mac) (ip : IP)
    (hget : (p.getOrAssign order mac).1 = some ip) :
    (ip ≠ base.ip ∧ ip ≠ broadcastAddress base) ↔
      ∃ i, 1 ≤ i ∧ i ≤ 2 ^ base.hostLen - 2 ∧ ¬ p.HostHeld i := by
  obtain ⟨rfl, -⟩ := IPPool.base_of_reach hreach
  have hassigned := IPPool.getOrAssign_assigned horder mac
  rw [hget] at hassigned
  obtain ⟨⟨i, hleast, rfl⟩, -⟩ := hassigned.isLeast h4 hnew
  obtain ⟨hpos, hlt, hfree⟩ := hleast.1
  have hinj : ∀ j, j < 2 ^ p.base.hostLen → p.base.hostAddress i = p.base.hostAddress j → i = j :=
    fun j hj heq => hostAddress_string_inj h4 hlt hj (congrArg IP.string heq)
  constructor
  · rintro ⟨-, hlast⟩
    refine ⟨i, hpos, ?_, hfree⟩
    by_contra hle
    have hi : i = 2 ^ p.base.hostLen - 1 := by omega
    exact hlast (by rw [broadcastAddress, ← hi])
  · rintro ⟨j, hj, hjlast, hjfree⟩
    have hij : i ≤ j := hleast.2 ⟨hj, by omega, hjfree⟩
    refine ⟨fun heq => ?_, fun heq => ?_⟩
    · rw [← hostAddress_zero] at heq
      have := hinj 0 (by omega) heq
      omega
    · have := hinj _ (by omega) heq
      omega

/-- The first client of the default network. -/
theorem assigned_proper_first :
    ∃ i, 1 ≤ i ∧ i ≤ 254 ∧
      ¬ (newIPPool ⟨[192, 168, 127, 0], 24, Or.inl rfl, by decide, by decide⟩).HostHeld i :=
  (assigned_proper_iff ⟨[192, 168, 127, 0], 24, Or.inl rfl, by decide, by decide⟩ rfl (by decide) _
    .refl [] (by decide +kernel) "5a:94:ef:e4:0c:ee" (by simp [newIPPool]) [192, 168, 127, 1]
    (by decide +kernel)).mp ⟨by decide, by decide +kernel⟩

/-- Three clients of a network with two hosts: the third is assigned the
broadcast address. -/
theorem broadcast_assigned :
    ∃ p, Reach opStep (newIPPool smallNet) p ∧
      p.leases.RangeOrder ["192.168.127.2", "192.168.127.1"] ∧
      (p.getOrAssign ["192.168.127.2", "192.168.127.1"] "5a:94:ef:e4:0c:03").1
        = some (broadcastAddress smallNet) :=
  run_of_exec [.call (.getOrAssign "5a:94:ef:e4:0c:01" []),
    .call (.getOrAssign "5a:94:ef:e4:0c:02" ["192.168.127.1"])] _ (by decide +kernel)

end GvisorTapVsock.Tap
