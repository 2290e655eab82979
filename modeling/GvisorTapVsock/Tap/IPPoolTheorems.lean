/-
GvisorTapVsock.Tap.IPPoolTheorems — who holds which address, over every
history of the pool.

The table is keyed by address, so one address has one holder by itself. That a
MAC holds ONE address is the invariant `IPPool.Sound`: it makes the first hit
of a range the only one, and with it the order of the range irrelevant. Each
operation has one lemma about the table after it; soundness and the stability
of a lease over a run follow from these.

* `leases_unique_and_stable` — the pool after any reservations of different
  addresses for different MACs and any calls.
-/
import GvisorTapVsock.Go.NetTheorems
import GvisorTapVsock.Tap.IPPool

namespace GvisorTapVsock.Tap

open GvisorTapVsock.Go
open GvisorTapVsock.Lts

/-- A `net.IP` that is an address. -/
def IsAddress (ip : IP) : Prop := ip.length = 4 ∨ ip.length = 16

theorem IsAddress.to16 {ip : IP} (h : IsAddress ip) : ∃ x, ip.to16 = some x := by
  rcases h with h4 | h16
  · exact ⟨_, by rw [IP.to16, if_pos h4]⟩
  · exact ⟨_, by rw [IP.to16, if_neg (by omega), if_pos h16]⟩

theorem IsAddress.of_to16 {ip x : IP} (h : ip.to16 = some x) : IsAddress ip := (length_of_to16 h).2

/-- Addresses are equal exactly if their texts are. -/
theorem IsAddress.equal_iff_string {ip ip' : IP} (h : IsAddress ip) (h' : IsAddress ip') :
    ip.equal ip' = true ↔ ip.string = ip'.string := by
  obtain ⟨x, hx⟩ := h.to16
  obtain ⟨y, hy⟩ := h'.to16
  rw [equal_iff hx hy, string_inj hx hy]

/-- Reading the text of an address gives the address. -/
theorem IsAddress.parse {ip : IP} (h : IsAddress ip) :
    IsAddress (parseIP ip.string) ∧ (parseIP ip.string).string = ip.string := by
  obtain ⟨x, hx⟩ := h.to16
  rw [parseIP_string hx]
  exact ⟨Or.inr (length_of_to16 hx).1, (string_of_to16 hx).symm⟩

namespace IPPool

variable {p p' : IPPool} {order : List String} {mac : String}

/-- The MAC holds the address. -/
def Holds (p : IPPool) (mac : String) (ip : IP) : Prop := p.leases.lookup ip.string = some mac

/-- The keys are texts of addresses, and no MAC has two of them. -/
structure Sound (p : IPPool) : Prop where
  address : ∀ {k v}, p.leases.lookup k = some v → ∃ ip, IsAddress ip ∧ ip.string = k
  unique : ∀ {k k' v}, p.leases.lookup k = some v → p.leases.lookup k' = some v → k = k'

/-! ## One call -/

theorem findLease_eq_some {k : String} (h : p.findLease order mac = some k) :
    p.leases.lookup k = some mac := by
  obtain ⟨v, hv, hmac⟩ := GoMap.rangeFind_eq_some h
  rw [hv, of_decide_eq_true hmac]

theorem findLease_eq_none (horder : p.leases.RangeOrder order)
    (h : p.findLease order mac = none) (k : String) : p.leases.lookup k ≠ some mac := by
  intro hk
  have hne := GoMap.rangeFind_eq_none horder h hk
  simp at hne

/-- In a sound pool the range finds the one lease, in whatever order. -/
theorem Sound.findLease (hp : p.Sound) (horder : p.leases.RangeOrder order) {k : String}
    (hk : p.leases.lookup k = some mac) : p.findLease order mac = some k := by
  cases hfind : p.findLease order mac with
  | none => exact absurd hk (findLease_eq_none horder hfind k)
  | some k' => rw [hp.unique hk (findLease_eq_some hfind)]

/-- The address found is the first one of the range that is free. -/
theorem firstFree_eq_some {ip : IP} : ∀ {k i : Nat}, p.firstFree k i = some ip →
    ∃ j, i ≤ j ∧ j < i + k ∧ host p.base j = some ip ∧ ip.string ∉ p.leases ∧
      ∀ l, i ≤ l → l < j → ∀ c, host p.base l = some c → c.string ∈ p.leases
  | 0, i, h => by simp [firstFree] at h
  | k + 1, i, h => by
      have hskip : p.firstFree k (i + 1) = some ip →
          (∀ c, host p.base i = some c → c.string ∈ p.leases) →
          ∃ j, i ≤ j ∧ j < i + (k + 1) ∧ host p.base j = some ip ∧ ip.string ∉ p.leases ∧
            ∀ l, i ≤ l → l < j → ∀ c, host p.base l = some c → c.string ∈ p.leases := by
        intro hnext hfirst
        obtain ⟨j, hij, hjk, hhost, hfree, hbefore⟩ := firstFree_eq_some hnext
        refine ⟨j, by omega, by omega, hhost, hfree, fun l hil hlj => ?_⟩
        by_cases hl : l = i
        · rw [hl]
          exact hfirst
        · exact hbefore l (by omega) hlj
      rw [firstFree] at h
      cases hhost : host p.base i with
      | none =>
        rw [hhost] at h
        exact hskip h (by simp [hhost])
      | some candidate =>
        rw [hhost] at h
        by_cases hleased : candidate.string ∈ p.leases
        · simp only [hleased, if_true] at h
          refine hskip h (fun c hc => ?_)
          rw [← Option.some.inj (hhost.symm.trans hc)]
          exact hleased
        · simp only [hleased, if_false, Option.some.injEq] at h
          subst h
          exact ⟨i, Nat.le_refl i, by omega, hhost, hleased, by omega⟩

/-- Where nothing is found, no host address of the range is free. -/
theorem mem_of_firstFree_eq_none : ∀ {k i : Nat}, p.firstFree k i = none →
    ∀ l, i ≤ l → l < i + k → ∀ c, host p.base l = some c → c.string ∈ p.leases
  | 0, i, _, l, hil, hlk, _, _ => by omega
  | k + 1, i, h, l, hil, hlk, c, hc => by
      have hnext : p.firstFree k (i + 1) = none → i ≠ l → c.string ∈ p.leases := fun hnext hne =>
        mem_of_firstFree_eq_none hnext l (by omega) (by omega) c hc
      rw [firstFree] at h
      cases hhost : host p.base i with
      | none =>
        rw [hhost] at h
        refine hnext h ?_
        rintro rfl
        rw [hhost] at hc
        simp at hc
      | some candidate =>
        rw [hhost] at h
        by_cases hleased : candidate.string ∈ p.leases
        · simp only [hleased, if_true] at h
          by_cases hil' : i = l
          · subst hil'
            rw [← Option.some.inj (hhost.symm.trans hc)]
            exact hleased
          · exact hnext h hil'
        · simp [hleased] at h

/-- What `GetOrAssign` returned and did. -/
inductive Assigned (p : IPPool) (mac : String) : Option IP → IPPool → Prop where
  | held {k : String} (holds : p.leases.lookup k = some mac) : Assigned p mac (some (parseIP k)) p
  | fresh {ip : IP} {i : Nat} (none_held : ∀ k, p.leases.lookup k ≠ some mac) (pos : 1 ≤ i)
      (lt : i < p.count) (is_host : host p.base i = some ip) (free : ip.string ∉ p.leases)
      (smallest : ∀ l, 1 ≤ l → l < i → ∀ c, host p.base l = some c → c.string ∈ p.leases) :
      Assigned p mac (some ip) { p with leases := p.leases.insert ip.string mac }
  | exhausted (none_held : ∀ k, p.leases.lookup k ≠ some mac)
      (full : p.firstFree (p.count - 1) 1 = none) : Assigned p mac none p

theorem getOrAssign_assigned (horder : p.leases.RangeOrder order) (mac : String) :
    Assigned p mac (p.getOrAssign order mac).1 (p.getOrAssign order mac).2 := by
  unfold getOrAssign
  cases hfind : p.findLease order mac with
  | some k => exact .held (findLease_eq_some hfind)
  | none =>
    have hnone := findLease_eq_none horder hfind
    cases hfree : p.firstFree (p.count - 1) 1 with
    | none => exact .exhausted hnone hfree
    | some ip =>
      obtain ⟨j, hpos, hlt, hhost, hfresh, hsmallest⟩ := firstFree_eq_some hfree
      exact .fresh hnone hpos (by omega) hhost hfresh hsmallest

/-- The first host address that is free. -/
def FirstFree (p : IPPool) (ip : IP) : Prop :=
  ∃ i, 1 ≤ i ∧ i < p.count ∧ host p.base i = some ip ∧ ip.string ∉ p.leases ∧
    ∀ l, 1 ≤ l → l < i → ∀ c, host p.base l = some c → c.string ∈ p.leases

theorem firstFree_some {ip : IP} (h : p.firstFree (p.count - 1) 1 = some ip) :
    p.FirstFree ip := by
  obtain ⟨j, hpos, hlt, hhost, hfree, hsmallest⟩ := firstFree_eq_some h
  exact ⟨j, hpos, by omega, hhost, hfree, hsmallest⟩

theorem FirstFree.unique {ip ip' : IP} (h : p.FirstFree ip) (h' : p.FirstFree ip') : ip = ip' := by
  obtain ⟨i, hpos, -, hhost, hfree, hbefore⟩ := h
  obtain ⟨j, hpos', -, hhost', hfree', hbefore'⟩ := h'
  rcases Nat.lt_trichotomy i j with hlt | rfl | hgt
  · exact absurd (hbefore' i hpos hlt ip hhost) hfree
  · exact Option.some.inj (hhost.symm.trans hhost')
  · exact absurd (hbefore j hpos' hgt ip' hhost') hfree'

/-- What `GetOrAssign` does for a MAC without a lease. -/
theorem getOrAssign_of_not_held (horder : p.leases.RangeOrder order)
    (hnone : ∀ k, p.leases.lookup k ≠ some mac) :
    (∃ ip, p.FirstFree ip ∧ p.getOrAssign order mac
      = (some ip, { p with leases := p.leases.insert ip.string mac })) ∨
    (∀ ip, ¬ p.FirstFree ip) ∧ p.getOrAssign order mac = (none, p) := by
  have hassigned := getOrAssign_assigned horder mac
  generalize p.getOrAssign order mac = got at hassigned
  obtain ⟨a, p'⟩ := got
  cases hassigned with
  | held holds => exact absurd holds (hnone _)
  | fresh _ hpos hlt hhost hfree hbefore =>
    exact Or.inl ⟨_, ⟨_, hpos, hlt, hhost, hfree, hbefore⟩, rfl⟩
  | exhausted _ full =>
    refine Or.inr ⟨?_, rfl⟩
    rintro ip ⟨i, hpos, hlt, hhost, hfree, -⟩
    exact hfree (mem_of_firstFree_eq_none full i hpos (by omega) ip hhost)

/-- A MAC with a lease changes nothing. -/
theorem getOrAssign_of_held (horder : p.leases.RangeOrder order) {k : String}
    (hk : p.leases.lookup k = some mac) : (p.getOrAssign order mac).2 = p := by
  have hassigned := getOrAssign_assigned horder mac
  generalize p.getOrAssign order mac = got at hassigned
  obtain ⟨a, p'⟩ := got
  cases hassigned with
  | held _ => rfl
  | fresh hnone _ _ _ _ _ => exact absurd hk (hnone k)
  | exhausted _ _ => rfl

/-- A MAC gets any of its leases, by the order of the range. -/
theorem getOrAssign_of_first {k : String} (hk : p.leases.lookup k = some mac) :
    ∃ order, p.leases.RangeOrder order ∧ p.getOrAssign order mac = (some (parseIP k), p) := by
  obtain ⟨horder, hfind⟩ := GoMap.rangeFind_first (fun _ candidate => decide (candidate = mac)) hk
    (decide_eq_true rfl)
  exact ⟨_, horder, by rw [getOrAssign, findLease, hfind]⟩

/-- `GetOrAssign` changes no lease there is. -/
theorem Assigned.lookup {a : Option IP} (h : Assigned p mac a p') {k v : String}
    (hv : p.leases.lookup k = some v) : p'.leases.lookup k = some v := by
  cases h with
  | held _ => exact hv
  | fresh _ _ _ _ hfree _ =>
    rw [GoMap.lookup_insert_eq]
    split
    · next hk =>
      rw [← hk] at hfree
      exact absurd ((GoMap.mem_iff_lookup _ _).mpr ⟨v, hv⟩) hfree
    · exact hv
  | exhausted _ _ => exact hv

/-- A MAC that holds an address gets it, and nothing changes. -/
theorem Sound.getOrAssign (hp : p.Sound) (horder : p.leases.RangeOrder order) {ip : IP}
    (hip : IsAddress ip) (hold : p.Holds mac ip) :
    ∃ a, p.getOrAssign order mac = (some a, p) ∧ ip.equal a = true := by
  refine ⟨parseIP ip.string, ?_, ?_⟩
  · rw [IPPool.getOrAssign, hp.findLease horder hold]
  · rw [hip.equal_iff_string hip.parse.1, hip.parse.2]

/-- What `GetOrAssign` returns, the MAC holds. -/
theorem Sound.holds_assigned (hp : p.Sound) {a : IP} (h : Assigned p mac (some a) p') :
    IsAddress a ∧ p'.Holds mac a := by
  cases h with
  | held hold =>
    obtain ⟨ip, hip, rfl⟩ := hp.address hold
    exact ⟨hip.parse.1, by rw [Holds, hip.parse.2]; exact hold⟩
  | fresh _ _ _ hhost _ _ =>
    obtain ⟨x, hx⟩ := to16_of_host hhost
    exact ⟨.of_to16 hx, by simp [Holds]⟩

/-- The table after `Release`. -/
theorem Sound.lookup_release (hp : p.Sound) (horder : p.leases.RangeOrder order) (mac : String)
    (k v : String) :
    (p.release order mac).leases.lookup k = some v ↔ p.leases.lookup k = some v ∧ v ≠ mac := by
  unfold release
  cases hfind : p.findLease order mac with
  | none =>
    refine ⟨fun hv => ⟨hv, ?_⟩, fun hv => hv.1⟩
    rintro rfl
    exact findLease_eq_none horder hfind k hv
  | some found =>
    have hfound := findLease_eq_some hfind
    -- the text of an address is not empty
    have hne : found ≠ "" := by
      rintro rfl
      obtain ⟨ip, hip, hempty⟩ := hp.address hfound
      have hparse := hip.parse.1
      rw [hempty] at hparse
      exact absurd hparse (by unfold IsAddress; decide)
    simp only [if_pos hne]
    rw [GoMap.lookup_erase_eq]
    by_cases hk : k = found
    · subst hk
      rw [if_pos rfl]
      constructor
      · intro h
        simp at h
      · rintro ⟨hv, hvmac⟩
        exact absurd (Option.some.inj (hv.symm.trans hfound)) hvmac
    · rw [if_neg hk]
      refine ⟨fun hv => ⟨hv, ?_⟩, fun hv => hv.1⟩
      rintro rfl
      exact hk (hp.unique hv hfound)

/-! ## Soundness -/

/-- A new address for a MAC without one keeps the pool sound. -/
theorem Sound.insert (hp : p.Sound) {ip : IP} (hip : IsAddress ip)
    (hnone : ∀ k, p.leases.lookup k ≠ some mac) :
    Sound { p with leases := p.leases.insert ip.string mac } := by
  refine ⟨fun {k v} hv => ?_, fun {k k' v} hv hv' => ?_⟩
  · rw [GoMap.lookup_insert_eq] at hv
    split at hv
    · next hk => exact ⟨ip, hip, hk.symm⟩
    · exact hp.address hv
  · rw [GoMap.lookup_insert_eq] at hv hv'
    split at hv <;> split at hv'
    · next hk hk' => rw [hk, hk']
    · rw [← Option.some.inj hv] at hv'
      exact absurd hv' (hnone k')
    · rw [← Option.some.inj hv'] at hv
      exact absurd hv (hnone k)
    · exact hp.unique hv hv'

theorem Sound.assigned (hp : p.Sound) {a : Option IP} (h : Assigned p mac a p') : p'.Sound := by
  cases h with
  | held _ => exact hp
  | fresh hnone _ _ hhost _ _ =>
    obtain ⟨x, hx⟩ := to16_of_host hhost
    exact hp.insert (.of_to16 hx) hnone
  | exhausted _ _ => exact hp

theorem Sound.release (hp : p.Sound) (horder : p.leases.RangeOrder order) (mac : String) :
    (p.release order mac).Sound := by
  refine ⟨fun {k v} hv => ?_, fun {k k' v} hv hv' => ?_⟩
  · exact hp.address ((hp.lookup_release horder mac k v).mp hv).1
  · exact hp.unique ((hp.lookup_release horder mac k v).mp hv).1
      ((hp.lookup_release horder mac k' v).mp hv').1

/-- A call keeps the pool sound. -/
theorem Sound.step (hp : p.Sound) {c : PoolCall} (hs : poolStep p c = some p') : p'.Sound := by
  cases c with
  | getOrAssign mac order =>
    simp only [poolStep] at hs
    split at hs
    · next horder =>
      rw [← Option.some.inj hs]
      exact hp.assigned (getOrAssign_assigned horder mac)
    · exact absurd hs (by simp)
  | release given order =>
    simp only [poolStep] at hs
    split at hs
    · next horder =>
      rw [← Option.some.inj hs]
      exact hp.release horder given
    · exact absurd hs (by simp)

/-- A history keeps the pool sound. -/
theorem Sound.run {ok : IPPool → PoolCall → Prop} (hp : p.Sound) (hrun : Run poolStep ok p p') :
    p'.Sound := by
  induction hrun with
  | refl => exact hp
  | step c _ _ hs ih => exact ih.step hs

/-! ## Stability -/

/-- A call that does not release the MAC leaves its lease alone. -/
theorem Sound.holds_step (hp : p.Sound) {c : PoolCall} (hs : poolStep p c = some p') {ip : IP}
    (hc : ¬ c.Releases mac) (hold : p.Holds mac ip) : p'.Holds mac ip := by
  cases c with
  | getOrAssign mac' order =>
    simp only [poolStep] at hs
    split at hs
    · next horder =>
      rw [← Option.some.inj hs]
      exact (getOrAssign_assigned horder mac').lookup hold
    · exact absurd hs (by simp)
  | release given order =>
    simp only [poolStep] at hs
    split at hs
    · next horder =>
      rw [← Option.some.inj hs]
      exact (hp.lookup_release horder given _ _).mpr ⟨hold, fun h => hc h.symm⟩
    · exact absurd hs (by simp)

theorem Sound.holds_run (hp : p.Sound) {ip : IP} (hold : p.Holds mac ip)
    (hrun : Run poolStep (fun _ c => ¬ c.Releases mac) p p') : p'.Holds mac ip := by
  induction hrun with
  | refl => exact hold
  | step c run hc hs ih => exact (hp.run run).holds_step hs hc ih

/-! ## Reservations -/

/-- The reservations are of addresses, for each address and each MAC one. -/
structure Separate (reservations : List (IP × String)) : Prop where
  addresses : ∀ r ∈ reservations, IsAddress r.1
  different : reservations.Pairwise (fun r s => r.1.equal s.1 = false ∧ r.2 ≠ s.2)

/-- The table after reservations that collide neither with each other nor with
the leases there are. -/
theorem Sound.reserveAll (reservations : List (IP × String)) :
    ∀ {p : IPPool}, p.Sound → Separate reservations →
      (∀ r ∈ reservations, r.1.string ∉ p.leases ∧ ∀ k, p.leases.lookup k ≠ some r.2) →
      (p.reserveAll reservations).Sound ∧
        (∀ r ∈ reservations, (p.reserveAll reservations).Holds r.2 r.1) ∧
        ∀ k v, p.leases.lookup k = some v →
          (p.reserveAll reservations).leases.lookup k = some v := by
  induction reservations with
  | nil => exact fun hp _ _ => ⟨hp, by simp, fun k v hv => hv⟩
  | cons r reservations ih =>
    intro p hp hsep hfresh
    obtain ⟨hr, hrest⟩ := List.pairwise_cons.mp hsep.different
    have haddr := hsep.addresses r List.mem_cons_self
    obtain ⟨hnew, hnone⟩ := hfresh r List.mem_cons_self
    have hsound : (p.reserve r.1 r.2).Sound := hp.insert haddr hnone
    have hsep' : Separate reservations :=
      ⟨fun s hs => hsep.addresses s (List.mem_cons_of_mem r hs), hrest⟩
    have hfresh' : ∀ s ∈ reservations, s.1.string ∉ (p.reserve r.1 r.2).leases ∧
        ∀ k, (p.reserve r.1 r.2).leases.lookup k ≠ some s.2 := by
      intro s hs
      obtain ⟨hsnew, hsnone⟩ := hfresh s (List.mem_cons_of_mem r hs)
      have htext : s.1.string ≠ r.1.string := by
        intro heq
        have hequal := (haddr.equal_iff_string (hsep'.addresses s hs)).mpr heq.symm
        rw [(hr s hs).1] at hequal
        exact absurd hequal (by simp)
      refine ⟨?_, fun k hk => ?_⟩
      · simpa [reserve, htext] using hsnew
      · rw [reserve, GoMap.lookup_insert_eq] at hk
        split at hk
        · exact (hr s hs).2 (Option.some.inj hk)
        · exact hsnone k hk
    obtain ⟨hall, hholds, hkeep⟩ := ih hsound hsep' hfresh'
    refine ⟨hall, fun s hs => ?_, fun k v hv => ?_⟩
    · rcases List.mem_cons.mp hs with rfl | hs
      · exact hkeep _ _ (by simp [reserve])
      · exact hholds s hs
    · refine hkeep k v ?_
      rw [reserve, GoMap.lookup_insert_eq]
      split
      · next hk =>
        rw [hk] at hv
        exact absurd ((GoMap.mem_iff_lookup _ _).mpr ⟨v, hv⟩) hnew
      · exact hv

/-- A text that some reservation has is in the table, and what the table says
of a text comes from the LAST reservation that has it. -/
theorem lookup_reserveAll (reservations : List (IP × String)) :
    ∀ (p : IPPool) (k : String),
      ((∃ r ∈ reservations, r.1.string = k) →
        ∃ r ∈ reservations, r.1.string = k ∧
          (p.reserveAll reservations).leases.lookup k = some r.2) ∧
      ((∀ r ∈ reservations, r.1.string ≠ k) →
        (p.reserveAll reservations).leases.lookup k = p.leases.lookup k) := by
  induction reservations with
  | nil => exact fun p k => ⟨by simp, fun _ => rfl⟩
  | cons r reservations ih =>
    intro p k
    obtain ⟨hlast, hnone⟩ := ih (p.reserve r.1 r.2) k
    by_cases hlater : ∃ s ∈ reservations, s.1.string = k
    · obtain ⟨s, hs, hsk, hlookup⟩ := hlast hlater
      refine ⟨fun _ => ⟨s, List.mem_cons_of_mem r hs, hsk, hlookup⟩, fun hall => ?_⟩
      exact absurd hsk (hall s (List.mem_cons_of_mem r hs))
    · have hrest := hnone (fun s hs hsk => hlater ⟨s, hs, hsk⟩)
      rw [reserve, GoMap.lookup_insert_eq] at hrest
      refine ⟨?_, fun hall => ?_⟩
      · rintro ⟨s, hs, rfl⟩
        rcases List.mem_cons.mp hs with rfl | hs
        · exact ⟨s, List.mem_cons_self, rfl, by rw [if_pos rfl] at hrest; exact hrest⟩
        · exact absurd ⟨s, hs, rfl⟩ hlater
      · rw [if_neg (fun h => hall r List.mem_cons_self h.symm)] at hrest
        exact hrest

/-! ## Growth

Where nobody calls `Release`, as in the DHCP server, the table only grows. -/

/-- The pool has grown from `p₀`: the old leases are there, and a new one is
of a host address that was free, for a MAC that held none. -/
structure Extends (p₀ p : IPPool) : Prop where
  base : p.base = p₀.base
  count : p.count = p₀.count
  keep : ∀ {k v}, p₀.leases.lookup k = some v → p.leases.lookup k = some v
  added : ∀ {k v}, p.leases.lookup k = some v → p₀.leases.lookup k = some v ∨
    (∀ k', p₀.leases.lookup k' ≠ some v) ∧
      ∃ i ip, 1 ≤ i ∧ i < p₀.count ∧ host p₀.base i = some ip ∧ ip.string ∉ p₀.leases ∧
        ip.string = k

theorem Extends.refl (p : IPPool) : Extends p p := ⟨rfl, rfl, fun h => h, fun h => Or.inl h⟩

theorem Extends.assigned {p₀ : IPPool} (h : Extends p₀ p) {a : Option IP}
    (ha : Assigned p mac a p') : Extends p₀ p' := by
  cases ha with
  | held _ => exact h
  | exhausted _ _ => exact h
  | fresh hnone hpos hlt hhost hfree _ =>
    rw [h.base] at hhost
    rw [h.count] at hlt
    have hold : ∀ k, p₀.leases.lookup k ≠ some mac := fun k hk => hnone k (h.keep hk)
    refine ⟨h.base, h.count, fun {k v} hk => ?_, fun {k v} hk => ?_⟩
    · rw [GoMap.lookup_insert_eq, if_neg]
      · exact h.keep hk
      · rintro rfl
        exact hfree ((GoMap.mem_iff_lookup _ _).mpr ⟨v, h.keep hk⟩)
    · rw [GoMap.lookup_insert_eq] at hk
      split at hk
      · next heq =>
        rw [← Option.some.inj hk]
        refine Or.inr ⟨hold, _, _, hpos, hlt, hhost, ?_, heq.symm⟩
        intro hmem
        obtain ⟨w, hw⟩ := (GoMap.mem_iff_lookup _ _).mp hmem
        exact hfree ((GoMap.mem_iff_lookup _ _).mpr ⟨w, h.keep hw⟩)
      · exact h.added hk

/-- **What a client of a pool that has grown gets**: an address its MAC held
from the start, or a host address that was free then. -/
theorem Extends.address {p₀ : IPPool} (h : Extends p₀ p) {a : IP}
    (ha : Assigned p mac (some a) p') :
    (∃ k, p₀.leases.lookup k = some mac ∧ a = parseIP k) ∨
      (∀ k, p₀.leases.lookup k ≠ some mac) ∧
        ∃ i ip, 1 ≤ i ∧ i < p₀.count ∧ host p₀.base i = some ip ∧ ip.string ∉ p₀.leases ∧
          (a = ip ∨ a = parseIP ip.string) := by
  cases ha with
  | held hk =>
    rcases h.added hk with hold | ⟨hnone, i, ip, hpos, hlt, hhost, hfree, rfl⟩
    · exact Or.inl ⟨_, hold, rfl⟩
    · exact Or.inr ⟨hnone, i, ip, hpos, hlt, hhost, hfree, Or.inr rfl⟩
  | fresh hnone hpos hlt hhost hfree _ =>
    rw [h.base] at hhost
    rw [h.count] at hlt
    refine Or.inr ⟨fun k hk => hnone k (h.keep hk), _, _, hpos, hlt, hhost, ?_, Or.inl rfl⟩
    intro hmem
    obtain ⟨w, hw⟩ := (GoMap.mem_iff_lookup _ _).mp hmem
    exact hfree ((GoMap.mem_iff_lookup _ _).mpr ⟨w, h.keep hw⟩)

theorem sound_newIPPool (base : IPNet) : (newIPPool base).Sound := by
  have hempty : ∀ k, (newIPPool base).leases.lookup k = none := fun k => AList.lookup_empty k
  exact ⟨fun {k v} hv => by simp [hempty] at hv, fun {k k' v} hv => by simp [hempty] at hv⟩

end IPPool

/-- The pool before the first client. -/
def reservedPool (base : IPNet) (reservations : List (IP × String)) : IPPool :=
  (newIPPool base).reserveAll reservations

theorem reservedPool_sound (base : IPNet) {reservations : List (IP × String)}
    (hsep : IPPool.Separate reservations) :
    (reservedPool base reservations).Sound ∧
      ∀ r ∈ reservations, (reservedPool base reservations).Holds r.2 r.1 := by
  have hall := IPPool.Sound.reserveAll reservations (IPPool.sound_newIPPool base) hsep
    (fun r _ => ⟨by simp [newIPPool], fun k => by simp [newIPPool]⟩)
  exact ⟨hall.1, hall.2.1⟩

/-- **The leases of every history**: an address has one holder, a MAC one
address, what a MAC was given or reserved it gets until it is released, and
`Release` removes that lease and no other. -/
theorem leases_unique_and_stable (base : IPNet) (reservations : List (IP × String))
    (hsep : IPPool.Separate reservations) (p : IPPool)
    (hreach : Reach poolStep (reservedPool base reservations) p) :
    (∀ ip ip' mac mac', IsAddress ip → IsAddress ip' → p.Holds mac ip → p.Holds mac' ip' →
      ip.equal ip' = true → mac = mac')
    ∧ (∀ ip ip' mac, IsAddress ip → IsAddress ip' → p.Holds mac ip → p.Holds mac ip' →
      ip.equal ip' = true)
    -- what was given is given again
    ∧ (∀ mac order a p', p.leases.RangeOrder order → p.getOrAssign order mac = (some a, p') →
      ∀ p'', Run poolStep (fun _ c => ¬ c.Releases mac) p' p'' →
        ∀ order', p''.leases.RangeOrder order' →
          ∃ a', p''.getOrAssign order' mac = (some a', p'') ∧ a.equal a' = true)
    -- what was reserved is given
    ∧ (∀ r ∈ reservations,
      Run poolStep (fun _ c => ¬ c.Releases r.2) (reservedPool base reservations) p →
        ∀ order, p.leases.RangeOrder order →
          ∃ a, p.getOrAssign order r.2 = (some a, p) ∧ r.1.equal a = true)
    ∧ (∀ mac order, p.leases.RangeOrder order → ∀ k v,
      (p.release order mac).leases.lookup k = some v ↔
        p.leases.lookup k = some v ∧ v ≠ mac) := by
  obtain ⟨hinit, hreserved⟩ := reservedPool_sound base hsep
  have hp := hinit.run hreach
  refine ⟨?_, ?_, ?_, ?_, ?_⟩
  · intro ip ip' mac mac' hip hip' hold hold' hequal
    rw [IPPool.Holds, ← (hip.equal_iff_string hip').mp hequal, hold] at hold'
    exact Option.some.inj hold'
  · intro ip ip' mac hip hip' hold hold'
    exact (hip.equal_iff_string hip').mpr (hp.unique hold hold')
  · intro mac order a p' horder hget p'' hrun order' horder'
    have hassigned := IPPool.getOrAssign_assigned horder mac
    rw [hget] at hassigned
    obtain ⟨ha, hold⟩ := hp.holds_assigned hassigned
    have hp' := hp.assigned hassigned
    exact (hp'.run hrun).getOrAssign horder' ha (hp'.holds_run hold hrun)
  · intro r hr hrun order horder
    exact hp.getOrAssign horder (hsep.addresses r hr) (hinit.holds_run (hreserved r hr) hrun)
  · intro mac order horder k v
    exact hp.lookup_release horder mac k v

/-- The default network after one client came: the gateway's MAC still gets
the address reserved for it. -/
theorem leases_gateway_reserved :
    ∃ p : IPPool, p.leases.RangeOrder ["192.168.127.2", "192.168.127.1"] ∧
      ∃ a, p.getOrAssign ["192.168.127.2", "192.168.127.1"] "5a:94:ef:e4:0c:dd" = (some a, p)
        ∧ IP.equal [192, 168, 127, 1] a = true := by
  have hsep : IPPool.Separate [([192, 168, 127, 1], "5a:94:ef:e4:0c:dd")] :=
    ⟨by intro r hr; rw [List.mem_singleton.mp hr]; exact Or.inl rfl, List.pairwise_singleton _ _⟩
  have hexec : ∃ p, Run poolStep (fun _ c => ¬ c.Releases "5a:94:ef:e4:0c:dd")
      (reservedPool ⟨[192, 168, 127, 0], 24, by decide, by decide, by decide⟩
        [([192, 168, 127, 1], "5a:94:ef:e4:0c:dd")]) p
      ∧ p.leases.RangeOrder ["192.168.127.2", "192.168.127.1"] :=
    run_of_exec [.getOrAssign "5a:94:ef:e4:0c:ee" ["192.168.127.1"]] _ (by decide +kernel)
  obtain ⟨p, hrun, horder⟩ := hexec
  exact ⟨p, horder, (leases_unique_and_stable _ _ hsep p hrun.reach).2.2.2.1 _
    List.mem_cons_self hrun _ horder⟩

end GvisorTapVsock.Tap
