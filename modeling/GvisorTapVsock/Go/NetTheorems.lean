/-
GvisorTapVsock.Go.NetTheorems — addresses survive being printed and parsed.

* `parseIP_string` — `ParseIP(ip.String())` is the sixteen-byte form of every
  four- or sixteen-byte address, IPv4 or IPv6, elided zeros included. So two
  such addresses print alike exactly if they are the same address
  (`string_inj`).
* `parseMAC_string` — `ParseMAC(a.String())` is `a` for the lengths it accepts
  and an error for the others; printing hardware addresses is injective
  (`HardwareAddr.string_inj`).

A number is read up to the first character that is no digit, so each step
lemma says what must not follow: `Stops`.
-/
import GvisorTapVsock.Go.Net

namespace GvisorTapVsock.Go

/-! ## Numbers -/

theorem decDigit?_digitChar : ∀ d < 10, decDigit? (digitChar d) = some d := by decide

theorem hexDigit?_digitChar : ∀ d < 16, hexDigit? (digitChar d) = some d := by decide

/-- The text does not go on with a digit. -/
def Stops (digit? : Char → Option Nat) (s : List Char) : Prop :=
  ∀ c, s.head? = some c → digit? c = none

theorem stops_nil (digit? : Char → Option Nat) : Stops digit? [] := by
  simp [Stops]

theorem stops_cons {digit? : Char → Option Nat} {c : Char} (hc : digit? c = none)
    (s : List Char) : Stops digit? (c :: s) := by
  simp [Stops, hc]

section Toi

variable {digit? : Char → Option Nat} {base : Nat}

theorem toiFrom_stops {s : List Char} (hs : Stops digit? s) (n i : Nat) :
    toiFrom digit? base n (i + 1) s = some (n, i + 1) := by
  cases s with
  | nil => simp [toiFrom]
  | cons c s => simp [toiFrom, hs c rfl]

theorem toiFrom_digit {c : Char} {d : Nat} (hc : digit? c = some d) {n : Nat}
    (hn : n * base + d < big) (i : Nat) (s : List Char) :
    toiFrom digit? base n i (c :: s) = toiFrom digit? base (n * base + d) (i + 1) s := by
  rw [toiFrom, hc]
  simp only [if_neg (Nat.not_le.mpr hn)]

/-- Digits only add to a value. -/
theorem le_digits (hbase : 0 < base) (ds : List Nat) :
    ∀ n : Nat, n ≤ ds.foldl (fun n d => n * base + d) n := by
  induction ds with
  | nil => exact fun n => Nat.le_refl n
  | cons d ds ih =>
    intro n
    have hn : n ≤ n * base := Nat.le_mul_of_pos_right n hbase
    exact Nat.le_trans (by omega) (ih (n * base + d))

/-- The loop reads digits and stops after them. -/
theorem toiFrom_digits (hbase : 0 < base)
    (hdigit : ∀ d, d < base → digit? (digitChar d) = some d) {s : List Char}
    (hs : Stops digit? s) (ds : List Nat) :
    ∀ n i : Nat, (∀ d ∈ ds, d < base) → 0 < i + ds.length →
      ds.foldl (fun n d => n * base + d) n < big →
      toiFrom digit? base n i (ds.map digitChar ++ s) =
        some (ds.foldl (fun n d => n * base + d) n, i + ds.length) := by
  induction ds with
  | nil =>
    intro n i _ hi _
    obtain ⟨j, rfl⟩ := Nat.exists_eq_succ_of_ne_zero (Nat.pos_iff_ne_zero.mp hi)
    exact toiFrom_stops hs n j
  | cons d ds ih =>
    intro n i hds _ hbig
    have hn : n * base + d < big := Nat.lt_of_le_of_lt (le_digits hbase ds _) hbig
    rw [List.map_cons, List.cons_append, toiFrom_digit (hdigit d (hds d (by simp))) hn,
      ih _ _ (fun d' hd' => hds d' (List.mem_cons_of_mem d hd')) (by omega) hbig]
    simp only [List.foldl_cons, List.length_cons, Option.some.injEq, Prod.mk.injEq, true_and]
    omega

/-- Digits are read as the number they write. -/
theorem toi_digits (hbase : 0 < base)
    (hdigit : ∀ d, d < base → digit? (digitChar d) = some d) {s : List Char}
    (hs : Stops digit? s) {x : Nat} (hx : x < big) (ds : List Nat) (hds : ∀ d ∈ ds, d < base)
    (hne : ds ≠ []) (hval : ds.foldl (fun n d => n * base + d) 0 = x) :
    toiFrom digit? base 0 0 (ds.map digitChar ++ s) = some (x, (ds.map digitChar).length) := by
  have hpos := List.length_pos_iff.mpr hne
  rw [toiFrom_digits hbase hdigit hs ds 0 0 hds (by omega) (by omega), hval, List.length_map,
    Nat.zero_add]

end Toi

/-- A byte in decimal is read back. -/
theorem dtoi_decimal {x : Nat} (hx : x < 256) {s : List Char} (hs : Stops decDigit? s) :
    dtoi (decimal x ++ s) = some (x, (decimal x).length) := by
  have hdigits := toi_digits (by decide) decDigit?_digitChar hs (x := x) (by unfold big; omega)
  unfold dtoi decimal
  by_cases hlarge : 100 ≤ x
  · have hmid : 10 ≤ x := by omega
    rw [if_pos hlarge, if_pos hmid]
    exact hdigits [x / 100, x / 10 % 10, x % 10] (by simp; omega) (by simp) (by simp; omega)
  · by_cases hmid : 10 ≤ x
    · rw [if_neg hlarge, if_pos hmid]
      exact hdigits [x / 10 % 10, x % 10] (by simp; omega) (by simp) (by simp; omega)
    · rw [if_neg hlarge, if_neg hmid]
      exact hdigits [x % 10] (by simp; omega) (by simp) (by simp; omega)

/-- A 16-bit group in hexadecimal is read back. -/
theorem xtoi_hex {x : Nat} (hx : x < 65536) {s : List Char} (hs : Stops hexDigit? s) :
    xtoi (hex x ++ s) = some (x, (hex x).length) := by
  have hdigits := toi_digits (by decide) hexDigit?_digitChar hs (x := x) (by unfold big; omega)
  unfold xtoi hex
  by_cases hlarge : 0x1000 ≤ x
  · have hmid : 0x100 ≤ x := by omega
    have hsmall : 0x10 ≤ x := by omega
    rw [if_pos hlarge, if_pos hmid, if_pos hsmall]
    exact hdigits [x / 0x1000, x / 0x100 % 16, x / 0x10 % 16, x % 16] (by simp; omega) (by simp)
      (by simp; omega)
  · by_cases hmid : 0x100 ≤ x
    · have hsmall : 0x10 ≤ x := by omega
      rw [if_neg hlarge, if_pos hmid, if_pos hsmall]
      exact hdigits [x / 0x100 % 16, x / 0x10 % 16, x % 16] (by simp; omega) (by simp)
        (by simp; omega)
    · by_cases hsmall : 0x10 ≤ x
      · rw [if_neg hlarge, if_neg hmid, if_pos hsmall]
        exact hdigits [x / 0x10 % 16, x % 16] (by simp; omega) (by simp) (by simp; omega)
      · rw [if_neg hlarge, if_neg hmid, if_neg hsmall]
        exact hdigits [x % 16] (by simp; omega) (by simp) (by simp; omega)

/-! ## IPv4 -/

/-- A byte of more than one digit does not begin with a zero. -/
theorem head?_decimal {x : Nat} (hx : x < 256) (hlen : 1 < (decimal x).length)
    (s : List Char) : (decimal x ++ s).head? ≠ some '0' := by
  have hne : ∀ d, d < 10 → d ≠ 0 → digitChar d ≠ '0' := by decide
  unfold decimal at hlen ⊢
  by_cases hlarge : 100 ≤ x
  · have h := hne (x / 100) (by omega) (by omega)
    simpa [hlarge] using h
  · by_cases hmid : 10 ≤ x
    · have h := hne (x / 10 % 10) (by omega) (by omega)
      simpa [hlarge, hmid] using h
    · simp [hlarge, hmid] at hlen

theorem parseOctet_decimal (b : UInt8) {s : List Char} (hs : Stops decDigit? s) :
    parseOctet (decimal b.toNat ++ s) = some (b, s) := by
  have hb : b.toNat < 256 := b.toNat_lt
  rw [parseOctet, dtoi_decimal hb hs]
  have hzero : ¬ (1 < (decimal b.toNat).length ∧
      (decimal b.toNat ++ s).head? = some '0') := fun h => head?_decimal hb h.1 s h.2
  simp only [if_neg (Nat.not_lt.mpr (Nat.le_of_lt_succ hb)), if_neg hzero, UInt8.ofNat_toNat,
    List.drop_left]

/-- The text of four bytes is read back. -/
theorem parseIPv4_text4 {ip : IP} (h : ip.length = 4) : parseIPv4 (text4 ip) = some ip := by
  obtain ⟨a, b, c, d, rfl⟩ := List.length_eq_four.mp h
  have hdot : decDigit? '.' = none := by decide
  have hlast := parseOctet_decimal d (stops_nil _)
  rw [List.append_nil] at hlast
  simp [text4, joinSep, parseIPv4, parseOctets, parseOctet_decimal _ (stops_cons hdot _), hlast]

/-! ## IPv6 -/

theorem stops_colon (s : List Char) : Stops hexDigit? (':' :: s) := stops_cons (by decide) s

section Groups

variable {g : Nat}

/-- The last group of a text. -/
theorem parseGroups_last (hg : g < 65536) (fuel : Nat) (bs : List UInt8) (ellipsis : Option Nat) :
    parseGroups (fuel + 1) bs ellipsis (hex g)
      = finishIPv6 (bs ++ beBytes 2 g) ellipsis [] := by
  have hx := xtoi_hex hg (stops_nil _)
  rw [List.append_nil] at hx
  rw [parseGroups, hx]
  simp [Nat.not_lt.mpr (Nat.le_of_lt_succ hg)]

/-- A group followed by another one. -/
theorem parseGroups_colon (hg : g < 65536) {s : List Char} (hne : s ≠ [])
    (hcolon : s.head? ≠ some ':') (fuel : Nat) (bs : List UInt8) (ellipsis : Option Nat) :
    parseGroups (fuel + 1) bs ellipsis (hex g ++ ':' :: s)
      = parseGroups fuel (bs ++ beBytes 2 g) ellipsis s := by
  rw [parseGroups, xtoi_hex hg (stops_colon s)]
  cases s with
  | nil => exact absurd rfl hne
  | cons c s =>
    have hc : c ≠ ':' := fun hc => hcolon (by rw [hc]; rfl)
    simp [Nat.not_lt.mpr (Nat.le_of_lt_succ hg), hc]

/-- A group followed by the ellipsis. -/
theorem parseGroups_ellipsis (hg : g < 65536) (s : List Char) (fuel : Nat) (bs : List UInt8) :
    parseGroups (fuel + 1) bs none (hex g ++ ':' :: ':' :: s)
      = if s = [] then finishIPv6 (bs ++ beBytes 2 g) (some (bs.length + 2)) []
        else parseGroups fuel (bs ++ beBytes 2 g) (some (bs.length + 2)) s := by
  rw [parseGroups, xtoi_hex hg (stops_colon _)]
  simp [Nat.not_lt.mpr (Nat.le_of_lt_succ hg)]

end Groups

/-- A group is written in digits. -/
theorem mem_hex {g : Nat} (hg : g < 65536) {c : Char} (hc : c ∈ hex g) :
    ∃ d < 16, c = digitChar d := by
  have hif : ∀ (p : Prop) [Decidable p] (d : Nat), c ∈ (if p then [digitChar d] else []) →
      c = digitChar d := by
    intro p _ d h
    split at h
    · exact List.mem_singleton.mp h
    · exact absurd h List.not_mem_nil
  unfold hex at hc
  rcases List.mem_append.mp hc with hc | hc
  · rcases List.mem_append.mp hc with hc | hc
    · rcases List.mem_append.mp hc with hc | hc
      · exact ⟨_, by omega, hif _ _ hc⟩
      · exact ⟨_, by omega, hif _ _ hc⟩
    · exact ⟨_, by omega, hif _ _ hc⟩
  · exact ⟨_, by omega, List.mem_singleton.mp hc⟩

theorem digitChar_ne_colon : ∀ d < 16, digitChar d ≠ ':' := by decide

/-- A group begins with a digit. -/
theorem hex_eq_cons {g : Nat} (hg : g < 65536) : ∃ c s, hex g = c :: s ∧ c ≠ ':' := by
  cases hhex : hex g with
  | nil => simp [hex] at hhex
  | cons c s =>
    obtain ⟨d, hd, rfl⟩ := mem_hex hg (c := c) (by rw [hhex]; exact List.mem_cons_self)
    exact ⟨_, s, rfl, digitChar_ne_colon d hd⟩

/-- Joined groups begin with a digit. -/
theorem joinSep_hex_eq_cons {gs : List Nat} (hne : gs ≠ []) (hgs : ∀ g ∈ gs, g < 65536) :
    ∃ c s, joinSep ':' (gs.map hex) = c :: s ∧ c ≠ ':' := by
  cases gs with
  | nil => exact absurd rfl hne
  | cons g gs =>
    obtain ⟨c, s, hhex, hc⟩ := hex_eq_cons (hgs g List.mem_cons_self)
    cases gs with
    | nil => exact ⟨c, s, hhex, hc⟩
    | cons g' gs => exact ⟨c, s ++ ':' :: joinSep ':' ((g' :: gs).map hex),
        by rw [List.map_cons, List.map_cons, joinSep, hhex]; rfl, hc⟩

/-- The bytes of a list of groups. -/
def groupBytes (gs : List Nat) : List UInt8 := gs.flatMap (beBytes 2)

theorem groupBytes_cons (g : Nat) (gs : List Nat) :
    groupBytes (g :: gs) = beBytes 2 g ++ groupBytes gs := rfl

theorem groupBytes_append (gs gs' : List Nat) :
    groupBytes (gs ++ gs') = groupBytes gs ++ groupBytes gs' := by
  simp [groupBytes]

@[simp] theorem length_groupBytes (gs : List Nat) : (groupBytes gs).length = 2 * gs.length := by
  induction gs with
  | nil => rfl
  | cons g gs ih =>
    rw [groupBytes_cons, List.length_append, ih, length_beBytes, List.length_cons]
    omega

theorem groupBytes_replicate_zero (k : Nat) :
    groupBytes (List.replicate k 0) = List.replicate (2 * k) 0 := by
  induction k with
  | zero => rfl
  | succ k ih =>
    rw [List.replicate_succ, groupBytes_cons, ih, show 2 * (k + 1) = 2 * k + 1 + 1 by omega,
      List.replicate_succ, List.replicate_succ]
    rfl

/-- Joined groups up to the end of the text. -/
theorem parseGroups_join {gs : List Nat} (hne : gs ≠ []) (hgs : ∀ g ∈ gs, g < 65536) :
    ∀ (fuel : Nat) (bs : List UInt8) (ellipsis : Option Nat), gs.length ≤ fuel →
      parseGroups fuel bs ellipsis (joinSep ':' (gs.map hex))
        = finishIPv6 (bs ++ groupBytes gs) ellipsis [] := by
  induction gs with
  | nil => exact absurd rfl hne
  | cons g gs ih =>
    intro fuel bs ellipsis hfuel
    obtain ⟨fuel, rfl⟩ : ∃ k, fuel = k + 1 := ⟨fuel - 1, by simp at hfuel; omega⟩
    have hg := hgs g List.mem_cons_self
    cases gs with
    | nil => simpa [joinSep, groupBytes] using parseGroups_last hg fuel bs ellipsis
    | cons g' gs =>
      have htail : ∀ x ∈ g' :: gs, x < 65536 := fun x hx => hgs x (List.mem_cons_of_mem g hx)
      obtain ⟨c, s, hjoin, hc⟩ := joinSep_hex_eq_cons (by simp) htail
      have hcolon := parseGroups_colon hg (s := joinSep ':' ((g' :: gs).map hex))
        (by rw [hjoin]; simp) (by rw [hjoin]; simpa using hc) fuel bs ellipsis
      have hrest := ih (by simp) htail fuel (bs ++ beBytes 2 g) ellipsis
        (by simp at hfuel ⊢; omega)
      rw [List.map_cons, List.map_cons, joinSep]
      rw [List.map_cons] at hcolon hrest
      rw [hcolon, hrest, groupBytes_cons g, List.append_assoc]

/-- Joined groups up to the ellipsis. -/
theorem parseGroups_join_ellipsis {gs : List Nat} (hne : gs ≠ []) (hgs : ∀ g ∈ gs, g < 65536)
    (s : List Char) :
    ∀ (fuel : Nat) (bs : List UInt8),
      parseGroups (fuel + gs.length) bs none (joinSep ':' (gs.map hex) ++ ':' :: ':' :: s)
        = if s = [] then
            finishIPv6 (bs ++ groupBytes gs) (some (bs.length + 2 * gs.length)) []
          else
            parseGroups fuel (bs ++ groupBytes gs) (some (bs.length + 2 * gs.length)) s := by
  induction gs with
  | nil => exact absurd rfl hne
  | cons g gs ih =>
    intro fuel bs
    have hg := hgs g List.mem_cons_self
    cases gs with
    | nil => simpa [joinSep, groupBytes] using parseGroups_ellipsis hg s fuel bs
    | cons g' gs =>
      have htail : ∀ x ∈ g' :: gs, x < 65536 := fun x hx => hgs x (List.mem_cons_of_mem g hx)
      obtain ⟨c, t, hjoin, hc⟩ := joinSep_hex_eq_cons (by simp) htail
      have hcolon := parseGroups_colon hg
        (s := joinSep ':' ((g' :: gs).map hex) ++ ':' :: ':' :: s)
        (by rw [hjoin]; simp) (by rw [hjoin]; simpa using hc)
        (fuel + (g' :: gs).length) bs none
      have hrest := ih (by simp) htail fuel (bs ++ beBytes 2 g)
      rw [List.map_cons, List.map_cons, joinSep, List.append_assoc, List.cons_append]
      rw [List.map_cons] at hcolon hrest
      rw [List.length_cons, ← Nat.add_assoc, hcolon, hrest, groupBytes_cons g, List.append_assoc,
        List.length_append, length_beBytes]
      have hpos : bs.length + 2 + 2 * (g' :: gs).length
          = bs.length + 2 * ((g' :: gs).length + 1) := by omega
      rw [hpos]

/-! The run of zeros -/

theorem zeros_spec (gs : List Nat) :
    gs = List.replicate (zeros gs) 0 ++ gs.drop (zeros gs) := by
  induction gs with
  | nil => rfl
  | cons g gs ih =>
    cases g with
    | zero =>
      rw [zeros, List.replicate_succ, List.cons_append, List.drop_succ_cons, ← ih]
    | succ g => rfl

/-- The run found is a run of at least two zero groups. -/
theorem zeroRun_spec (gs : List Nat) : ∀ (i : Nat) (best : Nat × Nat),
    zeroRun i best gs = best ∨
      ∃ k, 2 ≤ zeros (gs.drop k) ∧
        zeroRun i best gs = (i + k, i + k + zeros (gs.drop k)) := by
  induction gs with
  | nil => exact fun i best => Or.inl rfl
  | cons g gs ih =>
    intro i best
    rw [zeroRun]
    rcases ih (i + 1) (if 2 ≤ zeros (g :: gs) ∧ best.2 - best.1 < zeros (g :: gs)
      then (i, i + zeros (g :: gs)) else best) with hbest | ⟨k, hk, hrun⟩
    · rw [hbest]
      by_cases hlonger : 2 ≤ zeros (g :: gs) ∧ best.2 - best.1 < zeros (g :: gs)
      · rw [if_pos hlonger]
        exact Or.inr ⟨0, hlonger.1, rfl⟩
      · rw [if_neg hlonger]
        exact Or.inl rfl
    · refine Or.inr ⟨k + 1, hk, ?_⟩
      rw [hrun, List.drop_succ_cons]
      ext <;> simp <;> omega

theorem finishIPv6_full {bs : List UInt8} (h : bs.length = 16) :
    finishIPv6 bs none [] = some bs := by
  simp [finishIPv6, h]

/-- The ellipsis stands for the groups left out. -/
theorem finishIPv6_ellipsis (pre post : List Nat) {k : Nat} (hk : 2 ≤ k)
    (hlen : pre.length + k + post.length = 8) :
    finishIPv6 (groupBytes pre ++ groupBytes post) (some (2 * pre.length)) []
      = some (groupBytes (pre ++ (List.replicate k 0 ++ post))) := by
  have hpre : (groupBytes pre).length = 2 * pre.length := length_groupBytes pre
  have hshort : (groupBytes pre ++ groupBytes post).length < 16 := by simp; omega
  have hmissing : 16 - (groupBytes pre ++ groupBytes post).length = 2 * k := by simp; omega
  rw [finishIPv6, if_neg (by simp), if_pos hshort, List.take_left' hpre, List.drop_left' hpre,
    hmissing, groupBytes_append, groupBytes_append, groupBytes_replicate_zero, List.append_assoc]

/-- A text that begins with a group has no leading ellipsis. -/
theorem parseIPv6_join_append {gs : List Nat} (hne : gs ≠ []) (hgs : ∀ g ∈ gs, g < 65536)
    (s : List Char) :
    parseIPv6 (joinSep ':' (gs.map hex) ++ s)
      = parseGroups 8 [] none (joinSep ':' (gs.map hex) ++ s) := by
  obtain ⟨c, t, hjoin, hc⟩ := joinSep_hex_eq_cons hne hgs
  rw [hjoin, List.cons_append, parseIPv6]
  intro rest hrest
  exact hc (List.cons.inj hrest).1

theorem joinSep_hex_ne_nil {gs : List Nat} (hne : gs ≠ []) (hgs : ∀ g ∈ gs, g < 65536) :
    joinSep ':' (gs.map hex) ≠ [] := by
  obtain ⟨c, t, hjoin, -⟩ := joinSep_hex_eq_cons hne hgs
  rw [hjoin]
  exact List.cons_ne_nil c t

/-- Eight groups and no ellipsis. -/
theorem parseIPv6_join {gs : List Nat} (hlen : gs.length = 8) (hgs : ∀ g ∈ gs, g < 65536) :
    parseIPv6 (joinSep ':' (gs.map hex)) = some (groupBytes gs) := by
  have hne : gs ≠ [] := by intro h; simp [h] at hlen
  have hbranch := parseIPv6_join_append hne hgs []
  rw [List.append_nil] at hbranch
  rw [hbranch, parseGroups_join hne hgs 8 [] none (by omega), List.nil_append,
    finishIPv6_full (by simp [hlen])]

/-- The groups `post` after an ellipsis that begins the text. -/
theorem parseIPv6_leading_ellipsis {post : List Nat} {k : Nat} (hk : 2 ≤ k)
    (hlen : k + post.length = 8) (hpost : ∀ g ∈ post, g < 65536) :
    parseIPv6 (':' :: ':' :: joinSep ':' (post.map hex))
      = some (groupBytes (List.replicate k 0 ++ post)) := by
  have hfinish := finishIPv6_ellipsis [] post hk (by rw [List.length_nil]; omega)
  rw [parseIPv6]
  by_cases hnil : post = []
  · subst hnil
    simpa [joinSep, finishIPv6, groupBytes] using hfinish
  · rw [if_neg (joinSep_hex_ne_nil hnil hpost),
      parseGroups_join hnil hpost 8 [] (some 0) (by omega)]
    exact hfinish

/-- The groups `pre`, an ellipsis and the groups `post`. -/
theorem parseIPv6_inner_ellipsis {pre post : List Nat} {k : Nat} (hne : pre ≠ []) (hk : 2 ≤ k)
    (hlen : pre.length + k + post.length = 8) (hpre : ∀ g ∈ pre, g < 65536)
    (hpost : ∀ g ∈ post, g < 65536) :
    parseIPv6 (joinSep ':' (pre.map hex) ++ ':' :: ':' :: joinSep ':' (post.map hex))
      = some (groupBytes (pre ++ (List.replicate k 0 ++ post))) := by
  have hfinish := finishIPv6_ellipsis pre post hk hlen
  have hparse := parseGroups_join_ellipsis hne hpre (joinSep ':' (post.map hex))
    (8 - pre.length) []
  rw [Nat.sub_add_cancel (by omega), List.length_nil, Nat.zero_add, List.nil_append] at hparse
  rw [parseIPv6_join_append hne hpre, hparse]
  by_cases hnil : post = []
  · subst hnil
    simpa [joinSep, groupBytes] using hfinish
  · rw [if_neg (joinSep_hex_ne_nil hnil hpost),
      parseGroups_join hnil hpost (8 - pre.length) _ _ (by omega)]
    exact hfinish

theorem parseIPv6_ellipsis {pre post : List Nat} {k : Nat} (hk : 2 ≤ k)
    (hlen : pre.length + k + post.length = 8) (hpre : ∀ g ∈ pre, g < 65536)
    (hpost : ∀ g ∈ post, g < 65536) :
    parseIPv6 (joinSep ':' (pre.map hex) ++ ':' :: ':' :: joinSep ':' (post.map hex))
      = some (groupBytes (pre ++ (List.replicate k 0 ++ post))) := by
  by_cases hne : pre = []
  · subst hne
    rw [List.length_nil, Nat.zero_add] at hlen
    exact parseIPv6_leading_ellipsis hk hlen hpost
  · exact parseIPv6_inner_ellipsis hne hk hlen hpre hpost

/-- **The text of eight groups is read back**, with or without an ellipsis. -/
theorem parseIPv6_text6 {gs : List Nat} (hlen : gs.length = 8) (hgs : ∀ g ∈ gs, g < 65536) :
    parseIPv6 (text6 gs) = some (groupBytes gs) := by
  unfold text6
  rcases zeroRun_spec gs 0 (0, 0) with hnone | ⟨k, hk, hrun⟩
  · rw [hnone]
    exact parseIPv6_join hlen hgs
  · -- `k` groups, the zeros, and the groups after them
    generalize hz : zeros (gs.drop k) = z at hk hrun
    have hsplit : gs = gs.take k ++ (List.replicate z 0 ++ gs.drop (k + z)) := by
      rw [← List.drop_drop, ← hz, ← zeros_spec, List.take_append_drop]
    have hcount : (gs.take k).length + z + (gs.drop (k + z)).length = 8 := by
      have hlens := congrArg List.length hsplit
      simp only [List.length_append, List.length_replicate] at hlens
      omega
    have hparse := parseIPv6_ellipsis hk hcount
      (fun g hg => hgs g (List.mem_of_mem_take hg)) (fun g hg => hgs g (List.mem_of_mem_drop hg))
    rw [← hsplit] at hparse
    have hdiff : k ≠ k + z := by omega
    rw [hrun]
    simp only [Nat.zero_add, if_neg hdiff, List.append_assoc]
    exact hparse

/-! ## Addresses -/

theorem groups_lt : ∀ (ip : List UInt8), ∀ g ∈ groups ip, g < 65536
  | [], g, hg => by simp [groups] at hg
  | [_], g, hg => by simp [groups] at hg
  | hi :: lo :: rest, g, hg => by
      have hhi : hi.toNat < 256 := hi.toNat_lt
      have hlo : lo.toNat < 256 := lo.toNat_lt
      rcases List.mem_cons.mp hg with rfl | hg
      · omega
      · exact groups_lt rest g hg

theorem length_groups : ∀ (n : Nat) (ip : List UInt8), ip.length = 2 * n → (groups ip).length = n
  | 0, ip, h => by rw [List.length_eq_zero_iff.mp h]; rfl
  | n + 1, [], h => by simp at h
  | n + 1, [b], h => by simp at h; omega
  | n + 1, hi :: lo :: rest, h => by
      simp only [List.length_cons] at h
      rw [groups, List.length_cons, length_groups n rest (by omega)]

theorem beBytes_group (hi lo : UInt8) : beBytes 2 (256 * hi.toNat + lo.toNat) = [hi, lo] := by
  have hbytes := beBytes_beNat [hi, lo]
  have hnat : beNat [hi, lo] = 256 * hi.toNat + lo.toNat := by
    simp [beNat, leNat]
    omega
  rwa [hnat] at hbytes

theorem groupBytes_groups : ∀ (n : Nat) (ip : List UInt8), ip.length = 2 * n →
    groupBytes (groups ip) = ip
  | 0, ip, h => by rw [List.length_eq_zero_iff.mp h]; rfl
  | n + 1, [], h => by simp at h
  | n + 1, [b], h => by simp at h; omega
  | n + 1, hi :: lo :: rest, h => by
      simp only [List.length_cons] at h
      rw [groups, groupBytes_cons, beBytes_group, groupBytes_groups n rest (by omega)]
      rfl

/-- The first separator of a text that begins with other characters. -/
theorem find?_append_sep {p : Char → Bool} {s : List Char} (hs : ∀ c ∈ s, p c = false) {c : Char}
    (hc : p c = true) (rest : List Char) : (s ++ c :: rest).find? p = some c := by
  rw [List.find?_append, List.find?_eq_none.mpr (fun x hx => by simp [hs x hx])]
  simp [hc]

theorem mem_decimal {x : Nat} (hx : x < 256) {c : Char} (hc : c ∈ decimal x) :
    ∃ d < 10, c = digitChar d := by
  unfold decimal at hc
  rcases List.mem_append.mp hc with hc | hc
  · rcases List.mem_append.mp hc with hc | hc
    · split at hc
      · exact ⟨_, by omega, List.mem_singleton.mp hc⟩
      · exact absurd hc List.not_mem_nil
    · split at hc
      · exact ⟨_, by omega, List.mem_singleton.mp hc⟩
      · exact absurd hc List.not_mem_nil
  · exact ⟨_, by omega, List.mem_singleton.mp hc⟩

/-- The separators by which `ParseIP` tells the families apart. -/
theorem digitChar_no_sep : ∀ d < 16, decide (digitChar d = '.' ∨ digitChar d = ':') = false := by
  decide

theorem parseIP_text4 {ip : IP} (h : ip.length = 4) :
    parseIP (String.ofList (text4 ip)) = IP.v4InV6 ++ ip := by
  have hparse := parseIPv4_text4 h
  obtain ⟨a, b, c, d, rfl⟩ := List.length_eq_four.mp h
  have hdigits : ∀ x ∈ decimal a.toNat, decide (x = '.' ∨ x = ':') = false := by
    intro x hx
    obtain ⟨e, he, rfl⟩ := mem_decimal a.toNat_lt hx
    exact digitChar_no_sep e (by omega)
  have hfirst : (text4 [a, b, c, d]).find? (fun x => decide (x = '.' ∨ x = ':')) = some '.' :=
    find?_append_sep hdigits (by decide) _
  rw [parseIP, String.toList_ofList, hfirst]
  simp [hparse]

/-- The first separator of an IPv6 text is a colon. -/
theorem find?_text6 {gs : List Nat} (hlen : gs.length = 8) (hgs : ∀ g ∈ gs, g < 65536) :
    (text6 gs).find? (fun x => decide (x = '.' ∨ x = ':')) = some ':' := by
  have hdigits : ∀ g ∈ gs, ∀ x ∈ hex g, decide (x = '.' ∨ x = ':') = false := by
    intro g hg x hx
    obtain ⟨d, hd, rfl⟩ := mem_hex (hgs g hg) hx
    exact digitChar_no_sep d hd
  -- joined groups are one group, or a group and a colon
  have hjoin : ∀ (g : Nat) (gs' : List Nat), g ∈ gs → ∃ s,
      joinSep ':' ((g :: gs').map hex) = hex g ++ s ∧ (s = [] ∧ gs' = [] ∨ ∃ t, s = ':' :: t) := by
    intro g gs' _
    cases gs' with
    | nil => exact ⟨[], by simp [joinSep], Or.inl ⟨rfl, rfl⟩⟩
    | cons g' gs' => exact ⟨_, rfl, Or.inr ⟨_, rfl⟩⟩
  unfold text6
  split
  next start stop hrun =>
  split
  · match gs, hlen with
    | g :: g' :: gs', _ =>
      exact find?_append_sep (hdigits g List.mem_cons_self) (by decide) _
  · cases htake : gs.take start with
    | nil => simp [joinSep]
    | cons g gs' =>
      have hg : g ∈ gs := List.mem_of_mem_take (by rw [htake]; exact List.mem_cons_self)
      obtain ⟨s, hs, hend⟩ := hjoin g gs' hg
      rw [hs]
      rcases hend with ⟨rfl, -⟩ | ⟨t, rfl⟩
      · rw [List.append_nil, List.append_assoc]
        exact find?_append_sep (hdigits g hg) (by decide) _
      · rw [List.append_assoc, List.append_assoc]
        exact find?_append_sep (hdigits g hg) (by decide) _

theorem parseIP_text6 {ip : IP} (h : ip.length = 16) :
    parseIP (String.ofList (text6 (groups ip))) = ip := by
  have hlen := length_groups 8 ip h
  have hgs := groups_lt ip
  rw [parseIP, String.toList_ofList, find?_text6 hlen hgs, parseIPv6_text6 hlen hgs,
    groupBytes_groups 8 ip h]
  rfl

/-- **`ParseIP(ip.String())` is the sixteen-byte form of `ip`.** -/
theorem parseIP_string {ip x : IP} (h : ip.to16 = some x) : parseIP ip.string = x := by
  unfold IP.to16 at h
  by_cases h4 : ip.length = 4
  · rw [if_pos h4, Option.some.injEq] at h
    subst h
    have hto4 : ip.to4 = some ip := by rw [IP.to4, if_pos h4]
    rw [IP.string, if_neg (by omega), if_neg (by omega), hto4]
    exact parseIP_text4 h4
  · rw [if_neg h4] at h
    by_cases h16 : ip.length = 16
    · rw [if_pos h16, Option.some.injEq] at h
      subst h
      rw [IP.string, if_neg (by omega), if_neg (by omega)]
      by_cases hmapped : ip.take 12 = IP.v4InV6
      · have hto4 : ip.to4 = some (ip.drop 12) := by
          rw [IP.to4, if_neg h4, if_pos ⟨h16, hmapped⟩]
        rw [hto4]
        show parseIP (String.ofList (text4 (ip.drop 12))) = ip
        rw [parseIP_text4 (by rw [List.length_drop, h16]), ← hmapped, List.take_append_drop]
      · have hto4 : ip.to4 = none := by
          rw [IP.to4, if_neg h4, if_neg (fun hc => hmapped hc.2)]
        rw [hto4]
        exact parseIP_text6 h16
    · rw [if_neg h16] at h
      exact absurd h (by simp)

/-- Both forms of an address are one IPv4 address. -/
theorem to4_of_to16 {ip x : IP} (h : ip.to16 = some x) : x.to4 = ip.to4 := by
  unfold IP.to16 at h
  by_cases h4 : ip.length = 4
  · rw [if_pos h4, Option.some.injEq] at h
    subst h
    have hlen : (IP.v4InV6 ++ ip).length = 16 := by simp [IP.v4InV6, h4]
    simp [IP.to4, h4, IP.v4InV6]
  · rw [if_neg h4] at h
    by_cases h16 : ip.length = 16
    · rw [if_pos h16, Option.some.injEq] at h
      rw [h]
    · rw [if_neg h16] at h
      exact absurd h (by simp)

theorem length_of_to16 {ip x : IP} (h : ip.to16 = some x) :
    x.length = 16 ∧ (ip.length = 4 ∨ ip.length = 16) := by
  unfold IP.to16 at h
  split at h
  · next h4 =>
    rw [← Option.some.inj h]
    exact ⟨by simp [IP.v4InV6, h4], Or.inl h4⟩
  · split at h
    · next h16 =>
      rw [← Option.some.inj h]
      exact ⟨h16, Or.inr h16⟩
    · exact absurd h (by simp)

/-- Both forms of an address print alike. -/
theorem string_of_to16 {ip x : IP} (h : ip.to16 = some x) : ip.string = x.string := by
  have hto4 := to4_of_to16 h
  obtain ⟨hx, hip⟩ := length_of_to16 h
  have hip0 : ip.length ≠ 0 := by omega
  have hipv : ¬ (ip.length ≠ 4 ∧ ip.length ≠ 16) := by omega
  have hx0 : x.length ≠ 0 := by omega
  have hxv : ¬ (x.length ≠ 4 ∧ x.length ≠ 16) := by omega
  rw [IP.string, IP.string, if_neg hip0, if_neg hipv, if_neg hx0, if_neg hxv, hto4]
  cases hcase : ip.to4 with
  | some p4 => rfl
  | none =>
    -- not four bytes, so both are the one form
    have h4 : ip.length ≠ 4 := by
      intro h4
      rw [IP.to4, if_pos h4] at hcase
      exact absurd hcase (by simp)
    have hsame : ip = x := by
      rw [IP.to16, if_neg h4, if_pos (by omega)] at h
      exact Option.some.inj h
    rw [hsame]

/-- **Two addresses print alike exactly if they are the same address.** -/
theorem string_inj {ip x y z : IP} (hip : ip.to16 = some y) (hx : x.to16 = some z) :
    ip.string = x.string ↔ y = z := by
  constructor
  · intro h
    rw [← parseIP_string hip, h, parseIP_string hx]
  · intro h
    rw [string_of_to16 hip, string_of_to16 hx, h]

/-- What `Equal` compares. -/
theorem equal_iff {ip x y z : IP} (hip : ip.to16 = some y) (hx : x.to16 = some z) :
    ip.equal x = true ↔ y = z := by
  have hsplit : ∀ l : List UInt8, l.length = 16 → ∀ r : List UInt8,
      (l.take 12 = IP.v4InV6 ∧ r = l.drop 12 ↔ IP.v4InV6 ++ r = l) := by
    intro l hl r
    constructor
    · rintro ⟨hpre, rfl⟩
      rw [← hpre, List.take_append_drop]
    · rintro rfl
      have h12 : IP.v4InV6.length = 12 := rfl
      exact ⟨List.take_left' h12, (List.drop_left' h12).symm⟩
  unfold IP.to16 at hip hx
  unfold IP.equal
  split at hip <;> split at hx
  · next h4 hx4 =>
    rw [← Option.some.inj hip, ← Option.some.inj hx]
    simp [h4, hx4]
  · next h4 hx4 =>
    split at hx
    · next hx16 =>
      rw [← Option.some.inj hip, ← Option.some.inj hx]
      simpa [h4, hx16] using hsplit x hx16 ip
    · exact absurd hx (by simp)
  · next h4 hx4 =>
    split at hip
    · next h16 =>
      rw [← Option.some.inj hip, ← Option.some.inj hx]
      have h := hsplit ip h16 x
      rw [eq_comm (a := x), eq_comm (a := _ ++ _)] at h
      simpa [hx4, h16] using h
    · exact absurd hip (by simp)
  · split at hip
    · split at hx
      · next h16 hx16 =>
        rw [← Option.some.inj hip, ← Option.some.inj hx]
        simp [h16, hx16]
      · exact absurd hx (by simp)
    · exact absurd hip (by simp)

/-! IPv4 addresses -/

@[simp] theorem to4_nil : IP.to4 [] = none := rfl

theorem length_of_to4 {ip v : IP} (h : ip.to4 = some v) : v.length = 4 := by
  unfold IP.to4 at h
  split at h
  · next h4 => rw [← Option.some.inj h, h4]
  · split at h
    · next h16 => rw [← Option.some.inj h, List.length_drop, h16.1]
    · exact absurd h (by simp)

/-- The sixteen-byte form of an IPv4 address. -/
theorem to16_of_to4 {ip v : IP} (h : ip.to4 = some v) : ip.to16 = some (IP.v4InV6 ++ v) := by
  unfold IP.to4 at h
  unfold IP.to16
  split at h
  · next h4 => rw [if_pos h4, ← Option.some.inj h]
  · next h4 =>
    split at h
    · next h16 =>
      rw [if_neg h4, if_pos h16.1, ← Option.some.inj h, ← h16.2, List.take_append_drop]
    · exact absurd h (by simp)

/-- An IPv4 address has one sixteen-byte form. -/
theorem eq_of_to4 {ip x v : IP} (hip : ip.length = 16) (hx : x.length = 16)
    (h : ip.to4 = some v) (h' : x.to4 = some v) : ip = x := by
  have h16 : ∀ y : IP, y.length = 16 → y.to16 = some y := by
    intro y hy
    rw [IP.to16, if_neg (by omega), if_pos hy]
  have hsame := (to16_of_to4 h).trans (to16_of_to4 h').symm
  rw [h16 ip hip, h16 x hx] at hsame
  exact Option.some.inj hsame

/-- IPv4 addresses that are the same print alike. -/
theorem string_of_to4 {ip x v : IP} (h : ip.to4 = some v) (h' : x.to4 = some v) :
    ip.string = x.string :=
  (string_inj (to16_of_to4 h) (to16_of_to4 h')).mpr rfl

/-! What `ParseIP` returns -/

theorem length_finishIPv6 {bs ip : List UInt8} {ellipsis : Option Nat} {s : List Char}
    (hbs : bs.length ≤ 16) (h : finishIPv6 bs ellipsis s = some ip) : ip.length = 16 := by
  unfold finishIPv6 at h
  split at h
  · exact absurd h (by simp)
  · split at h
    · split at h
      · exact absurd h (by simp)
      · rw [← Option.some.inj h]
        omega
    · split at h
      · rw [← Option.some.inj h]
        simp only [List.length_append, List.length_replicate, List.length_take, List.length_drop]
        omega
      · exact absurd h (by simp)

theorem length_parseOctets : ∀ {k : Nat} {s rest : List Char} {bs : List UInt8},
    parseOctets k s = some (bs, rest) → bs.length = k + 1
  | 0, s, rest, bs, h => by
      obtain ⟨p, -, hp⟩ := Option.map_eq_some_iff.mp h
      rw [← (Prod.mk.inj hp).1]
      rfl
  | k + 1, s, rest, bs, h => by
      rw [parseOctets] at h
      split at h
      · exact absurd h (by simp)
      · obtain ⟨p, hp, heq⟩ := Option.map_eq_some_iff.mp h
        rw [← (Prod.mk.inj heq).1, List.length_cons, length_parseOctets hp]
      · exact absurd h (by simp)

theorem length_parseIPv4 {s : List Char} {bs : List UInt8} (h : parseIPv4 s = some bs) :
    bs.length = 4 := by
  unfold parseIPv4 at h
  split at h
  · next hoctets =>
    rw [← Option.some.inj h]
    exact length_parseOctets hoctets
  · exact absurd h (by simp)

/-- Each group adds two bytes, so eight of them fill an address. -/
theorem length_parseGroups : ∀ {fuel : Nat} {bs : List UInt8} {ellipsis : Option Nat}
    {s : List Char} {ip : List UInt8}, bs.length + 2 * fuel ≤ 16 →
    parseGroups fuel bs ellipsis s = some ip → ip.length = 16
  | 0, bs, ellipsis, s, ip, hbs, h => length_finishIPv6 (by omega) h
  | fuel + 1, bs, ellipsis, s, ip, hbs, h => by
      have hnext : ∀ n, (bs ++ beBytes 2 n).length + 2 * fuel ≤ 16 := by
        intro n
        rw [List.length_append, length_beBytes]
        omega
      rw [parseGroups] at h
      split at h
      · exact absurd h (by simp)
      · next n c hx =>
        split at h
        · exact absurd h (by simp)
        · split at h
          · -- a trailing IPv4 address
            split at h
            · exact absurd h (by simp)
            · split at h
              · exact absurd h (by simp)
              · next hroom =>
                split at h
                · exact absurd h (by simp)
                · next ip4 hip4 =>
                  refine length_finishIPv6 ?_ h
                  rw [List.length_append, length_parseIPv4 hip4]
                  omega
          · split at h
            · exact length_finishIPv6 (by have := hnext n; omega) h
            · split at h
              · exact absurd h (by simp)
              · split at h
                · exact length_finishIPv6 (by have := hnext n; omega) h
                · exact length_parseGroups (hnext n) h
            · split at h
              · exact absurd h (by simp)
              · exact length_parseGroups (hnext n) h
            · exact absurd h (by simp)

theorem length_parseIPv6 {s : List Char} {bs : List UInt8} (h : parseIPv6 s = some bs) :
    bs.length = 16 := by
  unfold parseIPv6 at h
  split at h
  · split at h
    · rw [← Option.some.inj h]
      rfl
    · exact length_parseGroups (by simp) h
  · exact length_parseGroups (by simp) h

/-- `ParseIP` returns nil or an address of sixteen bytes. -/
theorem parseIP_eq_nil_or (s : String) : parseIP s = [] ∨ (parseIP s).length = 16 := by
  unfold parseIP
  split
  · cases hparse : parseIPv4 s.toList with
    | none => exact Or.inl rfl
    | some bs =>
      refine Or.inr ?_
      simp [IP.v4InV6, length_parseIPv4 hparse]
  · cases hparse : parseIPv6 s.toList with
    | none => exact Or.inl rfl
    | some bs => exact Or.inr (length_parseIPv6 hparse)
  · exact Or.inl rfl

/-- Printing and parsing again changes nothing. -/
theorem parseIP_string_parseIP (s : String) : parseIP (parseIP s).string = parseIP s := by
  rcases parseIP_eq_nil_or s with hnil | h16
  · rw [hnil]
    decide
  · exact parseIP_string (by rw [IP.to16, if_neg (by omega), if_pos h16])

/-! ## Hardware addresses -/

theorem hex2_nibbles (b : UInt8) : b.toNat / 16 < 16 ∧ b.toNat % 16 < 16 := by
  have hb : b.toNat < 256 := b.toNat_lt
  omega

/-- A byte of two digits is read back. -/
theorem xtoi_hex2 (b : UInt8) : xtoi (hex2 b) = some (b.toNat, 2) := by
  obtain ⟨hhi, hlo⟩ := hex2_nibbles b
  rw [xtoi, hex2, toiFrom_digit (hexDigit?_digitChar _ hhi) (by unfold big; omega),
    toiFrom_digit (hexDigit?_digitChar _ hlo) (by unfold big; omega), toiFrom_stops (stops_nil _),
    Option.some.injEq, Prod.mk.injEq]
  exact ⟨by omega, rfl⟩

theorem hex2_inj {a b : UInt8} (h : hex2 a = hex2 b) : a = b := by
  have hx := xtoi_hex2 a
  rw [h, xtoi_hex2 b, Option.some.injEq, Prod.mk.injEq] at hx
  exact UInt8.toNat_inj.mp hx.1.symm

theorem joinSep_cons (sep : Char) (p : List Char) {ps : List (List Char)} (hps : ps ≠ []) :
    joinSep sep (p :: ps) = p ++ sep :: joinSep sep ps := by
  cases ps with
  | nil => exact absurd rfl hps
  | cons q ps => rfl

/-- The characters of a hardware address: two for each byte and the colons. -/
theorem length_joinSep_hex2 (a : HardwareAddr) :
    (joinSep ':' (a.map hex2)).length = 3 * a.length - 1 := by
  induction a with
  | nil => rfl
  | cons b a ih =>
    cases a with
    | nil => rfl
    | cons b' a =>
      rw [List.map_cons, joinSep_cons _ _ (by simp), List.length_append, List.length_cons, ih]
      simp [hex2]
      omega

/-- **Different hardware addresses print differently.** -/
theorem HardwareAddr.string_inj {a b : HardwareAddr} : a.string = b.string ↔ a = b := by
  constructor
  · intro h
    have hjoin : joinSep ':' (a.map hex2) = joinSep ':' (b.map hex2) := String.ofList_injective h
    clear h
    induction a generalizing b with
    | nil =>
      have hlen := congrArg List.length hjoin
      rw [length_joinSep_hex2, length_joinSep_hex2] at hlen
      simp only [List.length_nil] at hlen
      exact (List.length_eq_zero_iff.mp (by omega)).symm
    | cons x a ih =>
      have hlen := congrArg List.length hjoin
      rw [length_joinSep_hex2, length_joinSep_hex2, List.length_cons] at hlen
      cases b with
      | nil => simp at hlen; omega
      | cons y b =>
        have hsame : a.length = b.length := by simp at hlen; omega
        by_cases ha : a = []
        · have hb : b = [] := List.length_eq_zero_iff.mp (by rw [← hsame, ha]; rfl)
          subst ha hb
          rw [hex2_inj hjoin]
        · have hb : b ≠ [] := by
            intro hb
            rw [hb] at hsame
            exact ha (List.length_eq_zero_iff.mp hsame)
          rw [List.map_cons, List.map_cons, joinSep_cons _ _ (by simpa using ha),
            joinSep_cons _ _ (by simpa using hb)] at hjoin
          obtain ⟨hhead, htail⟩ := List.append_inj hjoin rfl
          rw [hex2_inj hhead, ih (List.cons.inj htail).2]
  · intro h
    rw [h]

theorem xtoi2_hex2 (b : UInt8) {s : List Char} {e : Option Char} (hs : s = [] ∨ s.head? = e) :
    xtoi2 (hex2 b ++ s) e = some b := by
  have hlen : (hex2 b).length = 2 := rfl
  have hsep : ¬ (2 < (hex2 b ++ s).length ∧ ((hex2 b ++ s).drop 2).head? ≠ e) := by
    rw [List.drop_left' hlen]
    rintro ⟨hlong, hne⟩
    rcases hs with rfl | hs
    · rw [List.append_nil, hlen] at hlong
      omega
    · exact hne hs
  rw [xtoi2, if_neg hsep, List.take_left' hlen, xtoi_hex2]
  simp

theorem parsePairs_join (a : HardwareAddr) :
    parsePairs ':' a.length (joinSep ':' (a.map hex2)) = some a := by
  induction a with
  | nil => rfl
  | cons b a ih =>
    rw [List.length_cons, parsePairs, List.map_cons]
    by_cases ha : a = []
    · subst ha
      have hb := xtoi2_hex2 b (s := []) (e := some ':') (Or.inl rfl)
      rw [List.append_nil] at hb
      simp [joinSep, hb, parsePairs]
    · have hb := xtoi2_hex2 b (s := ':' :: joinSep ':' (a.map hex2)) (e := some ':') (Or.inr rfl)
      rw [joinSep_cons _ _ (by simpa using ha), hb]
      show (parsePairs ':' a.length (joinSep ':' (a.map hex2))).map (b :: ·) = some (b :: a)
      rw [ih]
      rfl

/-- **`ParseMAC(a.String())`** is `a` where `ParseMAC` knows the length. -/
theorem parseMAC_string (a : HardwareAddr) :
    parseMAC a.string = if macLength a.length then some a else none := by
  have hlen := length_joinSep_hex2 a
  have htext : a.string.toList = joinSep ':' (a.map hex2) := by
    rw [HardwareAddr.string, String.toList_ofList]
  unfold parseMAC
  simp only [htext]
  by_cases hshort : (joinSep ':' (a.map hex2)).length < 14
  · have hmac : ¬ macLength a.length := by unfold macLength; omega
    rw [if_pos hshort, if_neg hmac]
  · -- at least five bytes, so there is a colon after the first
    have hlong : 5 ≤ a.length := by omega
    obtain ⟨b, a₁, rfl⟩ := List.exists_cons_of_length_pos (l := a) (by omega)
    obtain ⟨c, a', rfl⟩ := List.exists_cons_of_length_pos (l := a₁) (by simp at hlong; omega)
    have hcolon : (joinSep ':' ((b :: c :: a').map hex2))[2]? = some ':' := by
      simp [joinSep, hex2]
    have hn : ((joinSep ':' ((b :: c :: a').map hex2)).length + 1) / 3 = (b :: c :: a').length := by
      rw [hlen]; simp; omega
    have hmod : ((joinSep ':' ((b :: c :: a').map hex2)).length + 1) % 3 = 0 := by
      rw [hlen]; simp; omega
    rw [if_neg hshort, hcolon, if_pos (Or.inl rfl), hn, hmod]
    by_cases hmac : macLength (b :: c :: a').length
    · rw [if_neg (fun hc => hc.elim (fun h => h rfl) (fun h => h hmac)), if_pos hmac]
      exact parsePairs_join _
    · rw [if_pos (Or.inr hmac), if_neg hmac]

end GvisorTapVsock.Go
