/-
GvisorTapVsock.Go.HostPortTheorems — what the readers of `host:port` accept.

Three groups of facts, each about one reader:

  Splitting  — a text that `strings.Split` cuts in two is its two pieces around
               the only separator (`split_eq_pair_iff`), and on a text without
               brackets `net.SplitHostPort` is the same cut at the only colon
               (`splitHostPort_plain`, `plain_of_splitHostPort`); with a bracket
               in front it is a host in brackets, a colon and a port
               (`splitHostPort_bracketed`, `bracketed_of_splitHostPort`).
  Numbers    — what `strconv.ParseUint` accepts is a number in range, and
               `strconv.Atoi` reads the same number (`atoi_of_parseUint`).
  IPv4 texts — a text that denotes an IPv4 address and has no colon is made of
               digits and dots (`isDotted_of_parseIP`).
-/
import GvisorTapVsock.Go.Bytes
import GvisorTapVsock.Go.HostPort
import GvisorTapVsock.Go.NetTheorems

namespace GvisorTapVsock.Go

/-! ## Splitting -/

section Split

variable {α : Type} [DecidableEq α] {sep : α}

/-- No piece of a split contains the separator. -/
theorem not_mem_of_mem_splitOn {s piece : List α} (h : piece ∈ s.splitOn sep) : sep ∉ piece := by
  intro hmem
  simpa using not_blank_of_mem_splitOnP h sep hmem

theorem splitOn_eq_pair_iff {s a b : List α} :
    s.splitOn sep = [a, b] ↔ s = a ++ sep :: b ∧ sep ∉ a ∧ sep ∉ b := by
  constructor
  · intro h
    have hjoin : [sep].intercalate (s.splitOn sep) = s := List.intercalate_splitOn sep
    rw [h] at hjoin
    refine ⟨by simpa [List.intercalate] using hjoin.symm, ?_, ?_⟩
    · exact not_mem_of_mem_splitOn (s := s) (by simp [h])
    · exact not_mem_of_mem_splitOn (s := s) (by simp [h])
  · intro ⟨hs, ha, hb⟩
    have hsplit : ([sep].intercalate [a, b]).splitOn sep = [a, b] :=
      List.splitOn_intercalate sep (by simp [ha, hb]) (by simp)
    simpa [hs, List.intercalate] using hsplit

end Split

theorem split_eq_pair_iff {s a b : String} {sep : Char} :
    split s sep = [a, b] ↔
      s.toList = a.toList ++ sep :: b.toList ∧ sep ∉ a.toList ∧ sep ∉ b.toList := by
  rw [← splitOn_eq_pair_iff, split]
  constructor
  · intro h
    have hlist := congrArg (List.map String.toList) h
    simpa [Function.comp_def] using hlist
  · intro h
    simp [h]

/-- The first separator is the one that comes after none. -/
theorem idxOf?_append {c : Char} {a b : List Char} (ha : c ∉ a) :
    (a ++ c :: b).idxOf? c = some a.length := by
  rw [List.idxOf?_eq_some_iff]
  refine ⟨by simp, by simp, ?_⟩
  intro j hj hc
  rw [List.getElem_append_left hj] at hc
  exact ha (hc ▸ List.getElem_mem _)

/-- The last separator is the one that none follows. -/
theorem lastIndex?_append {c : Char} {a b : List Char} (hb : c ∉ b) :
    lastIndex? c (a ++ c :: b) = some a.length := by
  have hrev : (a ++ c :: b).reverse = b.reverse ++ c :: a.reverse := by simp
  rw [lastIndex?, hrev, idxOf?_append (by simpa using hb)]
  simp

theorem lastIndex?_eq_none {c : Char} {s : List Char} (h : c ∉ s) : lastIndex? c s = none := by
  simp [lastIndex?, h]

/-- A text with a separator, cut at the last one. -/
theorem exists_last_of_mem {c : Char} {s : List Char} (h : c ∈ s) :
    ∃ a b, s = a ++ c :: b ∧ c ∉ b := by
  obtain ⟨b, a, hs, hb⟩ := List.eq_append_cons_of_mem (List.mem_reverse.mpr h)
  refine ⟨a.reverse, b.reverse, ?_, by simpa using hb⟩
  simpa using congrArg List.reverse hs

/-- Without brackets, the one colon separates host and port. -/
theorem splitHostPort_plain {s host port : String}
    (hs : s.toList = host.toList ++ ':' :: port.toList) (hhost : ':' ∉ host.toList)
    (hport : ':' ∉ port.toList) (hopen : '[' ∉ s.toList) (hclose : ']' ∉ s.toList) :
    splitHostPort s = .ok (host, port) := by
  have hhead : s.toList.head? ≠ some '[' := fun h => hopen (List.mem_of_head? h)
  have hlast : lastIndex? ':' s.toList = some host.toList.length := by
    rw [hs]
    exact lastIndex?_append hport
  have hdrop : s.toList.drop (host.toList.length + 1) = port.toList := by
    rw [hs, ← List.drop_drop]
    simp
  have htake : s.toList.take host.toList.length = host.toList := by rw [hs]; simp
  simp only [splitHostPort, hlast, hhead, if_false, htake, hhost, List.drop_zero, hopen, hclose,
    hdrop, String.ofList_toList]

/-- A text that `net.SplitHostPort` reads without a bracket in front is cut at
its only colon. -/
theorem plain_of_splitHostPort {s host port : String} (h : splitHostPort s = .ok (host, port))
    (hhead : s.toList.head? ≠ some '[') :
    s.toList = host.toList ++ ':' :: port.toList ∧ ':' ∉ host.toList ∧ ':' ∉ port.toList := by
  by_cases hcolon : ':' ∈ s.toList
  · obtain ⟨a, b, hs, hb⟩ := exists_last_of_mem hcolon
    have hlast : lastIndex? ':' s.toList = some a.length := by
      rw [hs]
      exact lastIndex?_append hb
    have htake : s.toList.take a.length = a := by rw [hs]; simp
    have hdrop : s.toList.drop (a.length + 1) = b := by
      rw [hs, ← List.drop_drop]
      simp
    simp only [splitHostPort, hlast, hhead, if_false, htake, List.drop_zero, hdrop] at h
    by_cases ha : ':' ∈ a
    · simp [ha] at h
    · by_cases hopen : '[' ∈ s.toList
      · simp [ha, hopen] at h
      · by_cases hclose : ']' ∈ s.toList
        · simp [ha, hopen, hclose] at h
        · simp only [ha, hopen, hclose, if_false, Except.ok.injEq, Prod.mk.injEq] at h
          obtain ⟨rfl, rfl⟩ := h
          simpa [ha, hb] using hs
  · simp [splitHostPort, lastIndex?_eq_none hcolon] at h

/-- It has no brackets. -/
theorem no_brackets_of_splitHostPort {s host port : String}
    (h : splitHostPort s = .ok (host, port)) (hhead : s.toList.head? ≠ some '[') :
    '[' ∉ s.toList ∧ ']' ∉ s.toList := by
  obtain ⟨hs, hhost, hport⟩ := plain_of_splitHostPort h hhead
  have hlast : lastIndex? ':' s.toList = some host.toList.length := by
    rw [hs]
    exact lastIndex?_append hport
  have htake : s.toList.take host.toList.length = host.toList := by rw [hs]; simp
  simp only [splitHostPort, hlast, hhead, if_false, htake, hhost, List.drop_zero] at h
  by_cases hopen : '[' ∈ s.toList
  · simp [hopen] at h
  · by_cases hclose : ']' ∈ s.toList
    · simp [hopen, hclose] at h
    · exact ⟨hopen, hclose⟩

/-- A host in brackets, a colon and a port; only brackets in other places are
left to be found. -/
theorem splitHostPort_bracketed {s : String} {host port : List Char}
    (hs : s.toList = '[' :: (host ++ ']' :: ':' :: port)) (hhost : ']' ∉ host)
    (hport : ':' ∉ port) :
    splitHostPort s =
      if '[' ∈ host ++ ']' :: ':' :: port then .error ⟨"unexpected '[' in address", s⟩
      else if ']' ∈ ':' :: port then .error ⟨"unexpected ']' in address", s⟩
      else .ok (String.ofList host, String.ofList port) := by
  have hlast : lastIndex? ':' s.toList = some (host.length + 2) := by
    have hsplit : s.toList = ('[' :: host ++ [']']) ++ ':' :: port := by simp [hs]
    rw [hsplit, lastIndex?_append hport]
    simp
  have hclose : s.toList.idxOf? ']' = some (host.length + 1) := by
    have hsplit : s.toList = ('[' :: host) ++ ']' :: ':' :: port := by simp [hs]
    rw [hsplit, idxOf?_append (by simp [hhost])]
    simp
  have hhead : s.toList.head? = some '[' := by simp [hs]
  have hlen : host.length + 1 + 1 ≠ s.toList.length := by simp [hs]
  have hdrop : s.toList.drop (host.length + 1 + 1) = ':' :: port := by simp [hs]
  have hdrop' : s.toList.drop (host.length + 2 + 1) = port := by simp [hs]
  have htake : (s.toList.take (host.length + 1)).drop 1 = host := by simp [hs]
  have htail : s.toList.drop 1 = host ++ ']' :: ':' :: port := by simp [hs]
  simp only [splitHostPort, hlast, hclose, hhead, if_true, hlen, if_false, hdrop, hdrop', htake,
    htail]

/-- A text that begins with a bracket is a host in brackets, a colon and a
port. -/
theorem bracketed_of_splitHostPort {s host port : String} (h : splitHostPort s = .ok (host, port))
    (hhead : s.toList.head? = some '[') :
    s.toList = '[' :: (host.toList ++ ']' :: ':' :: port.toList) ∧ ':' ∉ port.toList ∧
      '[' ∉ host.toList ∧ ']' ∉ host.toList ∧ '[' ∉ port.toList ∧ ']' ∉ port.toList := by
  by_cases hcolon : ':' ∈ s.toList
  · obtain ⟨a, b, hs, hb⟩ := exists_last_of_mem hcolon
    have hlast : lastIndex? ':' s.toList = some a.length := by
      rw [hs]
      exact lastIndex?_append hb
    by_cases hclose : ']' ∈ s.toList
    · obtain ⟨pre, post, hs', hpre⟩ := List.eq_append_cons_of_mem hclose
      have hidx : s.toList.idxOf? ']' = some pre.length := by
        rw [hs']
        exact idxOf?_append hpre
      by_cases hstop : pre.length + 1 = a.length
      · -- the colon comes right after the bracket
        have hcut : a ++ ':' :: b = (pre ++ [']']) ++ post := by rw [← hs, hs']; simp
        obtain ⟨-, rfl⟩ := List.append_inj hcut (by simp [← hstop])
        cases pre with
        | nil => simp [hs'] at hhead
        | cons c pre =>
          obtain rfl : c = '[' := by simpa [hs'] using hhead
          have hinner : ']' ∉ pre := fun hmem => hpre (List.mem_cons_of_mem _ hmem)
          rw [splitHostPort_bracketed hs' hinner hb] at h
          by_cases hopen : '[' ∈ pre ++ ']' :: ':' :: b
          · simp [hopen] at h
          · by_cases hclose' : ']' ∈ ':' :: b
            · simp [hopen, hclose'] at h
            · simp only [hopen, hclose', if_false, Except.ok.injEq, Prod.mk.injEq] at h
              obtain ⟨rfl, rfl⟩ := h
              simp_all
      · exfalso
        simp only [splitHostPort, hlast, hhead, if_true, hidx, hstop, if_false] at h
        split at h
        · simp at h
        · split at h <;> simp at h
    · have hidx : s.toList.idxOf? ']' = none := by simp [hclose]
      simp [splitHostPort, hlast, hhead, hidx] at h
  · simp [splitHostPort, lastIndex?_eq_none hcolon] at h

/-- Neither the host nor the port has brackets, and the port no colon. -/
theorem parts_of_splitHostPort {s host port : String} (h : splitHostPort s = .ok (host, port)) :
    ('[' ∉ host.toList ∧ ']' ∉ host.toList) ∧
      '[' ∉ port.toList ∧ ']' ∉ port.toList ∧ ':' ∉ port.toList := by
  by_cases hhead : s.toList.head? = some '['
  · obtain ⟨-, hcolon, hopen, hclose, hopen', hclose'⟩ := bracketed_of_splitHostPort h hhead
    exact ⟨⟨hopen, hclose⟩, hopen', hclose', hcolon⟩
  · obtain ⟨hs, -, hcolon⟩ := plain_of_splitHostPort h hhead
    obtain ⟨hopen, hclose⟩ := no_brackets_of_splitHostPort h hhead
    rw [hs, List.mem_append, not_or] at hopen hclose
    exact ⟨⟨hopen.1, hclose.1⟩, fun hmem => hopen.2 (List.mem_cons_of_mem _ hmem),
      fun hmem => hclose.2 (List.mem_cons_of_mem _ hmem), hcolon⟩

/-! ## Numbers -/

/-- A character that was read is a digit that fits. -/
theorem uintFrom_cons {limit n v : Nat} {c : Char} {s : List Char}
    (h : uintFrom limit n (c :: s) = .ok v) :
    ∃ d, decDigit? c = some d ∧ n * 10 + d < limit ∧ uintFrom limit (n * 10 + d) s = .ok v := by
  cases hc : decDigit? c with
  | none => simp [uintFrom, hc] at h
  | some d =>
    by_cases hlt : limit ≤ n * 10 + d
    · simp [uintFrom, hc, hlt] at h
    · simp only [uintFrom, hc, hlt, if_false] at h
      exact ⟨d, rfl, by omega, h⟩

theorem uintFrom_lt {limit : Nat} : ∀ {s : List Char} {n v : Nat}, n < limit →
    uintFrom limit n s = .ok v → v < limit
  | [], n, v, hn, h => by
      simp only [uintFrom, Except.ok.injEq] at h
      omega
  | c :: s, n, v, hn, h => by
      obtain ⟨d, _, hlt, hrest⟩ := uintFrom_cons h
      exact uintFrom_lt hlt hrest

/-- A number that fits in fewer bits fits in 64. -/
theorem digitsFrom_of_uintFrom {limit : Nat} (hlimit : limit ≤ 2 ^ 64) :
    ∀ {s : List Char} {n v : Nat}, uintFrom limit n s = .ok v → digitsFrom n s = .ok v
  | [], n, v, h => h
  | c :: s, n, v, h => by
      obtain ⟨d, hc, hlt, hrest⟩ := uintFrom_cons h
      have hfits : ¬ 2 ^ 64 ≤ n * 10 + d := by omega
      simp only [digitsFrom, hc, hfits, if_false]
      exact digitsFrom_of_uintFrom hlimit hrest

theorem isDigit_of_uintFrom {limit : Nat} :
    ∀ {s : List Char} {n v : Nat}, uintFrom limit n s = .ok v → ∀ c ∈ s, decDigit? c ≠ none
  | [], _, _, _ => by simp
  | c :: s, n, v, h => by
      obtain ⟨d, hc, _, hrest⟩ := uintFrom_cons h
      simpa [hc] using isDigit_of_uintFrom hrest

section ParseUint

variable {s : String} {bitSize v : Nat}

theorem parseUint_eq_ok (h : parseUint s bitSize = .ok v) :
    s.toList ≠ [] ∧ uintFrom (2 ^ bitSize) 0 s.toList = .ok v := by
  by_cases hs : s.toList = []
  · simp [parseUint, hs] at h
  · exact ⟨hs, by simpa [parseUint, hs] using h⟩

theorem parseUint_lt (h : parseUint s bitSize = .ok v) : v < 2 ^ bitSize :=
  uintFrom_lt (Nat.two_pow_pos bitSize) (parseUint_eq_ok h).2

/-- `ParseUint` reads digits only. -/
theorem not_mem_of_parseUint (h : parseUint s bitSize = .ok v) {c : Char}
    (hc : decDigit? c = none) : c ∉ s.toList :=
  fun hmem => isDigit_of_uintFrom (parseUint_eq_ok h).2 c hmem hc

/-- Where `ParseUint` accepts, `Atoi` reads the same number. -/
theorem atoi_of_parseUint (hbits : bitSize < 64) (h : parseUint s bitSize = .ok v) :
    atoi s = .ok (v : Int) := by
  have hlt : v < 2 ^ 63 :=
    Nat.lt_of_lt_of_le (parseUint_lt h) (Nat.pow_le_pow_right (by decide) (by omega))
  obtain ⟨hne, huint⟩ := parseUint_eq_ok h
  have hdigits : digitsFrom 0 s.toList = .ok v :=
    digitsFrom_of_uintFrom (Nat.pow_le_pow_right (by decide) (by omega)) huint
  have hsigned : atoiSigned false s.toList = .ok (v : Int) := by
    simp only [atoiSigned, hne, hdigits, if_false, Bool.false_eq_true, Nat.not_le.mpr hlt]
  have hminus : '-' ∉ s.toList := not_mem_of_parseUint h (by decide)
  have hplus : '+' ∉ s.toList := not_mem_of_parseUint h (by decide)
  unfold atoi
  split
  · rename_i hs
    simp [hs] at hminus
  · rename_i hs
    simp [hs] at hplus
  · rw [hsigned]
    rfl

end ParseUint

/-! ## IPv4 texts -/

/-- `dtoi` reads digits, and stops with what it has not read. -/
theorem isDigit_of_toiFrom : ∀ {s : List Char} {n i v k : Nat},
    toiFrom decDigit? 10 n i s = some (v, k) → i ≤ k ∧ ∀ c ∈ s.take (k - i), decDigit? c ≠ none
  | [], n, i, v, k, h => by
      by_cases hi : i = 0
      · simp [toiFrom, hi] at h
      · simp only [toiFrom, hi, if_false, Option.some.injEq, Prod.mk.injEq] at h
        simp [h.2]
  | c :: s, n, i, v, k, h => by
      cases hc : decDigit? c with
      | none =>
        by_cases hi : i = 0
        · simp [toiFrom, hc, hi] at h
        · simp only [toiFrom, hc, hi, if_false, Option.some.injEq, Prod.mk.injEq] at h
          simp [h.2]
      | some d =>
        by_cases hbig : big ≤ n * 10 + d
        · simp [toiFrom, hc, hbig] at h
        · simp only [toiFrom, hc, hbig, if_false] at h
          obtain ⟨hle, hdigits⟩ := isDigit_of_toiFrom h
          obtain ⟨m, hm⟩ : ∃ m, k - i = m + 1 := ⟨k - i - 1, by omega⟩
          have hm' : k - (i + 1) = m := by omega
          rw [hm'] at hdigits
          refine ⟨by omega, ?_⟩
          rw [hm, List.take_succ_cons]
          simpa [hc] using hdigits

/-- One component is digits in front of the rest. -/
theorem parseOctet_eq_some {s rest : List Char} {b : UInt8} (h : parseOctet s = some (b, rest)) :
    ∃ digits, s = digits ++ rest ∧ ∀ c ∈ digits, decDigit? c ≠ none := by
  cases hd : dtoi s with
  | none => simp [parseOctet, hd] at h
  | some read =>
    obtain ⟨n, k⟩ := read
    by_cases hbig : 0xFF < n
    · simp [parseOctet, hd, hbig] at h
    · by_cases hzero : 1 < k ∧ s.head? = some '0'
      · simp [parseOctet, hd, hbig, hzero] at h
      · simp only [parseOctet, hd, hbig, hzero, if_false, Option.some.injEq, Prod.mk.injEq] at h
        refine ⟨s.take k, by rw [← h.2, List.take_append_drop], ?_⟩
        exact (isDigit_of_toiFrom hd).2

/-- The characters of a dotted address. -/
def IsDotted (c : Char) : Prop := c = '.' ∨ decDigit? c ≠ none

theorem parseOctets_eq_some : ∀ {k : Nat} {s rest : List Char} {bs : List UInt8},
    parseOctets k s = some (bs, rest) → ∃ pre, s = pre ++ rest ∧ ∀ c ∈ pre, IsDotted c
  | 0, s, rest, bs, h => by
      simp only [parseOctets, Option.map_eq_some_iff, Prod.mk.injEq] at h
      obtain ⟨⟨b, rest'⟩, hoctet, -, rfl⟩ := h
      obtain ⟨digits, hs, hdigits⟩ := parseOctet_eq_some hoctet
      exact ⟨digits, hs, fun c hc => Or.inr (hdigits c hc)⟩
  | k + 1, s, rest, bs, h => by
      unfold parseOctets at h
      split at h
      · cases h
      · rename_i b rest' hoctet
        simp only [Option.map_eq_some_iff, Prod.mk.injEq] at h
        obtain ⟨⟨bs', rest''⟩, hmore, -, rfl⟩ := h
        obtain ⟨digits, hs, hdigits⟩ := parseOctet_eq_some hoctet
        obtain ⟨pre, hpre, hdotted⟩ := parseOctets_eq_some hmore
        refine ⟨digits ++ '.' :: pre, by simp [hs, hpre], ?_⟩
        intro c hc
        obtain hc | hc := List.mem_append.mp hc
        · exact Or.inr (hdigits c hc)
        · obtain rfl | hc := List.mem_cons.mp hc
          · exact Or.inl rfl
          · exact hdotted c hc
      · cases h

theorem isDotted_of_parseIPv4 {s : List Char} {bs : List UInt8} (h : parseIPv4 s = some bs) :
    ∀ c ∈ s, IsDotted c := by
  unfold parseIPv4 at h
  split at h
  · rename_i hoctets
    obtain ⟨pre, hs, hdotted⟩ := parseOctets_eq_some hoctets
    simpa [hs] using hdotted
  · cases h

/-- Without a colon, only a dotted text is an address. -/
theorem isDotted_of_parseIP {s : String} (hcolon : ':' ∉ s.toList) {v : IP}
    (h : (parseIP s).to4 = some v) : ∀ c ∈ s.toList, IsDotted c := by
  unfold parseIP at h
  split at h
  · cases hip : parseIPv4 s.toList with
    | none => simp [hip] at h
    | some bs => exact isDotted_of_parseIPv4 hip
  · rename_i c hdot hfind
    have hsep := List.find?_some hfind
    have hmem := List.mem_of_find?_eq_some hfind
    simp only [decide_eq_true_eq] at hsep
    obtain rfl | rfl := hsep
    · exact (hdot rfl).elim
    · exact absurd hmem hcolon
  · simp at h

theorem not_mem_of_parseIP {s : String} (hcolon : ':' ∉ s.toList) {v : IP}
    (h : (parseIP s).to4 = some v) {c : Char} (hne : c ≠ '.') (hc : decDigit? c = none) :
    c ∉ s.toList := by
  intro hmem
  obtain rfl | hdigit := isDotted_of_parseIP hcolon h c hmem
  · exact hne rfl
  · exact hdigit hc

end GvisorTapVsock.Go
