/-
GvisorTapVsock.Go.Strconv — texts of truth values and of integers, as `strconv`
reads and prints them.

`parseInt` is `ParseInt(s, 0, 64)`: the text itself says its base, and an
underscore may stand between digits. What `itoa` prints is read back in base 10
(`parseInt_itoa`), because it has neither a leading zero nor an underscore.
-/
import GvisorTapVsock.Go.HostPort

namespace GvisorTapVsock.Go

/-- `strconv.ParseBool(str)`; nothing is the error, with which Go returns
false. -/
def parseBool (str : String) : Option Bool :=
  if str ∈ ["1", "t", "T", "TRUE", "true", "True"] then some true
  else if str ∈ ["0", "f", "F", "FALSE", "false", "False"] then some false
  else none

/-! ## Integers -/

/-- `strconv.Itoa(i)`. -/
def itoa (i : Int) : String :=
  String.ofList ((if i < 0 then ['-'] else []) ++ Nat.toDigits 10 i.natAbs)

/-- The value of a digit in bases up to 36, of either case. -/
def digit36? (c : Char) : Option Nat :=
  if '0' ≤ c ∧ c ≤ '9' then some (c.toNat - 48)
  else if 'a' ≤ c.toLower ∧ c.toLower ≤ 'z' then some (c.toLower.toNat - 87)
  else none

/-- The loop over the digits in the base the text chose, with the value so
far. -/
def baseFrom (base n : Nat) : List Char → Except NumErr Nat
  | [] => .ok n
  | c :: s =>
      if c = '_' then baseFrom base n s
      else
        match digit36? c with
        | none => .error .invalid
        | some d =>
            if base ≤ d then .error .invalid
            else if 2 ^ 64 ≤ n * base + d then .error .range
            else baseFrom base (n * base + d) s

/-- The base a text chooses, and the text after the prefix that says so. -/
def basePrefix : List Char → Nat × List Char
  | '0' :: c :: d :: s =>
      if c.toLower = 'b' then (2, d :: s)
      else if c.toLower = 'o' then (8, d :: s)
      else if c.toLower = 'x' then (16, d :: s)
      else (8, c :: d :: s)
  | '0' :: s => (8, s)
  | s => (10, s)

/-- The loop of `underscoreOK`; `saw` is the last character seen, `'0'` for any
digit and `'!'` for anything else. -/
def underscoreFrom (hex : Bool) (saw : Char) : List Char → Bool
  | [] => saw ≠ '_'
  | c :: s =>
      if ('0' ≤ c ∧ c ≤ '9') ∨ (hex = true ∧ 'a' ≤ c.toLower ∧ c.toLower ≤ 'f') then
        underscoreFrom hex '0' s
      -- an underscore follows a digit, and a digit follows it
      else if c = '_' then decide (saw = '0') && underscoreFrom hex '_' s
      else decide (saw ≠ '_') && underscoreFrom hex '!' s

/-- `underscoreOK` after the sign. -/
def underscoreUnsigned : List Char → Bool
  | '0' :: c :: s =>
      if c.toLower = 'b' ∨ c.toLower = 'o' ∨ c.toLower = 'x' then
        underscoreFrom (c.toLower = 'x') '0' s
      else underscoreFrom false '^' ('0' :: c :: s)
  | s => underscoreFrom false '^' s

/-- `underscoreOK(s)`: underscores separate digits only. -/
def underscoreOK : List Char → Bool
  | '-' :: s => underscoreUnsigned s
  | '+' :: s => underscoreUnsigned s
  | s => underscoreUnsigned s

/-- `strconv.ParseUint(s, 0, 64)`. -/
def parseUint0 (s : List Char) : Except NumErr Nat :=
  if s = [] then .error .invalid
  else
    match baseFrom (basePrefix s).1 0 (basePrefix s).2 with
    | .error e => .error e
    | .ok n => if '_' ∈ (basePrefix s).2 ∧ underscoreOK s = false then .error .invalid else .ok n

/-- `strconv.ParseInt(s, 0, 64)` after the sign. -/
def parseIntSigned (neg : Bool) (s : List Char) : Except NumErr Int :=
  match parseUint0 s with
  | .error e => .error e
  | .ok n =>
      if neg then (if 2 ^ 63 < n then .error .range else .ok (-n))
      else if 2 ^ 63 ≤ n then .error .range else .ok n

/-- `strconv.ParseInt(s, 0, 64)`. -/
def parseInt (s : String) : Except NumErr Int :=
  match s.toList with
  | '-' :: digits => parseIntSigned true digits
  | '+' :: digits => parseIntSigned false digits
  | digits => parseIntSigned false digits

example : parseInt "-0x1_F" = .ok (-31) := by decide
example : parseInt "1__0" = .error .invalid := by decide
example : itoa (-1500) = "-1500" := by decide

/-! ## What `itoa` prints is read back -/

theorem digit36?_digitChar : ∀ d < 10, digit36? (Nat.digitChar d) = some d := by decide

theorem digitChar_ne_underscore : ∀ d < 10, Nat.digitChar d ≠ '_' := by decide

theorem digitChar_eq_zero : ∀ d < 10, Nat.digitChar d = '0' → d = 0 := by decide

/-- A digit at the end is read after the digits before it. -/
theorem baseFrom_digit {s : List Char} {d m : Nat} (hd : d < 10) (hm : m * 10 + d < 2 ^ 64) :
    ∀ {n : Nat}, baseFrom 10 n s = .ok m →
      baseFrom 10 n (s ++ [Nat.digitChar d]) = .ok (m * 10 + d) := by
  induction s with
  | nil =>
    intro n h
    obtain rfl : n = m := by simpa [baseFrom] using h
    simpa [baseFrom, digitChar_ne_underscore d hd, digit36?_digitChar d hd, Nat.not_le.mpr hd]
      using hm
  | cons c s ih =>
    intro n h
    rw [baseFrom] at h
    rw [List.cons_append, baseFrom]
    split at h
    · rw [if_pos ‹_›]
      exact ih h
    · rw [if_neg ‹_›]
      cases hc : digit36? c with
      | none => simp [hc] at h
      | some e =>
        rw [hc] at h
        dsimp only at h ⊢
        split at h
        · cases h
        · split at h
          · cases h
          · rw [if_neg ‹_›, if_neg ‹_›]
            exact ih h

/-- The decimal digits of a number are read as this number. -/
theorem baseFrom_toDigits (n : Nat) (hn : n < 2 ^ 64) :
    baseFrom 10 0 (Nat.toDigits 10 n) = .ok n := by
  induction n using Nat.strongRecOn with
  | ind n ih =>
    rw [Nat.toDigits_eq_if (by decide)]
    split
    · have h : baseFrom 10 0 [] = .ok 0 := rfl
      simpa using baseFrom_digit (m := 0) ‹n < 10› (by omega) h
    · have h := ih (n / 10) (by omega) (by omega)
      have hd : n % 10 < 10 := Nat.mod_lt _ (by decide)
      have := baseFrom_digit hd (by omega) h
      rwa [Nat.div_add_mod'] at this

/-- Printed digits begin with a zero only for zero itself. -/
theorem head?_toDigits (n : Nat) (hn : 0 < n) : (Nat.toDigits 10 n).head? ≠ some '0' := by
  induction n using Nat.strongRecOn with
  | ind n ih =>
    rw [Nat.toDigits_eq_if (by decide)]
    split
    · intro h
      have := digitChar_eq_zero n ‹_› (by simpa using h)
      omega
    · have h := ih (n / 10) (by omega) (by omega)
      have hne : Nat.toDigits 10 (n / 10) ≠ [] := Nat.toDigits_ne_nil
      rwa [List.head?_append_of_ne_nil _ hne]

theorem mem_toDigits (n : Nat) : ∀ c ∈ Nat.toDigits 10 n, ∃ d < 10, c = Nat.digitChar d := by
  induction n using Nat.strongRecOn with
  | ind n ih =>
    rw [Nat.toDigits_eq_if (by decide)]
    split
    · intro c hc
      exact ⟨n, ‹_›, by simpa using hc⟩
    · intro c hc
      rcases List.mem_append.mp hc with hc | hc
      · exact ih (n / 10) (by omega) c hc
      · exact ⟨n % 10, Nat.mod_lt _ (by decide), by simpa using hc⟩

theorem parseUint0_toDigits (n : Nat) (hn : n < 2 ^ 64) :
    parseUint0 (Nat.toDigits 10 n) = .ok n := by
  rcases Nat.eq_zero_or_pos n with rfl | hpos
  · decide
  · have hne : Nat.toDigits 10 n ≠ [] := Nat.toDigits_ne_nil
    have hbase : basePrefix (Nat.toDigits 10 n) = (10, Nat.toDigits 10 n) := by
      have hhead := head?_toDigits n hpos
      unfold basePrefix
      split <;> simp_all
    have hunder : '_' ∉ Nat.toDigits 10 n := by
      intro h
      obtain ⟨d, hd, hc⟩ := mem_toDigits n _ h
      exact digitChar_ne_underscore d hd hc.symm
    simp [parseUint0, hne, hbase, hunder, baseFrom_toDigits n hn]

/-- An integer of 64 bits is read back from what is printed of it. -/
theorem parseInt_itoa {i : Int} (hlo : -9223372036854775808 ≤ i) (hhi : i < 9223372036854775808) :
    parseInt (itoa i) = .ok i := by
  have hn : i.natAbs < 2 ^ 64 := by omega
  have hread := parseUint0_toDigits i.natAbs hn
  by_cases hneg : i < 0
  · have hle : ¬ 2 ^ 63 < i.natAbs := by omega
    have hi : -(i.natAbs : Int) = i := by omega
    simp only [parseInt, itoa, if_pos hneg, String.toList_ofList, List.cons_append, List.nil_append,
      parseIntSigned, hread, if_true, if_neg hle, hi]
  · have hle : ¬ 2 ^ 63 ≤ i.natAbs := by omega
    have hi : (i.natAbs : Int) = i := by omega
    have hsign : ∀ c, c ∈ Nat.toDigits 10 i.natAbs → c ≠ '-' ∧ c ≠ '+' := by
      intro c hc
      obtain ⟨d, hd, rfl⟩ := mem_toDigits _ c hc
      exact (by decide : ∀ d < 10, Nat.digitChar d ≠ '-' ∧ Nat.digitChar d ≠ '+') d hd
    have hvalue : parseIntSigned false (Nat.toDigits 10 i.natAbs) = .ok i := by
      simp only [parseIntSigned, hread, Bool.false_eq_true, if_false, if_neg hle, hi]
    simp only [parseInt, itoa, if_neg hneg, String.toList_ofList, List.nil_append]
    split
    · exact absurd rfl (hsign '-' (by simp [*])).1
    · exact absurd rfl (hsign '+' (by simp [*])).2
    · exact hvalue

/-- On digits the loop of `strconv.Atoi` is that of `strconv.ParseInt`. -/
theorem digitsFrom_eq_baseFrom {s : List Char} (h : ∀ c ∈ s, ∃ d < 10, c = Nat.digitChar d) :
    ∀ n, digitsFrom n s = baseFrom 10 n s := by
  have hdec : ∀ d < 10, decDigit? (Nat.digitChar d) = some d := by decide
  induction s with
  | nil => exact fun _ => rfl
  | cons c s ih =>
    intro n
    obtain ⟨d, hd, rfl⟩ := h c List.mem_cons_self
    have hrest := ih (fun c hc => h c (List.mem_cons_of_mem _ hc)) (n * 10 + d)
    simp [digitsFrom, baseFrom, hdec d hd, digit36?_digitChar d hd, digitChar_ne_underscore d hd,
      Nat.not_le.mpr hd, hrest]

/-- The same for `strconv.Atoi`. -/
theorem atoi_itoa {i : Int} (hlo : -9223372036854775808 ≤ i) (hhi : i < 9223372036854775808) :
    atoi (itoa i) = .ok i := by
  have hn : i.natAbs < 2 ^ 64 := by omega
  have hdigits : digitsFrom 0 (Nat.toDigits 10 i.natAbs) = .ok i.natAbs := by
    rw [digitsFrom_eq_baseFrom (mem_toDigits _), baseFrom_toDigits _ hn]
  have hne : Nat.toDigits 10 i.natAbs ≠ [] := Nat.toDigits_ne_nil
  by_cases hneg : i < 0
  · have hle : ¬ 2 ^ 63 < i.natAbs := by omega
    have hi : -(i.natAbs : Int) = i := by omega
    simp only [atoi, itoa, if_pos hneg, String.toList_ofList, List.cons_append, List.nil_append,
      atoiSigned, if_neg hne, hdigits, if_true, if_neg hle, hi]
    rfl
  · have hle : ¬ 2 ^ 63 ≤ i.natAbs := by omega
    have hi : (i.natAbs : Int) = i := by omega
    have hsign : ∀ c, c ∈ Nat.toDigits 10 i.natAbs → c ≠ '-' ∧ c ≠ '+' := by
      intro c hc
      obtain ⟨d, hd, rfl⟩ := mem_toDigits _ c hc
      exact (by decide : ∀ d < 10, Nat.digitChar d ≠ '-' ∧ Nat.digitChar d ≠ '+') d hd
    have hvalue : atoiSigned false (Nat.toDigits 10 i.natAbs) = .ok i := by
      simp only [atoiSigned, if_neg hne, hdigits, Bool.false_eq_true, if_false, if_neg hle, hi]
    simp only [atoi, itoa, if_neg hneg, String.toList_ofList, List.nil_append]
    split
    · exact absurd rfl (hsign '-' (by simp [*])).1
    · exact absurd rfl (hsign '+' (by simp [*])).2
    · rw [hvalue]
      rfl

end GvisorTapVsock.Go
