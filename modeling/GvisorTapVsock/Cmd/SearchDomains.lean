/-
GvisorTapVsock.Cmd.SearchDomains — the search domains gvproxy reads from
resolv.conf (`searchDomains` in `cmd/gvproxy/main.go`), and how DHCP option 119
writes them (`labelToBytes` of rfc1035label).

A resolv.conf separates the keyword and the domains by any mix of spaces and
tabs. The loop looks for the keyword with ONE SPACE after it and cuts the rest
of that line at every space. A line whose keyword is followed by a tab is passed
over, a tab stays inside a domain, and a space too many is an empty domain.

File contents and domains are bytes: nothing here depends on an encoding.
-/
import GvisorTapVsock.Go.Bytes

namespace GvisorTapVsock.Cmd.Gvproxy

open GvisorTapVsock.Go
open GvisorTapVsock.Go.Bytes (ascii lines dropCR scanLines trimPrefix maxScanTokenSize)

/-! ## The program -/

/-- `searchPrefix`. -/
def searchPrefix : List UInt8 := ascii "search "

/-- `searchDomains()` on an operating system, with the contents of
/etc/resolv.conf if it can be opened; nil is the empty list. -/
def searchDomains (goos : String) (resolvConf : Option (List UInt8)) : List (List UInt8) :=
  if goos = "darwin" ∨ goos = "linux" then
    match resolvConf with
    | none => []
    | some content =>
        match (scanLines content).find? (fun text => searchPrefix.isPrefixOf text) with
        | some text => (trimPrefix text searchPrefix).splitOn 0x20
        -- the end of the file, or a line that is too long
        | none => []
  else []

/-- `labelToBytes(label)`: each part behind one byte of length, and a zero. -/
def labelToBytes (label : List UInt8) : List UInt8 :=
  if label = [] then [0]
  else (label.splitOn 0x2e).flatMap (fun part => UInt8.ofNat part.length :: part) ++ [0]

/-- `labelsToBytes(labels)`, the value of option 119. -/
def labelsToBytes (labels : List (List UInt8)) : List UInt8 := labels.flatMap labelToBytes

/-! ## What is asked -/

/-- A space or a tab. -/
def isBlank (b : UInt8) : Bool := b = 0x20 ∨ b = 0x09

/-- A line that starts with the keyword and a blank. -/
def startsWithSearch (line : List UInt8) : Bool :=
  (ascii "search").isPrefixOf line ∧ (line.drop 6).head?.any isBlank

/-- The first such line. -/
def keywordLine (content : List UInt8) : Option (List UInt8) :=
  ((lines content).map dropCR).find? startsWithSearch

/-- The domains a resolv.conf specifies: the words behind the keyword. -/
def specifiedDomains (content : List UInt8) : List (List UInt8) :=
  match keywordLine content with
  | none => []
  | some line => words isBlank (line.drop 6)

/-- The domains are the specified ones; none is empty, has a blank in it, or is
written as an empty label. -/
structure SearchSpec (content : List UInt8) (domains : List (List UInt8)) : Prop where
  exact : domains = specifiedDomains content
  solid : ∀ d ∈ domains, d ≠ [] ∧ 0x20 ∉ d ∧ 0x09 ∉ d
  labels : ∀ d ∈ domains, labelToBytes d ≠ [0]

/-- Some part of a domain is written with the length 0. -/
def HasEmptyLabel (d : List UInt8) : Prop :=
  ∃ part ∈ d.splitOn 0x2e, UInt8.ofNat part.length = 0

/-- The first line with the keyword and a space. -/
def searchLine (content : List UInt8) : Option (List UInt8) :=
  ((lines content).map dropCR).find? (fun text => searchPrefix.isPrefixOf text)

/-- The file is written the way the loop reads it: on the first line with the
keyword, a space follows it and single spaces join the domains. A first line
with a tab does no harm only if it has no domains and no line with a space
follows, or the line the loop uses in its place has the same domains. -/
def PlainlyWritten (content : List UInt8) : Prop :=
  ∀ line, keywordLine content = some line →
    if searchPrefix.isPrefixOf line then Joined isBlank 0x20 (line.drop 7)
    else
      match searchLine content with
      | none => words isBlank (line.drop 6) = []
      | some used =>
          Joined isBlank 0x20 (used.drop 7) ∧
            words isBlank (used.drop 7) = words isBlank (line.drop 6)

/-! ## The labels -/

theorem labelToBytes_ne {d : List UInt8} (h : d ≠ []) : labelToBytes d ≠ [0] := by
  obtain ⟨part, parts, hparts⟩ :=
    List.exists_cons_of_ne_nil (List.splitOnP_ne_nil (· == (0x2e : UInt8)) d)
  rw [labelToBytes, if_neg h, List.splitOn, hparts, List.flatMap_cons]
  intro heq
  have hlen := congrArg List.length heq
  simp at hlen

theorem hasEmptyLabel_iff (d : List UInt8) :
    HasEmptyLabel d ↔ ∃ part ∈ d.splitOn 0x2e, part.length % 256 = 0 := by
  have hzero : ∀ n : Nat, UInt8.ofNat n = 0 ↔ n % 256 = 0 := by
    intro n
    rw [← UInt8.toNat_inj, UInt8.toNat_ofNat']
    rfl
  simp only [HasEmptyLabel, hzero]

/-! ## The two lines -/

theorem startsWithSearch_of_searchPrefix {line : List UInt8}
    (h : searchPrefix.isPrefixOf line = true) :
    startsWithSearch line = true ∧ line.drop 6 = 0x20 :: line.drop 7 := by
  obtain ⟨rest, rfl⟩ := List.isPrefixOf_iff_prefix.mp h
  exact ⟨rfl, rfl⟩

/-- If what is looked for is a special case, it is not found before. -/
theorem find?_of_imp {α : Type} {p q : α → Bool} (hpq : ∀ a, p a = true → q a = true)
    {l : List α} {a : α} (h : l.find? q = some a) (ha : p a = true) : l.find? p = some a := by
  obtain ⟨-, before, after, rfl, hbefore⟩ := List.find?_eq_some_iff_append.mp h
  refine List.find?_eq_some_iff_append.mpr ⟨ha, before, after, rfl, fun b hb => ?_⟩
  have hq := hbefore b hb
  cases hp : p b with
  | false => rfl
  | true => simp [hpq b hp] at hq

theorem searchLine_of_keywordLine {content line : List UInt8}
    (h : keywordLine content = some line) (hspace : searchPrefix.isPrefixOf line = true) :
    searchLine content = some line :=
  find?_of_imp (fun _ hline => (startsWithSearch_of_searchPrefix hline).1) h hspace

theorem searchLine_of_keywordLine_none {content : List UInt8} (h : keywordLine content = none) :
    searchLine content = none := by
  rw [keywordLine, List.find?_eq_none] at h
  rw [searchLine, List.find?_eq_none]
  exact fun line hline hspace => h line hline (startsWithSearch_of_searchPrefix hspace).1

/-! ## The result -/

section Result

variable {goos : String} {content : List UInt8}

/-- What the loop returns, if it reads to the end. -/
theorem searchDomains_eq (hgoos : goos = "darwin" ∨ goos = "linux")
    (hshort : ∀ line ∈ lines content, line.length < maxScanTokenSize) :
    searchDomains goos (some content) =
      (searchLine content).elim [] (fun used => (used.drop 7).splitOn 0x20) := by
  rw [searchDomains, if_pos hgoos]
  simp only [Bytes.scanLines_of_short hshort]
  show (match searchLine content with
    | some text => (trimPrefix text searchPrefix).splitOn 0x20
    | none => []) = _
  cases hused : searchLine content with
  | none => rfl
  | some used =>
    have hspace : searchPrefix.isPrefixOf used = true := List.find?_some hused
    show (trimPrefix used searchPrefix).splitOn 0x20 = (used.drop 7).splitOn 0x20
    rw [trimPrefix, if_pos hspace]
    rfl

/-- Domains that are the specified ones are also in order. -/
theorem searchSpec_iff (domains : List (List UInt8)) :
    SearchSpec content domains ↔ domains = specifiedDomains content := by
  refine ⟨SearchSpec.exact, ?_⟩
  rintro rfl
  have hwords : ∀ d ∈ specifiedDomains content, d ≠ [] ∧ ∀ b ∈ d, isBlank b = false := by
    intro d hd
    unfold specifiedDomains at hd
    split at hd
    · simp at hd
    · exact mem_words hd
  refine ⟨rfl, fun d hd => ?_, fun d hd => labelToBytes_ne (hwords d hd).1⟩
  obtain ⟨hne, hblank⟩ := hwords d hd
  exact ⟨hne, fun h => absurd (hblank _ h) (by decide), fun h => absurd (hblank _ h) (by decide)⟩

theorem elim_searchLine_iff :
    (searchLine content).elim [] (fun used => (used.drop 7).splitOn 0x20)
        = specifiedDomains content ↔ PlainlyWritten content := by
  unfold specifiedDomains PlainlyWritten
  cases hline : keywordLine content with
  | none =>
    rw [searchLine_of_keywordLine_none hline]
    simp
  | some line =>
    simp only [Option.some.injEq, forall_eq']
    by_cases hspace : searchPrefix.isPrefixOf line = true
    · -- the loop uses the line it should
      rw [searchLine_of_keywordLine hline hspace, if_pos hspace,
        (startsWithSearch_of_searchPrefix hspace).2, words_cons (by decide)]
      exact (splitOn_eq_words_iff (by decide)).trans (and_iff_left rfl)
    · rw [if_neg hspace]
      cases searchLine content with
      | none => exact eq_comm
      | some used => exact splitOn_eq_words_iff (by decide)

/-- **The search domains are those of the file** exactly if it is plainly
written. Then an empty label can only come from the dots of a domain, or from a
part whose length does not fit in a byte. -/
theorem searchDomains_spec_iff (hgoos : goos = "darwin" ∨ goos = "linux")
    (hshort : ∀ line ∈ lines content, line.length < maxScanTokenSize) :
    (SearchSpec content (searchDomains goos (some content)) ↔ PlainlyWritten content) ∧
      ((SearchSpec content (searchDomains goos (some content)) ∧
          ∀ d ∈ searchDomains goos (some content), ¬ HasEmptyLabel d) ↔
        PlainlyWritten content ∧
          ∀ d ∈ specifiedDomains content, ∀ part ∈ d.splitOn 0x2e, part.length % 256 ≠ 0) := by
  have hspec : SearchSpec content (searchDomains goos (some content)) ↔ PlainlyWritten content := by
    rw [searchSpec_iff, searchDomains_eq hgoos hshort, elim_searchLine_iff]
  have hlabels : (∀ d ∈ specifiedDomains content, ¬ HasEmptyLabel d) ↔
      ∀ d ∈ specifiedDomains content, ∀ part ∈ d.splitOn 0x2e, part.length % 256 ≠ 0 := by
    simp only [hasEmptyLabel_iff, not_exists, not_and, ne_eq]
  refine ⟨hspec, ?_⟩
  rw [← hspec, ← hlabels]
  exact and_congr_right fun h => by rw [h.exact]

end Result

/-- Two domains, joined by a space. -/
theorem searchDomains_two :
    SearchSpec (ascii "# local\nsearch a.b c\n")
        (searchDomains "linux" (some (ascii "# local\nsearch a.b c\n"))) ∧
      searchDomains "linux" (some (ascii "# local\nsearch a.b c\n"))
        = [ascii "a.b", ascii "c"] := by
  refine ⟨(searchDomains_spec_iff (.inr rfl) (by decide)).1.mpr ?_, by decide⟩
  intro line hline
  obtain rfl : ascii "search a.b c" = line :=
    Option.some.inj ((by decide : keywordLine (ascii "# local\nsearch a.b c\n")
      = some (ascii "search a.b c")).symm.trans hline)
  refine ⟨[ascii "a.b", ascii "c"], by decide, ?_, by decide⟩
  simp [ascii, isBlank]

/-- A second space or one at the end is an empty domain, which option 119 writes
as an empty label. A tab is part of a domain, and behind the keyword it hides
the line. -/
theorem searchDomains_blanks :
    (searchDomains "linux" (some (ascii "search a  b\n")) = [ascii "a", [], ascii "b"] ∧
      ¬ SearchSpec (ascii "search a  b\n")
        (searchDomains "linux" (some (ascii "search a  b\n"))) ∧
      labelsToBytes (searchDomains "linux" (some (ascii "search a  b\n")))
        = [1, 97, 0, 0, 1, 98, 0]) ∧
    (searchDomains "linux" (some (ascii "search a \n")) = [ascii "a", []] ∧
      ¬ SearchSpec (ascii "search a \n") (searchDomains "linux" (some (ascii "search a \n")))) ∧
    (searchDomains "linux" (some (ascii "search a\tb\n")) = [ascii "a\tb"] ∧
      ¬ SearchSpec (ascii "search a\tb\n")
        (searchDomains "linux" (some (ascii "search a\tb\n")))) ∧
    searchDomains "linux" (some (ascii "search\ta\n")) = [] ∧
      ¬ SearchSpec (ascii "search\ta\n") (searchDomains "linux" (some (ascii "search\ta\n"))) := by
  refine ⟨⟨by decide, fun h => ?_, by decide⟩, ⟨by decide, fun h => ?_⟩, ⟨by decide, fun h => ?_⟩,
    by decide, fun h => ?_⟩
  all_goals exact absurd h.exact (by decide)

end GvisorTapVsock.Cmd.Gvproxy
