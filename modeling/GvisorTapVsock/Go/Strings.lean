/-
GvisorTapVsock.Go.Strings — the part of Go's `strings` this development uses,
with `bytes.Fields` and the lines of a `bufio.Scanner`.

Texts are Lean's `String`. The Go functions work on bytes; on valid UTF-8 a
byte suffix that is itself valid begins at a character, so both agree.
-/
import Mathlib.Data.List.Basic

namespace GvisorTapVsock.Go

/-- `strings.HasSuffix(s, suffix)`. -/
def hasSuffix (s suffix : String) : Bool := suffix.toList.isSuffixOf s.toList

/-- `strings.TrimSuffix(s, suffix)`. -/
def trimSuffix (s suffix : String) : String :=
  if hasSuffix s suffix then
    String.ofList (s.toList.take (s.toList.length - suffix.toList.length))
  else s

theorem hasSuffix_iff (s suffix : String) :
    hasSuffix s suffix = true ↔ suffix.toList <:+ s.toList := by
  simp [hasSuffix]

theorem hasSuffix_iff_append (s suffix : String) :
    hasSuffix s suffix = true ↔ ∃ p, s = p ++ suffix := by
  rw [hasSuffix_iff]
  constructor
  · rintro ⟨p, hp⟩
    exact ⟨String.ofList p, String.toList_inj.mp (by simp [hp])⟩
  · rintro ⟨p, rfl⟩
    exact ⟨p.toList, by simp⟩

theorem trimSuffix_append (p suffix : String) : trimSuffix (p ++ suffix) suffix = p := by
  rw [trimSuffix, if_pos ((hasSuffix_iff_append _ _).mpr ⟨p, rfl⟩)]
  exact String.toList_inj.mp (by simp)

/-- A text does not end with a longer one. -/
theorem hasSuffix_eq_false {s suffix : String}
    (h : s.toList.length < suffix.toList.length) : hasSuffix s suffix = false := by
  rw [Bool.eq_false_iff, ne_eq, hasSuffix_iff]
  intro hsuffix
  have := hsuffix.length_le
  omega

/-- A text up to the first separator, and the text after it, are determined. -/
theorem append_sep_inj {sep : Char} {p p' s s' : String} (hp : sep ∉ p.toList)
    (hp' : sep ∉ p'.toList)
    (h : p ++ String.singleton sep ++ s = p' ++ String.singleton sep ++ s') : p = p' ∧ s = s' := by
  have hlist : p.toList ++ sep :: s.toList = p'.toList ++ sep :: s'.toList := by
    have := congrArg String.toList h
    simpa using this
  have hfirst : ∀ (l rest : List Char), sep ∉ l →
      (l ++ sep :: rest).takeWhile (fun c => c ≠ sep) = l := by
    intro l rest hl
    rw [List.takeWhile_append_of_pos (by
      intro c hc
      simpa using fun hsep : c = sep => hl (hsep ▸ hc))]
    simp
  have heq : p.toList = p'.toList := by
    have := congrArg (List.takeWhile (fun c => c ≠ sep)) hlist
    rwa [hfirst _ _ hp, hfirst _ _ hp'] at this
  rw [heq] at hlist
  have hrest := List.append_cancel_left hlist
  exact ⟨String.toList_inj.mp heq, String.toList_inj.mp (List.cons.inj hrest).2⟩

example : trimSuffix "host.internal." ".internal." = "host" := by decide

/-! ## Spaces, fields and lines -/

/-- `unicode.IsSpace(r)`. -/
def isSpace (c : Char) : Bool :=
  ('\t' ≤ c ∧ c ≤ '\r') ∨ c = ' ' ∨ c = '\u0085' ∨ c = '\u00a0' ∨ c = '\u1680' ∨
    ('\u2000' ≤ c ∧ c ≤ '\u200a') ∨ c = '\u2028' ∨ c = '\u2029' ∨ c = '\u202f' ∨ c = '\u205f' ∨
    c = '\u3000'

/-- `bytes.TrimSpace(s)`. -/
def trimSpace (s : List Char) : List Char :=
  ((s.dropWhile isSpace).reverse.dropWhile isSpace).reverse

/-- `bytes.Fields(s)`. -/
def fields (s : List Char) : List (List Char) := (s.splitOnP isSpace).filter (· ≠ [])

/-- The lines of a text; what follows the last newline counts unless it is
empty. -/
def lines (s : List Char) : List (List Char) :=
  match (s.splitOn '\n').getLast? with
  | some [] => (s.splitOn '\n').dropLast
  | _ => s.splitOn '\n'

/-- A trailing carriage return goes. -/
def dropCR (line : List Char) : List Char :=
  if line.getLast? = some '\r' then line.dropLast else line

/-- `bufio.MaxScanTokenSize`. -/
def maxScanTokenSize : Nat := 64 * 1024

/-- The number of bytes of a text. -/
def byteLength : List Char → Nat
  | [] => 0
  | c :: s => c.utf8Size + byteLength s

/-- What `bufio.Scanner` yields: the lines up to the first that does not fit in
its buffer. -/
def scanLines (s : List Char) : List (List Char) :=
  ((lines s).takeWhile (fun line => decide (byteLength line < maxScanTokenSize))).map dropCR

example : scanLines "a\r\n\nb".toList = [['a'], [], ['b']] := by decide
example : fields " a\t b ".toList = [['a'], ['b']] := by decide

theorem scanLines_subset {s line : List Char} (h : line ∈ scanLines s) :
    line ∈ (lines s).map dropCR := by
  obtain ⟨raw, hraw, rfl⟩ := List.mem_map.mp h
  exact List.mem_map.mpr ⟨raw, (List.takeWhile_prefix _).subset hraw, rfl⟩

end GvisorTapVsock.Go
