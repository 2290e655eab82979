/-
GvisorTapVsock.Go.Bytes — texts as bytes: the words between blanks, and the
lines of a `bufio.Scanner`.

`strings.Split` cuts at every separator, so two separators in a row, or one at
an end, leave an empty piece. The words of a text are the pieces between its
blanks without the empty ones. `splitOn_eq_words_iff` says when the first finds
the second: where the words are joined by single separators.
-/
import Mathlib.Data.List.Basic
import Mathlib.Data.List.TakeWhile

namespace GvisorTapVsock.Go

/-! ## Words -/

section Words

variable {α : Type} (blank : α → Bool)

/-- The maximal runs of elements that are not blank. -/
def words (s : List α) : List (List α) := (s.splitOnP blank).filter (fun w => !w.isEmpty)

/-- One or more words, joined by single separators. -/
def Joined (sep : α) (s : List α) : Prop :=
  ∃ ws, ws ≠ [] ∧ (∀ w ∈ ws, w ≠ [] ∧ ∀ a ∈ w, blank a = false) ∧ s = [sep].intercalate ws

variable {blank}

theorem not_blank_of_mem_splitOnP {s piece : List α} (h : piece ∈ s.splitOnP blank) :
    ∀ a ∈ piece, blank a = false := by
  induction s generalizing piece with
  | nil =>
    rw [List.splitOnP_nil, List.mem_singleton] at h
    simp [h]
  | cons b s ih =>
    obtain ⟨first, more, hs⟩ := List.exists_cons_of_ne_nil (List.splitOnP_ne_nil blank s)
    rw [hs] at ih
    rw [List.splitOnP_cons_eq_if_modifyHead, hs] at h
    split at h
    · rcases List.mem_cons.mp h with rfl | h
      · simp
      · exact ih h
    · next hb =>
      rcases List.mem_cons.mp h with rfl | h
      · intro a ha
        rcases List.mem_cons.mp ha with rfl | ha
        · exact Bool.eq_false_iff.mpr hb
        · exact ih List.mem_cons_self a ha
      · exact ih (List.mem_cons_of_mem _ h)

theorem mem_words {s w : List α} (h : w ∈ words blank s) :
    w ≠ [] ∧ ∀ a ∈ w, blank a = false := by
  obtain ⟨hmem, hne⟩ := List.mem_filter.mp h
  exact ⟨by simpa using hne, not_blank_of_mem_splitOnP hmem⟩

/-- A blank in front is not part of a word. -/
theorem words_cons {a : α} (ha : blank a = true) (s : List α) :
    words blank (a :: s) = words blank s := by
  simp [words, List.splitOnP_cons_eq_if_modifyHead, ha]

/-- Pieces without a separator are found again. -/
theorem splitOnP_intercalate {sep : α} (hsep : blank sep = true) {ws : List (List α)}
    (hne : ws ≠ []) (hws : ∀ w ∈ ws, ∀ a ∈ w, blank a = false) :
    ([sep].intercalate ws).splitOnP blank = ws := by
  induction ws with
  | nil => exact absurd rfl hne
  | cons w ws ih =>
    have hw : ∀ a ∈ w, blank a = false := hws w List.mem_cons_self
    cases ws with
    | nil =>
      rw [List.intercalate_singleton]
      exact List.splitOnP_eq_singleton hw
    | cons w' ws =>
      have hrest := ih (by simp) fun v hv => hws v (List.mem_cons_of_mem w hv)
      rw [List.intercalate_cons_cons, List.append_assoc, List.singleton_append,
        List.splitOnP_append_cons_of_forall_mem hw sep hsep, hrest]

/-- The words of joined words. -/
theorem words_of_joined [DecidableEq α] {sep : α} (hsep : blank sep = true) {s : List α}
    (h : Joined blank sep s) : words blank s = s.splitOn sep := by
  obtain ⟨ws, hne, hws, rfl⟩ := h
  have hnot : ∀ w ∈ ws, sep ∉ w := by
    intro w hw hmem
    simp [(hws w hw).2 sep hmem] at hsep
  rw [List.splitOn_intercalate sep hnot hne, words,
    splitOnP_intercalate hsep hne fun w hw => (hws w hw).2, List.filter_eq_self]
  intro w hw
  simpa using (hws w hw).1

/-- **Cutting at every separator finds the words of a text** exactly if it is
those words, joined by single separators. -/
theorem splitOn_eq_words_iff [DecidableEq α] {sep : α} (hsep : blank sep = true)
    {s t : List α} :
    s.splitOn sep = words blank t ↔ Joined blank sep s ∧ words blank s = words blank t := by
  constructor
  · intro h
    have hjoined : Joined blank sep s := by
      refine ⟨words blank t, ?_, fun w hw => mem_words hw, ?_⟩
      · rw [← h]
        exact List.splitOnP_ne_nil _ s
      · rw [← h, List.intercalate_splitOn]
    exact ⟨hjoined, (words_of_joined hsep hjoined).trans h⟩
  · rintro ⟨hjoined, hwords⟩
    rw [← words_of_joined hsep hjoined, hwords]

end Words

/-! ## Lines -/

namespace Bytes

/-- The bytes of an ASCII text. -/
def ascii (s : String) : List UInt8 := s.toList.map (fun c => UInt8.ofNat c.toNat)

/-- `strings.TrimPrefix(s, start)`. -/
def trimPrefix (s start : List UInt8) : List UInt8 :=
  if start.isPrefixOf s then s.drop start.length else s

/-- The lines of a text; what follows the last newline counts unless it is
empty. -/
def lines (s : List UInt8) : List (List UInt8) :=
  match (s.splitOn 0x0a).getLast? with
  | some [] => (s.splitOn 0x0a).dropLast
  | _ => s.splitOn 0x0a

/-- A trailing carriage return goes. -/
def dropCR (line : List UInt8) : List UInt8 :=
  if line.getLast? = some 0x0d then line.dropLast else line

/-- `bufio.MaxScanTokenSize`. -/
def maxScanTokenSize : Nat := 64 * 1024

/-- What `bufio.Scanner` yields: the lines up to the first that does not fit in
its buffer. -/
def scanLines (s : List UInt8) : List (List UInt8) :=
  ((lines s).takeWhile (fun line => decide (line.length < maxScanTokenSize))).map dropCR

theorem scanLines_of_short {s : List UInt8}
    (h : ∀ line ∈ lines s, line.length < maxScanTokenSize) :
    scanLines s = (lines s).map dropCR := by
  rw [scanLines, List.takeWhile_eq_self_iff.mpr]
  intro line hline
  simpa using h line hline

end Bytes

end GvisorTapVsock.Go
