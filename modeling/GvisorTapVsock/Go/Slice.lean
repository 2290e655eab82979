/-
GvisorTapVsock.Go.Slice — Go slices with their capacity, and the run-time
panics an access out of range raises.

A slice value is a window of a backing array: `mem` lists the array from
the slice's first element up to its CAPACITY, `len` says how many of these
are elements. The distinction is the point of the model. `s[lo:]` is
checked against the length, `s[:hi]` only against the capacity, so
reslicing may silently uncover bytes that lie behind the length; on a slice
whose capacity equals its length the same expression panics.

`Slice.len_le` keeps a length beyond the capacity from being built, so no
operation below re-checks it.
-/
import Mathlib.Data.List.Basic

namespace GvisorTapVsock.Go

/-- The run-time panics of Go that this development reasons about. -/
inductive Panic where
  | sliceBounds
  | indexRange
  | nilDereference
  deriving DecidableEq, Repr

/-- A slice: the backing array from its first element on, and its length. -/
structure Slice (α : Type) where
  mem : List α
  len : Nat
  len_le : len ≤ mem.length
  deriving DecidableEq

namespace Slice

variable {α : Type}

/-- `cap(s)`. -/
def cap (s : Slice α) : Nat := s.mem.length

/-- The elements of the slice. -/
def toList (s : Slice α) : List α := s.mem.take s.len

/-- `make([]T, n)` filled with the `n` elements of `l`: the capacity is the length. -/
def exact (l : List α) : Slice α := ⟨l, l.length, Nat.le_refl _⟩

/-- The first `l.length` elements of a backing array whose later part holds `rest`. -/
def withSpare (l rest : List α) : Slice α := ⟨l ++ rest, l.length, by simp⟩

/-- `s[lo:]`: the upper bound defaults to `len(s)`, so `lo` is checked against it. -/
def dropFront (s : Slice α) (lo : Nat) : Except Panic (Slice α) :=
  if lo ≤ s.len then
    .ok ⟨s.mem.drop lo, s.len - lo, by have := s.len_le; simp only [List.length_drop]; omega⟩
  else .error .sliceBounds

/-- `s[:hi]`: `hi` is checked against the capacity only. -/
def reslice (s : Slice α) (hi : Nat) : Except Panic (Slice α) :=
  if h : hi ≤ s.cap then .ok ⟨s.mem, hi, h⟩ else .error .sliceBounds

/-- `s[i]`. -/
def index (s : Slice α) (i : Nat) : Except Panic α :=
  if h : i < s.len then .ok (s.mem.get ⟨i, by have := s.len_le; omega⟩) else .error .indexRange

@[simp] theorem toList_exact (l : List α) : (exact l).toList = l := by
  simp [exact, toList]

@[simp] theorem toList_withSpare (l rest : List α) : (withSpare l rest).toList = l := by
  simp [withSpare, toList]

@[simp] theorem length_toList (s : Slice α) : s.toList.length = s.len := by
  have := s.len_le
  simp only [toList, List.length_take]
  omega

@[simp] theorem mem_withSpare (l rest : List α) : (withSpare l rest).mem = l ++ rest := rfl

/-! ## Which panics -/

/-- A sequence raises no panic that none of its parts raises. -/
theorem bind_ne_error {ε α β : Type} {e : ε} {x : Except ε α} {f : α → Except ε β}
    (hx : x ≠ .error e) (hf : ∀ a, f a ≠ .error e) : (x >>= f) ≠ .error e := by
  cases x with
  | error e' => exact fun h => hx (by rw [Except.error.inj h])
  | ok a => exact hf a

theorem dropFront_ne_nil (s : Slice α) (lo : Nat) :
    s.dropFront lo ≠ .error .nilDereference := by
  unfold dropFront
  split <;> simp

theorem index_ne_nil (s : Slice α) (i : Nat) : s.index i ≠ .error .nilDereference := by
  unfold index
  split <;> simp

/-! ## Header accessors -/

/-- `b[lo:][:n]`, the spelling header accessors use, in one step. -/
theorem dropFront_bind_reslice (s : Slice α) (lo n : Nat) :
    (s.dropFront lo >>= fun t => t.reslice n).map toList =
      if lo ≤ s.len ∧ lo + n ≤ s.cap then .ok ((s.mem.drop lo).take n)
      else .error .sliceBounds := by
  by_cases hlo : lo ≤ s.len
  · by_cases hn : lo + n ≤ s.mem.length
    · have hn' : n ≤ s.mem.length - lo := by omega
      simp [dropFront, reslice, hlo, hn, hn', cap, toList, Except.map, bind, Except.bind]
    · have hn' : ¬ n ≤ s.mem.length - lo := by have := s.len_le; omega
      simp [dropFront, reslice, hlo, hn, hn', cap, Except.map, bind, Except.bind]
  · simp [dropFront, hlo, Except.map, bind, Except.bind]

end Slice

end GvisorTapVsock.Go
