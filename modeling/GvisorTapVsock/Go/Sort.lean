/-
GvisorTapVsock.Go.Sort — `sort.Slice`, for a `less` that compares by a key.

The sort of the library is not stable. Where no two elements have one key that
cannot be seen: a list has only one sorted order (`sortSlice_unique`).
-/
import Mathlib.Data.List.Sort

namespace GvisorTapVsock.Go

variable {α β : Type} [LinearOrder β]

/-- `sort.Slice(l, less)`. -/
def sortSlice (less : α → α → Bool) (l : List α) : List α :=
  l.insertionSort (fun a b => less b a = false)

theorem sortSlice_perm (less : α → α → Bool) (l : List α) : (sortSlice less l).Perm l :=
  List.perm_insertionSort _ l

section Key

variable {less : α → α → Bool} {sortKey : α → β}

/-- `less` the other way round is `≤` of the keys. -/
theorem less_eq_false_iff (hless : ∀ a b, less a b = true ↔ sortKey a < sortKey b) (a b : α) :
    less b a = false ↔ sortKey a ≤ sortKey b := by
  rw [← not_lt, ← hless, Bool.not_eq_true]

/-- The result is in order. -/
theorem sortSlice_le (hless : ∀ a b, less a b = true ↔ sortKey a < sortKey b) (l : List α) :
    (sortSlice less l).Pairwise (fun a b => sortKey a ≤ sortKey b) := by
  have hiff := less_eq_false_iff hless
  have htotal : Std.Total (fun a b => less b a = false) :=
    ⟨fun a b => by rw [hiff, hiff]; exact le_total _ _⟩
  have htrans : IsTrans α (fun a b => less b a = false) :=
    ⟨fun a b c hab hbc => (hiff a c).mpr (((hiff a b).mp hab).trans ((hiff b c).mp hbc))⟩
  exact (List.pairwise_insertionSort _ l).imp (fun h => (hiff _ _).mp h)

/-- Where no two elements have one key, the order is strict. -/
theorem sortSlice_lt (hless : ∀ a b, less a b = true ↔ sortKey a < sortKey b) {l : List α}
    (hdistinct : l.Pairwise (fun a b => sortKey a ≠ sortKey b)) :
    (sortSlice less l).Pairwise (fun a b => sortKey a < sortKey b) := by
  have hne : (sortSlice less l).Pairwise (fun a b => sortKey a ≠ sortKey b) :=
    ((sortSlice_perm less l).pairwise_iff (fun h => h.symm)).mpr hdistinct
  exact (sortSlice_le hless l).imp₂ (fun _ _ hle hne => lt_of_le_of_ne hle hne) hne

/-- **Any sorted order of a list with distinct keys is the one returned.** -/
theorem sortSlice_unique (hless : ∀ a b, less a b = true ↔ sortKey a < sortKey b)
    {l ret : List α} (hdistinct : l.Pairwise (fun a b => sortKey a ≠ sortKey b))
    (hperm : ret.Perm l) (hsorted : ret.Pairwise (fun a b => less b a = false)) :
    ret = sortSlice less l := by
  have hne : ret.Pairwise (fun a b => sortKey a ≠ sortKey b) :=
    (hperm.pairwise_iff (fun h => h.symm)).mpr hdistinct
  have hlt : ret.Pairwise (fun a b => sortKey a < sortKey b) :=
    hsorted.imp₂ (fun _ _ hle hne => lt_of_le_of_ne ((less_eq_false_iff hless _ _).mp hle) hne) hne
  refine (hperm.trans (sortSlice_perm less l).symm).eq_of_pairwise ?_ hlt
    (sortSlice_lt hless hdistinct)
  intro a b _ _ hab hba
  exact absurd hba hab.asymm

end Key

end GvisorTapVsock.Go
