/-
GvisorTapVsock.Go.Map — Go maps as association lists, and the loop that
deletes from a map while ranging over it.

Lookup, assignment and `delete` are `AList.lookup`, `insert` and `erase`.
`rangeDelete` is the loop

    for k, v := range m { if p(k, v) { delete(m, k) } }

for a GIVEN order of iteration. Entries that an earlier iteration removed are
not visited, and no order makes a difference (`lookup_rangeDelete`).

`rangeFind` is the loop that stops at the first entry with a property. Here the
order does make a difference, unless one entry at most has it.
-/
import Mathlib.Data.List.AList
import Mathlib.Tactic.Tauto

namespace GvisorTapVsock.Go

variable {κ ν : Type} [DecidableEq κ]

/-- A Go map. -/
abbrev GoMap (κ ν : Type) := AList (fun _ : κ => ν)

namespace GoMap

theorem lookup_insert_eq (m : GoMap κ ν) (k k' : κ) (v : ν) :
    (m.insert k v).lookup k' = if k' = k then some v else m.lookup k' := by
  by_cases h : k' = k
  · subst h; simp
  · rw [AList.lookup_insert_ne h, if_neg h]

theorem lookup_erase_eq (m : GoMap κ ν) (k k' : κ) :
    (m.erase k).lookup k' = if k' = k then none else m.lookup k' := by
  by_cases h : k' = k
  · subst h; simp
  · rw [AList.lookup_erase_ne h, if_neg h]

/-- A map literal with one entry. -/
def single (k : κ) (v : ν) : GoMap κ ν := (∅ : GoMap κ ν).insert k v

theorem lookup_single (k k' : κ) (v : ν) :
    (single k v).lookup k' = if k' = k then some v else none := by
  rw [single, lookup_insert_eq, AList.lookup_empty]

theorem mem_iff_lookup (m : GoMap κ ν) (k : κ) : k ∈ m ↔ ∃ v, m.lookup k = some v := by
  rw [← AList.lookup_isSome, Option.isSome_iff_exists]

omit [DecidableEq κ] in
/-- A map of length 0 is empty. -/
theorem eq_empty_of_length {m : GoMap κ ν} (h : m.keys.length < 1) : m = ∅ := by
  have hkeys : m.keys = [] := List.eq_nil_of_length_eq_zero (by omega)
  exact AList.ext (by simpa [AList.keys, List.keys] using hkeys)

/-- One iteration of the deleting loop. -/
def deleteIf (p : κ → ν → Bool) (m : GoMap κ ν) (k : κ) : GoMap κ ν :=
  match m.lookup k with
  | none => m
  | some v => if p k v then m.erase k else m

/-- The deleting loop, over the keys in the given order. -/
def rangeDelete (p : κ → ν → Bool) (m : GoMap κ ν) (order : List κ) : GoMap κ ν :=
  order.foldl (deleteIf p) m

theorem lookup_deleteIf (p : κ → ν → Bool) (m : GoMap κ ν) (k k' : κ) (v : ν) :
    (deleteIf p m k).lookup k' = some v ↔ m.lookup k' = some v ∧ ¬ (k' = k ∧ p k' v = true) := by
  unfold deleteIf
  by_cases hk : k' = k
  · subst hk
    cases hv : m.lookup k' with
    | none => simp [hv]
    | some w =>
      by_cases hp : p k' w = true
      · simp only [hp, if_true, AList.lookup_erase, Option.some.injEq, true_and]
        constructor
        · intro h; simp at h
        · rintro ⟨rfl, hn⟩; exact absurd hp hn
      · simp only [if_neg hp, hv, Option.some.injEq, true_and]
        constructor
        · rintro rfl; exact ⟨rfl, hp⟩
        · exact fun h => h.1
  · have hrest : ∀ m' : GoMap κ ν, m'.lookup k' = m.lookup k' →
        (m'.lookup k' = some v ↔ m.lookup k' = some v ∧ ¬ (k' = k ∧ p k' v = true)) := by
      intro m' h
      rw [h]
      exact ⟨fun hv => ⟨hv, fun hc => hk hc.1⟩, fun hv => hv.1⟩
    cases hv : m.lookup k with
    | none => exact hrest m rfl
    | some w =>
      by_cases hp : p k w = true
      · simp only [hp, if_true]
        exact hrest _ (AList.lookup_erase_ne hk)
      · simp only [hp]
        exact hrest m rfl

/-- The loop removes the entries it visits that satisfy `p`, in any order. -/
theorem lookup_rangeDelete (p : κ → ν → Bool) (k' : κ) (v : ν) :
    ∀ (order : List κ) (m : GoMap κ ν),
      (rangeDelete p m order).lookup k' = some v ↔
        m.lookup k' = some v ∧ ¬ (k' ∈ order ∧ p k' v = true) := by
  intro order
  induction order with
  | nil => intro m; simp [rangeDelete]
  | cons k order ih =>
    intro m
    show (rangeDelete p (deleteIf p m k) order).lookup k' = some v ↔ _
    rw [ih, lookup_deleteIf, List.mem_cons]
    tauto

/-- Over all the keys, `p` alone decides what stays. -/
theorem lookup_rangeDelete_keys (p : κ → ν → Bool) (m : GoMap κ ν) {order : List κ}
    (horder : ∀ k, k ∈ m → k ∈ order) (k' : κ) (v : ν) :
    (rangeDelete p m order).lookup k' = some v ↔ m.lookup k' = some v ∧ p k' v = false := by
  rw [lookup_rangeDelete]
  constructor
  · rintro ⟨hv, hn⟩
    have hmem : k' ∈ order := horder k' ((mem_iff_lookup m k').mpr ⟨v, hv⟩)
    exact ⟨hv, by simpa [hmem] using hn⟩
  · rintro ⟨hv, hp⟩
    exact ⟨hv, by simp [hp]⟩

/-! ## The first entry with a property -/

/-- An order in which `range` may visit a map: each key once. -/
def RangeOrder (m : GoMap κ ν) (order : List κ) : Prop := order.Perm m.keys

instance (m : GoMap κ ν) (order : List κ) : Decidable (RangeOrder m order) := by
  unfold RangeOrder; infer_instance

/-- A loop over the whole map comes to every entry. -/
theorem mem_of_rangeOrder {m : GoMap κ ν} {order : List κ} (horder : RangeOrder m order) {k : κ}
    {v : ν} (hv : m.lookup k = some v) : k ∈ order :=
  horder.mem_iff.mpr (AList.mem_keys.mpr ((mem_iff_lookup m k).mpr ⟨v, hv⟩))

/-- `for k, v := range m { if p(k, v) { return k } }`, over the keys in the
given order. -/
def rangeFind (p : κ → ν → Bool) (m : GoMap κ ν) (order : List κ) : Option κ :=
  order.find? (fun k => (m.lookup k).any (p k))

theorem rangeFind_eq_some {p : κ → ν → Bool} {m : GoMap κ ν} {order : List κ} {k : κ}
    (h : rangeFind p m order = some k) : ∃ v, m.lookup k = some v ∧ p k v = true := by
  have hk := List.find?_some h
  cases hv : m.lookup k with
  | none => simp [hv] at hk
  | some v => exact ⟨v, rfl, by simpa [hv] using hk⟩

theorem rangeFind_eq_none {p : κ → ν → Bool} {m : GoMap κ ν} {order : List κ}
    (horder : RangeOrder m order) (h : rangeFind p m order = none) {k : κ} {v : ν}
    (hv : m.lookup k = some v) : p k v = false := by
  have hnot := List.find?_eq_none.mp h k (mem_of_rangeOrder horder hv)
  simpa [hv] using hnot

omit [DecidableEq κ] in
/-- Every map can be ranged over. -/
theorem rangeOrder_keys (m : GoMap κ ν) : RangeOrder m m.keys := List.Perm.refl _

/-- A range may begin with any entry, and finds it if it has the property. -/
theorem rangeFind_first (p : κ → ν → Bool) {m : GoMap κ ν} {k : κ} {v : ν}
    (hv : m.lookup k = some v) (hp : p k v = true) :
    RangeOrder m (k :: m.keys.erase k) ∧ rangeFind p m (k :: m.keys.erase k) = some k := by
  refine ⟨(List.perm_cons_erase (mem_of_rangeOrder (rangeOrder_keys m) hv)).symm, ?_⟩
  exact List.find?_cons_of_pos (by simp [hv, hp])

end GoMap

end GvisorTapVsock.Go
