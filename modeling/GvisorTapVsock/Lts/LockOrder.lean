/-
GvisorTapVsock.Lts.LockOrder — threads that wait for each other.

A thread wants at most one resource and owns any number of them; it waits for
the owners of what it wants. A deadlock is a set of threads each of which waits
for one of the set, itself perhaps.

Where the resources have levels, and a thread only ever wants one above all it
owns, there is no deadlock (`not_deadlock`). Then from every thread a chain of
waits ends at one that waits for nobody (`exists_free`).
-/
import Mathlib.Data.Set.Basic
import Mathlib.Logic.Relation

namespace GvisorTapVsock.Lts

variable {τ ρ : Type} {wants : τ → Option ρ} {owns : τ → ρ → Prop}

/-- One thread waits for another, or for itself. -/
def Waits (wants : τ → Option ρ) (owns : τ → ρ → Prop) (t t' : τ) : Prop :=
  ∃ r, wants t = some r ∧ owns t' r

/-- Threads that wait for each other. -/
def Deadlock (wants : τ → Option ρ) (owns : τ → ρ → Prop) : Prop :=
  ∃ D : Set τ, D.Nonempty ∧ ∀ t ∈ D, ∃ t' ∈ D, Waits wants owns t t'

/-- A thread that waits for itself is a deadlock. -/
theorem deadlock_of_self {t : τ} (h : Waits wants owns t t) : Deadlock wants owns :=
  ⟨{t}, ⟨t, rfl⟩, fun _ ht => ⟨t, rfl, ht ▸ h⟩⟩

/-- **Resources wanted in the order of their levels are never waited for in a
circle.** -/
theorem not_deadlock (level : ρ → Nat) (bound : Nat) (hbound : ∀ r, level r ≤ bound)
    (horder : ∀ t r r', wants t = some r → owns t r' → level r' < level r) :
    ¬ Deadlock wants owns := by
  intro ⟨D, ⟨t, ht⟩, hwaits⟩
  -- the levels that are wanted go up along a chain of waits, and there is a highest one
  have hchain : ∀ n, ∀ t ∈ D, ∀ r, wants t = some r → bound - level r = n → False := by
    intro n
    induction n using Nat.strongRecOn with
    | ind n ih =>
      intro t ht r hr hn
      obtain ⟨t', ht', r₁, hr₁, howns⟩ := hwaits t ht
      obtain ⟨_, _, r', hr', _⟩ := hwaits t' ht'
      obtain rfl : r₁ = r := Option.some.inj (hr₁.symm.trans hr)
      have hlt := horder t' r' r₁ hr' howns
      have hle := hbound r'
      exact ih (bound - level r') (by omega) t' ht' r' hr' rfl
  obtain ⟨_, _, r, hr, _⟩ := hwaits t ht
  exact hchain _ t ht r hr rfl

/-- Without a deadlock every thread waits, in the end, for one that waits for
nobody. -/
theorem exists_free (h : ¬ Deadlock wants owns) (t : τ) :
    ∃ t', Relation.ReflTransGen (Waits wants owns) t t' ∧ ∀ t'', ¬ Waits wants owns t' t'' := by
  by_contra hnone
  push Not at hnone
  refine h ⟨{t' | Relation.ReflTransGen (Waits wants owns) t t'}, ⟨t, .refl⟩, ?_⟩
  intro t' ht'
  obtain ⟨t'', hwaits⟩ := hnone t' ht'
  exact ⟨t'', ht'.tail hwaits, hwaits⟩

end GvisorTapVsock.Lts
