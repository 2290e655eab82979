/-
GvisorTapVsock.Lts.Measure — runs that cannot go on for ever.

A number that every step of a run lowers bounds its length (`Trace.length_le`).
Where the state has a part per thread, the number is a sum over the threads,
and a step of one thread lowers it (`sum_update_lt`).
-/
import GvisorTapVsock.Lts.Run
import Mathlib.Algebra.BigOperators.Group.Finset.Piecewise
import Mathlib.Algebra.Order.BigOperators.Group.Finset

namespace GvisorTapVsock.Lts

/-- A measure that every step of a run lowers bounds the length of the run. -/
theorem Trace.length_le {σ ε : Type} {step : σ → ε → Option σ} {ok : σ → ε → Prop} {s s' : σ}
    {μ : σ → Nat}
    (hμ : ∀ t e t', Run step ok s t → ok t e → step t e = some t' → μ t' < μ t)
    {es : List ε} (htrace : Trace step ok s es s') : es.length + μ s' ≤ μ s := by
  induction htrace with
  | nil => simp
  | snoc e trace meets next ih =>
    have hlower := hμ _ e _ trace.run meets next
    rw [List.length_append, List.length_singleton]
    omega

/-- One thread that gets on lowers the sum over all threads. -/
theorem sum_update_rank_lt {τ π : Type} [Fintype τ] [DecidableEq τ] (rank : τ → π → Nat)
    {f : τ → π} {t : τ} {p : π} (h : rank t p < rank t (f t)) :
    ∑ t', rank t' (Function.update f t p t') < ∑ t', rank t' (f t') := by
  refine Finset.sum_lt_sum (fun t' _ => ?_) ⟨t, Finset.mem_univ t, by simpa using h⟩
  by_cases ht : t' = t
  · subst ht
    rw [Function.update_self]
    exact h.le
  · rw [Function.update_of_ne ht]

/-- The same, for threads that are all ranked alike. -/
theorem sum_update_lt {τ π : Type} [Fintype τ] [DecidableEq τ] {rank : π → Nat} {f : τ → π}
    {t : τ} {p : π} (h : rank p < rank (f t)) :
    ∑ t', rank (Function.update f t p t') < ∑ t', rank (f t') :=
  sum_update_rank_lt (fun _ => rank) h

end GvisorTapVsock.Lts
