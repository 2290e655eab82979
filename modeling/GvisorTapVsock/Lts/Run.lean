/-
GvisorTapVsock.Lts.Run — runs of a system given by a partial step function.

`step s e = some s'` says that event `e` is enabled in `s` and leads to `s'`.
`Run step ok s s'` is a run from `s` to `s'` every step of which meets `ok`,
a condition on the state before the step and the event; `Reach` puts no
condition. Invariants go by induction on the run, whose step case has the run
up to there and so every invariant proved before.

`Trace` is a run together with its events, for results about what came in.

`exec` runs a given list of events and checks the condition on the way, so a
concrete run is found by evaluation (`run_of_exec`).

Where the state has a program counter per thread, `Exclusive` says that no two
threads own one resource, and `Exclusive.update` that a step keeps it.
-/
import Mathlib.Logic.Function.Basic

namespace GvisorTapVsock.Lts

variable {σ ε : Type} (step : σ → ε → Option σ)

/-- A run whose steps all meet a condition. -/
inductive Run (ok : σ → ε → Prop) (s : σ) : σ → Prop where
  | refl : Run ok s s
  | step {s' s'' : σ} (e : ε) (run : Run ok s s') (meets : ok s' e)
      (next : step s' e = some s'') : Run ok s s''

/-- A run without a condition on its steps. -/
abbrev Reach (s s' : σ) : Prop := Run step (fun _ _ => True) s s'

/-- A run with the events it is made of. -/
inductive Trace (ok : σ → ε → Prop) (s : σ) : List ε → σ → Prop where
  | nil : Trace ok s [] s
  | snoc {es : List ε} {s' s'' : σ} (e : ε) (trace : Trace ok s es s') (meets : ok s' e)
      (next : step s' e = some s'') : Trace ok s (es ++ [e]) s''

/-- The state after a list of events, if each was enabled in its turn and met
the condition. -/
def exec (ok : σ → ε → Prop) [∀ s e, Decidable (ok s e)] : σ → List ε → Option σ
  | s, [] => some s
  | s, e :: es =>
      if ok s e then
        match step s e with
        | none => none
        | some s' => exec ok s' es
      else none

variable {step} {ok ok' : σ → ε → Prop} {s s' s'' : σ}

/-- A run that meets a condition meets every condition that follows from it
along the run. -/
theorem Run.mono (himp : ∀ t e, Run step ok s t → ok t e → ok' t e) (hrun : Run step ok s s') :
    Run step ok' s s' := by
  induction hrun with
  | refl => exact Run.refl
  | step e run meets next ih => exact Run.step e ih (himp _ e run meets) next

theorem Run.reach (hrun : Run step ok s s') : Reach step s s' :=
  hrun.mono (fun _ _ _ _ => trivial)

theorem Run.trans (hrun : Run step ok s s') (hrun' : Run step ok s' s'') :
    Run step ok s s'' := by
  induction hrun' with
  | refl => exact hrun
  | step e _ meets next ih => exact Run.step e ih meets next

/-- A run that starts with a given step. -/
theorem Run.head {e : ε} (meets : ok s e) (next : step s e = some s')
    (hrun : Run step ok s' s'') : Run step ok s s'' :=
  (Run.step e Run.refl meets next).trans hrun

theorem Trace.run {es : List ε} (htrace : Trace step ok s es s') : Run step ok s s' := by
  induction htrace with
  | nil => exact Run.refl
  | snoc e _ meets next ih => exact Run.step e ih meets next

/-- A trace that starts with a given step. -/
theorem Trace.cons {e : ε} {es : List ε} (meets : ok s e) (next : step s e = some s')
    (htrace : Trace step ok s' es s'') : Trace step ok s (e :: es) s'' := by
  induction htrace with
  | nil => exact Trace.snoc e Trace.nil meets next
  | snoc e' _ meets' next' ih => exact Trace.snoc e' ih meets' next'

/-- The events that were executed are the events of the trace. -/
theorem trace_of_exec [∀ s e, Decidable (ok s e)] {P : σ → Prop} [DecidablePred P] :
    ∀ (es : List ε) (s : σ), (exec step ok s es).any (fun s' => decide (P s')) = true →
      ∃ s', Trace step ok s es s' ∧ P s'
  | [], s, h => ⟨s, Trace.nil, of_decide_eq_true h⟩
  | e :: es, s, h => by
      rw [exec] at h
      split at h
      · rename_i hok
        cases hstep : step s e with
        | none => simp [hstep] at h
        | some t =>
          rw [hstep] at h
          obtain ⟨s', htrace, hp⟩ := trace_of_exec es t h
          exact ⟨s', Trace.cons hok hstep htrace, hp⟩
      · simp at h

/-- Events that were executed are a run, and what was observed at its end
holds there. -/
theorem run_of_exec [∀ s e, Decidable (ok s e)] {P : σ → Prop} [DecidablePred P]
    (es : List ε) (s : σ) (h : (exec step ok s es).any (fun s' => decide (P s')) = true) :
    ∃ s', Run step ok s s' ∧ P s' := by
  obtain ⟨s', htrace, hp⟩ := trace_of_exec es s h
  exact ⟨s', htrace.run, hp⟩

/-- A run and its continuation, each executed. -/
theorem runs_of_exec [∀ s e, Decidable (ok s e)] {P Q : σ → Prop} [DecidablePred P]
    [DecidablePred Q] (es es' : List ε) (s : σ)
    (h : (exec step ok s es).any (fun s' => decide (P s' ∧
      (exec step ok s' es').any (fun s'' => decide (Q s'')) = true)) = true) :
    ∃ s', Run step ok s s' ∧ P s' ∧ ∃ s'', Run step ok s' s'' ∧ Q s'' := by
  have hfirst : ∃ s', Run step ok s s' ∧ (P s' ∧
      (exec step ok s' es').any (fun s'' => decide (Q s'')) = true) := run_of_exec es s h
  obtain ⟨s', hrun, hp, hnext⟩ := hfirst
  exact ⟨s', hrun, hp, run_of_exec es' s' hnext⟩

/-! ## Resources with one owner -/

section Exclusive

variable {τ π ι : Type*} {owns : π → ι → Prop} {pc : τ → π}

/-- No two threads own one resource, by where they are in their programs. -/
def Exclusive (owns : π → ι → Prop) (pc : τ → π) : Prop :=
  ∀ t t' x, owns (pc t) x → owns (pc t') x → t = t'

/-- A thread that moves keeps what it owned, or takes what nobody owns. -/
theorem Exclusive.update [DecidableEq τ] (hexcl : Exclusive owns pc) {t : τ} {p : π}
    (htakes : ∀ x, owns p x → owns (pc t) x ∨ ∀ t', ¬ owns (pc t') x) :
    Exclusive owns (Function.update pc t p) := by
  have hmoved : ∀ t' x, t' ≠ t → owns p x → ¬ owns (pc t') x := by
    intro t' x ht hp hother
    rcases htakes x hp with hkept | hfree
    · exact ht (hexcl t' t x hother hkept)
    · exact hfree t' hother
  intro t₁ t₂ x h₁ h₂
  by_cases ht₁ : t₁ = t <;> by_cases ht₂ : t₂ = t
  · rw [ht₁, ht₂]
  · subst ht₁
    rw [Function.update_self] at h₁
    rw [Function.update_of_ne ht₂] at h₂
    exact absurd h₂ (hmoved t₂ x ht₂ h₁)
  · subst ht₂
    rw [Function.update_of_ne ht₁] at h₁
    rw [Function.update_self] at h₂
    exact absurd h₁ (hmoved t₁ x ht₁ h₂)
  · rw [Function.update_of_ne ht₁] at h₁
    rw [Function.update_of_ne ht₂] at h₂
    exact hexcl t₁ t₂ x h₁ h₂

end Exclusive

end GvisorTapVsock.Lts
