/-
GvisorTapVsock.Lts.Resources — what a piece of code does with the resources it
takes, as a log.

A resource is opened, and then closed or handed to a new owner. `held` are the
resources of a log that were neither, the ones a return at its end would leak;
`handed` are those that have a new owner.
-/
import Mathlib.Data.List.Basic

namespace GvisorTapVsock.Lts

/-- One use of a resource. -/
inductive Use (ρ : Type) where
  | opens (r : ρ)
  | closes (r : ρ)
  | hands (r : ρ)
  deriving DecidableEq, Repr

variable {ρ : Type} [DecidableEq ρ]

/-- The resources held after one more use. -/
def Use.apply (held : List ρ) : Use ρ → List ρ
  | .opens r => held ++ [r]
  | .closes r | .hands r => held.erase r

/-- The resources that are open and have no new owner, in the order in which
they were opened. -/
def held (log : List (Use ρ)) : List ρ := log.foldl Use.apply []

/-- The resources that have a new owner. -/
def handed : List (Use ρ) → List ρ
  | [] => []
  | .hands r :: log => r :: handed log
  | .opens _ :: log | .closes _ :: log => handed log

omit [DecidableEq ρ] in
@[simp] theorem handed_append (log log' : List (Use ρ)) :
    handed (log ++ log') = handed log ++ handed log' := by
  induction log with
  | nil => rfl
  | cons u log ih => cases u <;> simp [handed, ih]

/-- A log goes on from what the log before it left held. -/
theorem held_append (log log' : List (Use ρ)) :
    held (log ++ log') = log'.foldl Use.apply (held log) := by
  rw [held, List.foldl_append, ← held]

end GvisorTapVsock.Lts
