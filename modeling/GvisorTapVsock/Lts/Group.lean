/-
GvisorTapVsock.Lts.Group — tasks that end together.

A group runs tasks; a task that gets on may start others. The first task that
returns an error cancels the group, and the group is waited for until every
task has returned. What a task does on cancellation is its own affair.

`Group.move` is a step of one task: where it goes on, or that it returned, the
tasks it started and its error.
-/
import Mathlib.Algebra.GroupWithZero.Nat
import Mathlib.Data.List.Basic

namespace GvisorTapVsock.Lts

/-- A group with the tasks that have not returned. -/
structure Group (τ ε : Type) where
  tasks : List τ
  err : Option ε
  cancelled : Bool
  deriving DecidableEq, Repr

namespace Group

variable {τ ε : Type}

/-- Task `k` goes on as `next`, or has returned, with an error perhaps. -/
def move (g : Group τ ε) (k : Nat) (next : Option τ) (starts : List τ) (err : Option ε) :
    Group τ ε where
  tasks := (match next with
    | some t => g.tasks.set k t
    | none => g.tasks.eraseIdx k) ++ starts
  err := g.err <|> err
  cancelled := g.cancelled || err.isSome

section Move

variable {g : Group τ ε} {k : Nat} {next : Option τ} {starts : List τ} {err : Option ε} {t t' : τ}

/-- The other tasks are where they were. -/
theorem mem_move_of_ne (hk : g.tasks[k]? = some t) (ht : t' ∈ g.tasks) (hne : t' ≠ t) :
    t' ∈ (g.move k next starts err).tasks := by
  obtain ⟨j, hj⟩ := List.mem_iff_getElem?.mp ht
  have hjk : k ≠ j := fun h => hne (Option.some.inj (hj.symm.trans (h ▸ hk)))
  refine List.mem_append_left _ ?_
  cases next with
  | some n => exact List.mem_iff_getElem?.mpr ⟨j, by rw [List.getElem?_set_ne hjk, hj]⟩
  | none => exact List.mem_eraseIdx_iff_getElem?.mpr ⟨j, hjk.symm, hj⟩

theorem mem_move_next (hk : g.tasks[k]? = some t) :
    t' ∈ (g.move k (some t') starts err).tasks :=
  List.mem_append_left _ (List.mem_set (List.getElem?_eq_some_iff.mp hk).1 t')

theorem mem_move_starts (ht : t' ∈ starts) : t' ∈ (g.move k next starts err).tasks :=
  List.mem_append_right _ ht

theorem mem_of_mem_move (ht : t' ∈ (g.move k next starts err).tasks) :
    t' ∈ g.tasks ∨ next = some t' ∨ t' ∈ starts := by
  rcases List.mem_append.mp ht with ht | ht
  · cases next with
    | some n =>
      rcases List.mem_or_eq_of_mem_set ht with ht | rfl
      · exact Or.inl ht
      · exact Or.inr (Or.inl rfl)
    | none => exact Or.inl (List.mem_of_mem_eraseIdx ht)
  · exact Or.inr (Or.inr ht)

/-- The sum of a measure over the tasks. -/
def total (rank : τ → Nat) (tasks : List τ) : Nat := (tasks.map rank).sum

theorem total_move (rank : τ → Nat) (hk : g.tasks[k]? = some t) :
    total rank (g.move k next starts err).tasks + rank t =
      total rank g.tasks + (next.elim 0 rank + total rank starts) := by
  obtain ⟨hlt, hget⟩ := List.getElem?_eq_some_iff.mp hk
  have hsplit : g.tasks = g.tasks.take k ++ t :: g.tasks.drop (k + 1) := by
    rw [← hget, List.getElem_cons_drop, List.take_append_drop]
  have hold : total rank g.tasks =
      total rank (g.tasks.take k) + (rank t + total rank (g.tasks.drop (k + 1))) := by
    conv_lhs => rw [hsplit]
    simp [total]
  cases next with
  | some n =>
    simp only [move, total, List.map_append, List.sum_append, Option.elim_some]
    rw [List.set_eq_take_append_cons_drop, if_pos hlt]
    simp only [total] at hold
    simp only [List.map_append, List.map_cons, List.sum_append, List.sum_cons]
    omega
  | none =>
    simp only [move, total, List.map_append, List.sum_append, Option.elim_none]
    rw [List.eraseIdx_eq_take_drop_succ]
    simp only [total] at hold
    simp only [List.map_append, List.sum_append]
    omega

end Move

end Group

end GvisorTapVsock.Lts
