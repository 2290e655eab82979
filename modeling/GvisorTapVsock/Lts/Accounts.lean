/-
GvisorTapVsock.Lts.Accounts — amounts that the entries of a log post to
accounts.

An entry posts an amount to one account, or nothing (`post`). The total of a
log is the sum of the balances of its accounts (`total_eq_sum`), whatever the
order in which entries of different accounts follow each other.
-/
import Mathlib.Algebra.BigOperators.Group.Finset.Piecewise

namespace GvisorTapVsock.Lts

variable {ε κ : Type} [DecidableEq κ] (post : ε → Option (κ × Nat))

/-- What an entry posts to an account. -/
def posting (e : ε) (k : κ) : Nat := (post e).elim 0 (fun p => if p.1 = k then p.2 else 0)

/-- All a log posts. -/
def total : List ε → Nat
  | [] => 0
  | e :: log => (post e).elim 0 Prod.snd + total log

/-- What a log posts to an account. -/
def balance (k : κ) : List ε → Nat
  | [] => 0
  | e :: log => posting post e k + balance k log

omit [DecidableEq κ] in
theorem total_concat (log : List ε) (e : ε) :
    total post (log ++ [e]) = total post log + (post e).elim 0 Prod.snd := by
  induction log with
  | nil => simp [total]
  | cons e' log ih => rw [List.cons_append, total, total, ih, Nat.add_assoc]

theorem balance_concat (k : κ) (log : List ε) (e : ε) :
    balance post k (log ++ [e]) = balance post k log + posting post e k := by
  induction log with
  | nil => simp [balance]
  | cons e' log ih => rw [List.cons_append, balance, balance, ih, Nat.add_assoc]

variable {post} {accounts : Finset κ} {log : List ε}

/-- An entry posts to one of the accounts. -/
theorem sum_posting {e : ε} (h : ∀ k n, post e = some (k, n) → k ∈ accounts) :
    ∑ k ∈ accounts, posting post e k = (post e).elim 0 Prod.snd := by
  cases hpost : post e with
  | none => simp [posting, hpost]
  | some p => simp [posting, hpost, h p.1 p.2 hpost]

/-- **The total is the sum of the balances.** -/
theorem total_eq_sum (h : ∀ e ∈ log, ∀ k n, post e = some (k, n) → k ∈ accounts) :
    total post log = ∑ k ∈ accounts, balance post k log := by
  induction log with
  | nil => simp [total, balance]
  | cons e log ih =>
    have hlog := ih fun e' he' => h e' (List.mem_cons_of_mem _ he')
    rw [total, hlog, ← sum_posting (h e List.mem_cons_self), ← Finset.sum_add_distrib]
    rfl

end GvisorTapVsock.Lts
