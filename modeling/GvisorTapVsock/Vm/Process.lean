/-
GvisorTapVsock.Vm.Process — gvforwarder as a process (`main` and `run` in
`cmd/vm/main_linux.go`).

`run` connects, sets up the tap device and starts its goroutines, `tx`, `rx`
and, for a device of its own, the DHCP client. It returns the first error it
receives on `errCh`, a channel with a buffer of one, and closes what it opened.
`main` calls it again, for ever; the goroutines of the runs before may still be
at work.

`tx` and `rx` end with an error, the DHCP client perhaps without one. With two
goroutines every error is received or buffered. With three, one of them can be
left at its send for ever, so each reconnection may leak a goroutine, and
`process_leaks` says that it leaks no more than that.
-/
import GvisorTapVsock.Lts.Mailbox
import GvisorTapVsock.Lts.Resources
import Mathlib.Algebra.GroupWithZero.Nat

namespace GvisorTapVsock.Vm

open GvisorTapVsock.Lts

/-! ## What `run` opens -/

/-- What a run opens. -/
inductive RunResource where
  | conn
  | tap
  deriving DecidableEq, Repr

/-- The calls of `run` before the goroutines, and whether each succeeds. -/
structure RunOutcomes where
  dial : Bool
  /-- `http.NewRequest` and `req.Write(conn)` -/
  request : Bool
  /-- `water.New` -/
  tap : Bool
  linkUp : Bool
  deriving DecidableEq, Repr

/-- What `run` does with its connection and its device until it returns, and
whether it started its goroutines. The deferred calls close in the opposite
order. -/
def runUses (path : String) (tapPreexists : Bool) (o : RunOutcomes) :
    Bool × List (Use RunResource) :=
  if o.dial then
    if path = "" ∨ o.request then
      if o.tap then
        let uses := [.opens .conn, .opens .tap, .closes .tap, .closes .conn]
        if tapPreexists ∨ o.linkUp then (true, uses) else (false, uses)
      else (false, [.opens .conn, .closes .conn])
    else (false, [.opens .conn, .closes .conn])
  else (false, [])

/-- Whatever fails, a run closes what it opened. -/
theorem held_runUses (path : String) (tapPreexists : Bool) (o : RunOutcomes) :
    held (runUses path tapPreexists o).2 = [] ∧ handed (runUses path tapPreexists o).2 = [] := by
  unfold runUses
  repeat' split
  all_goals exact ⟨rfl, rfl⟩

/-! ## The goroutines -/

/-- The goroutines of a run. -/
inductive Worker where
  | tx
  | rx
  | dhcp
  deriving DecidableEq, Repr

instance : Fintype Worker := ⟨{.tx, .rx, .dhcp}, fun w => by cases w <;> decide⟩

/-- The goroutines that a run starts. -/
def crew (tapPreexists : Bool) : Finset Worker :=
  if tapPreexists then {.tx, .rx} else {.tx, .rx, .dhcp}

/-- `make(chan error, 1)` -/
def errChCap : Nat := 1

/-- Whether a goroutine may take a step so: only the DHCP client ends without
an error. -/
def mayEnd : MailEvent Worker → Bool
  | .leave w => w == .dhcp
  | .finish _ | .send _ | .take => true

/-- The runs that started their goroutines, in order. A run has returned when
it took an error. -/
abbrev Process := List (Mailbox Worker)

inductive ProcessEvent where
  /-- a step of the goroutines of run `k`, or its `<-errCh` -/
  | inRun (k : Nat) (e : MailEvent Worker)
  /-- `main` calls `run`, which starts its goroutines -/
  | again
  deriving DecidableEq, Repr

def Process.step (tapPreexists : Bool) (runs : Process) : ProcessEvent → Option Process
  | .inRun k e =>
      match runs[k]? with
      | none => none
      | some m =>
          if mayEnd e then (m.step errChCap e).map (runs.set k) else none
  | .again =>
      if ∀ m ∈ runs, m.taken.isSome = true then some (runs ++ [.start (crew tapPreexists)])
      else none

/-- What a step of the process may be. -/
inductive Process.Steps (tapPreexists : Bool) (runs : Process) : ProcessEvent → Process → Prop
    where
  | inRun {k : Nat} {e : MailEvent Worker} {m m' : Mailbox Worker} (hm : runs[k]? = some m)
      (hend : mayEnd e = true) (hstep : m.step errChCap e = some m') :
      Steps tapPreexists runs (.inRun k e) (runs.set k m')
  | again (hall : ∀ m ∈ runs, m.taken.isSome = true) :
      Steps tapPreexists runs .again (runs ++ [.start (crew tapPreexists)])

theorem Process.steps_of_step {tapPreexists : Bool} {runs runs' : Process} {e : ProcessEvent}
    (h : Process.step tapPreexists runs e = some runs') :
    Process.Steps tapPreexists runs e runs' := by
  cases e with
  | inRun k e =>
    cases hm : runs[k]? with
    | none => simp [Process.step, hm] at h
    | some m =>
      simp only [Process.step, hm] at h
      split at h
      · next hend =>
        obtain ⟨m', hstep, rfl⟩ := Option.map_eq_some_iff.mp h
        exact .inRun hm hend hstep
      · cases h
  | again =>
    simp only [Process.step, Option.ite_none_right_eq_some, Option.some.injEq] at h
    obtain ⟨hall, rfl⟩ := h
    exact .again hall

/-! ## What the process leaks -/

/-- The goroutines of run `k` that wait at their send for ever. -/
def Process.leaked (runs : Process) (k : Nat) : Finset Worker :=
  match runs[k]? with
  | none => ∅
  | some m => m.blocked errChCap

/-- The number of goroutines that wait for ever. -/
def Process.leaks (runs : Process) : Nat :=
  (runs.map fun m => (m.blocked errChCap).card).sum

section

variable {tapPreexists : Bool} {runs runs' : Process}

theorem Process.ok_of_reach (hreach : Reach (Process.step tapPreexists) [] runs) :
    ∀ m ∈ runs, m.Ok errChCap (crew tapPreexists) := by
  induction hreach with
  | refl => exact fun m hm => nomatch hm
  | step e _ _ next ih =>
    cases Process.steps_of_step next with
    | @inRun k e m m' hm hend hstep =>
      intro n hn
      rcases List.mem_or_eq_of_mem_set hn with hn | rfl
      · exact ih n hn
      · exact (ih m (List.mem_of_getElem? hm)).step hstep
    | again hall =>
      intro n hn
      rcases List.mem_append.mp hn with hn | hn
      · exact ih n hn
      · rw [List.mem_singleton.mp hn]
        exact Mailbox.ok_start _ _

/-- A goroutine that waits for ever does so in every later state. -/
theorem Process.leaked_step {e : ProcessEvent}
    (h : Process.step tapPreexists runs e = some runs') (k : Nat) :
    Process.leaked runs k ⊆ Process.leaked runs' k := by
  unfold Process.leaked
  cases Process.steps_of_step h with
  | @inRun j e m m' hm hend hstep =>
    have hj : j < runs.length := (List.getElem?_eq_some_iff.mp hm).1
    by_cases hjk : j = k
    · subst hjk
      rw [List.getElem?_set_self hj, hm]
      exact Mailbox.blocked_step hstep
    · rw [List.getElem?_set_ne hjk]
  | again hall =>
    by_cases hk : k < runs.length
    · rw [List.getElem?_append_left hk]
    · rw [List.getElem?_eq_none (by omega)]
      exact Finset.empty_subset _

theorem Process.leaked_reach (hreach : Reach (Process.step tapPreexists) runs runs') (k : Nat) :
    Process.leaked runs k ⊆ Process.leaked runs' k := by
  induction hreach with
  | refl => exact Finset.Subset.refl _
  | step e _ _ next ih => exact ih.trans (Process.leaked_step next k)

/-- What a run may leave behind: the goroutines beyond the one whose error is
returned and the one whose error is buffered. -/
def leakBound (tapPreexists : Bool) : Nat := if tapPreexists then 0 else 1

theorem card_crew (tapPreexists : Bool) :
    (crew tapPreexists).card - (errChCap + 1) = leakBound tapPreexists := by
  cases tapPreexists <;> rfl

theorem Process.leaks_le (hreach : Reach (Process.step tapPreexists) [] runs) :
    Process.leaks runs ≤ runs.length * leakBound tapPreexists := by
  have hone : ∀ n ∈ runs.map (fun m => (m.blocked errChCap).card),
      n ≤ leakBound tapPreexists := by
    intro n hn
    obtain ⟨m, hm, rfl⟩ := List.mem_map.mp hn
    rw [← card_crew]
    exact (Process.ok_of_reach hreach m hm).blocked_le
  have hsum := List.sum_le_card_nsmul _ _ hone
  rwa [List.length_map, Nat.nsmul_eq_mul] at hsum

/-- The steps of one run, as steps of the process. -/
theorem Process.reach_last {m m' : Mailbox Worker}
    (hrun : Run (Mailbox.step errChCap) (fun _ e => mayEnd e = true) m m') :
    Reach (Process.step tapPreexists) (runs ++ [m]) (runs ++ [m']) := by
  induction hrun with
  | refl => exact Run.refl
  | step e _ meets next ih =>
    refine Run.step (.inRun runs.length e) ih trivial ?_
    simp [Process.step, meets, next]

end

/-- The connection breaks: `run` returns the error of `tx`, that of `rx` stays in
the buffer, and the DHCP client fails without its device. -/
def brokenRun : List (MailEvent Worker) :=
  [.finish .tx, .send .tx, .take, .finish .rx, .send .rx, .finish .dhcp]

theorem exists_leak : ∃ m, Run (Mailbox.step errChCap) (fun _ e => mayEnd e = true)
    (Mailbox.start (crew false)) m ∧ m.taken = some .tx ∧ m.blocked errChCap = {.dhcp} :=
  run_of_exec (P := fun m : Mailbox Worker => m.taken = some .tx ∧
    m.blocked errChCap = {.dhcp}) brokenRun _ (by decide)

/-- Every reconnection can add a goroutine that waits for ever. -/
theorem Process.exists_leaks (n : Nat) : ∃ runs, Reach (Process.step false) [] runs ∧
    runs.length = n ∧ Process.leaks runs = n ∧ ∀ m ∈ runs, m.taken.isSome = true := by
  induction n with
  | zero => exact ⟨[], Run.refl, rfl, rfl, fun m hm => nomatch hm⟩
  | succ n ih =>
    obtain ⟨runs, hreach, hlen, hleaks, hall⟩ := ih
    obtain ⟨m, hrun, htaken, hblocked⟩ := exists_leak
    have hagain : Process.step false runs .again =
        some (runs ++ [.start (crew false)]) := if_pos hall
    have hnext := (Run.step .again hreach trivial hagain).trans (Process.reach_last hrun)
    refine ⟨runs ++ [m], hnext, ?_, ?_, ?_⟩
    · simp [hlen]
    · have hsum : Process.leaks (runs ++ [m]) = Process.leaks runs + 1 := by
        simp [Process.leaks, hblocked]
      rw [hsum, hleaks]
    · intro m' hm'
      rcases List.mem_append.mp hm' with hm' | hm'
      · exact hall m' hm'
      · simp [List.mem_singleton.mp hm', htaken]

/-- **What gvforwarder leaks.** A goroutine that waits at its send stays there
in every later state. There are never more of them than runs, and none with a
device that existed before; and without such a device every number of runs can
leave as many behind. -/
theorem process_leaks :
    (∀ tapPreexists runs, Reach (Process.step tapPreexists) [] runs →
      Process.leaks runs ≤ runs.length * leakBound tapPreexists ∧
      ∀ runs' k, Reach (Process.step tapPreexists) runs runs' →
        Process.leaked runs k ⊆ Process.leaked runs' k) ∧
    ∀ n, ∃ runs, Reach (Process.step false) [] runs ∧ runs.length = n ∧
      Process.leaks runs = n := by
  refine ⟨fun tapPreexists runs hreach => ⟨Process.leaks_le hreach, fun runs' k hlater =>
    Process.leaked_reach hlater k⟩, fun n => ?_⟩
  obtain ⟨runs, hreach, hlen, hleaks, -⟩ := Process.exists_leaks n
  exact ⟨runs, hreach, hlen, hleaks⟩

end GvisorTapVsock.Vm
