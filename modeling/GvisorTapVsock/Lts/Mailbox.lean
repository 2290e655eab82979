/-
GvisorTapVsock.Lts.Mailbox — workers that report to an owner who listens once.

The workers of a crew each end with one report on a channel with a buffer, or
without one. The owner takes one report and does not listen again. `reports`
are those sent, in order; the first of them is the one the owner takes.

A worker whose report does not fit waits for ever once the owner has left. A
crew of one more than the buffer holds always finds room (`Mailbox.Ok.room`);
in general no more wait than the crew exceeds that (`Mailbox.Ok.waiting_le`).
-/
import GvisorTapVsock.Lts.Measure
import Mathlib.Data.Fintype.Card

namespace GvisorTapVsock.Lts

/-- Where a worker is: at work, before the send of its report, or gone. -/
inductive WorkerPc where
  | working
  | sending
  | gone
  deriving DecidableEq, Repr

structure Mailbox (ι : Type) where
  worker : ι → WorkerPc
  /-- the buffer of the channel, by the senders of the reports -/
  buf : List ι
  /-- whose report the owner took -/
  taken : Option ι

inductive MailEvent (ι : Type) where
  /-- the work ends with a report -/
  | finish (i : ι)
  /-- the work ends without one -/
  | leave (i : ι)
  | send (i : ι)
  | take
  deriving DecidableEq, Repr

namespace Mailbox

variable {ι : Type} [DecidableEq ι]

def start (crew : Finset ι) : Mailbox ι :=
  ⟨fun i => if i ∈ crew then .working else .gone, [], none⟩

/-- A step, with the capacity of the channel. -/
def step (cap : Nat) (m : Mailbox ι) : MailEvent ι → Option (Mailbox ι)
  | .finish i =>
      if m.worker i = .working then
        some { m with worker := Function.update m.worker i .sending }
      else none
  | .leave i =>
      if m.worker i = .working then
        some { m with worker := Function.update m.worker i .gone }
      else none
  | .send i =>
      if m.worker i = .sending ∧ m.buf.length < cap then
        some { m with worker := Function.update m.worker i .gone, buf := m.buf ++ [i] }
      else none
  | .take =>
      match m.taken, m.buf with
      | none, i :: buf => some { m with buf := buf, taken := some i }
      | none, [] | some _, _ => none

/-- The reports sent, in order. -/
def reports (m : Mailbox ι) : List ι := m.taken.toList ++ m.buf

/-- What a step may be. -/
inductive Steps (cap : Nat) (m : Mailbox ι) : MailEvent ι → Mailbox ι → Prop where
  | finish {i : ι} (hpc : m.worker i = .working) :
      Steps cap m (.finish i) { m with worker := Function.update m.worker i .sending }
  | leave {i : ι} (hpc : m.worker i = .working) :
      Steps cap m (.leave i) { m with worker := Function.update m.worker i .gone }
  | send {i : ι} (hpc : m.worker i = .sending) (hroom : m.buf.length < cap) :
      Steps cap m (.send i) { m with
        worker := Function.update m.worker i .gone
        buf := m.buf ++ [i] }
  | take {i : ι} {buf : List ι} (hnone : m.taken = none) (hbuf : m.buf = i :: buf) :
      Steps cap m .take { m with buf := buf, taken := some i }

theorem steps_of_step {cap : Nat} {m m' : Mailbox ι} {e : MailEvent ι}
    (h : m.step cap e = some m') : m.Steps cap e m' := by
  cases e with
  | finish i =>
    simp only [step, Option.ite_none_right_eq_some, Option.some.injEq] at h
    obtain ⟨hpc, rfl⟩ := h
    exact .finish hpc
  | leave i =>
    simp only [step, Option.ite_none_right_eq_some, Option.some.injEq] at h
    obtain ⟨hpc, rfl⟩ := h
    exact .leave hpc
  | send i =>
    simp only [step, Option.ite_none_right_eq_some, Option.some.injEq] at h
    obtain ⟨⟨hpc, hroom⟩, rfl⟩ := h
    exact .send hpc hroom
  | take =>
    cases htaken : m.taken with
    | some i => simp [step, htaken] at h
    | none =>
      cases hbuf : m.buf with
      | nil => simp [step, htaken, hbuf] at h
      | cons i buf =>
        simp only [step, htaken, hbuf, Option.some.injEq] at h
        subst h
        exact .take htaken hbuf

/-! ## Every worker reports once -/

structure Ok (cap : Nat) (crew : Finset ι) (m : Mailbox ι) : Prop where
  nodup : m.reports.Nodup
  gone : ∀ i ∈ m.reports, m.worker i = .gone
  fits : m.buf.length ≤ cap
  crew : ∀ i, i ∈ m.reports ∨ m.worker i ≠ .gone → i ∈ crew

theorem ok_start (cap : Nat) (crew : Finset ι) : Ok cap crew (start crew) where
  nodup := List.nodup_nil
  gone := fun _ hi => nomatch hi
  fits := Nat.zero_le cap
  crew := fun i hi => by simpa [start, reports] using hi

omit [DecidableEq ι] in
theorem reports_take {m : Mailbox ι} {i : ι} {buf : List ι} (hnone : m.taken = none)
    (hbuf : m.buf = i :: buf) : ({ m with buf := buf, taken := some i } : Mailbox ι).reports =
      m.reports := by
  simp [reports, hnone, hbuf]

theorem Ok.step {cap : Nat} {crew : Finset ι} {m m' : Mailbox ι} {e : MailEvent ι}
    (hok : m.Ok cap crew) (h : m.step cap e = some m') : m'.Ok cap crew := by
  -- a worker that moves is of the crew, and has not reported
  have hmoved : ∀ {i : ι} {p : WorkerPc}, m.worker i ≠ .gone →
      ∀ j ∈ m.reports, Function.update m.worker i p j = .gone := by
    intro i p hpc j hj
    have hij : j ≠ i := fun hji => hpc (hji ▸ hok.gone j hj)
    rw [Function.update_of_ne hij]
    exact hok.gone j hj
  have hcrew : ∀ {i : ι} {p : WorkerPc}, m.worker i ≠ .gone →
      ∀ j, j ∈ m.reports ∨ Function.update m.worker i p j ≠ .gone → j ∈ crew := by
    intro i p hpc j hj
    by_cases hij : j = i
    · exact hij ▸ hok.crew i (Or.inr hpc)
    · rw [Function.update_of_ne hij] at hj
      exact hok.crew j hj
  cases steps_of_step h with
  | finish hpc =>
    exact ⟨hok.nodup, hmoved (by simp [hpc]), hok.fits, hcrew (by simp [hpc])⟩
  | leave hpc =>
    exact ⟨hok.nodup, hmoved (by simp [hpc]), hok.fits, hcrew (by simp [hpc])⟩
  | @send i hpc hroom =>
    have hreports : ({ m with
        worker := Function.update m.worker i .gone, buf := m.buf ++ [i] } : Mailbox ι).reports =
        m.reports ++ [i] := by simp [reports]
    refine ⟨?_, ?_, ?_, ?_⟩
    · rw [hreports]
      refine List.Nodup.append hok.nodup (List.nodup_singleton i) ?_
      intro j hj hji
      rw [List.mem_singleton.mp hji] at hj
      simp [hok.gone i hj] at hpc
    · intro j hj
      rw [hreports] at hj
      rcases List.mem_append.mp hj with hj | hj
      · exact hmoved (by simp [hpc]) j hj
      · simp [List.mem_singleton.mp hj]
    · simpa using Nat.succ_le_of_lt hroom
    · intro j hj
      rw [hreports] at hj
      by_cases hij : j = i
      · exact hij ▸ hok.crew i (Or.inr (by simp [hpc]))
      · refine hcrew (i := i) (p := .gone) (by simp [hpc]) j (hj.imp_left fun hj => ?_)
        simpa [hij] using hj
  | take hnone hbuf =>
    refine ⟨by rw [reports_take hnone hbuf]; exact hok.nodup, ?_, ?_, ?_⟩
    · rw [reports_take hnone hbuf]
      exact hok.gone
    · have hfits := hok.fits
      rw [hbuf] at hfits
      exact Nat.le_of_succ_le hfits
    · rw [reports_take hnone hbuf]
      exact hok.crew

variable [Fintype ι]

/-! ## The exchange ends -/

def toGoOf : WorkerPc → Nat
  | .working => 2
  | .sending => 1
  | .gone => 0

/-- The most steps that may still be taken. -/
def toGo (m : Mailbox ι) : Nat := ∑ i, toGoOf (m.worker i) + if m.taken.isNone then 1 else 0

theorem toGo_step {cap : Nat} {m m' : Mailbox ι} {e : MailEvent ι}
    (h : m.step cap e = some m') : m'.toGo < m.toGo := by
  unfold toGo
  cases steps_of_step h with
  | @finish i hpc =>
    have hlower : ∑ j, toGoOf (Function.update m.worker i .sending j) < ∑ j, toGoOf (m.worker j) :=
      sum_update_lt (by simp [hpc, toGoOf])
    dsimp only
    omega
  | @leave i hpc =>
    have hlower : ∑ j, toGoOf (Function.update m.worker i .gone j) < ∑ j, toGoOf (m.worker j) :=
      sum_update_lt (by simp [hpc, toGoOf])
    dsimp only
    omega
  | @send i hpc hroom =>
    have hlower : ∑ j, toGoOf (Function.update m.worker i .gone j) < ∑ j, toGoOf (m.worker j) :=
      sum_update_lt (by simp [hpc, toGoOf])
    dsimp only
    omega
  | take hnone hbuf => simp [hnone]

/-! ## Who waits for ever -/

/-- The workers that wait to send. -/
def waiting (m : Mailbox ι) : Finset ι := Finset.univ.filter fun i => m.worker i = .sending

omit [DecidableEq ι] in
theorem mem_waiting {m : Mailbox ι} {i : ι} : i ∈ m.waiting ↔ m.worker i = .sending := by
  simp [waiting]

/-- Those who wait and those who reported are different workers of the crew. -/
theorem Ok.waiting_add_reports_le {cap : Nat} {crew : Finset ι} {m : Mailbox ι}
    (hok : m.Ok cap crew) : m.waiting.card + m.reports.length ≤ crew.card := by
  have hdisj : Disjoint m.waiting m.reports.toFinset := by
    refine Finset.disjoint_left.mpr fun i hi hrep => ?_
    have hsending := mem_waiting.mp hi
    rw [hok.gone i (List.mem_toFinset.mp hrep)] at hsending
    cases hsending
  rw [← List.toFinset_card_of_nodup hok.nodup, ← Finset.card_union_of_disjoint hdisj]
  refine Finset.card_le_card fun i hi => hok.crew i ?_
  rcases Finset.mem_union.mp hi with hwait | hrep
  · exact Or.inr (by simp [mem_waiting.mp hwait])
  · exact Or.inl (List.mem_toFinset.mp hrep)

/-- Workers wait in vain only beyond the buffer and the one report that is
taken. -/
theorem Ok.waiting_le {cap : Nat} {crew : Finset ι} {m : Mailbox ι} (hok : m.Ok cap crew)
    (htaken : m.taken.isSome = true) : m.waiting.card + (m.buf.length + 1) ≤ crew.card := by
  have hle := hok.waiting_add_reports_le
  obtain ⟨j, hj⟩ := Option.isSome_iff_exists.mp htaken
  have hlen : m.reports.length = m.buf.length + 1 := by simp [reports, hj]
  omega

/-- The workers that wait for ever: the owner has left, and the buffer is
full. -/
def blocked (cap : Nat) (m : Mailbox ι) : Finset ι :=
  if m.taken.isSome = true ∧ m.buf.length = cap then m.waiting else ∅

omit [DecidableEq ι] in
theorem mem_blocked {cap : Nat} {m : Mailbox ι} {i : ι} : i ∈ m.blocked cap ↔
    m.taken.isSome = true ∧ m.buf.length = cap ∧ m.worker i = .sending := by
  unfold blocked
  split
  · next h => simp [mem_waiting, h]
  · next h => simpa using fun htaken hfull => absurd ⟨htaken, hfull⟩ h

/-- No step frees a worker that waits for ever. -/
theorem blocked_step {cap : Nat} {m m' : Mailbox ι} {e : MailEvent ι}
    (h : m.step cap e = some m') : m.blocked cap ⊆ m'.blocked cap := by
  intro i hi
  obtain ⟨htaken, hfull, hpc⟩ := mem_blocked.mp hi
  have hother : ∀ {j : ι} {p : WorkerPc}, m.worker j = .working →
      Function.update m.worker j p i = .sending := by
    intro j p hj
    have hij : i ≠ j := fun hij => by simp [hij, hj] at hpc
    rw [Function.update_of_ne hij]
    exact hpc
  cases steps_of_step h with
  | finish hj => exact mem_blocked.mpr ⟨htaken, hfull, hother hj⟩
  | leave hj => exact mem_blocked.mpr ⟨htaken, hfull, hother hj⟩
  | send hj hroom => exact absurd hroom (by omega)
  | take hnone hbuf => simp [hnone] at htaken

theorem Ok.blocked_le {cap : Nat} {crew : Finset ι} {m : Mailbox ι} (hok : m.Ok cap crew) :
    (m.blocked cap).card ≤ crew.card - (cap + 1) := by
  unfold blocked
  split
  · next h =>
    have hle := hok.waiting_le h.1
    omega
  · simp

/-- In a crew of at most one more than the buffer holds, a worker finds room
once the owner has taken a report. -/
theorem Ok.room {cap : Nat} {crew : Finset ι} {m : Mailbox ι} (hok : m.Ok cap crew)
    (hcard : crew.card ≤ cap + 1) (htaken : m.taken.isSome = true) {i : ι}
    (hi : m.worker i = .sending) : m.buf.length < cap := by
  have hle := hok.waiting_le htaken
  have hpos : 0 < m.waiting.card := Finset.card_pos.mpr ⟨i, mem_waiting.mpr hi⟩
  omega

end Mailbox

end GvisorTapVsock.Lts
