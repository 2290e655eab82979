/-
GvisorTapVsock.Lts.Shared — a value behind a lock for one writer or many
readers, where a writer that waits keeps new readers out.

Each thread makes one call. A write changes the value at once. A read goes on
for several steps, each of which looks at the value, and returns what it comes
to (`Reads`, whose laws say that the steps agree with that on a value that
stays as it is).

The lock makes the calls atomic: `order` is the order in which they take
effect, and `Shared.Ok.result` says that a call returns what it would return if
the calls had been made one after the other in that order. `order` only grows
(`Shared.order_grows`), so it agrees with the order of calls that did not
overlap. No run gets stuck (`Shared.Ok.progress`) or goes on for ever
(`Shared.rank_lt`). But a read that does not return, together with a write that
waits, holds up every call to come (`Shared.stalled`).
-/
import GvisorTapVsock.Lts.Measure
import Mathlib.Data.List.Nodup

namespace GvisorTapVsock.Lts

/-- How reads go about a value: `next` is one step, `result` what all of them
come to, `toGo` a bound on their number. -/
structure Reads (σ κ ρ : Type) where
  next : σ → κ → κ ⊕ ρ
  result : σ → κ → ρ
  toGo : κ → Nat
  result_inl : ∀ {v k k'}, next v k = .inl k' → result v k' = result v k
  result_inr : ∀ {v k r}, next v k = .inr r → result v k = r
  toGo_lt : ∀ {v k k'}, next v k = .inl k' → toGo k' < toGo k

/-- A call: a read from where it begins, or a write. -/
inductive SharedCall (σ κ : Type) where
  | read (k : κ)
  | write (f : σ → σ)

/-- Where a thread is. -/
inductive SharedPc (κ ρ : Type) where
  | idle
  /-- called, and before the lock -/
  | called
  /-- a writer that keeps readers out, with readers still inside -/
  | waiting
  | writing
  | reading (k : κ)
  /-- returned: a read with its result -/
  | done (r : Option ρ)

/-- The call has taken effect. -/
def SharedPc.effective {κ ρ : Type} : SharedPc κ ρ → Bool
  | .reading _ | .done _ => true
  | .idle | .called | .waiting | .writing => false

structure Shared (τ σ κ ρ : Type) where
  value : σ
  pc : τ → SharedPc κ ρ
  /-- the writer that waits or writes -/
  writer : Option τ
  readers : List τ
  /-- the calls that have taken effect -/
  order : List τ

inductive SharedEvent (τ : Type) where
  | call (t : τ)
  /-- the first half of `Lock` -/
  | announce (t : τ)
  /-- the second half of `Lock` -/
  | lock (t : τ)
  /-- the write, and `Unlock` -/
  | write (t : τ)
  | rlock (t : τ)
  /-- a step of a read, the last one with `RUnlock` -/
  | read (t : τ)
  deriving DecidableEq

namespace Shared

variable {τ σ κ ρ : Type}

/-- The effect of a call on the value. -/
def effect : SharedCall σ κ → σ → σ
  | .read _, v => v
  | .write f, v => f v

/-- What a call returns on a value. -/
def returns (R : Reads σ κ ρ) : SharedCall σ κ → σ → Option ρ
  | .read k, v => some (R.result v k)
  | .write _, _ => none

/-- The value after calls one by one. -/
def after (calls : τ → SharedCall σ κ) (v : σ) (order : List τ) : σ :=
  order.foldl (fun v t => effect (calls t) v) v

theorem after_append (calls : τ → SharedCall σ κ) (v : σ) (order : List τ) (t : τ) :
    after calls v (order ++ [t]) = effect (calls t) (after calls v order) := by
  simp [after]

def start (v : σ) : Shared τ σ κ ρ := ⟨v, fun _ => .idle, none, [], []⟩

section Step

variable [DecidableEq τ] (R : Reads σ κ ρ) (calls : τ → SharedCall σ κ)

def step (s : Shared τ σ κ ρ) : SharedEvent τ → Option (Shared τ σ κ ρ)
  | .call t =>
      match s.pc t with
      | .idle => some { s with pc := Function.update s.pc t .called }
      | _ => none
  | .announce t =>
      match s.pc t, calls t, s.writer with
      | .called, .write _, none =>
          some { s with pc := Function.update s.pc t .waiting, writer := some t }
      | _, _, _ => none
  | .lock t =>
      match s.pc t, s.readers with
      | .waiting, [] => some { s with pc := Function.update s.pc t .writing }
      | _, _ => none
  | .write t =>
      match s.pc t, calls t with
      | .writing, .write f =>
          some { s with
            value := f s.value
            pc := Function.update s.pc t (.done none)
            writer := none
            order := s.order ++ [t] }
      | _, _ => none
  | .rlock t =>
      match s.pc t, calls t, s.writer with
      | .called, .read k, none =>
          some { s with
            pc := Function.update s.pc t (.reading k)
            readers := t :: s.readers
            order := s.order ++ [t] }
      | _, _, _ => none
  | .read t =>
      match s.pc t with
      | .reading k =>
          match R.next s.value k with
          | .inl k' => some { s with pc := Function.update s.pc t (.reading k') }
          | .inr r =>
              some { s with
                pc := Function.update s.pc t (.done (some r))
                readers := s.readers.erase t }
      | _ => none

/-- What a step may be. -/
inductive Steps (s : Shared τ σ κ ρ) : SharedEvent τ → Shared τ σ κ ρ → Prop where
  | call {t : τ} (hpc : s.pc t = .idle) :
      Steps s (.call t) { s with pc := Function.update s.pc t .called }
  | announce {t : τ} {f : σ → σ} (hpc : s.pc t = .called) (hcall : calls t = .write f)
      (hfree : s.writer = none) :
      Steps s (.announce t)
        { s with pc := Function.update s.pc t .waiting, writer := some t }
  | lock {t : τ} (hpc : s.pc t = .waiting) (hempty : s.readers = []) :
      Steps s (.lock t) { s with pc := Function.update s.pc t .writing }
  | write {t : τ} {f : σ → σ} (hpc : s.pc t = .writing) (hcall : calls t = .write f) :
      Steps s (.write t)
        { s with
          value := f s.value
          pc := Function.update s.pc t (.done none)
          writer := none
          order := s.order ++ [t] }
  | rlock {t : τ} {k : κ} (hpc : s.pc t = .called) (hcall : calls t = .read k)
      (hfree : s.writer = none) :
      Steps s (.rlock t)
        { s with
          pc := Function.update s.pc t (.reading k)
          readers := t :: s.readers
          order := s.order ++ [t] }
  | read {t : τ} {k k' : κ} (hpc : s.pc t = .reading k) (hnext : R.next s.value k = .inl k') :
      Steps s (.read t) { s with pc := Function.update s.pc t (.reading k') }
  | leave {t : τ} {k : κ} {r : ρ} (hpc : s.pc t = .reading k)
      (hnext : R.next s.value k = .inr r) :
      Steps s (.read t)
        { s with
          pc := Function.update s.pc t (.done (some r))
          readers := s.readers.erase t }

variable {R calls} {s s' : Shared τ σ κ ρ}

theorem steps_of_step {e : SharedEvent τ} (h : s.step R calls e = some s') :
    s.Steps R calls e s' := by
  cases e with
  | call t =>
    simp only [step] at h
    split at h
    · next hpc =>
      obtain rfl := Option.some.inj h
      exact .call hpc
    · cases h
  | announce t =>
    simp only [step] at h
    split at h
    · next hpc hcall hfree =>
      obtain rfl := Option.some.inj h
      exact .announce hpc hcall hfree
    · cases h
  | lock t =>
    simp only [step] at h
    split at h
    · next hpc hempty =>
      obtain rfl := Option.some.inj h
      exact .lock hpc hempty
    · cases h
  | write t =>
    simp only [step] at h
    split at h
    · next hpc hcall =>
      obtain rfl := Option.some.inj h
      exact .write hpc hcall
    · cases h
  | rlock t =>
    simp only [step] at h
    split at h
    · next hpc hcall hfree =>
      obtain rfl := Option.some.inj h
      exact .rlock hpc hcall hfree
    · cases h
  | read t =>
    simp only [step] at h
    split at h
    · next k hpc =>
      split at h
      · next hnext =>
        obtain rfl := Option.some.inj h
        exact .read hpc hnext
      · next hnext =>
        obtain rfl := Option.some.inj h
        exact .leave hpc hnext
    · cases h

/-! ## Calls take effect one by one -/

variable (R calls) in
/-- The calls so far, seen in the order in which they took effect. -/
structure Ok (v : σ) (s : Shared τ σ κ ρ) : Prop where
  value : s.value = after calls v s.order
  nodup : s.order.Nodup
  effective : ∀ t, t ∈ s.order ↔ (s.pc t).effective = true
  readers : ∀ t, t ∈ s.readers ↔ ∃ k, s.pc t = .reading k
  distinct : s.readers.Nodup
  writer : ∀ t, s.writer = some t ↔ s.pc t = .waiting ∨ s.pc t = .writing
  alone : ∀ t, s.pc t = .writing → s.readers = []
  writes : ∀ t, s.pc t = .waiting ∨ s.pc t = .writing → ∃ f, calls t = .write f
  /-- the value has not changed since a read that goes on took the lock -/
  reading : ∀ t k, s.pc t = .reading k → ∃ k₀ before rest, calls t = .read k₀ ∧
    s.order = before ++ t :: rest ∧ after calls v before = s.value ∧
      R.result s.value k = R.result s.value k₀
  result : ∀ t r, s.pc t = .done r → ∃ before rest, s.order = before ++ t :: rest ∧
    r = returns R (calls t) (after calls v before)

omit [DecidableEq τ] in
theorem ok_start (v : σ) : Ok R calls v (start v : Shared τ σ κ ρ) where
  value := rfl
  nodup := List.nodup_nil
  effective := fun t => by simp [start, SharedPc.effective]
  readers := fun t => by simp [start]
  distinct := List.nodup_nil
  writer := fun t => by simp [start]
  alone := fun t h => by cases h
  writes := fun t h => by simp [start] at h
  reading := fun t k h => by cases h
  result := fun t r h => by cases h

variable {v : σ} {t : τ}

/-- A thread on its way to the lock. -/
theorem Ok.move (hok : Ok R calls v s) {p : SharedPc κ ρ} {w : Option τ}
    (hold : (s.pc t).effective = false) (hnew : p.effective = false)
    (hwriter : ∀ t', w = some t' ↔ Function.update s.pc t p t' = .waiting ∨
      Function.update s.pc t p t' = .writing)
    (halone : p = .writing → s.readers = [])
    (hwrites : p = .waiting ∨ p = .writing → ∃ f, calls t = .write f) :
    Ok R calls v { s with pc := Function.update s.pc t p, writer := w } where
  value := hok.value
  nodup := hok.nodup
  effective := fun t' => by
    by_cases ht : t' = t
    · subst ht
      simp [hok.effective, hold, hnew]
    · simp [hok.effective, ht]
  readers := fun t' => by
    by_cases ht : t' = t
    · subst ht
      have hnone : ∀ k, s.pc t' ≠ .reading k := fun k h => by simp [h, SharedPc.effective] at hold
      have hnone' : ∀ k, p ≠ .reading k := fun k h => by simp [h, SharedPc.effective] at hnew
      simp [hok.readers, hnone, hnone']
    · simp [hok.readers, ht]
  distinct := hok.distinct
  writer := hwriter
  alone := fun t' h => by
    by_cases ht : t' = t
    · subst ht
      exact halone (by simpa using h)
    · exact hok.alone t' (by simpa [ht] using h)
  writes := fun t' h => by
    by_cases ht : t' = t
    · subst ht
      exact hwrites (by simpa using h)
    · exact hok.writes t' (by simpa [ht] using h)
  reading := fun t' k h => by
    by_cases ht : t' = t
    · subst ht
      simp only [Function.update_self] at h
      simp [h, SharedPc.effective] at hnew
    · exact hok.reading t' k (by simpa [ht] using h)
  result := fun t' r h => by
    by_cases ht : t' = t
    · subst ht
      simp only [Function.update_self] at h
      simp [h, SharedPc.effective] at hnew
    · exact hok.result t' r (by simpa [ht] using h)

theorem Ok.write (hok : Ok R calls v s) {f : σ → σ} (hpc : s.pc t = .writing)
    (hcall : calls t = .write f) :
    Ok R calls v { s with
      value := f s.value
      pc := Function.update s.pc t (.done none)
      writer := none
      order := s.order ++ [t] } := by
  have hempty := hok.alone t hpc
  have hnew : t ∉ s.order := by simp [hok.effective, hpc, SharedPc.effective]
  have hwriter : s.writer = some t := (hok.writer t).mpr (Or.inr hpc)
  have hout : ∀ t' k, s.pc t' ≠ .reading k := by
    intro t' k h
    have hmem := (hok.readers t').mpr ⟨k, h⟩
    simp [hempty] at hmem
  have hother : ∀ t', t' ≠ t → ¬ (s.pc t' = .waiting ∨ s.pc t' = .writing) := by
    intro t' ht h
    have hsame := hwriter.symm.trans ((hok.writer t').mpr h)
    exact ht (Option.some.inj hsame).symm
  refine
    { value := ?_, nodup := ?_, effective := ?_, readers := ?_, distinct := hok.distinct,
      writer := ?_, alone := fun _ _ => hempty, writes := ?_, reading := ?_, result := ?_ }
  · rw [after_append, hcall, ← hok.value]
    rfl
  · rw [List.nodup_append_comm]
    exact List.nodup_cons.mpr ⟨hnew, hok.nodup⟩
  · intro t'
    by_cases ht : t' = t
    · subst ht
      simp [SharedPc.effective]
    · simp [hok.effective, ht]
  · intro t'
    by_cases ht : t' = t
    · subst ht
      simp [hempty]
    · simp [hempty, ht, hout]
  · intro t'
    by_cases ht : t' = t
    · subst ht
      simp
    · have hno := hother t' ht
      simpa [ht] using hno
  · intro t' h
    by_cases ht : t' = t
    · subst ht
      exact ⟨f, hcall⟩
    · exact hok.writes t' (by simpa [ht] using h)
  · intro t' k h
    by_cases ht : t' = t
    · subst ht
      simp at h
    · exact absurd (by simpa [ht] using h) (hout t' k)
  · intro t' r h
    by_cases ht : t' = t
    · subst ht
      obtain rfl : none = r := by simpa using h
      exact ⟨s.order, [], rfl, by rw [hcall]; rfl⟩
    · obtain ⟨before, rest, horder, hr⟩ := hok.result t' r (by simpa [ht] using h)
      exact ⟨before, rest ++ [t], by simp [horder], hr⟩

theorem Ok.rlock (hok : Ok R calls v s) {k : κ} (hpc : s.pc t = .called)
    (hcall : calls t = .read k) (hfree : s.writer = none) :
    Ok R calls v { s with
      pc := Function.update s.pc t (.reading k)
      readers := t :: s.readers
      order := s.order ++ [t] } := by
  have hnew : t ∉ s.order := by simp [hok.effective, hpc, SharedPc.effective]
  have hout : t ∉ s.readers := by simp [hok.readers, hpc]
  have hnone : ∀ t', ¬ (s.pc t' = .waiting ∨ s.pc t' = .writing) := by
    intro t' h
    have hwriter := (hok.writer t').mpr h
    rw [hfree] at hwriter
    cases hwriter
  have hvalue : after calls v (s.order ++ [t]) = s.value := by
    rw [after_append, hcall, hok.value]
    rfl
  refine
    { value := hvalue.symm, nodup := ?_, effective := ?_, readers := ?_,
      distinct := List.nodup_cons.mpr ⟨hout, hok.distinct⟩, writer := ?_, alone := ?_,
      writes := ?_, reading := ?_, result := ?_ }
  · rw [List.nodup_append_comm]
    exact List.nodup_cons.mpr ⟨hnew, hok.nodup⟩
  · intro t'
    by_cases ht : t' = t
    · subst ht
      simp [SharedPc.effective]
    · simp [hok.effective, ht]
  · intro t'
    by_cases ht : t' = t
    · subst ht
      simp
    · simp [hok.readers, ht]
  · intro t'
    by_cases ht : t' = t
    · subst ht
      simp [hfree]
    · have hno := hnone t'
      simpa [ht, hfree] using hno
  · intro t' h
    by_cases ht : t' = t
    · subst ht
      simp at h
    · exact absurd (Or.inr (by simpa [ht] using h)) (hnone t')
  · intro t' h
    by_cases ht : t' = t
    · subst ht
      simp at h
    · exact hok.writes t' (by simpa [ht] using h)
  · intro t' k' h
    by_cases ht : t' = t
    · subst ht
      obtain rfl : k = k' := by simpa using h
      exact ⟨k, s.order, [], hcall, rfl, hok.value.symm, rfl⟩
    · obtain ⟨k₀, before, rest, hcall', horder, hbefore, hresult⟩ :=
        hok.reading t' k' (by simpa [ht] using h)
      exact ⟨k₀, before, rest ++ [t], hcall', by simp [horder], hbefore, hresult⟩
  · intro t' r h
    by_cases ht : t' = t
    · subst ht
      simp at h
    · obtain ⟨before, rest, horder, hr⟩ := hok.result t' r (by simpa [ht] using h)
      exact ⟨before, rest ++ [t], by simp [horder], hr⟩

theorem Ok.read (hok : Ok R calls v s) {k k' : κ} (hpc : s.pc t = .reading k)
    (hnext : R.next s.value k = .inl k') :
    Ok R calls v { s with pc := Function.update s.pc t (.reading k') } := by
  obtain ⟨k₀, before, rest, hcall, horder, hbefore, hresult⟩ := hok.reading t k hpc
  refine
    { hok with
      effective := ?_, readers := ?_, writer := ?_, alone := ?_, writes := ?_, reading := ?_,
      result := ?_ }
  all_goals intro t'
  all_goals by_cases ht : t' = t
  all_goals first
    | subst ht
    | simp only [Function.update_of_ne ht]
  · simp [hok.effective, hpc, SharedPc.effective]
  · exact hok.effective t'
  · simp [hok.readers, hpc]
  · exact hok.readers t'
  · simp [hok.writer, hpc]
  · exact hok.writer t'
  · simp
  · exact hok.alone t'
  · simp
  · exact hok.writes t'
  · intro k₁ h
    obtain rfl : k' = k₁ := by simpa using h
    exact ⟨k₀, before, rest, hcall, horder, hbefore, (R.result_inl hnext).trans hresult⟩
  · exact hok.reading t'
  · simp
  · exact hok.result t'

theorem Ok.leave (hok : Ok R calls v s) {k : κ} {r : ρ} (hpc : s.pc t = .reading k)
    (hnext : R.next s.value k = .inr r) :
    Ok R calls v { s with
      pc := Function.update s.pc t (.done (some r))
      readers := s.readers.erase t } := by
  obtain ⟨k₀, before, rest, hcall, horder, hbefore, hresult⟩ := hok.reading t k hpc
  refine
    { hok with
      effective := ?_, readers := ?_, distinct := hok.distinct.erase t, writer := ?_,
      alone := ?_, writes := ?_, reading := ?_, result := ?_ }
  all_goals intro t'
  all_goals by_cases ht : t' = t
  all_goals first
    | subst ht
    | simp only [Function.update_of_ne ht]
  · simp [hok.effective, hpc, SharedPc.effective]
  · exact hok.effective t'
  · simp [hok.distinct.mem_erase_iff]
  · simp [hok.distinct.mem_erase_iff, ht, hok.readers]
  · simp [hok.writer, hpc]
  · exact hok.writer t'
  · simp
  · exact fun h => by simp [hok.alone t' h]
  · simp
  · exact hok.writes t'
  · simp
  · exact hok.reading t'
  · intro r' h
    obtain rfl : some r = r' := by simpa using h
    refine ⟨before, rest, horder, ?_⟩
    rw [hcall, hbefore, returns, ← hresult, R.result_inr hnext]
  · exact hok.result t'

theorem Ok.step {e : SharedEvent τ} (hok : Ok R calls v s) (h : s.step R calls e = some s') :
    Ok R calls v s' := by
  cases steps_of_step h with
  | @call t hpc =>
    refine hok.move (by simp [hpc, SharedPc.effective]) rfl (fun t' => ?_) (by simp) (by simp)
    by_cases ht : t' = t
    · subst ht
      simp [hok.writer, hpc]
    · simp [hok.writer, ht]
  | @announce t f hpc hcall hfree =>
    refine hok.move (by simp [hpc, SharedPc.effective]) rfl (fun t' => ?_) (by simp)
      fun _ => ⟨f, hcall⟩
    by_cases ht : t' = t
    · subst ht
      simp
    · have hno := hok.writer t'
      simp only [hfree, reduceCtorEq, false_iff] at hno
      simpa [ht, Ne.symm ht] using hno
  | @lock t hpc hempty =>
    refine hok.move (by simp [hpc, SharedPc.effective]) rfl (fun t' => ?_) (fun _ => hempty)
      fun _ => hok.writes t (Or.inl hpc)
    by_cases ht : t' = t
    · subst ht
      simp [hok.writer, hpc]
    · simp [hok.writer, ht]
  | write hpc hcall => exact hok.write hpc hcall
  | rlock hpc hcall hfree => exact hok.rlock hpc hcall hfree
  | read hpc hnext => exact hok.read hpc hnext
  | leave hpc hnext => exact hok.leave hpc hnext

theorem ok_of_run {ok : Shared τ σ κ ρ → SharedEvent τ → Prop}
    (hrun : Run (step R calls) ok (start v) s) : Ok R calls v s := by
  induction hrun with
  | refl => exact ok_start v
  | step e _ _ next ih => exact ih.step next

/-- A call that has taken effect stays where it is in the order. -/
theorem order_grows {ok : Shared τ σ κ ρ → SharedEvent τ → Prop}
    (hrun : Run (step R calls) ok s s') : s.order <+: s'.order := by
  induction hrun with
  | refl => exact List.prefix_rfl
  | step e _ _ next ih =>
    refine ih.trans ?_
    cases steps_of_step next with
    | call | announce | lock | read | leave => exact List.prefix_rfl
    | write | rlock => exact List.prefix_append _ _

/-! ## Calls return -/

/-- Some thread can go on, unless none is in a call. -/
theorem Ok.progress (hok : Ok R calls v s) (hidle : s.pc t ≠ .idle)
    (hdone : ∀ r, s.pc t ≠ .done r) :
    ∃ e, (∀ t', e ≠ .call t') ∧ (s.step R calls e).isSome = true := by
  cases hreaders : s.readers with
  | cons t' rest =>
    obtain ⟨k, hpc⟩ := (hok.readers t').mp (by simp [hreaders])
    cases hnext : R.next s.value k with
    | inl k' => exact ⟨.read t', by simp, by simp [Shared.step, hpc, hnext]⟩
    | inr r => exact ⟨.read t', by simp, by simp [Shared.step, hpc, hnext]⟩
  | nil =>
    cases hwriter : s.writer with
    | some t' =>
      obtain hpc | hpc := (hok.writer t').mp hwriter
      · exact ⟨.lock t', by simp, by simp [Shared.step, hpc, hreaders]⟩
      · obtain ⟨f, hcall⟩ := hok.writes t' (Or.inr hpc)
        exact ⟨.write t', by simp, by simp [Shared.step, hpc, hcall]⟩
    | none =>
      have hout : ¬ (s.pc t = .waiting ∨ s.pc t = .writing) := by
        rw [← hok.writer, hwriter]
        simp
      cases hpc : s.pc t with
      | idle => exact absurd hpc hidle
      | called =>
        cases hcall : calls t with
        | read k => exact ⟨.rlock t, by simp, by simp [Shared.step, hpc, hcall, hwriter]⟩
        | write f => exact ⟨.announce t, by simp, by simp [Shared.step, hpc, hcall, hwriter]⟩
      | waiting => exact absurd (Or.inl hpc) hout
      | writing => exact absurd (Or.inr hpc) hout
      | reading k =>
        have hmem := (hok.readers t).mpr ⟨k, hpc⟩
        simp [hreaders] at hmem
      | done r => exact absurd hpc (hdone r)

/-- The most steps that a thread may still make. -/
def rank (R : Reads σ κ ρ) : SharedCall σ κ → SharedPc κ ρ → Nat
  | .read k, .idle => R.toGo k + 3
  | .read k, .called => R.toGo k + 2
  | .write _, .idle => 4
  | .write _, .called => 3
  | _, .waiting => 2
  | _, .writing => 1
  | _, .reading k => R.toGo k + 1
  | _, .done _ => 0

theorem rank_lt [Fintype τ] {e : SharedEvent τ} (h : s.step R calls e = some s') :
    ∑ t, rank R (calls t) (s'.pc t) < ∑ t, rank R (calls t) (s.pc t) := by
  cases steps_of_step h with
  | @call t hpc =>
    refine sum_update_rank_lt (fun t => rank R (calls t)) ?_
    rw [hpc]
    cases calls t <;> simp [rank]
  | @announce t f hpc hcall hfree =>
    refine sum_update_rank_lt (fun t => rank R (calls t)) ?_
    simp [hpc, hcall, rank]
  | @lock t hpc hempty =>
    refine sum_update_rank_lt (fun t => rank R (calls t)) ?_
    simp [hpc, rank]
  | @write t f hpc hcall =>
    refine sum_update_rank_lt (fun t => rank R (calls t)) ?_
    simp [hpc, rank]
  | @rlock t k hpc hcall hfree =>
    refine sum_update_rank_lt (fun t => rank R (calls t)) ?_
    simp [hpc, hcall, rank]
  | @read t k k' hpc hnext =>
    refine sum_update_rank_lt (fun t => rank R (calls t)) ?_
    simp only [hpc, rank]
    exact Nat.succ_lt_succ (R.toGo_lt hnext)
  | @leave t k r hpc hnext =>
    refine sum_update_rank_lt (fun t => rank R (calls t)) ?_
    simp [hpc, rank]

/-! ## Calls that wait -/

/-- While a writer waits and a read does not go on, no call takes effect. -/
theorem stalled (hok : Ok R calls v s) {w r : τ} (hwriter : s.writer = some w)
    (hinside : r ∈ s.readers) (hrun : Run (step R calls) (fun _ e => e ≠ .read r) s s') :
    s'.order = s.order ∧ s'.value = s.value := by
  have hall : Ok R calls v s' ∧ s'.writer = some w ∧ r ∈ s'.readers ∧ s'.order = s.order ∧
      s'.value = s.value := by
    induction hrun with
    | refl => exact ⟨hok, hwriter, hinside, rfl, rfl⟩
    | step e _ hne next ih =>
      obtain ⟨hok', hwriter', hinside', horder, hvalue⟩ := ih
      refine ⟨hok'.step next, ?_⟩
      cases steps_of_step next with
      | call => exact ⟨hwriter', hinside', horder, hvalue⟩
      | announce hpc hcall hfree => cases hwriter'.symm.trans hfree
      | lock hpc hempty => simp [hempty] at hinside'
      | @write t f hpc hcall => simp [hok'.alone t hpc] at hinside'
      | rlock hpc hcall hfree => cases hwriter'.symm.trans hfree
      | read => exact ⟨hwriter', hinside', horder, hvalue⟩
      | @leave t k ret hpc hnext =>
        have ht : r ≠ t := fun h => hne (by rw [h])
        exact ⟨hwriter', (List.mem_erase_of_ne ht).mpr hinside', horder, hvalue⟩
  exact ⟨hall.2.2.2.1, hall.2.2.2.2⟩

end Step

end Shared

end GvisorTapVsock.Lts
