/-
GvisorTapVsock.Go.Sync — `sync.Mutex` and `sync.RWMutex` as values.

A lock operation that would block is `none`: in an interleaving model the
goroutine then has no step. Go does not tie a lock to a goroutine; who holds
it is recorded all the same, because that is what proofs speak about.

`Guards` says that whoever is inside a critical section holds the lock. It is
kept by a step that goes inside with `Lock`, by one that leaves with `Unlock`,
and by every step that lets nobody in.
-/
import Mathlib.Data.List.Basic

namespace GvisorTapVsock.Go

/-- A `sync.Mutex` with the goroutine that locked it. -/
structure Mutex (τ : Type) where
  holder : Option τ
  deriving DecidableEq

/-- A `sync.RWMutex`: one writer, or any number of readers. -/
structure RWMutex (τ : Type) where
  writer : Option τ
  readers : List τ
  deriving DecidableEq

variable {τ : Type}

namespace Mutex

/-- The zero value: not locked. -/
def unlocked : Mutex τ := ⟨none⟩

/-- `Lock()`. -/
def lock (m : Mutex τ) (t : τ) : Option (Mutex τ) :=
  match m.holder with
  | none => some ⟨some t⟩
  | some _ => none

/-- `Unlock()`. -/
def unlock (_ : Mutex τ) : Mutex τ := unlocked

theorem lock_eq_some {m m' : Mutex τ} {t : τ} (h : m.lock t = some m') :
    m.holder = none ∧ m'.holder = some t := by
  unfold lock at h
  split at h
  · rename_i hfree
    rw [Option.some.injEq] at h
    exact ⟨hfree, h ▸ rfl⟩
  · simp at h

/-- Whoever is inside holds the lock. -/
def Guards (m : Mutex τ) (inside : τ → Prop) : Prop := ∀ t, inside t → m.holder = some t

section Guards

variable {m m' : Mutex τ} {inside inside' : τ → Prop} {t : τ}

theorem Guards.eq (h : m.Guards inside) {t' : τ} (ht : inside t) (ht' : inside t') : t = t' := by
  have hsame := (h t ht).symm.trans (h t' ht')
  exact Option.some.inj hsame

theorem Guards.keep (h : m.Guards inside) (hin : ∀ t, inside' t → inside t) : m.Guards inside' :=
  fun t ht => h t (hin t ht)

theorem Guards.lock (h : m.Guards inside) (hlock : m.lock t = some m')
    (hin : ∀ t', inside' t' → t' = t ∨ inside t') : m'.Guards inside' := by
  intro t' ht'
  obtain ⟨hfree, hheld⟩ := lock_eq_some hlock
  obtain rfl | hin := hin t' ht'
  · exact hheld
  · simp [h t' hin] at hfree

theorem Guards.unlock (h : m.Guards inside) (ht : inside t)
    (hout : ∀ t', inside' t' → t' ≠ t ∧ inside t') : m.unlock.Guards inside' := by
  intro t' ht'
  obtain ⟨hne, hin⟩ := hout t' ht'
  exact absurd (h.eq hin ht) hne

end Guards

end Mutex

namespace RWMutex

/-- The zero value: not locked. -/
def unlocked : RWMutex τ := ⟨none, []⟩

/-- `Lock()`. -/
def lock (m : RWMutex τ) (t : τ) : Option (RWMutex τ) :=
  match m.writer, m.readers with
  | none, [] => some ⟨some t, []⟩
  | _, _ => none

/-- `Unlock()`. -/
def unlock (m : RWMutex τ) : RWMutex τ := { m with writer := none }

/-- `RLock()`. -/
def rlock (m : RWMutex τ) (t : τ) : Option (RWMutex τ) :=
  match m.writer with
  | none => some { m with readers := t :: m.readers }
  | some _ => none

theorem lock_eq_some {m m' : RWMutex τ} {t : τ} (h : m.lock t = some m') :
    m.writer = none ∧ m.readers = [] ∧ m' = ⟨some t, []⟩ := by
  unfold lock at h
  split at h
  · exact ⟨‹_›, ‹_›, (Option.some.inj h).symm⟩
  · cases h

theorem rlock_eq_some {m m' : RWMutex τ} {t : τ} (h : m.rlock t = some m') :
    m.writer = none ∧ m' = { m with readers := t :: m.readers } := by
  unfold rlock at h
  split at h
  · exact ⟨‹_›, (Option.some.inj h).symm⟩
  · cases h

/-- `RUnlock()`. -/
def runlock [DecidableEq τ] (m : RWMutex τ) (t : τ) : RWMutex τ :=
  { m with readers := m.readers.erase t }

end RWMutex

end GvisorTapVsock.Go
