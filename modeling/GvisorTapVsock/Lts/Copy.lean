/-
GvisorTapVsock.Lts.Copy — a loop that copies one byte stream to another.

The loop reads a piece, writes it, and goes on until a read meets the end of
the stream or fails, or a write fails or is short. A read may return bytes and
the end in one call. `Copy` keeps what the source will still give, what was
read and what was written; `Copy.step` is one call that returns, in any way the
calls may return.

`Copied` is the invariant: what was written is what was read, up to the piece
at hand, and a loop that returned without an error has written the whole
stream. `Copy.toGo` bounds the calls to come, so no run of the loop is longer
than that.
-/
import GvisorTapVsock.Lts.Run
import Mathlib.Data.List.Basic
import Mathlib.Data.List.Infix

namespace GvisorTapVsock.Lts

/-- What a read may return beside its bytes. -/
inductive ReadEnd where
  | eof
  | failed
  deriving DecidableEq, Repr

/-- Where the loop is: before a read, before the write of a piece (with what
the read returned beside it), or after its return. -/
inductive CopyPc (α : Type) where
  | reading
  | writing (piece : List α) (ended : Option ReadEnd)
  | returned (failed : Bool)
  deriving DecidableEq, Repr

structure Copy (α : Type) where
  /-- what the source will still give before its end -/
  unread : List α
  read : List α
  written : List α
  pc : CopyPc α
  deriving DecidableEq, Repr

/-- A call that returns: the number of bytes, and the error beside it. -/
inductive CopyEvent where
  | read (n : Nat) (ended : Option ReadEnd)
  | write (n : Nat) (failed : Bool)
  deriving DecidableEq, Repr

variable {α : Type}

/-- Where the loop goes once the bytes of a read are dealt with. -/
def afterRead : Option ReadEnd → CopyPc α
  | none => .reading
  | some .eof => .returned false
  | some .failed => .returned true

/-- Whether a read of a stream may return so: the end is seen behind the last
byte only, and a read without bytes says why. -/
def ReadAllowed (unread : List α) (n : Nat) (ended : Option ReadEnd) : Prop :=
  n ≤ unread.length ∧ (ended = some .eof → n = unread.length) ∧ (ended = none → 0 < n)

instance (unread : List α) (n : Nat) (ended : Option ReadEnd) :
    Decidable (ReadAllowed unread n ended) :=
  inferInstanceAs (Decidable (_ ∧ _ ∧ _))

namespace Copy

/-- A loop that has made no call yet, on a stream. -/
def start (sent : List α) : Copy α := ⟨sent, [], [], .reading⟩

def step (c : Copy α) : CopyEvent → Option (Copy α)
  | .read n ended =>
      match c.pc with
      | .reading =>
          if ReadAllowed c.unread n ended then
            some { c with
              unread := c.unread.drop n
              read := c.read ++ c.unread.take n
              pc := if n = 0 then afterRead ended else .writing (c.unread.take n) ended }
          else none
      | .writing _ _ | .returned _ => none
  | .write n failed =>
      match c.pc with
      | .writing piece ended =>
          if n ≤ piece.length then
            some { c with
              written := c.written ++ piece.take n
              pc := if failed = true ∨ n < piece.length then .returned true
                else afterRead ended }
          else none
      | .reading | .returned _ => none

/-- The loop has returned, with an error or without. -/
def Returned (c : Copy α) : Prop := ∃ failed, c.pc = .returned failed

instance (c : Copy α) : Decidable c.Returned :=
  match hpc : c.pc with
  | .reading => isFalse fun ⟨_, h⟩ => nomatch hpc.symm.trans h
  | .writing _ _ => isFalse fun ⟨_, h⟩ => nomatch hpc.symm.trans h
  | .returned failed => isTrue ⟨failed, hpc⟩

/-- The most calls that may still return. -/
def toGo (c : Copy α) : Nat :=
  match c.pc with
  | .reading => 2 * c.unread.length + 1
  | .writing _ _ => 2 * c.unread.length + 2
  | .returned _ => 0

/-- What a step may be, said once: a read of a loop that reads, or a write of
the piece at hand. -/
inductive Steps (c : Copy α) : CopyEvent → Copy α → Prop where
  | read {n : Nat} {ended : Option ReadEnd} (hpc : c.pc = .reading)
      (hread : ReadAllowed c.unread n ended) :
      Steps c (.read n ended) { c with
        unread := c.unread.drop n
        read := c.read ++ c.unread.take n
        pc := if n = 0 then afterRead ended else .writing (c.unread.take n) ended }
  | write {n : Nat} {failed : Bool} {piece : List α} {ended : Option ReadEnd}
      (hpc : c.pc = .writing piece ended) (hn : n ≤ piece.length) :
      Steps c (.write n failed) { c with
        written := c.written ++ piece.take n
        pc := if failed = true ∨ n < piece.length then .returned true else afterRead ended }

theorem steps_of_step {c c' : Copy α} {e : CopyEvent} (h : c.step e = some c') :
    c.Steps e c' := by
  cases e with
  | read n ended =>
    cases hpc : c.pc with
    | reading =>
      simp only [step, hpc] at h
      split at h
      · next hread =>
        obtain rfl := Option.some.inj h
        exact Steps.read hpc hread
      · cases h
    | writing piece ended' => simp [step, hpc] at h
    | returned failed => simp [step, hpc] at h
  | write n failed =>
    cases hpc : c.pc with
    | writing piece ended =>
      simp only [step, hpc] at h
      split at h
      · next hn =>
        obtain rfl := Option.some.inj h
        exact Steps.write hpc hn
      · cases h
    | reading => simp [step, hpc] at h
    | returned failed' => simp [step, hpc] at h

/-! ## What was written is what was read -/

/-- The piece that was read and is not written. -/
def atHand (c : Copy α) : List α :=
  match c.pc with
  | .writing piece _ => piece
  | .reading | .returned _ => []

/-- The loop on a stream: nothing was read but the stream, in order; up to the
piece at hand it was all written, unless a write failed; the end of the stream
was seen at the end only. -/
structure Copied (sent : List α) (c : Copy α) : Prop where
  split : c.read ++ c.unread = sent
  whole : c.pc ≠ .returned true → c.written ++ c.atHand = c.read
  part : c.written <+: c.read
  eof : ∀ piece, c.pc = .writing piece (some .eof) → c.unread = []
  done : c.pc = .returned false → c.unread = []

theorem copied_start (sent : List α) : Copied sent (start sent) where
  split := rfl
  whole := fun _ => rfl
  part := List.prefix_rfl
  eof := fun _ h => nomatch h
  done := fun h => nomatch h

theorem afterRead_ne_writing (ended : Option ReadEnd) (piece : List α) (e : Option ReadEnd) :
    afterRead ended ≠ CopyPc.writing piece e := by
  rcases ended with _ | ⟨_ | _⟩ <;> exact fun h => nomatch h

theorem afterRead_eq_returned_false {ended : Option ReadEnd} :
    (afterRead ended : CopyPc α) = .returned false ↔ ended = some .eof := by
  rcases ended with _ | ⟨_ | _⟩ <;> simp [afterRead]

theorem Copied.step {sent : List α} {c c' : Copy α} {e : CopyEvent} (hc : Copied sent c)
    (h : c.step e = some c') : Copied sent c' := by
  cases steps_of_step h with
  | @read n ended hpc hread =>
    obtain ⟨hn, heof, hnone⟩ := hread
    have hwritten : c.written = c.read := by
      simpa [atHand, hpc] using hc.whole (by simp [hpc])
    refine ⟨?_, ?_, ?_, ?_, ?_⟩
    · simp only [List.append_assoc, List.take_append_drop]
      exact hc.split
    · intro _
      by_cases h0 : n = 0
      · rcases ended with _ | ⟨_ | _⟩ <;> simp [atHand, h0, afterRead, hwritten]
      · simp [atHand, h0, hwritten]
    · simp only [hwritten]
      exact List.prefix_append _ _
    · intro piece hpiece
      by_cases h0 : n = 0
      · simp only [h0, if_true] at hpiece
        exact absurd hpiece (afterRead_ne_writing _ _ _)
      · simp only [h0, if_false, CopyPc.writing.injEq] at hpiece
        rw [List.drop_eq_nil_iff, heof hpiece.2]
    · intro hret
      by_cases h0 : n = 0
      · simp only [h0, if_true] at hret
        rw [List.drop_eq_nil_iff, heof (afterRead_eq_returned_false.mp hret)]
      · simp [h0] at hret
  | @write n failed piece ended hpc hn =>
    have hread : c.written ++ piece = c.read := by
      simpa [atHand, hpc] using hc.whole (by simp [hpc])
    -- all of the piece was written, or the loop returns with an error
    have hall : ¬ (failed = true ∨ n < piece.length) → piece.take n = piece := by
      intro hok
      rw [List.take_eq_self_iff]
      omega
    have hunread : ended = some .eof → c.unread = [] := by
      rintro rfl
      exact hc.eof piece hpc
    refine ⟨hc.split, ?_, ?_, ?_, ?_⟩
    · intro hret
      by_cases hfail : failed = true ∨ n < piece.length
      · exact absurd (if_pos hfail) hret
      · rcases ended with _ | ⟨_ | _⟩ <;> simp [atHand, hfail, afterRead, hall hfail, hread]
    · rw [← hread]
      exact (List.prefix_append_right_inj _).mpr (List.take_prefix _ _)
    · intro piece' hpiece
      by_cases hfail : failed = true ∨ n < piece.length
      · simp [hfail] at hpiece
      · simp only [hfail, if_false] at hpiece
        exact absurd hpiece (afterRead_ne_writing _ _ _)
    · intro hret
      by_cases hfail : failed = true ∨ n < piece.length
      · simp [hfail] at hret
      · simp only [hfail, if_false] at hret
        exact hunread (afterRead_eq_returned_false.mp hret)

/-- What was written is the beginning of the stream. -/
theorem Copied.written_sent {sent : List α} {c : Copy α} (hc : Copied sent c) :
    c.written <+: sent :=
  hc.part.trans (hc.split ▸ List.prefix_append _ _)

/-- A loop that returned without an error has written the stream. -/
theorem Copied.complete {sent : List α} {c : Copy α} (hc : Copied sent c)
    (hret : c.pc = .returned false) : c.written = sent := by
  have hread : c.written = c.read := by simpa [atHand, hret] using hc.whole (by simp [hret])
  rw [hread, ← hc.split, hc.done hret, List.append_nil]

/-! ## A loop whose calls succeed -/

/-- A call without an error: a read may meet the end of the stream, and a write
takes the whole piece. -/
def Succeeds (c : Copy α) : CopyEvent → Prop
  | .read _ ended => ended ≠ some .failed
  | .write n failed => failed = false ∧ n = c.atHand.length

instance (c : Copy α) (e : CopyEvent) : Decidable (c.Succeeds e) :=
  match e with
  | .read _ _ => inferInstanceAs (Decidable (_ ≠ _))
  | .write _ _ => inferInstanceAs (Decidable (_ ∧ _))

/-- No call has failed. -/
def Unfailed (c : Copy α) : Prop :=
  c.pc ≠ .returned true ∧ ∀ piece, c.pc ≠ .writing piece (some .failed)

theorem unfailed_start (sent : List α) : (start sent).Unfailed :=
  ⟨(fun h => nomatch h), fun _ h => nomatch h⟩

theorem afterRead_ne_failed {ended : Option ReadEnd} (h : ended ≠ some .failed) :
    (afterRead ended : CopyPc α) ≠ .returned true := by
  rcases ended with _ | ⟨_ | _⟩
  · exact fun h => nomatch h
  · simp [afterRead]
  · exact absurd rfl h

theorem Unfailed.step {c c' : Copy α} {e : CopyEvent} (hc : c.Unfailed) (hsucc : c.Succeeds e)
    (h : c.step e = some c') : c'.Unfailed := by
  cases steps_of_step h with
  | @read n ended hpc hread =>
    have hended : ended ≠ some .failed := hsucc
    by_cases h0 : n = 0
    · simp only [Unfailed, h0, if_true]
      exact ⟨afterRead_ne_failed hended, fun piece => afterRead_ne_writing _ _ _⟩
    · simp only [Unfailed, h0, if_false]
      exact ⟨(fun h => nomatch h), fun piece h => hended (CopyPc.writing.inj h).2⟩
  | @write n failed piece ended hpc hn =>
    obtain ⟨rfl, rfl⟩ : failed = false ∧ n = piece.length := by
      simpa [Succeeds, atHand, hpc] using hsucc
    have hended : ended ≠ some .failed := fun h => hc.2 piece (h ▸ hpc)
    simp only [Unfailed, Bool.false_eq_true, Nat.lt_irrefl, or_self, if_false]
    exact ⟨afterRead_ne_failed hended, fun piece => afterRead_ne_writing _ _ _⟩

/-! ## The loop ends -/

theorem toGo_step {c c' : Copy α} {e : CopyEvent} (h : c.step e = some c') :
    c'.toGo < c.toGo := by
  cases steps_of_step h with
  | @read n ended hpc hread =>
    obtain ⟨hn, -, hnone⟩ := hread
    by_cases h0 : n = 0
    · rcases ended with _ | ⟨_ | _⟩
      · exact absurd (hnone rfl) (by omega)
      · simp [toGo, hpc, h0, afterRead]
      · simp [toGo, hpc, h0, afterRead]
    · simp only [toGo, hpc, h0, if_false, List.length_drop]
      omega
  | @write n failed piece ended hpc hn =>
    by_cases hfail : failed = true ∨ n < piece.length
    · simp [toGo, hpc, hfail]
    · rcases ended with _ | ⟨_ | _⟩ <;> simp [toGo, hpc, hfail, afterRead]

/-- A loop that has not returned waits for a call that may return. -/
theorem exists_step {c : Copy α} (hpc : ¬ c.Returned) : ∃ e c', c.step e = some c' := by
  cases hc : c.pc with
  | reading =>
    refine ⟨.read 0 (some .failed), ?_⟩
    simp [step, hc, ReadAllowed]
  | writing piece ended =>
    refine ⟨.write 0 true, ?_⟩
    simp [step, hc]
  | returned failed => exact absurd ⟨failed, hc⟩ hpc

/-- A loop may pass on the whole stream and its end without a failed call. -/
theorem exists_run_whole (sent : List α) :
    ∃ c, Run step Succeeds (start sent) c ∧ c.pc = .returned false ∧ c.written = sent := by
  cases sent with
  | nil =>
    refine ⟨⟨[], [], [], .returned false⟩, ?_, rfl, rfl⟩
    exact Run.step (.read 0 (some .eof)) .refl (fun h => nomatch h) rfl
  | cons a sent =>
    -- the last bytes and the end come in one read
    let piece := a :: sent
    have hread : (start piece).step (.read piece.length (some .eof)) =
        some ⟨[], piece, [], .writing piece (some .eof)⟩ := by
      simp [step, start, ReadAllowed, piece]
    have hwrite : (⟨[], piece, [], .writing piece (some .eof)⟩ : Copy α).step
        (.write piece.length false) = some ⟨[], piece, piece, .returned false⟩ := by
      simp [step, afterRead]
    refine ⟨_, Run.step _ (Run.step _ .refl ?_ hread) ?_ hwrite, rfl, rfl⟩
    · exact fun h => nomatch h
    · exact ⟨rfl, rfl⟩

end Copy

end GvisorTapVsock.Lts
