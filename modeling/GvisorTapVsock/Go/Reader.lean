/-
GvisorTapVsock.Go.Reader — a buffered reader over a connection whose bytes
arrive in pieces (`bufio.Reader`), and `io.ReadFull` on it.

`reads` lists what the reads of the underlying connection will return, one
entry a read, however the peer's bytes were split on the way; after the last
one the connection reports its error. `readFull` empties the buffer first and
then issues one underlying read at a time, as the library does.

The lemmas say that the split is invisible: `readFull` depends on the
concatenation `content` alone, and reading ahead (`fill`) keeps it.
-/
import Mathlib.Data.List.Basic
import Mathlib.Logic.Function.Iterate

namespace GvisorTapVsock.Go

/-- A buffered reader: bytes read from the connection and not yet handed out,
and the results of the reads still to come. -/
structure Reader where
  buffered : List UInt8
  reads : List (List UInt8)
  deriving DecidableEq

namespace Reader

/-- `bufio.NewReader(conn)`: nothing has been read yet. -/
def newReader (reads : List (List UInt8)) : Reader := ⟨[], reads⟩

/-- All the bytes the reader can still hand out. -/
def content (r : Reader) : List UInt8 := r.buffered ++ r.reads.flatten

/-- `io.ReadFull` for `n` bytes: `none` when the connection ends before. -/
def readFullFrom (n : Nat) (buffered : List UInt8) :
    List (List UInt8) → Option (List UInt8 × Reader)
  | [] =>
      if n ≤ buffered.length then some (buffered.take n, ⟨buffered.drop n, []⟩) else none
  | c :: reads =>
      if n ≤ buffered.length then some (buffered.take n, ⟨buffered.drop n, c :: reads⟩)
      else
        (readFullFrom (n - buffered.length) c reads).map
          (fun pr => (buffered ++ pr.1, pr.2))

def readFull (r : Reader) (n : Nat) : Option (List UInt8 × Reader) :=
  readFullFrom n r.buffered r.reads

/-- One read of the connection into the buffer. -/
def fill : Reader → Reader
  | ⟨buffered, []⟩ => ⟨buffered, []⟩
  | ⟨buffered, c :: reads⟩ => ⟨buffered ++ c, reads⟩

@[simp] theorem content_newReader (reads : List (List UInt8)) :
    (newReader reads).content = reads.flatten := rfl

theorem readFullFrom_eq_some : ∀ (reads : List (List UInt8)) (n : Nat) (buffered : List UInt8),
    n ≤ (buffered ++ reads.flatten).length →
    ∃ r, readFullFrom n buffered reads = some ((buffered ++ reads.flatten).take n, r)
      ∧ r.content = (buffered ++ reads.flatten).drop n
  | [], n, buffered, h => by
      have hn : n ≤ buffered.length := by simpa using h
      refine ⟨⟨buffered.drop n, []⟩, ?_, ?_⟩ <;> simp [readFullFrom, hn, content]
  | c :: reads, n, buffered, h => by
      by_cases hn : n ≤ buffered.length
      · -- served from the buffer, the connection is not read
        refine ⟨⟨buffered.drop n, c :: reads⟩, ?_, ?_⟩
        · simp [readFullFrom, hn, List.take_append_of_le_length hn]
        · simp [content, List.drop_append_of_le_length hn]
      · have hrest : n - buffered.length ≤ (c ++ reads.flatten).length := by
          simp only [List.flatten_cons, List.length_append] at h ⊢
          omega
        obtain ⟨r, hr, hcontent⟩ :=
          readFullFrom_eq_some reads (n - buffered.length) c hrest
        have hlt : buffered.length ≤ n := by omega
        refine ⟨r, ?_, ?_⟩
        · rw [readFullFrom, if_neg hn, hr]
          simp [List.take_append, List.take_of_length_le hlt]
        · have hdrop : (buffered ++ (c ++ reads.flatten)).drop n
              = (c ++ reads.flatten).drop (n - buffered.length) := by
            rw [List.drop_append, List.drop_of_length_le hlt, List.nil_append]
          rw [hcontent, List.flatten_cons, hdrop]

theorem readFullFrom_eq_none : ∀ (reads : List (List UInt8)) (n : Nat) (buffered : List UInt8),
    (buffered ++ reads.flatten).length < n → readFullFrom n buffered reads = none
  | [], n, buffered, h => by
      have hn : ¬ n ≤ buffered.length := by simp at h; omega
      simp [readFullFrom, hn]
  | c :: reads, n, buffered, h => by
      simp only [List.flatten_cons, List.length_append] at h
      have hn : ¬ n ≤ buffered.length := by omega
      have hrest : (c ++ reads.flatten).length < n - buffered.length := by
        simp only [List.length_append]; omega
      rw [readFullFrom, if_neg hn, readFullFrom_eq_none reads _ c hrest]
      rfl

/-- With enough bytes to come, `ReadFull` returns the next `n` of them. -/
theorem readFull_of_le (r : Reader) {n : Nat} (h : n ≤ r.content.length) :
    ∃ r', r.readFull n = some (r.content.take n, r') ∧ r'.content = r.content.drop n :=
  readFullFrom_eq_some r.reads n r.buffered h

/-- Otherwise it fails. -/
theorem readFull_of_lt (r : Reader) {n : Nat} (h : r.content.length < n) :
    r.readFull n = none :=
  readFullFrom_eq_none r.reads n r.buffered h

/-- What a successful `ReadFull` returned and what it left. -/
theorem readFull_eq_some {r r' : Reader} {n : Nat} {p : List UInt8}
    (h : r.readFull n = some (p, r')) :
    n ≤ r.content.length ∧ p = r.content.take n ∧ r'.content = r.content.drop n := by
  by_cases hn : n ≤ r.content.length
  · obtain ⟨r'', hr, hcontent⟩ := r.readFull_of_le hn
    rw [hr, Option.some.injEq, Prod.mk.injEq] at h
    obtain ⟨rfl, rfl⟩ := h
    exact ⟨hn, rfl, hcontent⟩
  · rw [r.readFull_of_lt (by omega)] at h
    exact absurd h (by simp)

/-- The first read has enough: the rest of it stays in the buffer. -/
theorem readFull_newReader_cons {n : Nat} (hn : 0 < n) {c : List UInt8} (hc : n ≤ c.length)
    (reads : List (List UInt8)) :
    (newReader (c :: reads)).readFull n = some (c.take n, ⟨c.drop n, reads⟩) := by
  have hne : ¬ n ≤ ([] : List UInt8).length := Nat.not_le.mpr hn
  have hfrom : readFullFrom n c reads = some (c.take n, ⟨c.drop n, reads⟩) := by
    cases reads <;> simp [readFullFrom, hc]
  rw [readFull, newReader, readFullFrom, if_neg hne, List.length_nil, Nat.sub_zero, hfrom]
  rfl

@[simp] theorem content_fill (r : Reader) : r.fill.content = r.content := by
  obtain ⟨buffered, reads⟩ := r
  cases reads with
  | nil => rfl
  | cons c reads => simp [fill, content]

/-- Reading ahead loses nothing. -/
@[simp] theorem content_iterate_fill (r : Reader) (k : Nat) :
    (fill^[k] r).content = r.content := by
  induction k generalizing r with
  | zero => rfl
  | succ k ih => rw [Function.iterate_succ_apply, ih, content_fill]

/-! ## What is left of the connection -/

/-- Reading takes whole reads off the connection. -/
theorem readFullFrom_reads {r : Reader} :
    ∀ (reads : List (List UInt8)) (n : Nat) (buffered : List UInt8) (p : List UInt8),
      readFullFrom n buffered reads = some (p, r) → ∃ k, r.reads = reads.drop k
  | [], n, buffered, p, h => by
      rw [readFullFrom] at h
      split at h
      · obtain ⟨-, rfl⟩ := Prod.mk.inj (Option.some.inj h)
        exact ⟨0, rfl⟩
      · simp at h
  | c :: reads, n, buffered, p, h => by
      rw [readFullFrom] at h
      split at h
      · obtain ⟨-, rfl⟩ := Prod.mk.inj (Option.some.inj h)
        exact ⟨0, rfl⟩
      · obtain ⟨⟨p', r'⟩, hfrom, heq⟩ := Option.map_eq_some_iff.mp h
        obtain ⟨-, rfl⟩ := Prod.mk.inj heq
        obtain ⟨k, hk⟩ := readFullFrom_reads reads _ c p' hfrom
        exact ⟨k + 1, hk⟩

@[simp] theorem reads_fill (r : Reader) : r.fill.reads = r.reads.drop 1 := by
  obtain ⟨buffered, reads⟩ := r
  cases reads <;> rfl

theorem reads_iterate_fill (r : Reader) (k : Nat) : (fill^[k] r).reads = r.reads.drop k := by
  induction k generalizing r with
  | zero => rfl
  | succ k ih =>
    rw [Function.iterate_succ_apply, ih, reads_fill, List.drop_drop, Nat.add_comm]

end Reader

end GvisorTapVsock.Go
