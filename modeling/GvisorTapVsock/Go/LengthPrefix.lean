/-
GvisorTapVsock.Go.LengthPrefix — the theory of length-prefixed framing, for
any fixed-width header.

A `Format` is a header codec that is a bijection between the headers of its
width and the sizes below `256 ^ width` and wraps larger sizes around; the
laws are fields, so a format without them cannot be built. `decodeOne?` takes
one whole frame off the front of a byte string, `decodeAll` takes as many as
there are.

Main results, for every format and every byte string:

* `encodeAll_decodeAll` — the decoded frames and the rest spell the input;
* `decodeAll_rest` — the rest does not begin with a whole frame;
* `decodeAll_unique` — that split is the only one;
* `decodeAll_encodeAll` — decoding undoes encoding;
* `decodeAll_take` — a cut input decodes to the frames that end before the cut.
-/
import Mathlib.Algebra.Group.Nat.Defs
import Mathlib.Data.List.Basic
import Mathlib.Data.List.TakeDrop

namespace GvisorTapVsock.Go

/-- A fixed-width header that carries a size. -/
structure Format where
  width : Nat
  width_pos : 0 < width
  encodeSize : Nat → List UInt8
  decodeSize : List UInt8 → Nat
  length_encodeSize : ∀ n, (encodeSize n).length = width
  decode_encode : ∀ n, decodeSize (encodeSize n) = n % 256 ^ width
  encode_decode : ∀ h, h.length = width → encodeSize (decodeSize h) = h
  decode_lt : ∀ h, h.length = width → decodeSize h < 256 ^ width

namespace Format

variable (F : Format)

/-- A frame as it stands on the wire. -/
def encode (f : List UInt8) : List UInt8 := F.encodeSize f.length ++ f

/-- A list of frames on the wire. -/
def encodeAll (fs : List (List UInt8)) : List UInt8 := fs.flatMap F.encode

/-- The frame's length is one the header can carry. -/
def Fits (f : List UInt8) : Prop := f.length < 256 ^ F.width

instance (f : List UInt8) : Decidable (F.Fits f) := inferInstanceAs (Decidable (_ < _))

/-- Take one whole frame off the front. -/
def decodeOne? (s : List UInt8) : Option (List UInt8 × List UInt8) :=
  if F.width + F.decodeSize (s.take F.width) ≤ s.length ∧ F.width ≤ s.length then
    some ((s.drop F.width).take (F.decodeSize (s.take F.width)),
      (s.drop F.width).drop (F.decodeSize (s.take F.width)))
  else none

theorem decodeOne?_length {s f rest : List UInt8} (h : F.decodeOne? s = some (f, rest)) :
    rest.length < s.length := by
  have hpos := F.width_pos
  unfold decodeOne? at h
  split at h
  · rename_i hle
    simp only [Option.some.injEq, Prod.mk.injEq] at h
    rw [← h.2]
    simp only [List.length_drop]
    omega
  · simp at h

/-- Take whole frames off the front for as long as there is one. -/
def decodeAll (s : List UInt8) : List (List UInt8) × List UInt8 :=
  match h : F.decodeOne? s with
  | none => ([], s)
  | some (f, rest) =>
      have := F.decodeOne?_length h
      (f :: (decodeAll rest).1, (decodeAll rest).2)
termination_by s.length

/-! ## One frame -/

@[simp] theorem length_encode (f : List UInt8) : (F.encode f).length = F.width + f.length := by
  simp [encode, F.length_encodeSize]

theorem encode_ne_nil (f : List UInt8) : F.encode f ≠ [] := by
  have hpos := F.width_pos
  intro h
  have hlen := F.length_encode f
  rw [h, List.length_nil] at hlen
  omega

/-- A whole frame in front is taken off as it was put there. -/
theorem decodeOne?_encode_append {f : List UInt8} (hf : F.Fits f) (rest : List UInt8) :
    F.decodeOne? (F.encode f ++ rest) = some (f, rest) := by
  have htake : (F.encode f ++ rest).take F.width = F.encodeSize f.length := by
    rw [encode, List.append_assoc, List.take_left' (F.length_encodeSize _)]
  have hdrop : (F.encode f ++ rest).drop F.width = f ++ rest := by
    rw [encode, List.append_assoc, List.drop_left' (F.length_encodeSize _)]
  have hle : F.width + f.length ≤ (F.encode f ++ rest).length := by
    rw [List.length_append, length_encode]; omega
  unfold decodeOne?
  rw [htake, hdrop, F.decode_encode f.length, Nat.mod_eq_of_lt hf, if_pos ⟨hle, by omega⟩,
    List.take_left' rfl, List.drop_left' rfl]

/-- What is taken off is what the encoder would have put there. -/
theorem decodeOne?_eq_some {s f rest : List UInt8} (h : F.decodeOne? s = some (f, rest)) :
    s = F.encode f ++ rest ∧ F.Fits f := by
  unfold decodeOne? at h
  split at h
  · rename_i hle
    obtain ⟨hlen, hw⟩ := hle
    simp only [Option.some.injEq, Prod.mk.injEq] at h
    obtain ⟨hf, hr⟩ := h
    have hhdr : (s.take F.width).length = F.width := by
      rw [List.length_take]; omega
    have hfl : f.length = F.decodeSize (s.take F.width) := by
      rw [← hf, List.length_take, List.length_drop]; omega
    constructor
    · rw [encode, hfl, F.encode_decode _ hhdr, ← hf, ← hr, List.append_assoc,
        List.take_append_drop, List.take_append_drop]
    · rw [Fits, hfl]
      exact F.decode_lt _ hhdr
  · simp at h

/-- There is nothing to take off exactly when no whole frame stands in front,
not even one that was too long for its header. -/
theorem decodeOne?_eq_none_iff (s : List UInt8) :
    F.decodeOne? s = none ↔ ¬ ∃ f rest, s = F.encode f ++ rest := by
  constructor
  · rintro h ⟨f, rest, rfl⟩
    have htake : (F.encode f ++ rest).take F.width = F.encodeSize f.length := by
      rw [encode, List.append_assoc, List.take_left' (F.length_encodeSize _)]
    have hle : f.length % 256 ^ F.width ≤ f.length := Nat.mod_le _ _
    unfold decodeOne? at h
    rw [htake, F.decode_encode, if_pos (by
      simp only [List.length_append, length_encode]; constructor <;> omega)] at h
    exact absurd h (by simp)
  · intro h
    cases hd : F.decodeOne? s with
    | none => rfl
    | some p =>
      obtain ⟨f, rest⟩ := p
      exact absurd ⟨f, rest, (F.decodeOne?_eq_some hd).1⟩ h

/-! ## The whole input -/

theorem decodeAll_of_none {s : List UInt8} (h : F.decodeOne? s = none) :
    F.decodeAll s = ([], s) := by
  rw [decodeAll]
  split
  · rfl
  · rename_i heq; rw [h] at heq; cases heq

theorem decodeAll_of_some {s f rest : List UInt8} (h : F.decodeOne? s = some (f, rest)) :
    F.decodeAll s = (f :: (F.decodeAll rest).1, (F.decodeAll rest).2) := by
  rw [decodeAll]
  split
  · rename_i heq; rw [h] at heq; cases heq
  · rename_i f' rest' heq
    rw [h, Option.some.injEq, Prod.mk.injEq] at heq
    obtain ⟨rfl, rfl⟩ := heq
    rfl

@[simp] theorem encodeAll_nil : F.encodeAll [] = [] := rfl

@[simp] theorem encodeAll_cons (f : List UInt8) (fs : List (List UInt8)) :
    F.encodeAll (f :: fs) = F.encode f ++ F.encodeAll fs := by
  simp [encodeAll]

/-- **Encoding undoes decoding**, on every input. -/
theorem encodeAll_decodeAll (s : List UInt8) :
    F.encodeAll (F.decodeAll s).1 ++ (F.decodeAll s).2 = s := by
  induction h : s.length using Nat.strongRecOn generalizing s with
  | _ n ih =>
    cases hd : F.decodeOne? s with
    | none => rw [F.decodeAll_of_none hd]; simp
    | some p =>
      obtain ⟨f, rest⟩ := p
      have hlen := F.decodeOne?_length hd
      rw [F.decodeAll_of_some hd, encodeAll_cons, List.append_assoc,
        ih rest.length (h ▸ hlen) rest rfl, (F.decodeOne?_eq_some hd).1]

/-- A stream is determined by what it decodes to. -/
theorem decodeAll_injective : Function.Injective F.decodeAll := by
  intro s s' h
  rw [← F.encodeAll_decodeAll s, h, F.encodeAll_decodeAll s']

/-- Every decoded frame fits the header it came from. -/
theorem fits_of_mem_decodeAll (s : List UInt8) :
    ∀ f ∈ (F.decodeAll s).1, F.Fits f := by
  induction h : s.length using Nat.strongRecOn generalizing s with
  | _ n ih =>
    cases hd : F.decodeOne? s with
    | none => rw [F.decodeAll_of_none hd]; simp
    | some p =>
      obtain ⟨f, rest⟩ := p
      have hlen := F.decodeOne?_length hd
      rw [F.decodeAll_of_some hd]
      intro g hg
      rcases List.mem_cons.mp hg with rfl | hg
      · exact (F.decodeOne?_eq_some hd).2
      · exact ih rest.length (h ▸ hlen) rest rfl g hg

/-- Decoding stops only where no whole frame is left. -/
theorem decodeAll_rest (s : List UInt8) : F.decodeOne? (F.decodeAll s).2 = none := by
  induction h : s.length using Nat.strongRecOn generalizing s with
  | _ n ih =>
    cases hd : F.decodeOne? s with
    | none => rw [F.decodeAll_of_none hd]; exact hd
    | some p =>
      obtain ⟨f, rest⟩ := p
      have hlen := F.decodeOne?_length hd
      rw [F.decodeAll_of_some hd]
      exact ih rest.length (h ▸ hlen) rest rfl

/-- Frames in front of any input are decoded first, in order. -/
theorem decodeAll_encodeAll_append : ∀ (fs : List (List UInt8)) (s : List UInt8),
    (∀ f ∈ fs, F.Fits f) →
    F.decodeAll (F.encodeAll fs ++ s) = (fs ++ (F.decodeAll s).1, (F.decodeAll s).2)
  | [], s, _ => by simp
  | f :: fs, s, hfit => by
      have hf : F.Fits f := hfit f (by simp)
      have ih := decodeAll_encodeAll_append fs s (fun g hg => hfit g (by simp [hg]))
      rw [encodeAll_cons, List.append_assoc,
        F.decodeAll_of_some (F.decodeOne?_encode_append hf _), ih]
      rfl

/-- **Decoding undoes encoding.** -/
theorem decodeAll_encodeAll (fs : List (List UInt8)) (hfit : ∀ f ∈ fs, F.Fits f) :
    F.decodeAll (F.encodeAll fs) = (fs, []) := by
  have hnil : F.decodeOne? [] = none := by
    rw [decodeOne?_eq_none_iff]
    rintro ⟨f, rest, h⟩
    exact F.encode_ne_nil f (List.append_eq_nil_iff.mp h.symm).1
  have h := F.decodeAll_encodeAll_append fs [] hfit
  rw [List.append_nil, F.decodeAll_of_none hnil, List.append_nil] at h
  exact h

/-- The split of an input into whole frames and a rest that begins with none
is unique. -/
theorem decodeAll_unique {s r : List UInt8} {fs : List (List UInt8)}
    (hfit : ∀ f ∈ fs, F.Fits f) (hs : s = F.encodeAll fs ++ r) (hr : F.decodeOne? r = none) :
    F.decodeAll s = (fs, r) := by
  rw [hs, F.decodeAll_encodeAll_append fs r hfit, F.decodeAll_of_none hr, List.append_nil]

/-! ## Cut inputs -/

/-- A proper prefix of a whole frame does not begin with one. -/
theorem decodeOne?_take_encode {f rest : List UInt8} (hf : F.Fits f) {n : Nat}
    (hn : n < (F.encode f).length) : F.decodeOne? ((F.encode f ++ rest).take n) = none := by
  cases hd : F.decodeOne? ((F.encode f ++ rest).take n) with
  | none => rfl
  | some p =>
  obtain ⟨g, tail⟩ := p
  obtain ⟨htake, hg⟩ := F.decodeOne?_eq_some hd
  -- the longer input begins with the same frame, so `g` is `f` and does not fit the cut
  have hlong : F.encode f ++ rest = F.encode g ++ (tail ++ (F.encode f ++ rest).drop n) := by
    rw [← List.append_assoc, ← htake, List.take_append_drop]
  have h1 := F.decodeOne?_encode_append hf rest
  have h2 := F.decodeOne?_encode_append hg (tail ++ (F.encode f ++ rest).drop n)
  rw [hlong, h2, Option.some.injEq, Prod.mk.injEq] at h1
  have hlen := congrArg List.length htake
  rw [h1.1, List.length_take, List.length_append, List.length_append] at hlen
  omega

/-- The frames of an input that end at or before byte `n`: their number `k`
is the largest whose frames fit the cut. -/
theorem decodeAll_take_encodeAll : ∀ (fs : List (List UInt8)) (r : List UInt8) (n : Nat),
    (∀ f ∈ fs, F.Fits f) → F.decodeOne? r = none →
    ∃ k ≤ fs.length, (F.decodeAll ((F.encodeAll fs ++ r).take n)).1 = fs.take k
      ∧ (F.encodeAll (fs.take k)).length ≤ n
      ∧ (k < fs.length → n < (F.encodeAll (fs.take (k + 1))).length)
  | [], r, n, _, hr => by
      have hcut : F.decodeOne? (r.take n) = none := by
        rw [decodeOne?_eq_none_iff] at hr ⊢
        rintro ⟨f, rest, htake⟩
        refine hr ⟨f, rest ++ r.drop n, ?_⟩
        rw [← List.append_assoc, ← htake, List.take_append_drop]
      refine ⟨0, Nat.le_refl _, ?_, ?_, ?_⟩
      · simp [F.decodeAll_of_none hcut]
      · simp
      · simp
  | f :: fs, r, n, hfit, hr => by
      have hf : F.Fits f := hfit f (by simp)
      by_cases hn : (F.encode f).length ≤ n
      · -- the cut lies behind the first frame
        have hsub : ∀ g ∈ fs, F.Fits g := fun g hg => hfit g (by simp [hg])
        obtain ⟨k, hk, hdec, hle, hlt⟩ :=
          decodeAll_take_encodeAll fs r (n - (F.encode f).length) hsub hr
        have hcut : (F.encodeAll (f :: fs) ++ r).take n
            = F.encode f ++ (F.encodeAll fs ++ r).take (n - (F.encode f).length) := by
          rw [encodeAll_cons, List.append_assoc, List.take_append, List.take_of_length_le hn]
        refine ⟨k + 1, by simpa using hk, ?_, ?_, ?_⟩
        · rw [hcut, F.decodeAll_of_some (F.decodeOne?_encode_append hf _), hdec]
          simp
        · simp only [List.take_succ_cons, encodeAll_cons, List.length_append]
          omega
        · intro hk'
          have hk'' : k < fs.length := by simpa using hk'
          have := hlt hk''
          simp only [List.take_succ_cons, encodeAll_cons, List.length_append]
          omega
      · -- the cut lies inside the first frame
        have hnone : F.decodeOne? ((F.encodeAll (f :: fs) ++ r).take n) = none := by
          rw [encodeAll_cons, List.append_assoc]
          exact F.decodeOne?_take_encode hf (by omega)
        refine ⟨0, by simp, ?_, ?_, ?_⟩
        · rw [F.decodeAll_of_none hnone, List.take_zero]
        · simp
        · intro _
          simp only [Nat.zero_add, List.take_succ_cons, List.take_zero, encodeAll_cons,
            encodeAll_nil, List.append_nil]
          omega

/-- **A cut input decodes to the frames wholly contained in the cut.** -/
theorem decodeAll_take (s : List UInt8) (n : Nat) :
    ∃ k ≤ (F.decodeAll s).1.length, (F.decodeAll (s.take n)).1 = (F.decodeAll s).1.take k
      ∧ (F.encodeAll ((F.decodeAll s).1.take k)).length ≤ n
      ∧ (k < (F.decodeAll s).1.length →
          n < (F.encodeAll ((F.decodeAll s).1.take (k + 1))).length) := by
  have h := F.decodeAll_take_encodeAll (F.decodeAll s).1 (F.decodeAll s).2 n
    (F.fits_of_mem_decodeAll s) (F.decodeAll_rest s)
  rwa [F.encodeAll_decodeAll s] at h

end Format

end GvisorTapVsock.Go
