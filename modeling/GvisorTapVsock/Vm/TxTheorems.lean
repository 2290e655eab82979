/-
GvisorTapVsock.Vm.TxTheorems — which frames of the host the loop of `tx`
survives.

`txLoop_encode` is one iteration on a frame the switch framed, `txOutcome`
the loop on a list of frames without the bytes, and `txLoop_frames` joins
them for every fragmentation of the stream. The size field is trusted
against a buffer of `mtu + 14` bytes, so the loop panics at the first longer
frame it reaches (`tx_relays_iff`).
-/
import GvisorTapVsock.Tap.FramingTheorems
import GvisorTapVsock.Vm.Tx

namespace GvisorTapVsock.Vm

open GvisorTapVsock.Go
open GvisorTapVsock.Tap

variable (buf : Slice UInt8) (tapFails : Nat → Bool)

/-! ## One iteration -/

theorem txBufBytes_eq (f : List UInt8) :
    txBufBytes .hyperkitProtocol f = leBytes 2 (uint16 f.length) ++ f := by
  simp [txBufBytes, ProtocolImpl.streamProtocol?, StreamProtocol.write_buf]

/-- The size header of a frame it can describe. -/
theorem leNat_header {f : List UInt8} (hf : f.length ≤ 65535) :
    leNat (leBytes 2 (uint16 f.length)) = f.length := by
  rw [leNat_leBytes, uint16]
  omega

/-- One iteration of the loop with a whole frame in front of it. -/
theorem txLoop_encode {f rest : List UInt8} (hpos : 1 ≤ f.length) (hf : f.length ≤ 65535)
    {conn : Reader} (hconn : conn.content = txBufBytes .hyperkitProtocol f ++ rest)
    (written : List (List UInt8)) :
    ∃ conn' : Reader, conn'.content = rest ∧
      txLoop buf tapFails conn written =
        if f.length ≤ buf.cap then
          if tapFails written.length then ⟨written, .writeTap⟩
          else txLoop buf tapFails conn' (written ++ [f])
        else ⟨written, .panicked .sliceBounds⟩ := by
  rw [txBufBytes_eq, List.append_assoc] at hconn
  have hheader : (leBytes 2 (uint16 f.length)).length = 2 := length_leBytes _ _
  obtain ⟨afterSize, hsize, hafter⟩ := conn.readFull_of_le (n := 2) (by simp [hconn])
  rw [hconn, List.take_left' hheader] at hsize
  rw [hconn, List.drop_left' hheader] at hafter
  obtain ⟨conn', hpayload, hrest⟩ := afterSize.readFull_of_le (n := f.length) (by simp [hafter])
  rw [hafter, List.take_left] at hpayload
  rw [hafter, List.drop_left] at hrest
  refine ⟨conn', hrest, ?_⟩
  have hnonempty : ¬ (f.length = 0 ∨ f.length ≠ f.length) := by omega
  rw [txLoop]
  split
  · next hnone => simp [hsize] at hnone
  · next sizeBuf afterSize' hsome =>
    rw [hsize, Option.some.injEq, Prod.mk.injEq] at hsome
    obtain ⟨rfl, rfl⟩ := hsome
    rw [leNat_header hf]
    by_cases hcap : f.length ≤ buf.cap
    · rw [Slice.reslice, dif_pos hcap, if_pos hcap]
      dsimp only
      split
      · next hnone => simp [hpayload] at hnone
      · next payload afterPayload hsome =>
        rw [hpayload, Option.some.injEq, Prod.mk.injEq] at hsome
        obtain ⟨rfl, rfl⟩ := hsome
        rw [if_neg hnonempty]
    · rw [Slice.reslice, dif_neg hcap, if_neg hcap]

/-- Without a byte left the loop reports it. -/
theorem txLoop_nil {conn : Reader} (hconn : conn.content = []) (written : List (List UInt8)) :
    txLoop buf tapFails conn written = ⟨written, .readSize⟩ := by
  have hsize : conn.readFull 2 = none := conn.readFull_of_lt (by simp [hconn])
  rw [txLoop]
  split
  · rfl
  · next hsome => simp [hsize] at hsome

/-! ## The loop on a list of frames -/

/-- The loop on frames instead of bytes, with a buffer of `cap` bytes. -/
def txOutcome (cap : Nat) (tapFails : Nat → Bool) :
    List (List UInt8) → List (List UInt8) → TxRun
  | [], written => ⟨written, .readSize⟩
  | f :: frames, written =>
      if f.length ≤ cap then
        if tapFails written.length then ⟨written, .writeTap⟩
        else txOutcome cap tapFails frames (written ++ [f])
      else ⟨written, .panicked .sliceBounds⟩

/-- **The loop reads what the switch writes**, however the stream is cut. -/
theorem txLoop_frames {frames : List (List UInt8)}
    (hlen : ∀ f ∈ frames, 1 ≤ f.length ∧ f.length ≤ 65535) :
    ∀ conn : Reader, conn.content = txFrames .hyperkitProtocol frames →
      ∀ written, txLoop buf tapFails conn written = txOutcome buf.cap tapFails frames written := by
  induction frames with
  | nil =>
    intro conn hconn written
    exact txLoop_nil buf tapFails hconn written
  | cons f frames ih =>
    intro conn hconn written
    have hf := hlen f List.mem_cons_self
    obtain ⟨conn', hrest, hloop⟩ := txLoop_encode buf tapFails hf.1 hf.2 hconn written
    have ih' := ih (fun g hg => hlen g (List.mem_cons_of_mem f hg)) conn' hrest (written ++ [f])
    rw [hloop, ih', txOutcome]

/-- Every frame was written in order, or the loop reported an error after a
part of them. -/
def TxRun.Relays (run : TxRun) (frames : List (List UInt8)) : Prop :=
  run.reason.Reported ∧
    (run.written = frames ∨ run.reason = .writeTap ∧ run.written <+: frames)

/-- Every frame longer than `cap` comes after a failed write. -/
def OversizeAfterFailure (cap : Nat) (tapFails : Nat → Bool) (first : Nat)
    (frames : List (List UInt8)) : Prop :=
  ∀ i f, frames[i]? = some f → cap < f.length → ∃ j < i, tapFails (first + j) = true

theorem oversizeAfterFailure_cons {cap first : Nat} {f : List UInt8}
    {frames : List (List UInt8)} :
    OversizeAfterFailure cap tapFails first (f :: frames) ↔
      f.length ≤ cap ∧
        (tapFails first = true ∨ OversizeAfterFailure cap tapFails (first + 1) frames) := by
  constructor
  · intro h
    refine ⟨?_, ?_⟩
    · by_contra hcap
      obtain ⟨j, hj, -⟩ := h 0 f rfl (by omega)
      exact absurd hj (Nat.not_lt_zero j)
    · by_cases hfail : tapFails first = true
      · exact Or.inl hfail
      · refine Or.inr fun i g hg hlong => ?_
        obtain ⟨j, hj, hjfail⟩ := h (i + 1) g hg hlong
        -- the failure is not that of the first write
        cases j with
        | zero => exact absurd hjfail hfail
        | succ j => exact ⟨j, by omega, by rwa [Nat.add_assoc, Nat.add_comm 1 j]⟩
  · rintro ⟨hcap, h⟩ i g hg hlong
    cases i with
    | zero =>
      rw [List.getElem?_cons_zero, Option.some.injEq] at hg
      subst hg
      omega
    | succ i =>
      rcases h with hfail | h
      · exact ⟨0, Nat.succ_pos i, hfail⟩
      · obtain ⟨j, hj, hjfail⟩ := h i g hg hlong
        exact ⟨j + 1, by omega, by rwa [Nat.add_assoc, Nat.add_comm 1 j] at hjfail⟩

/-- The loop started after `done` relays the whole list exactly if each frame
it gets to fits the buffer. -/
theorem txOutcome_relays_iff (cap : Nat) (frames done : List (List UInt8)) :
    (txOutcome cap tapFails frames done).Relays (done ++ frames) ↔
      OversizeAfterFailure cap tapFails done.length frames := by
  induction frames generalizing done with
  | nil => simp [txOutcome, TxRun.Relays, TxEnd.Reported, OversizeAfterFailure]
  | cons f frames ih =>
    have ih' := ih (done ++ [f])
    rw [List.append_assoc, List.singleton_append, List.length_append, List.length_singleton] at ih'
    rw [oversizeAfterFailure_cons, txOutcome]
    by_cases hcap : f.length ≤ cap
    · by_cases hfail : tapFails done.length = true
      · simp [hcap, hfail, TxRun.Relays, TxEnd.Reported]
      · simp [hcap, hfail, ih']
    · simp [hcap, TxRun.Relays, TxEnd.Reported]

/-! ## `tx` -/

/-- The whole of `tx` on the frames of the host. -/
theorem tx_eq_outcome (maxAlloc mtu : Nat) {frames : List (List UInt8)}
    (hlen : ∀ f ∈ frames, 1 ≤ f.length ∧ f.length ≤ 65535) {reads : List (List UInt8)}
    (hreads : reads.flatten = txFrames .hyperkitProtocol frames) :
    tx maxAlloc mtu tapFails reads =
      if mtu + 14 < 2 ^ 63 ∧ mtu + 14 ≤ maxAlloc then txOutcome (mtu + 14) tapFails frames []
      else ⟨[], .makeslice⟩ := by
  by_cases hmake : mtu + 14 < 2 ^ 63 ∧ mtu + 14 ≤ maxAlloc
  · have hcap : (Slice.exact (List.replicate (mtu + 14) (0 : UInt8))).cap = mtu + 14 := by
      simp [Slice.cap, Slice.exact]
    have hloop := txLoop_frames (Slice.exact (List.replicate (mtu + 14) 0)) tapFails hlen
      (Reader.newReader reads) hreads []
    rw [hcap] at hloop
    rw [tx, makeBuf, ethernetMinimumSize, if_pos hmake, if_pos hmake]
    exact hloop
  · rw [tx, makeBuf, ethernetMinimumSize, if_neg hmake, if_neg hmake]

/-- **gvforwarder relays the frames of the host exactly if its buffer can be
allocated and no frame it gets to is longer than its own MTU and a header**,
for every flag value, every limit of the runtime, every fragmentation of the
stream and every outcome of the tap device's writes. -/
theorem tx_relays_iff (maxAlloc mtu : Nat) (tapFails : Nat → Bool) (frames : List (List UInt8))
    (hlen : ∀ f ∈ frames, 1 ≤ f.length ∧ f.length ≤ 65535) (reads : List (List UInt8))
    (hreads : reads.flatten = txFrames .hyperkitProtocol frames) :
    (tx maxAlloc mtu tapFails reads).Relays frames ↔
      (mtu + 14 < 2 ^ 63 ∧ mtu + 14 ≤ maxAlloc) ∧
        ∀ i f, frames[i]? = some f → mtu + 14 < f.length → ∃ j < i, tapFails j = true := by
  rw [tx_eq_outcome tapFails maxAlloc mtu hlen hreads]
  by_cases hmake : mtu + 14 < 2 ^ 63 ∧ mtu + 14 ≤ maxAlloc
  · have hiff := txOutcome_relays_iff tapFails (mtu + 14) frames []
    rw [List.nil_append] at hiff
    rw [if_pos hmake, hiff]
    simp only [OversizeAfterFailure, List.length_nil, Nat.zero_add, hmake, true_and]
  · rw [if_neg hmake]
    simp only [TxRun.Relays, TxEnd.Reported, hmake, false_and]

/-- Two frames within the default MTU are relayed, however they arrive. -/
theorem tx_relays_default :
    (tx amd64MaxAlloc 4000 (fun _ => false) [[3, 0, 1], [2, 3, 1], [0, 9]]).Relays
      [[1, 2, 3], [9]] :=
  (tx_relays_iff amd64MaxAlloc 4000 (fun _ => false) [[1, 2, 3], [9]] (by decide)
    [[3, 0, 1], [2, 3, 1], [0, 9]] (by decide)).mpr
    ⟨by decide, by
      intro i f hf hlong
      have hmem : f ∈ [[1, 2, 3], [9]] := List.mem_of_getElem? hf
      have hshort : ∀ g ∈ [[1, 2, 3], [(9 : UInt8)]], g.length ≤ 3 := by decide
      have := hshort f hmem
      omega⟩

/-- One frame of 4015 bytes, from a host with a larger MTU, panics a
gvforwarder with the default `-mtu 4000`. -/
theorem tx_panics_beyond_mtu :
    ¬ ∀ (mtu : Nat) (tapFails : Nat → Bool) (frames : List (List UInt8)),
      (∀ f ∈ frames, 1 ≤ f.length ∧ f.length ≤ 65535) →
      ∀ reads : List (List UInt8), reads.flatten = txFrames .hyperkitProtocol frames →
        (tx amd64MaxAlloc mtu tapFails reads).Relays frames := by
  intro hall
  obtain ⟨f, hf⟩ : ∃ f : List UInt8, f.length = 4015 :=
    ⟨List.replicate 4015 0, List.length_replicate⟩
  have hlen : ∀ g ∈ [f], 1 ≤ g.length ∧ g.length ≤ 65535 := by
    simp [hf]
  have hreads : [txFrames .hyperkitProtocol [f]].flatten = txFrames .hyperkitProtocol [f] := by
    simp
  have h := hall 4000 (fun _ => false) [f] hlen _ hreads
  rw [tx_eq_outcome (fun _ => false) amd64MaxAlloc 4000 hlen hreads, if_pos (by decide), txOutcome,
    if_neg (by simp [hf])] at h
  exact h.1

end GvisorTapVsock.Vm
