/-
GvisorTapVsock.Tap.CounterTheorems — what `Sent` and `Received` of the switch
count.

`rxBuf` adds the length of its frame as the last thing it does, `txPkt` adds it
after EACH write that did not fail. So `Received` is the length of the frames
whose rx loop is back at its read (`completed_iff`), and `Sent` counts a frame
once for every connection that took it whole, wherever a broadcast stopped
(`counters_exact`).

Both are read off accounts (`Lts.Accounts`): the counts of `rxBuf` have an
account for every frame, the whole writes one for every connection and frame,
and no account is posted to twice. A step keeps the balance of what is written,
counted and still to be counted (`Moves.uncounted`), and one goroutine at most
has something to count, the one under `connLock`. A frame that was written and
whose `txPkt` has not returned is the frame of that goroutine (`unreturned`).
-/
import GvisorTapVsock.Tap.WriteTheorems
import GvisorTapVsock.Lts.Accounts
import Mathlib.Algebra.BigOperators.Group.Finset.Sigma

namespace GvisorTapVsock.Tap

open GvisorTapVsock.Go GvisorTapVsock.Lts

variable {gateway : LinkAddress} {s : State}

/-! ## What should be counted -/

/-- The length of the frame with a key. -/
def frameLength (log : List Action) (k : FrameKey) : Nat := ((frameAt log k).getD []).length

/-- A frame was received, and no goroutine is in `rxBuf` with it any more: its rx
loop is back at its read. -/
def State.Completed (s : State) (k : FrameKey) : Prop :=
  (∃ id f, s.log[k]? = some (.recv id f)) ∧ ¬ s.Handling k

open Classical in
/-- The bytes of the received frames the rx loops are through with. -/
noncomputable def receivedBytes (s : State) : Nat :=
  ∑ k ∈ Finset.range s.log.length with s.Completed k, frameLength s.log k

/-- The bytes of a frame, if it was written whole on a connection. -/
def takenOn (log : List Action) (d : ConnId) (k : FrameKey) : Nat :=
  if (d, WriteResult.ok) ∈ (trace log k).writes then frameLength log k else 0

/-- The bytes of the frames whose `txPkt` has returned, for every connection
there ever was and every frame it took whole. -/
def sentBytes (log : List Action) : Nat :=
  ∑ d ∈ (connectIds log).toFinset,
    ∑ k ∈ Finset.range log.length with (trace log k).txReturns ≠ 0, takenOn log d k

/-- The bytes of one frame, for every connection that took it whole. -/
def bytesTaken (log : List Action) (k : FrameKey) : Nat :=
  ∑ d ∈ (connectIds log).toFinset, takenOn log d k

/-- What a call of `txPkt` has written and not counted yet. -/
def TxPc.uncounted (size : Nat) : TxPc → Nat
  | .sentRange _ _ | .sentUnicast => size
  | _ => 0

theorem frameLength_append {log : List Action} {k : FrameKey} (a : Action)
    (h : k < log.length) : frameLength (log ++ [a]) k = frameLength log k := by
  rw [frameLength, frameAt, List.getElem?_append_left h, ← frameAt, ← frameLength]

theorem frameLength_of_frameAt {log : List Action} {k : FrameKey} {f : List UInt8}
    (h : frameAt log k = some f) : frameLength log k = f.length := by
  rw [frameLength, h, Option.getD_some]

/-- The log is about frames that came in before. -/
theorem key_lt (hreach : Reachable gateway s) :
    ∀ a ∈ s.log, ∀ k, a.key? = some k → k < s.log.length := by
  induction hreach using Reachable.invariant with
  | init => exact nofun
  | step s t pc a sw hreach ih hs =>
    intro b hb k hk
    show k < (s.log ++ [a]).length
    rw [List.length_append, List.length_singleton]
    rcases List.mem_append.mp hb with hb | hb
    · exact Nat.lt_succ_of_lt (ih b hb k hk)
    · obtain rfl := List.mem_singleton.mp hb
      obtain ⟨b', hmem⟩ := hs.moves.key_mem hk
      exact Nat.lt_succ_of_lt (frames_lt hreach hmem)

/-! ## Received -/

/-- A count of `rxBuf` is posted to its frame. -/
def Action.countsReceived : Action → Option (FrameKey × Nat)
  | .received key size => some (key, size)
  | _ => none

theorem Switch.received_apply {sw sw' : Switch} {t : Goroutine} {a : Action}
    (h : sw.apply t a = some sw') :
    sw'.received = sw.received + UInt64.ofNat (a.countsReceived.elim 0 Prod.snd) := by
  cases a with
  | received key size => exact (Option.some.inj h) ▸ rfl
  | lockWrite | lockConn | lockCam | rlockCam =>
    obtain ⟨_, -, rfl⟩ := Option.map_eq_some_iff.mp h
    simp [Action.countsReceived]
  | _ =>
    obtain rfl := Option.some.inj h
    simp [Action.countsReceived, Switch.connect, Switch.learn, Switch.disconnect]

theorem received_eq_total (hreach : Reachable gateway s) :
    s.sw.received = UInt64.ofNat (total Action.countsReceived s.log) := by
  induction hreach using Reachable.invariant with
  | init => rfl
  | step s t pc a sw hreach ih hs =>
    show sw.received = UInt64.ofNat (total Action.countsReceived (s.log ++ [a]))
    rw [Switch.received_apply hs.applies, ih, total_concat, UInt64.ofNat_add]

/-- `rxBuf` counts the length of its buffer. -/
theorem Moves.received_eq {pc pc' : Pc} {key : FrameKey} {size : Nat}
    (h : Moves gateway s pc pc' (.received key size)) :
    ∃ r, pc = .count r ∧ key = r.key ∧ size = r.buf.len := by
  cases h with
  | tx moves => cases moves
  | count => exact ⟨_, rfl, rfl, rfl⟩

/-- What is counted is the length of a frame of the log, for the first time. -/
theorem Steps.received_eq (hreach : Reachable gateway s) {t : Goroutine} {pc : Pc} {sw : Switch}
    {key : FrameKey} {size : Nat} (hs : Steps gateway s t pc (.received key size) sw) :
    key < s.log.length ∧ size = frameLength s.log key ∧ (trace s.log key).rxReturns = 0 := by
  obtain ⟨r, hpc, rfl, rfl⟩ := hs.moves.received_eq
  have hrx : (s.pc t).rx? = some r := by rw [hpc]; rfl
  refine ⟨frames_lt hreach (Pc.origin_mem_frames hrx), ?_, ?_⟩
  · rw [frameLength_of_frameAt (frameAt_rx hreach hrx), Slice.length_toList]
  · have hp := progress hreach t
    rw [hpc] at hp
    obtain ⟨up, -, -, -, hnone⟩ := hp
    exact hnone

theorem FrameTrace.rxReturns_add_of_ne {k : FrameKey} {tr : FrameTrace} {a : Action}
    (h : ∀ size, a ≠ .received k size) : (tr.add k a).rxReturns = tr.rxReturns := by
  by_cases hkey : a.key? = some k
  · cases a with
    | received key size =>
      obtain rfl := Option.some.inj hkey
      exact absurd rfl (h size)
    | lookup key | write key | txReturn key | deliver key =>
      obtain rfl := Option.some.inj hkey
      simp
    | _ => exact absurd hkey nofun
  · rw [add_of_ne hkey]

theorem Action.posting_countsReceived {k : FrameKey} {a : Action}
    (h : ∀ size, a ≠ .received k size) : posting Action.countsReceived a k = 0 := by
  cases a with
  | received key size => exact if_neg fun hkey => h size (by rw [← hkey])
  | _ => rfl

/-- The account of a frame: its length, once `rxBuf` has returned. -/
theorem balance_received (hreach : Reachable gateway s) :
    ∀ k, balance Action.countsReceived k s.log =
      if (trace s.log k).rxReturns ≠ 0 then frameLength s.log k else 0 := by
  induction hreach using Reachable.invariant with
  | init =>
    intro k
    rfl
  | step s t pc a sw hreach ih hs =>
    intro k
    show balance Action.countsReceived k (s.log ++ [a]) =
      if (trace (s.log ++ [a]) k).rxReturns ≠ 0 then frameLength (s.log ++ [a]) k else 0
    rw [balance_concat, ih k, trace_append]
    by_cases ha : ∃ size, a = .received k size
    · obtain ⟨size, rfl⟩ := ha
      obtain ⟨hlt, hsize, hnone⟩ := hs.received_eq hreach
      rw [frameLength_append _ hlt, ← hsize]
      simp [hnone, posting, Action.countsReceived]
    · have ha : ∀ size, a ≠ .received k size := fun size h => ha ⟨size, h⟩
      rw [Action.posting_countsReceived ha, FrameTrace.rxReturns_add_of_ne ha, Nat.add_zero]
      rcases Nat.lt_or_ge k s.log.length with hlt | hge
      · rw [frameLength_append a hlt]
      · rw [trace_fresh hreach k hge]
        rfl

/-- In `rxBuf` it has not returned. -/
theorem rxReturns_of_rx (hreach : Reachable gateway s) {t : Goroutine} {r : RxCall}
    (h : (s.pc t).rx? = some r) : (trace s.log r.key).rxReturns = 0 := by
  have hp := progress hreach t
  cases hpc : s.pc t with
  | learnLock r' | learn r' | forward r' =>
    rw [hpc] at h hp
    obtain rfl := Option.some.inj h
    rw [Progress] at hp
    rw [hp]
    rfl
  | handUp r' =>
    rw [hpc] at h hp
    obtain rfl := Option.some.inj h
    exact hp.2.2
  | inGateway r' | count r' =>
    rw [hpc] at h hp
    obtain rfl := Option.some.inj h
    obtain ⟨up, -, hdel⟩ := hp
    exact hdel.2.2
  | tx x p =>
    rw [hpc] at h hp
    cases x with
    | rxBuf r' =>
      obtain rfl := Option.some.inj h
      exact (hp.2.settled s.sw.conns.keys_nodup).2.2
    | gateway r' key pkt =>
      obtain rfl := Option.some.inj h
      obtain ⟨⟨up, -, hdel⟩, -⟩ := hp
      exact hdel.2.2
    | stack key pkt => cases h
  | _ =>
    rw [hpc] at h
    cases h

/-- Only a received frame is counted as one. -/
theorem recv_of_rxReturns (hreach : Reachable gateway s) :
    ∀ k, (trace s.log k).rxReturns ≠ 0 → ∃ id f, s.log[k]? = some (.recv id f) := by
  induction hreach using Reachable.invariant with
  | init => exact fun k h => absurd rfl h
  | step s t pc a sw hreach ih hs =>
    intro k hret
    show ∃ id f, (s.log ++ [a])[k]? = some (.recv id f)
    have hret : (trace (s.log ++ [a]) k).rxReturns ≠ 0 := hret
    have hrecv : ∃ id f, s.log[k]? = some (.recv id f) := by
      by_cases ha : ∃ size, a = .received k size
      · obtain ⟨size, rfl⟩ := ha
        obtain ⟨r, hpc, rfl, -⟩ := hs.moves.received_eq
        have hrx : (s.pc t).rx? = some r := by rw [hpc]; rfl
        exact ⟨_, _, frames_log hreach t _ _ (Pc.origin_mem_frames hrx)⟩
      · rw [trace_append, FrameTrace.rxReturns_add_of_ne fun size h => ha ⟨size, h⟩] at hret
        exact ih k hret
    obtain ⟨id, f, hk⟩ := hrecv
    exact ⟨id, f, by rwa [List.getElem?_append_left (List.getElem?_eq_some_iff.mp hk).1]⟩

/-- The rx loop is back at its read exactly when `rxBuf` has counted. -/
theorem completed_iff (hreach : Reachable gateway s) (k : FrameKey) :
    s.Completed k ↔ (trace s.log k).rxReturns ≠ 0 := by
  constructor
  · rintro ⟨⟨id, f, hk⟩, hnot⟩
    refine (underWay hreach k _ hk).resolve_left ?_
    rintro ⟨t, hframes⟩
    exact hnot (State.handling_of_frames hframes)
  · intro hret
    refine ⟨recv_of_rxReturns hreach k hret, ?_⟩
    rintro ⟨t, r, hrx, rfl⟩
    exact hret (rxReturns_of_rx hreach hrx)

theorem received_eq (hreach : Reachable gateway s) :
    s.sw.received = UInt64.ofNat (receivedBytes s) := by
  have haccounts : ∀ a ∈ s.log, ∀ k n, a.countsReceived = some (k, n) →
      k ∈ Finset.range s.log.length := by
    intro a ha k n hpost
    cases a with
    | received key size =>
      obtain ⟨rfl, rfl⟩ := Prod.mk.inj (Option.some.inj hpost)
      exact Finset.mem_range.mpr (key_lt hreach _ ha key rfl)
    | _ => exact absurd hpost nofun
  rw [received_eq_total hreach, total_eq_sum haccounts, receivedBytes, Finset.sum_filter]
  refine congrArg UInt64.ofNat (Finset.sum_congr rfl fun k _ => ?_)
  rw [balance_received hreach k]
  classical exact if_congr (completed_iff hreach k).symm rfl rfl

/-! ## Sent -/

/-- A whole write is posted to its connection and frame. -/
def Action.wholeWrite : Action → Option ((ConnId × FrameKey) × Nat)
  | .write key d _ pkt .ok => some ((d, key), pkt.length)
  | _ => none

/-- What an action adds to `Sent`. -/
def Action.addsSent : Action → Nat
  | .addSent size => size
  | _ => 0

/-- What a goroutine has written and not counted yet. -/
def Pc.uncounted : Pc → Nat
  | .tx x p => p.uncounted x.pkt.length
  | _ => 0

theorem Switch.sent_apply {sw sw' : Switch} {t : Goroutine} {a : Action}
    (h : sw.apply t a = some sw') : sw'.sent = sw.sent + UInt64.ofNat a.addsSent := by
  cases a with
  | addSent size => exact (Option.some.inj h) ▸ rfl
  | lockWrite | lockConn | lockCam | rlockCam =>
    obtain ⟨_, -, rfl⟩ := Option.map_eq_some_iff.mp h
    simp [Action.addsSent]
  | _ =>
    obtain rfl := Option.some.inj h
    simp [Action.addsSent, Switch.connect, Switch.learn, Switch.disconnect]

/-- What was to be counted and what is written is counted, or still to be
counted. -/
theorem Moves.uncounted {pc pc' : Pc} {a : Action} (h : Moves gateway s pc pc' a) :
    pc.uncounted + a.wholeWrite.elim 0 Prod.snd = pc'.uncounted + a.addsSent := by
  cases h with
  | @tx x _ _ _ moves =>
    cases moves with
    | unlock => cases x <;> rfl
    | rangeWrite | unicastWrite => exact Nat.zero_add _
    | sentRange | sentUnicast => exact (Nat.zero_add _).symm
    | _ => rfl
  | _ => rfl

theorem Pc.holdsConn_of_uncounted {pc : Pc} (h : pc.uncounted ≠ 0) : pc.holdsConn = true := by
  cases pc with
  | tx x p => cases p <;> first | rfl | exact absurd rfl h
  | _ => exact absurd rfl h

theorem sent_step {sent : UInt64} {written uncounted uncounted' new counted : Nat}
    (h : sent + UInt64.ofNat uncounted = UInt64.ofNat written)
    (hrow : uncounted + new = uncounted' + counted) :
    sent + UInt64.ofNat counted + UInt64.ofNat uncounted' = UInt64.ofNat (written + new) :=
  calc sent + UInt64.ofNat counted + UInt64.ofNat uncounted'
      = sent + UInt64.ofNat (uncounted + new) := by
        rw [hrow, Nat.add_comm, UInt64.ofNat_add, UInt64.add_assoc]
    _ = UInt64.ofNat (written + new) := by
        rw [UInt64.ofNat_add, ← UInt64.add_assoc, h, UInt64.ofNat_add]

/-- `Sent` and what one goroutine has yet to count are the whole writes, if no
other goroutine has anything to count. -/
theorem sent_eq_total (hreach : Reachable gateway s) :
    ∀ t, (∀ t', t' ≠ t → (s.pc t').uncounted = 0) →
      s.sw.sent + UInt64.ofNat (s.pc t).uncounted =
        UInt64.ofNat (total Action.wholeWrite s.log) := by
  induction hreach using Reachable.invariant with
  | init =>
    intro t _
    rfl
  | step s t pc a sw hreach ih hs =>
    intro t' hothers
    have hrow := hs.moves.uncounted
    show sw.sent + UInt64.ofNat (Function.update s.pc t pc t').uncounted =
      UInt64.ofNat (total Action.wholeWrite (s.log ++ [a]))
    rw [Switch.sent_apply hs.applies, total_concat]
    by_cases ht : t' = t
    · subst ht
      have hbefore := ih t' fun t'' ht'' => by
        simpa only [Function.update_of_ne ht''] using hothers t'' ht''
      rw [Function.update_self]
      exact sent_step hbefore hrow
    · have hmoved : pc.uncounted = 0 := by
        simpa only [Function.update_self] using hothers t (Ne.symm ht)
      have hkept : ∀ t'', t'' ≠ t → t'' ≠ t' → (s.pc t'').uncounted = 0 := by
        intro t'' hne hne'
        simpa only [Function.update_of_ne hne] using hothers t'' hne'
      rw [Function.update_of_ne ht]
      by_cases hzero : (s.pc t).uncounted = 0
      · have hbefore := ih t' fun t'' hne => by
          by_cases h : t'' = t
          · rw [h, hzero]
          · exact hkept t'' h hne
        exact sent_step hbefore (by omega)
      · -- the goroutine that counts is the one under `connLock`
        have hother : (s.pc t').uncounted = 0 := by
          by_contra hne
          exact ht (eq_of_holdsConn hreach (Pc.holdsConn_of_uncounted hne)
            (Pc.holdsConn_of_uncounted hzero))
        have hbefore := ih t fun t'' hne => by
          by_cases h : t'' = t'
          · rw [h, hother]
          · exact hkept t'' hne h
        exact sent_step hbefore (by omega)

/-! ## The account of a connection and a frame -/

theorem Action.posting_wholeWrite {d : ConnId} {k : FrameKey} {a : Action}
    (h : ∀ impl pkt, a ≠ .write k d impl pkt .ok) : posting Action.wholeWrite a (d, k) = 0 := by
  cases a with
  | write key id impl pkt res =>
    cases res with
    | ok =>
      refine if_neg fun hkey => h impl pkt ?_
      obtain ⟨rfl, rfl⟩ := Prod.mk.inj hkey
      rfl
    | err n => rfl
  | _ => rfl

theorem mem_writes_append {d : ConnId} {k : FrameKey} {a : Action} {log : List Action}
    (h : ∀ impl pkt, a ≠ .write k d impl pkt .ok) :
    (d, WriteResult.ok) ∈ (trace (log ++ [a]) k).writes ↔
      (d, WriteResult.ok) ∈ (trace log k).writes := by
  constructor
  · intro hmem
    obtain ⟨impl, pkt, hlog⟩ := mem_log_of_mem_writes hmem
    rcases List.mem_append.mp hlog with hlog | hlog
    · exact mem_writes_of_mem_log hlog
    · exact absurd (List.mem_singleton.mp hlog).symm (h impl pkt)
  · intro hmem
    rw [trace_append]
    exact (FrameTrace.writes_add k _ a).subset hmem

theorem lt_of_mem_writes (hreach : Reachable gateway s) {d : ConnId} {k : FrameKey}
    {res : WriteResult} (h : (d, res) ∈ (trace s.log k).writes) : k < s.log.length := by
  by_contra hge
  rw [trace_fresh hreach k (Nat.le_of_not_lt hge)] at h
  exact absurd h nofun

/-- A connection took a frame once, or not at all. -/
theorem balance_wholeWrite (hreach : Reachable gateway s) :
    ∀ d k, balance Action.wholeWrite (d, k) s.log = takenOn s.log d k := by
  induction hreach using Reachable.invariant with
  | init =>
    intro d k
    rfl
  | step s t pc a sw hreach ih hs =>
    intro d k
    show balance Action.wholeWrite (d, k) (s.log ++ [a]) = takenOn (s.log ++ [a]) d k
    rw [balance_concat, ih d k]
    by_cases ha : ∃ impl pkt, a = .write k d impl pkt .ok
    · obtain ⟨impl, pkt, rfl⟩ := ha
      have hframe := frameAt_append (.write k d impl pkt .ok) (hs.write_frame hreach)
      rw [takenOn, takenOn, if_neg (hs.write_first hreach .ok), trace_append,
        FrameTrace.add_write_self, frameLength_of_frameAt hframe]
      simp [posting, Action.wholeWrite]
    · have ha : ∀ impl pkt, a ≠ .write k d impl pkt .ok := fun impl pkt h => ha ⟨impl, pkt, h⟩
      rw [Action.posting_wholeWrite ha, takenOn, takenOn, Nat.add_zero]
      by_cases hmem : (d, WriteResult.ok) ∈ (trace s.log k).writes
      · rw [if_pos hmem, if_pos ((mem_writes_append ha).mpr hmem),
          frameLength_append a (lt_of_mem_writes hreach hmem)]
      · rw [if_neg hmem, if_neg fun h => hmem ((mem_writes_append ha).mp h)]

/-- A write goes to a connection that was attached. -/
theorem connect_of_write (hreach : Reachable gateway s) :
    ∀ key d impl pkt res, .write key d impl pkt res ∈ s.log → .connect d impl ∈ s.log := by
  induction hreach using Reachable.invariant with
  | init => exact nofun
  | step s t pc a sw hreach ih hs =>
    intro key d impl pkt res h
    rcases List.mem_append.mp h with h | h
    · exact List.mem_append_left _ (ih key d impl pkt res h)
    · obtain rfl := List.mem_singleton.mp h
      exact List.mem_append_left _ (connect_of_conns hreach d impl hs.moves.write_eq.1)

theorem total_wholeWrite (hreach : Reachable gateway s) :
    total Action.wholeWrite s.log =
      ∑ d ∈ (connectIds s.log).toFinset, ∑ k ∈ Finset.range s.log.length, takenOn s.log d k := by
  have haccounts : ∀ a ∈ s.log, ∀ i n, a.wholeWrite = some (i, n) →
      i ∈ (connectIds s.log).toFinset ×ˢ Finset.range s.log.length := by
    intro a ha i n hpost
    cases a with
    | write key d impl pkt res =>
      cases res with
      | ok =>
        obtain ⟨rfl, rfl⟩ := Prod.mk.inj (Option.some.inj hpost)
        have hconnect := connect_of_write hreach key d impl pkt .ok ha
        exact Finset.mem_product.mpr
          ⟨List.mem_toFinset.mpr (mem_connectIds.mpr ⟨impl, hconnect⟩),
            Finset.mem_range.mpr (key_lt hreach _ ha key rfl)⟩
      | err n => exact absurd hpost nofun
    | _ => exact absurd hpost nofun
  rw [total_eq_sum haccounts, Finset.sum_product]
  exact Finset.sum_congr rfl fun d _ => Finset.sum_congr rfl fun k _ =>
    balance_wholeWrite hreach d k

/-! ## Frames under way -/

/-- A goroutine is in `txPkt`, past its locks. -/
def State.Sending (s : State) (t : Goroutine) (x : Tx) (p : TxPc) : Prop :=
  s.pc t = .tx x p ∧ p.holdsConn = true

theorem State.Sending.holdsConn {t : Goroutine} {x : Tx} {p : TxPc} (h : s.Sending t x p) :
    (s.pc t).holdsConn = true := by
  rw [h.1]
  exact h.2

/-- What is not counted yet is of a frame that is being sent. -/
theorem State.sending_of_uncounted {t : Goroutine} (h : (s.pc t).uncounted ≠ 0) :
    ∃ x p, s.Sending t x p := by
  have hholds := Pc.holdsConn_of_uncounted h
  cases hpc : s.pc t with
  | tx x p =>
    rw [hpc] at hholds
    exact ⟨x, p, hpc, hholds⟩
  | _ =>
    rw [hpc] at h
    exact absurd rfl h

/-- Past its locks `txPkt` goes on, or returns. -/
theorem TxMoves.sending {sw : Switch} {x : Tx} {p : TxPc} {pc' : Pc} {a : Action}
    (h : TxMoves sw x p pc' a) (hp : p.holdsConn = true) :
    (∃ p', pc' = .tx x p' ∧ p'.holdsConn = true) ∨ a = .txReturn x.key := by
  cases h with
  | writeLock | connLock => simp [TxPc.holdsConn] at hp
  | unlock => exact Or.inr rfl
  | _ => exact Or.inl ⟨_, rfl, rfl⟩

theorem Moves.write_sending {pc pc' : Pc} {key : FrameKey} {d : ConnId} {impl : ProtocolImpl}
    {pkt : List UInt8} {res : WriteResult}
    (h : Moves gateway s pc pc' (.write key d impl pkt res)) :
    ∃ x p, pc' = .tx x p ∧ p.holdsConn = true ∧ x.key = key := by
  cases h with
  | tx moves => cases moves <;> exact ⟨_, _, rfl, rfl, rfl⟩

/-- A frame that was written and whose `txPkt` has not returned is being sent. -/
theorem unreturned (hreach : Reachable gateway s) :
    ∀ k d res, (d, res) ∈ (trace s.log k).writes →
      (trace s.log k).txReturns ≠ 0 ∨ ∃ t x p, s.Sending t x p ∧ x.key = k := by
  induction hreach using Reachable.invariant with
  | init => exact nofun
  | step s t pc a sw hreach ih hs =>
    intro k d res h
    show (trace (s.log ++ [a]) k).txReturns ≠ 0 ∨ ∃ t' x p,
      (Function.update s.pc t pc t' = .tx x p ∧ p.holdsConn = true) ∧ x.key = k
    obtain ⟨impl, pkt, hlog⟩ := mem_log_of_mem_writes h
    rcases List.mem_append.mp hlog with hlog | hlog
    · rcases ih k d res (mem_writes_of_mem_log hlog) with hret | ⟨t', x, p, ⟨hpc, hp⟩, hkey⟩
      · refine Or.inl fun hzero => hret ?_
        rw [trace_append] at hzero
        exact Nat.le_zero.mp (hzero ▸ (FrameTrace.returns_le_add k _ a).1)
      · by_cases ht : t' = t
        · subst ht
          have hmoves := hs.moves
          rw [hpc] at hmoves
          cases hmoves with
          | tx moves =>
            rcases moves.sending hp with ⟨p', rfl, hp'⟩ | rfl
            · exact Or.inr ⟨t', x, p', ⟨Function.update_self .., hp'⟩, hkey⟩
            · refine Or.inl ?_
              rw [trace_append, ← hkey, FrameTrace.add_txReturn_self]
              exact Nat.succ_ne_zero _
        · exact Or.inr ⟨t', x, p, ⟨(Function.update_of_ne ht ..).trans hpc, hp⟩, hkey⟩
    · obtain rfl := List.mem_singleton.mp hlog
      obtain ⟨x, p, rfl, hp, hkey⟩ := hs.moves.write_sending
      exact Or.inr ⟨t, x, p, ⟨Function.update_self .., hp⟩, hkey⟩

/-- In `txPkt` it has not returned. -/
theorem txReturns_of_tx (hreach : Reachable gateway s) {t : Goroutine} {x : Tx} {p : TxPc}
    (hpc : s.pc t = .tx x p) : (trace s.log x.key).txReturns = 0 := by
  have hp := txProgress hreach hpc
  cases p with
  | writeLock | connLock | parse =>
    rw [TxProgress] at hp
    rw [hp]
    rfl
  | camRLock dst src | lookup dst src =>
    rw [hp.2]
    rfl
  | range src rest | sentRange src rest =>
    obtain ⟨hit, visited, addr, -, -, -, htr⟩ := hp
    rw [htr]
  | unicast id =>
    obtain ⟨dst, src, -, -, htr⟩ := hp
    rw [htr]
  | camLock id | disconnect id =>
    obtain ⟨hit, writes, -, -, htr⟩ := hp
    rw [htr]
  | sentUnicast | unlock =>
    obtain ⟨conns, hit, writes, -, -, htr⟩ := hp
    rw [htr]

/-- A frame that is not being sent and whose `txPkt` has not returned was not
written. -/
theorem takenOn_eq_zero (hreach : Reachable gateway s) {d : ConnId} {k : FrameKey}
    (hret : (trace s.log k).txReturns = 0) (hnot : ∀ t x p, s.Sending t x p → x.key ≠ k) :
    takenOn s.log d k = 0 := by
  refine if_neg fun hmem => ?_
  rcases unreturned hreach k d .ok hmem with hne | ⟨t, x, p, hsend, hkey⟩
  · exact hne hret
  · exact hnot t x p hsend hkey

/-- The whole writes are those of the frames that were sent. -/
theorem total_of_idle (hreach : Reachable gateway s) (hidle : ∀ t x p, ¬ s.Sending t x p) :
    total Action.wholeWrite s.log = sentBytes s.log := by
  rw [total_wholeWrite hreach, sentBytes]
  refine Finset.sum_congr rfl fun d _ => (Finset.sum_filter_of_ne ?_).symm
  intro k _ hne hret
  exact hne (takenOn_eq_zero hreach hret fun t x p h => absurd h (hidle t x p))

/-- The whole writes are those of the frames that were sent and of the one that
is being sent. -/
theorem total_of_sending (hreach : Reachable gateway s) {t : Goroutine} {x : Tx} {p : TxPc}
    (hsend : s.Sending t x p) :
    total Action.wholeWrite s.log = sentBytes s.log + bytesTaken s.log x.key := by
  have hret := txReturns_of_tx hreach hsend.1
  have hlt : x.key < s.log.length := by
    obtain ⟨b, hb⟩ := x.key_mem_frames
    exact frames_lt hreach (t := t) (b := b) (by rw [hsend.1]; exact hb)
  have honly : ∀ t' x' p', s.Sending t' x' p' → x'.key = x.key := by
    intro t' x' p' hsend'
    obtain rfl := eq_of_holdsConn hreach hsend'.holdsConn hsend.holdsConn
    have heq := hsend'.1.symm.trans hsend.1
    rw [(Pc.tx.inj heq).1]
  rw [total_wholeWrite hreach, sentBytes, bytesTaken, ← Finset.sum_add_distrib]
  refine Finset.sum_congr rfl fun d _ => ?_
  rw [← Finset.sum_filter_add_sum_filter_not (Finset.range s.log.length)
    (fun k => (trace s.log k).txReturns ≠ 0)]
  congr 1
  refine Finset.sum_eq_single_of_mem x.key ?_ ?_
  · simp [hlt, hret]
  · intro k hk hne
    have hk : (trace s.log k).txReturns = 0 := by simpa using (Finset.mem_filter.mp hk).2
    exact takenOn_eq_zero hreach hk fun t' x' p' h => (honly t' x' p' h).trans_ne hne.symm

/-- **What the counters count.** In every reachable state, modulo 2^64:
`Received` is the length of all received frames whose rx loop is back at its
read. `Sent` is
the length of the frames whose `txPkt` has returned, each counted for every
connection that took it whole. While a call of `txPkt` is past its locks,
`Sent` has its frame as well, for every connection that took it so far except
for a write that is not counted yet. -/
theorem counters_exact (hreach : Reachable gateway s) :
    s.sw.received = UInt64.ofNat (receivedBytes s) ∧
      ((∀ t x p, ¬ s.Sending t x p) → s.sw.sent = UInt64.ofNat (sentBytes s.log)) ∧
      ∀ t x p, s.Sending t x p →
        s.sw.sent + UInt64.ofNat (p.uncounted x.pkt.length) =
          UInt64.ofNat (sentBytes s.log + bytesTaken s.log x.key) := by
  refine ⟨received_eq hreach, ?_, ?_⟩
  · intro hidle
    have hnone : ∀ t, (s.pc t).uncounted = 0 := by
      intro t
      by_contra hne
      obtain ⟨x, p, hsend⟩ := State.sending_of_uncounted hne
      exact hidle t x p hsend
    have hsent := sent_eq_total hreach 0 fun t _ => hnone t
    rw [hnone 0, total_of_idle hreach hidle] at hsent
    simpa using hsent
  · intro t x p hsend
    have hothers : ∀ t', t' ≠ t → (s.pc t').uncounted = 0 := by
      intro t' ht
      by_contra hne
      exact ht (eq_of_holdsConn hreach (Pc.holdsConn_of_uncounted hne) hsend.holdsConn)
    have hsent := sent_eq_total hreach t hothers
    rwa [hsend.1, total_of_sending hreach hsend] at hsent

/-- A broadcast from connection 2: connection 0 takes it, the write on
connection 1 fails after three bytes. It is counted once in each direction. -/
theorem counters_exact_failing :
    ∃ s, Reachable gatewayMacAddress s ∧
      .write 9 1 .hyperkitProtocol arpFrame (.err 3) ∈ s.log ∧
      s.sw.sent = 15 ∧ s.sw.sent = UInt64.ofNat (sentBytes s.log) ∧
      s.sw.received = 15 ∧ s.sw.received = UInt64.ofNat (receivedBytes s) := by
  obtain ⟨s, hreach, hfail, hsent, hreceived, hfree⟩ := reachable_of_exec
    (fun s => .write 9 1 .hyperkitProtocol arpFrame (.err 3) ∈ s.log ∧ s.sw.sent = 15 ∧
      s.sw.received = 15 ∧ s.sw.connLock.holder = none)
    (accepts 0 .hyperKitProtocol ++ accepts 1 .hyperKitProtocol ++ accepts 2 .hyperKitProtocol ++
      [receives 2 arpFrame] ++ goes 2 7 ++ [⟨2, .order [0, 1, 2]⟩, ⟨2, .write .ok⟩] ++ goes 2 1 ++
      [⟨2, .write (.err 3)⟩] ++ goes 2 6)
    (by decide)
  have hidle : ∀ t x p, ¬ s.Sending t x p := by
    intro t x p hsend
    have hheld := (connLock_holder hreach t).mpr hsend.holdsConn
    simp [hfree] at hheld
  obtain ⟨hr, hs, -⟩ := counters_exact hreach
  exact ⟨s, hreach, hfail, hsent, hs hidle, hreceived, hr⟩

end GvisorTapVsock.Tap
