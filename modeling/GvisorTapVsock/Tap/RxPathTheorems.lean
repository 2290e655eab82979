/-
GvisorTapVsock.Tap.RxPathTheorems — for which frames the receive path stays
inside the frame.

Nothing on the path checks a frame's length. `rxBuf_of_frameOk` gives what it
does for the frames it handles as intended: the fields it uses are the
frame's own bytes, whatever lies behind them. The others fail in two ways.
Below six bytes, on a buffer of exactly the frame's size below twelve, and
below fourteen for a frame that goes to the gateway, an accessor panics. On
the shared datagram buffer, six to eleven bytes are resliced past the length
and the learned address ends in bytes of an EARLIER datagram.

`rxSafe_iff` puts the two together: on every protocol, a peer's input is
handled without a panic and without stale bytes exactly when each of its
frames satisfies `FrameOk`.
-/
import GvisorTapVsock.Tap.FramingTheorems

namespace GvisorTapVsock.Tap

open GvisorTapVsock.Go

variable (gateway : LinkAddress)

/-! ## One frame -/

/-- The frames whose header fields `rxBuf` finds inside the frame. -/
def FrameOk (f : List UInt8) : Prop :=
  ethernetMinimumSize ≤ f.length ∨
    (12 ≤ f.length ∧ f.take 6 ≠ gateway ∧ f.take 6 ≠ ethernetBroadcastAddress)

instance (f : List UInt8) : Decidable (FrameOk gateway f) :=
  inferInstanceAs (Decidable (_ ∨ _))

/-- What `rxBuf` does for a frame, as a function of the frame. -/
def frameEffects (f : List UInt8) : List RxEffect :=
  .learn ((f.drop 6).take 6) ::
    ((if f.take 6 = gateway then [] else [.tx f (f.take 6) ((f.drop 6).take 6)]) ++
      (if f.take 6 = gateway ∨ f.take 6 = ethernetBroadcastAddress then
        [.deliver (beNat ((f.drop 12).take 2)) (f.drop ethernetMinimumSize)]
      else []))

theorem txAddresses_of_le (pkt : List UInt8) (h : 12 ≤ pkt.length) :
    txAddresses pkt = .ok (pkt.take 6, (pkt.drop 6).take 6) := by
  have hlen : 12 ≤ (viewSlice pkt).len := by rw [len_viewSlice]; exact h
  rw [txAddresses, destinationAddress_of_le _ (by omega), sourceAddress_of_le _ hlen,
    toList_viewSlice]
  rfl

theorem isForwarded_of_le {b : Slice UInt8} (h : 6 ≤ b.len) :
    isForwarded gateway b = .ok (decide (b.toList.take 6 ≠ gateway)) := by
  rw [isForwarded, destinationAddress_of_le _ h]
  rfl

/-- What the gateway gets of a frame: bytes 12 and 13, and the bytes from 14 on. -/
def handedTo (f : List UInt8) : Option (Nat × List UInt8) :=
  if f.take 6 = gateway ∨ f.take 6 = ethernetBroadcastAddress then
    some (beNat ((f.drop 12).take 2), f.drop ethernetMinimumSize)
  else none

/-- The gateway's part of a frame whose type field is there if it is read. -/
theorem handedUp_of_frameOk {b : Slice UInt8} (h : FrameOk gateway b.toList) :
    handedUp gateway b = .ok (handedTo gateway b.toList) := by
  rcases h with h | ⟨h, hg, hb⟩
  · have hlen : 14 ≤ b.len := by rwa [Slice.length_toList] at h
    rw [handedUp, destinationAddress_of_le _ (by omega), ethernetType_of_le _ hlen, handedTo]
    by_cases hdst : b.toList.take 6 = gateway ∨ b.toList.take 6 = ethernetBroadcastAddress
    · simp only [bind, Except.bind, pure, Except.pure, if_pos hdst]
    · simp only [bind, Except.bind, pure, Except.pure, if_neg hdst]
  · have hlen : 12 ≤ b.len := by rwa [Slice.length_toList] at h
    have hdst : ¬ (b.toList.take 6 = gateway ∨ b.toList.take 6 = ethernetBroadcastAddress) := by
      rintro (hdst | hdst)
      · exact hg hdst
      · exact hb hdst
    rw [handedUp, destinationAddress_of_le _ (by omega), handedTo]
    simp only [bind, Except.bind, pure, Except.pure, if_neg hdst]

theorem rxHandUp_of_frameOk {b : Slice UInt8} (h : FrameOk gateway b.toList) :
    rxHandUp gateway b =
      ⟨if b.toList.take 6 = gateway ∨ b.toList.take 6 = ethernetBroadcastAddress then
        [.deliver (beNat ((b.toList.drop 12).take 2)) (b.toList.drop ethernetMinimumSize)]
      else [], none⟩ := by
  rw [rxHandUp, handedUp_of_frameOk gateway h, handedTo]
  by_cases hdst : b.toList.take 6 = gateway ∨ b.toList.take 6 = ethernetBroadcastAddress
  · rw [if_pos hdst, if_pos hdst]
  · rw [if_neg hdst, if_neg hdst]

/-- **Own bytes only.** On such a frame `rxBuf` returns, and what it learns,
forwards and delivers is a function of the frame. -/
theorem rxBuf_of_frameOk {b : Slice UInt8} (h : FrameOk gateway b.toList) :
    rxBuf gateway b = ⟨frameEffects gateway b.toList, none⟩ := by
  have hlen : 12 ≤ b.len := by
    rcases h with h | h
    · rw [Slice.length_toList] at h
      exact Nat.le_trans (by decide) h
    · simpa using h.1
  rw [rxBuf, sourceAddress_of_le _ hlen, rxForward, isForwarded_of_le _ (by omega),
    rxHandUp_of_frameOk gateway h]
  by_cases hg : b.toList.take 6 = gateway
  · simp [hg, RxResult.after, frameEffects]
  · simp [hg, RxResult.after, frameEffects, txAddresses_of_le b.toList (by simpa)]

/-! ## Frames that fail -/

theorem rxBuf_panics_of_source {b : Slice UInt8} (h : ¬ (6 ≤ b.len ∧ 12 ≤ b.cap)) :
    (rxBuf gateway b).panic ≠ none := by
  rw [rxBuf, sourceAddress_eq, if_neg h]
  simp

/-- A frame for the gateway without a whole header panics at its type field. -/
theorem rxHandUp_panics {b : Slice UInt8} (hlen : 6 ≤ b.len) (hlt : b.len < 14)
    (hdst : b.toList.take 6 = gateway ∨ b.toList.take 6 = ethernetBroadcastAddress) :
    (rxHandUp gateway b).panic ≠ none := by
  obtain ⟨p, hp⟩ := ethernetType_of_lt b hlt
  rw [rxHandUp, handedUp, destinationAddress_of_le _ hlen, hp]
  simp only [bind, Except.bind, if_pos hdst]
  simp

theorem rxForward_panics {b : Slice UInt8} (hlen : 6 ≤ b.len) (hlt : b.len < 14)
    (hdst : b.toList.take 6 = gateway ∨ b.toList.take 6 = ethernetBroadcastAddress) :
    (rxForward gateway b).panic ≠ none := by
  have hup := rxHandUp_panics gateway hlen hlt hdst
  rw [rxForward, isForwarded_of_le gateway hlen]
  cases hd : decide (b.toList.take 6 ≠ gateway) with
  | false => exact hup
  | true =>
    cases htx : txAddresses b.toList with
    | error p => simp
    | ok addrs => exact hup

theorem rxBuf_panics_of_gateway {b : Slice UInt8} (hlen : 6 ≤ b.len) (hlt : b.len < 14)
    (hdst : b.toList.take 6 = gateway ∨ b.toList.take 6 = ethernetBroadcastAddress) :
    (rxBuf gateway b).panic ≠ none := by
  rw [rxBuf]
  cases hsrc : sourceAddress b with
  | error p => simp
  | ok src => exact rxForward_panics gateway hlen hlt hdst

/-- `txPkt` reads the addresses of a short packet from the zeroed chunk behind it. -/
theorem txAddresses_of_short (pkt : List UInt8) (hlen : 6 ≤ pkt.length) (hlt : pkt.length < 12) :
    ∃ addrs, txAddresses pkt = .ok addrs := by
  have hne : pkt ≠ [] := by
    intro hnil
    rw [hnil, List.length_nil] at hlen
    omega
  have hcap := cap_viewSlice_of_le hne (by omega)
  refine ⟨(((viewSlice pkt).mem.take 6), (((viewSlice pkt).mem.drop 6).take 6)), ?_⟩
  rw [txAddresses, destinationAddress_eq, sourceAddress_eq, if_pos (by omega),
    if_pos ⟨by rw [len_viewSlice]; exact hlen, by omega⟩]
  rfl

/-- A frame of six to eleven bytes for another connection is handled when the
buffer reaches over twelve; the address it learns is read past the frame. -/
theorem rxBuf_of_short {b : Slice UInt8} (hlen : 6 ≤ b.len) (hlt : b.len < 12)
    (hcap : 12 ≤ b.cap) (hg : b.toList.take 6 ≠ gateway)
    (hb : b.toList.take 6 ≠ ethernetBroadcastAddress) :
    (rxBuf gateway b).effects.head? = some (.learn ((b.mem.drop 6).take 6))
      ∧ (rxBuf gateway b).panic = none := by
  obtain ⟨addrs, haddrs⟩ := txAddresses_of_short b.toList (by simpa) (by simpa)
  have hdst : ¬ (b.toList.take 6 = gateway ∨ b.toList.take 6 = ethernetBroadcastAddress) := by
    rintro (hdst | hdst)
    · exact hg hdst
    · exact hb hdst
  have hup : rxHandUp gateway b = ⟨[], none⟩ := by
    rw [rxHandUp, handedUp, destinationAddress_of_le _ hlen]
    simp only [bind, Except.bind, pure, Except.pure, if_neg hdst]
  rw [rxBuf, sourceAddress_eq, if_pos ⟨hlen, hcap⟩, rxForward, isForwarded_of_le _ hlen, haddrs,
    hup, decide_eq_true hg]
  exact ⟨rfl, rfl⟩

/-! ## The slices of a whole input -/

/-- The slices `rxNonStream` hands on, one a message. -/
def messageSlices (p : ProtocolImpl) (buf : List UInt8) : List (List UInt8) → List (Slice UInt8)
  | [] => []
  | msg :: msgs =>
      match readMessage p buf msg with
      | none => []
      | some b => b :: messageSlices p b.mem msgs

/-- The slices the receive loop of a protocol hands on for a peer's input. -/
def rxSlices (p : ProtocolImpl) (sends : List (List UInt8)) : List (Slice UInt8) :=
  match p.streamProtocol? with
  | some sp => (sp.format.decodeAll sends.flatten).1.map Slice.exact
  | none => messageSlices p (List.replicate bufSize 0) sends

theorem rxNonStreamFrom_state {σ : Type} (p : ProtocolImpl) (recv : Receiver σ) :
    ∀ (msgs : List (List UInt8)) (buf : List UInt8) (st : σ),
      (rxNonStreamFrom p recv buf msgs st).state = (feed recv (messageSlices p buf msgs) st).1 := by
  intro msgs
  induction msgs with
  | nil => intro buf st; rfl
  | cons msg msgs ih =>
    intro buf st
    rw [rxNonStreamFrom, messageSlices]
    cases hread : readMessage p buf msg with
    | none => rfl
    | some b =>
      simp only [feed]
      rcases hrecv : recv st b with ⟨st', _ | panic⟩
      · exact ih b.mem st'
      · rfl

/-- Each loop is `feed` on its slices. -/
theorem rx_state {σ : Type} (p : ProtocolImpl) (recv : Receiver σ) (sends : List (List UInt8))
    (st : σ) : (rx p recv sends st).state = (feed recv (rxSlices p sends) st).1 := by
  unfold rx rxSlices
  cases p.streamProtocol? with
  | none => exact rxNonStreamFrom_state p recv sends _ st
  | some sp => exact (rxStream_feed sp recv (Reader.newReader sends) st).1

theorem length_mem_readMessage {p : ProtocolImpl} {buf msg : List UInt8} {b : Slice UInt8}
    (h : readMessage p buf msg = some b) :
    b.mem.length = buf.length ∧ b.toList = msg.take buf.length := by
  unfold readMessage at h
  split at h
  · simp at h
  · rw [Option.some.injEq] at h
    subst h
    refine ⟨?_, Slice.toList_withSpare _ _⟩
    rw [Slice.mem_withSpare, List.length_append, List.length_take, List.length_drop]
    omega

theorem messageSlices_spec (p : ProtocolImpl) :
    ∀ (msgs : List (List UInt8)) (buf : List UInt8), buf.length = bufSize →
      (messageSlices p buf msgs).map Slice.toList
          = (msgs.takeWhile (fun msg => ¬ (p = .bessProtocol ∧ msg = []))).map (List.take bufSize)
        ∧ ∀ b ∈ messageSlices p buf msgs, b.cap = bufSize := by
  intro msgs
  induction msgs with
  | nil => intro buf _; exact ⟨rfl, by simp [messageSlices]⟩
  | cons msg msgs ih =>
    intro buf hbuf
    rw [messageSlices]
    cases hread : readMessage p buf msg with
    | none =>
      have hend : p = .bessProtocol ∧ msg = [] := by
        by_contra hend
        rw [readMessage, if_neg hend] at hread
        exact absurd hread (by simp)
      rw [List.takeWhile_cons_of_neg (by simpa using hend)]
      exact ⟨rfl, by simp⟩
    | some b =>
      have hgo : ¬ (p = .bessProtocol ∧ msg = []) := by
        intro hend
        rw [readMessage, if_pos hend] at hread
        exact absurd hread (by simp)
      obtain ⟨hmem, hlist⟩ := length_mem_readMessage hread
      obtain ⟨ihmap, ihcap⟩ := ih b.mem (by rw [hmem, hbuf])
      rw [List.takeWhile_cons_of_pos (by exact decide_eq_true hgo)]
      refine ⟨?_, ?_⟩
      · simp only [List.map_cons, ihmap, hlist, hbuf]
      · intro c hc
        rcases List.mem_cons.mp hc with rfl | hc
        · rw [Slice.cap, hmem, hbuf]
        · exact ihcap c hc

/-- The slices hold the frames the peer sent. -/
theorem map_toList_rxSlices (p : ProtocolImpl) (sends : List (List UInt8)) :
    (rxSlices p sends).map Slice.toList = sentFrames p sends := by
  unfold rxSlices sentFrames
  cases p.streamProtocol? with
  | none => exact (messageSlices_spec p sends _ List.length_replicate).1
  | some sp => exact map_toList_map_exact _

/-- Behind a frame from a stream there is nothing, behind a datagram the rest
of the 128 KiB. -/
theorem cap_of_mem_rxSlices {p : ProtocolImpl} {sends : List (List UInt8)} {b : Slice UInt8}
    (hb : b ∈ rxSlices p sends) :
    (p.streamProtocol?.isSome ∧ b.cap = b.len) ∨
      (p.streamProtocol? = none ∧ b.cap = bufSize) := by
  unfold rxSlices at hb
  cases hp : p.streamProtocol? with
  | none =>
    rw [hp] at hb
    exact Or.inr ⟨rfl, (messageSlices_spec p sends _ List.length_replicate).2 b hb⟩
  | some sp =>
    rw [hp] at hb
    obtain ⟨f, -, rfl⟩ := List.mem_map.mp hb
    exact Or.inl ⟨rfl, rfl⟩

/-! ## What the receive path did -/

/-- The receiver of the program, with a record of each frame and its result. -/
def recordRx : Receiver (List (List UInt8 × RxResult)) :=
  fun done b => (done ++ [(b.toList, rxBuf gateway b)], (rxBuf gateway b).panic)

/-- The frames the receive path of a connection got to, and what it did. -/
def rxResults (p : ProtocolImpl) (sends : List (List UInt8)) :
    List (List UInt8 × RxResult) :=
  (rx p (recordRx gateway) sends []).state

/-- A list of results up to the first panic, which ends the process. -/
def untilPanic : List (List UInt8 × RxResult) → List (List UInt8 × RxResult)
  | [] => []
  | r :: rs => if r.2.panic = none then r :: untilPanic rs else [r]

theorem feed_recordRx : ∀ (bs : List (Slice UInt8)) (done : List (List UInt8 × RxResult)),
    (feed (recordRx gateway) bs done).1
      = done ++ untilPanic (bs.map (fun b => (b.toList, rxBuf gateway b)))
  | [], done => by simp [feed, untilPanic]
  | b :: bs, done => by
      rw [feed, List.map_cons, untilPanic]
      simp only [recordRx]
      cases hpanic : (rxBuf gateway b).panic with
      | none =>
        rw [if_pos rfl]
        simp only [feed_recordRx bs, List.append_assoc, List.singleton_append]
      | some panic => simp

theorem rxResults_eq (p : ProtocolImpl) (sends : List (List UInt8)) :
    rxResults gateway p sends
      = untilPanic ((rxSlices p sends).map (fun b => (b.toList, rxBuf gateway b))) := by
  rw [rxResults, rx_state, feed_recordRx, List.nil_append]

theorem mem_of_mem_untilPanic {r : List UInt8 × RxResult} :
    ∀ {rs : List (List UInt8 × RxResult)}, r ∈ untilPanic rs → r ∈ rs
  | [], h => by simp [untilPanic] at h
  | a :: rs, h => by
      rw [untilPanic] at h
      split at h
      · rcases List.mem_cons.mp h with rfl | h
        · exact List.mem_cons_self
        · exact List.mem_cons_of_mem _ (mem_of_mem_untilPanic h)
      · rw [List.mem_singleton] at h
        subst h
        exact List.mem_cons_self

/-- Without a panic every frame was handled. -/
theorem untilPanic_eq_self : ∀ {rs : List (List UInt8 × RxResult)},
    (∀ r ∈ untilPanic rs, r.2.panic = none) → untilPanic rs = rs
  | [], _ => rfl
  | a :: rs, h => by
      by_cases ha : a.2.panic = none
      · have hrec : untilPanic (a :: rs) = a :: untilPanic rs := by rw [untilPanic, if_pos ha]
        rw [hrec] at h ⊢
        rw [untilPanic_eq_self (fun r hr => h r (List.mem_cons_of_mem _ hr))]
      · have hstop : untilPanic (a :: rs) = [a] := by rw [untilPanic, if_neg ha]
        rw [hstop] at h
        exact absurd (h a (List.mem_singleton.mpr rfl)) ha

/-- A result is `rxBuf` on one of the slices. -/
theorem mem_rxResults {p : ProtocolImpl} {sends : List (List UInt8)}
    {r : List UInt8 × RxResult} (hr : r ∈ rxResults gateway p sends) :
    ∃ b ∈ rxSlices p sends, r = (b.toList, rxBuf gateway b) := by
  rw [rxResults_eq] at hr
  obtain ⟨b, hb, rfl⟩ := List.mem_map.mp (mem_of_mem_untilPanic hr)
  exact ⟨b, hb, rfl⟩

/-! ## Safety of an input -/

/-- The receive path handles the input without a panic, and what it does for a
frame is what it does for that frame on every other input it survives: no byte
of an earlier datagram enters. -/
def RxSafe (p : ProtocolImpl) (sends : List (List UInt8)) : Prop :=
  (∀ r ∈ rxResults gateway p sends, r.2.panic = none)
    ∧ ∀ sends' : List (List UInt8), (∀ r ∈ rxResults gateway p sends', r.2.panic = none) →
        ∀ r ∈ rxResults gateway p sends, ∀ r' ∈ rxResults gateway p sends',
          r.1 = r'.1 → r.2 = r'.2

theorem rxSafe_of_frameOk {p : ProtocolImpl} {sends : List (List UInt8)}
    (h : ∀ f ∈ sentFrames p sends, FrameOk gateway f) : RxSafe gateway p sends := by
  have hok : ∀ r ∈ rxResults gateway p sends,
      FrameOk gateway r.1 ∧ r.2 = ⟨frameEffects gateway r.1, none⟩ := by
    intro r hr
    obtain ⟨b, hb, rfl⟩ := mem_rxResults gateway hr
    have hf : FrameOk gateway b.toList := by
      apply h
      rw [← map_toList_rxSlices]
      exact List.mem_map_of_mem hb
    exact ⟨hf, rxBuf_of_frameOk gateway hf⟩
  refine ⟨fun r hr => by rw [(hok r hr).2], ?_⟩
  intro sends' _ r hr r' hr' heq
  obtain ⟨hf, hres⟩ := hok r hr
  obtain ⟨b', -, rfl⟩ := mem_rxResults gateway hr'
  have hlist : r.1 = b'.toList := heq
  rw [hlist] at hf hres
  show r.2 = rxBuf gateway b'
  rw [hres, rxBuf_of_frameOk gateway hf]

/-- Every slice of a safe input was handled, and none panicked. -/
theorem panic_of_rxSafe {p : ProtocolImpl} {sends : List (List UInt8)}
    (h : ∀ r ∈ rxResults gateway p sends, r.2.panic = none) {b : Slice UInt8}
    (hb : b ∈ rxSlices p sends) :
    (b.toList, rxBuf gateway b) ∈ rxResults gateway p sends
      ∧ (rxBuf gateway b).panic = none := by
  have hmem : (b.toList, rxBuf gateway b) ∈ rxResults gateway p sends := by
    rw [rxResults_eq] at h ⊢
    rw [untilPanic_eq_self h]
    exact List.mem_map_of_mem hb
  exact ⟨hmem, h _ hmem⟩

/-- A datagram that leaves a given byte where the last byte of a source address
will be looked for. -/
def primer (v : UInt8) : List UInt8 := List.replicate 11 0 ++ [v, 0, 0]

/-- Behind such a datagram, a frame of six to eleven bytes learns an address
that ends in the byte left there. -/
theorem messageSlices_primer {p : ProtocolImpl} (v : UInt8) {f : List UInt8}
    (hne : f ≠ []) (hlt : f.length < 12) :
    ∃ b₀ b, messageSlices p (List.replicate bufSize 0) [primer v, f] = [b₀, b]
      ∧ b₀.toList = primer v ∧ b.toList = f ∧ b.cap = bufSize ∧ b.mem[11]? = some v := by
  have hlen : (primer v).length = 14 := rfl
  have htake : (primer v).take bufSize = primer v := List.take_of_length_le (by rw [hlen]; decide)
  obtain ⟨b₀, h₀⟩ : ∃ b₀,
      b₀ = Slice.withSpare (primer v) (List.replicate (bufSize - 14) (0 : UInt8)) := ⟨_, rfl⟩
  have hread₀ : readMessage p (List.replicate bufSize 0) (primer v) = some b₀ := by
    rw [readMessage, if_neg (fun h => absurd h.2 (by simp [primer])), List.length_replicate,
      htake, hlen, List.drop_replicate, h₀]
  have hmem₀ : b₀.mem.length = bufSize := by
    rw [(length_mem_readMessage hread₀).1, List.length_replicate]
  have hftake : f.take b₀.mem.length = f :=
    List.take_of_length_le (by rw [hmem₀]; exact Nat.le_trans (Nat.le_of_lt hlt) (by decide))
  have hread : readMessage p b₀.mem f = some (Slice.withSpare f (b₀.mem.drop f.length)) := by
    rw [readMessage, if_neg (fun h => hne h.2), hftake]
  refine ⟨b₀, Slice.withSpare f (b₀.mem.drop f.length), ?_, ?_, ?_, ?_, ?_⟩
  · simp only [messageSlices, hread₀, hread]
  · rw [h₀, Slice.toList_withSpare]
  · exact Slice.toList_withSpare _ _
  · rw [Slice.cap, (length_mem_readMessage hread).1, hmem₀]
  · -- index 11 lies behind `f`, where `primer v` has `v`
    rw [Slice.mem_withSpare, List.getElem?_append_right (by omega), List.getElem?_drop,
      show f.length + (11 - f.length) = 11 by omega, h₀, Slice.mem_withSpare]
    rfl

/-- A short datagram is handled in another way behind other datagrams. -/
theorem rxResults_primer {p : ProtocolImpl} (hp : p.streamProtocol? = none) {b : Slice UInt8}
    (hlen : 6 ≤ b.len) (hlt : b.len < 12) (hcap : b.cap = bufSize)
    (hg : b.toList.take 6 ≠ gateway) (hbc : b.toList.take 6 ≠ ethernetBroadcastAddress) :
    ∃ sends' r', (∀ r ∈ rxResults gateway p sends', r.2.panic = none)
      ∧ (b.toList, r') ∈ rxResults gateway p sends' ∧ rxBuf gateway b ≠ r' := by
  have h11 : 11 < b.mem.length := by rw [← Slice.cap, hcap]; decide
  have hne : b.toList ≠ [] := by
    intro hnil
    have hlist := Slice.length_toList b
    rw [hnil, List.length_nil] at hlist
    omega
  -- the datagram before it leaves a byte that differs from the one there now
  obtain ⟨b₀, b', hslices, hb₀, hlist, hcap', h11'⟩ :=
    messageSlices_primer (p := p) (b.mem[11] + 1) hne (by simpa using hlt)
  have hlen' : b'.len = b.len := by
    rw [← Slice.length_toList, hlist, Slice.length_toList]
  have hshort := rxBuf_of_short gateway hlen hlt (by rw [hcap]; decide) hg hbc
  have hshort' := rxBuf_of_short gateway (b := b') (by omega) (by omega)
    (by rw [hcap']; decide) (by rw [hlist]; exact hg) (by rw [hlist]; exact hbc)
  have hnone₀ : (rxBuf gateway b₀).panic = none := by
    rw [rxBuf_of_frameOk gateway (Or.inl (by rw [hb₀]; exact Nat.le_refl 14))]
  have hresults : rxResults gateway p [primer (b.mem[11] + 1), b.toList]
      = [(b₀.toList, rxBuf gateway b₀), (b.toList, rxBuf gateway b')] := by
    rw [rxResults_eq, rxSlices, hp, hslices, ← hlist]
    simp [untilPanic, hnone₀, hshort'.2]
  refine ⟨[primer (b.mem[11] + 1), b.toList], rxBuf gateway b', ?_, ?_, ?_⟩
  · rw [hresults]
    simp [hnone₀, hshort'.2]
  · rw [hresults]
    simp
  · intro heq
    -- the last bytes of the two addresses would be the same
    have hhead : some (RxEffect.learn ((b.mem.drop 6).take 6))
        = some (RxEffect.learn ((b'.mem.drop 6).take 6)) := by
      rw [← hshort.1, ← hshort'.1, heq]
    simp only [Option.some.injEq, RxEffect.learn.injEq] at hhead
    have hlast := congrArg (fun l => l[5]?) hhead
    simp only [List.getElem?_take, List.getElem?_drop, h11'] at hlast
    rw [List.getElem?_eq_getElem h11] at hlast
    simp at hlast

theorem frameOk_of_rxSafe {p : ProtocolImpl} {sends : List (List UInt8)}
    (h : RxSafe gateway p sends) : ∀ f ∈ sentFrames p sends, FrameOk gateway f := by
  intro f hf
  by_contra hbad
  obtain ⟨hpanic, hown⟩ := h
  rw [← map_toList_rxSlices] at hf
  obtain ⟨b, hb, rfl⟩ := List.mem_map.mp hf
  obtain ⟨hmem, hnone⟩ := panic_of_rxSafe gateway hpanic hb
  -- no panic, so the addresses were read and the frame is not the gateway's
  have hsrc : 6 ≤ b.len ∧ 12 ≤ b.cap := by
    by_contra hsrc
    exact rxBuf_panics_of_source gateway hsrc hnone
  simp only [FrameOk, Slice.length_toList, ethernetMinimumSize, not_or, Nat.not_le] at hbad
  have hdst : ¬ (b.toList.take 6 = gateway ∨ b.toList.take 6 = ethernetBroadcastAddress) := by
    intro hdst
    exact rxBuf_panics_of_gateway gateway hsrc.1 hbad.1 hdst hnone
  obtain ⟨hg, hbc⟩ := not_or.mp hdst
  have hlt : b.len < 12 := by
    by_contra hle
    exact hbad.2 ⟨Nat.le_of_not_lt hle, hg, hbc⟩
  -- so it is a datagram with stale bytes behind it
  rcases cap_of_mem_rxSlices hb with ⟨-, hcap⟩ | ⟨hp, hcap⟩
  · omega
  · obtain ⟨sends', r', hpanic', hmem', hne⟩ :=
      rxResults_primer gateway hp hsrc.1 hlt hcap hg hbc
    exact hne (hown sends' hpanic' _ hmem _ hmem' rfl)

/-- **The receive path stays inside the frame exactly for the frames of at
least fourteen bytes, and those of twelve and thirteen that do not go to the
gateway.** -/
theorem rxSafe_iff (p : ProtocolImpl) (sends : List (List UInt8)) :
    RxSafe gateway p sends ↔ ∀ f ∈ sentFrames p sends, FrameOk gateway f :=
  ⟨frameOk_of_rxSafe gateway, rxSafe_of_frameOk gateway⟩

/-- A qemu peer ends the process with a size field of zero. -/
theorem qemu_empty_frame_not_safe :
    ¬ ∀ (gateway : LinkAddress) (p : ProtocolImpl) (sends : List (List UInt8)),
      RxSafe gateway p sends := by
  intro hall
  have hframes : sentFrames .qemuProtocol [[0, 0, 0, 0]] = [[]] := by
    have h := (StreamProtocol.format .qemuProtocol).decodeAll_encodeAll [[]]
      (by intro f hf; rw [List.mem_singleton] at hf; subst hf; decide)
    exact congrArg Prod.fst h
  have hok := frameOk_of_rxSafe _
    (hall [0x5a, 0x94, 0xef, 0xe4, 0x0c, 0xdd] .qemuProtocol [[0, 0, 0, 0]]) []
    (by rw [hframes]; exact List.mem_singleton.mpr rfl)
  exact absurd hok (by decide)

end GvisorTapVsock.Tap
