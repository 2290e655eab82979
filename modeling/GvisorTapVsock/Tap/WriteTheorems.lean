/-
GvisorTapVsock.Tap.WriteTheorems — what reaches the peer of a connection.

Many goroutines write on the same sockets. Over every interleaving and every
way the writes end, the bytes on a connection are whole frames and at most one
cut-off frame at the end (`bytes_framed`), and the frames of one rx loop
arrive in the order it received them, none twice (`writes_ordered`). They do
NOT all go elsewhere: the sender of a frame is looked up by address when the
frame is sent, so a connection can get its own frame back
(`frame_written_back`), unless each lookup still finds the sender
(`never_back_of_senderKnown`).
-/
import GvisorTapVsock.Tap.FailureTheorems
import GvisorTapVsock.Tap.Progress
import GvisorTapVsock.Tap.DeliveryTheorems

namespace GvisorTapVsock.Tap

open GvisorTapVsock.Go GvisorTapVsock.Lts

variable {gateway : LinkAddress} {s : State}

/-! ## The protocol of a connection -/

theorem connect_of_conns (hreach : Reachable gateway s) :
    ∀ d impl, s.sw.conns.lookup d = some impl → .connect d impl ∈ s.log := by
  induction hreach using Reachable.invariant with
  | init =>
    intro d impl h
    simp [State.init, Switch.new] at h
  | step s t pc a sw _ ih hs =>
    intro d impl h
    show .connect d impl ∈ s.log ++ [a]
    rw [List.mem_append, List.mem_singleton]
    rcases Switch.conns_apply hs.applies with ⟨i, impl', rfl, heq⟩ | ⟨i, -, heq⟩ | ⟨-, -, heq⟩
    all_goals simp only [heq] at h
    · by_cases hd : d = i
      · rw [hd, AList.lookup_insert, Option.some.injEq] at h
        exact Or.inr (by rw [hd, h])
      · rw [AList.lookup_insert_ne hd] at h
        exact Or.inl (ih d impl h)
    · by_cases hd : d = i
      · rw [hd, AList.lookup_erase] at h
        simp at h
      · rw [AList.lookup_erase_ne hd] at h
        exact Or.inl (ih d impl h)
    · exact Or.inl (ih d impl h)

theorem connect_unique (hreach : Reachable gateway s) :
    ∀ d impl impl', .connect d impl ∈ s.log → .connect d impl' ∈ s.log → impl = impl' := by
  induction hreach using Reachable.invariant with
  | init => exact nofun
  | step s t pc a sw hreach ih hs =>
    intro d impl impl' h h'
    -- the id of a new connection has not been given out before
    have hnew : ∀ {i j}, .connect d i ∈ s.log → Action.connect d j ≠ a := by
      rintro i j hold rfl
      have hlt := connectIds_lt hreach d (mem_connectIds.mpr ⟨i, hold⟩)
      exact Nat.lt_irrefl _ ((hs.moves.connect_eq).1 ▸ hlt)
    rcases List.mem_append.mp h with h | h <;> rcases List.mem_append.mp h' with h' | h'
    · exact ih d impl impl' h h'
    · exact absurd (List.mem_singleton.mp h') (hnew h)
    · exact absurd (List.mem_singleton.mp h) (hnew h')
    · exact (Action.connect.inj ((List.mem_singleton.mp h).trans
        (List.mem_singleton.mp h').symm)).2

/-! ## Bytes -/

/-- What an action puts on the socket of a connection. -/
def Action.bytesOn (d : ConnId) : Action → List UInt8
  | .write _ id impl pkt res => if id = d then res.sent (txBufBytes impl pkt) else []
  | _ => []

/-- The frame a successful write puts on a connection. -/
def Action.frameOn? (d : ConnId) : Action → Option (List UInt8)
  | .write _ id _ pkt .ok => if id = d then some pkt else none
  | _ => none

/-- The bytes on a connection. -/
def bytesOn (log : List Action) (d : ConnId) : List UInt8 := log.flatMap (Action.bytesOn d)

/-- The frames written whole on a connection. -/
def framesOn (log : List Action) (d : ConnId) : List (List UInt8) :=
  log.filterMap (Action.frameOn? d)

/-- The rest after the whole frames: nothing, or the beginning of a frame of
the log. -/
def CutOff (log : List Action) (impl : ProtocolImpl) (tail : List UInt8) : Prop :=
  tail = [] ∨ ∃ k frame, frameAt log k = some frame ∧ tail <+: txBufBytes impl frame

theorem CutOff.append {log : List Action} {impl : ProtocolImpl} {tail : List UInt8} (a : Action)
    (h : CutOff log impl tail) : CutOff (log ++ [a]) impl tail := by
  rcases h with rfl | ⟨k, frame, hframe, htail⟩
  · exact Or.inl rfl
  · exact Or.inr ⟨k, frame, frameAt_append a hframe, htail⟩

theorem bytesOn_append (log : List Action) (a : Action) (d : ConnId) :
    bytesOn (log ++ [a]) d = bytesOn log d ++ a.bytesOn d := by
  rw [bytesOn, List.flatMap_append, List.flatMap_singleton]
  rfl

theorem framesOn_append (log : List Action) (a : Action) (d : ConnId) :
    framesOn (log ++ [a]) d = framesOn log d ++ (a.frameOn? d).toList := by
  rw [framesOn, List.filterMap_append, framesOn]
  cases h : a.frameOn? d <;> simp [h]

/-- Only a write on a connection puts bytes on it. -/
theorem Action.silent_of_not_write {a : Action} {d : ConnId}
    (h : ∀ key impl pkt res, a ≠ .write key d impl pkt res) :
    a.bytesOn d = [] ∧ a.frameOn? d = none := by
  cases a with
  | write key id impl pkt res =>
    have hid : id ≠ d := fun hid => h key impl pkt res (by rw [hid])
    refine ⟨if_neg hid, ?_⟩
    cases res with
    | ok => exact if_neg hid
    | err n => rfl
  | _ => exact ⟨rfl, rfl⟩

/-- One write: a whole frame, or the beginning of one, after whole frames. -/
theorem bytesOn_write {log : List Action} {d : ConnId} {impl : ProtocolImpl} {key : FrameKey}
    {pkt : List UInt8} (res : WriteResult)
    (hbytes : bytesOn log d = ((framesOn log d).map (txBufBytes impl)).flatten)
    (hframe : frameAt log key = some pkt) :
    ∃ tail, bytesOn (log ++ [.write key d impl pkt res]) d =
        ((framesOn (log ++ [.write key d impl pkt res]) d).map (txBufBytes impl)).flatten ++ tail ∧
      CutOff (log ++ [.write key d impl pkt res]) impl tail ∧
      ((Action.write key d impl pkt res).failsOn ≠ some d → tail = []) := by
  have hsent : (Action.write key d impl pkt res).bytesOn d = res.sent (txBufBytes impl pkt) :=
    if_pos rfl
  rw [bytesOn_append, framesOn_append, hsent, hbytes]
  cases res with
  | ok =>
    refine ⟨[], ?_, Or.inl rfl, fun _ => rfl⟩
    have hwhole : (Action.write key d impl pkt .ok).frameOn? d = some pkt := if_pos rfl
    rw [hwhole]
    simp [WriteResult.sent]
  | err n =>
    refine ⟨(txBufBytes impl pkt).take n, ?_, Or.inr ⟨key, pkt, ?_, List.take_prefix _ _⟩, ?_⟩
    · simp [WriteResult.sent, Action.frameOn?]
    · exact frameAt_append _ hframe
    · exact fun hne => absurd rfl hne

/-- The bytes on a connection are its whole frames and, only after a failed
write, the beginning of one more. -/
theorem bytes_framed (hreach : Reachable gateway s) :
    ∀ d impl, (∀ impl', .connect d impl' ∈ s.log → impl' = impl) → ∃ tail,
      bytesOn s.log d = ((framesOn s.log d).map (txBufBytes impl)).flatten ++ tail ∧
        CutOff s.log impl tail ∧ (¬ Failed s.log d → tail = []) := by
  induction hreach using Reachable.invariant with
  | init =>
    intro d impl _
    exact ⟨[], rfl, Or.inl rfl, fun _ => rfl⟩
  | step s t pc a sw hreach ih hs =>
    intro d impl himpl
    obtain ⟨tail, hbytes, hcut, hclean⟩ :=
      ih d impl fun impl' h => himpl impl' (List.mem_append_left _ h)
    show ∃ tail, bytesOn (s.log ++ [a]) d = _ ++ tail ∧ CutOff (s.log ++ [a]) impl tail ∧
      (¬ Failed (s.log ++ [a]) d → tail = [])
    by_cases ha : ∃ key impl' pkt res, a = .write key d impl' pkt res
    · obtain ⟨key, impl', pkt, res, rfl⟩ := ha
      have hconnect := connect_of_conns hreach d impl' hs.moves.write_eq.1
      obtain rfl := himpl impl' (List.mem_append_left _ hconnect)
      -- nothing was cut off before this write
      obtain rfl := hclean (hs.write_clean hreach).2
      rw [List.append_nil] at hbytes
      obtain ⟨tail, hbytes', hcut', hclean'⟩ := bytesOn_write res hbytes
        (hs.write_frame hreach)
      refine ⟨tail, hbytes', hcut', fun hok => hclean' fun hfail => hok ?_⟩
      exact (failed_append _ _ _).mpr (Or.inr hfail)
    · obtain ⟨hsilent, hnone⟩ := Action.silent_of_not_write (a := a) (d := d)
        fun key impl pkt res h => ha ⟨key, impl, pkt, res, h⟩
      refine ⟨tail, ?_, hcut.append a, fun hok => hclean fun hfail => hok ?_⟩
      · rw [bytesOn_append, framesOn_append, hsilent, hnone, List.append_nil, hbytes]
        simp
      · exact (failed_append _ _ _).mpr (Or.inl hfail)

/-! ## Order -/

theorem Pc.acceptOf_of_rx {pc : Pc} {r : RxCall} (h : pc.rx? = some r) :
    pc.acceptOf = some r.id := by
  cases pc with
  | learnLock | learn | forward | handUp | inGateway | count | tx =>
    exact congrArg (Option.map RxCall.id) h
  | _ => exact absurd h nofun

theorem Tx.rx_ret {x : Tx} {r : RxCall} (h : x.ret.rx? = some r) : x.rx? = some r := by
  cases x with
  | rxBuf | gateway => exact h
  | stack => exact absurd h nofun

section Rows

variable {pc pc' : Pc} {a : Action}

/-- A call of `rxBuf` starts with a frame that was just read. -/
theorem Moves.rx_of (h : Moves gateway s pc pc' a) {r : RxCall} (hr : pc'.rx? = some r) :
    pc.rx? = some r ∨ r.key = s.log.length := by
  cases h with
  | tx moves =>
    cases moves with
    | unlock => exact Or.inl (Tx.rx_ret hr)
    | _ => exact Or.inl hr
  | recv => exact Or.inr (by rw [← Option.some.inj hr])
  | send | connect | stop | count | exitUnlock | camRead => exact absurd hr nofun
  | _ => exact Or.inl hr

theorem Moves.recv_eq {id : ConnId} {f : List UInt8} (h : Moves gateway s pc pc' (.recv id f)) :
    pc.acceptOf = some id ∧ pc.rx? = none := by
  cases h with
  | tx moves => cases moves
  | recv => exact ⟨rfl, rfl⟩

end Rows

/-- The frame an rx loop is at is the last it has received. -/
theorem recv_le (hreach : Reachable gateway s) :
    ∀ t r, (s.pc t).rx? = some r → ∀ k f, s.log[k]? = some (.recv r.id f) → k ≤ r.key := by
  induction hreach using Reachable.invariant with
  | init => exact nofun
  | step s t pc a sw hreach ih hs =>
    intro t' r hr k f hk
    by_cases ht : t' = t
    · subst ht
      simp only [Function.update_self] at hr
      rcases hs.moves.rx_of hr with hr | hkey
      · rcases getElem?_append_one hk with ⟨-, hk⟩ | ⟨-, rfl⟩
        · exact ih t' r hr k f hk
        · exact absurd (hr.symm.trans hs.moves.recv_eq.2) nofun
      · rw [hkey]
        rcases getElem?_append_one hk with ⟨hlt, -⟩ | ⟨rfl, -⟩
        · exact Nat.le_of_lt hlt
        · exact Nat.le_refl _
    · simp only [Function.update_of_ne ht] at hr
      rcases getElem?_append_one hk with ⟨-, hk⟩ | ⟨-, rfl⟩
      · exact ih t' r hr k f hk
      · exact absurd (acceptOf_unique hreach t' t r.id (Pc.acceptOf_of_rx hr)
          hs.moves.recv_eq.1) ht

theorem TxSettled.nodup {f : List UInt8} {tr : FrameTrace} (h : TxSettled f tr) :
    (tr.writes.map Prod.fst).Nodup := by
  rcases h with ⟨-, hnone, -⟩ | ⟨conns, hit, _, ⟨dst, src, order, res, -, hnodup, -, rfl⟩, -, hw, -⟩
  · rw [hnone]
    exact List.nodup_nil
  · exact (hw.map Prod.fst).sublist.nodup (nodup_txWrites hnodup)

/-- A frame is written at most once on a connection. -/
theorem writes_nodup (hreach : Reachable gateway s) {k : FrameKey} {f : List UInt8}
    (h : frameAt s.log k = some f) : ((trace s.log k).writes.map Prod.fst).Nodup := by
  obtain ⟨b, -, hb, hf⟩ := mem_of_frameAt h
  have hset := settled hreach k b hb
  cases b with
  | recv id g => exact hset.1.nodup
  | send pkt => exact TxSettled.nodup hset
  | _ => exact absurd hf nofun

/-- A write is the first of its frame on its connection. -/
theorem Steps.write_first (hreach : Reachable gateway s) {t : Goroutine} {pc : Pc} {sw : Switch}
    {key : FrameKey} {d : ConnId} {impl : ProtocolImpl} {pkt : List UInt8} {res : WriteResult}
    (hs : Steps gateway s t pc (.write key d impl pkt res) sw) (res' : WriteResult) :
    (d, res') ∉ (trace s.log key).writes := by
  intro hmem
  have hnodup := writes_nodup (hs.reachable hreach) (frameAt_append _ (hs.write_frame hreach))
  rw [trace_append, FrameTrace.add_write_self, List.map_append, List.nodup_append] at hnodup
  exact hnodup.2.2 d (List.mem_map_of_mem hmem) d (List.mem_singleton.mpr rfl) rfl

/-- A received frame is sent on by `rxBuf`, on the goroutine that received it. -/
theorem rxBuf_of_recv (hreach : Reachable gateway s) {t : Goroutine} {x : Tx} {p : TxPc}
    (hpc : s.pc t = .tx x p) {c : ConnId} {f : List UInt8}
    (h : s.log[x.key]? = some (.recv c f)) : ∃ r, x = .rxBuf r ∧ r.id = c := by
  have hlog := frames_log hreach t
  rw [hpc] at hlog
  cases x with
  | rxBuf r =>
    have hr := hlog r.key _ (List.mem_singleton.mpr rfl)
    exact ⟨r, rfl, (Action.recv.inj (Option.some.inj (hr.symm.trans h))).1⟩
  | gateway r key pkt =>
    have hsend := hlog key _ (List.mem_cons_of_mem _ (List.mem_singleton.mpr rfl))
    exact absurd (Option.some.inj (hsend.symm.trans h)) nofun
  | stack key pkt =>
    have hsend := hlog key _ (List.mem_singleton.mpr rfl)
    exact absurd (Option.some.inj (hsend.symm.trans h)) nofun

/-- Position `i` of the log is a write of frame `k` on a connection. -/
def WrittenAt (log : List Action) (i : Nat) (k : FrameKey) (d : ConnId) : Prop :=
  ∃ impl pkt res, log[i]? = some (.write k d impl pkt res)

/-- Frame `k` was received on a connection. -/
def ReceivedOn (log : List Action) (k : FrameKey) (c : ConnId) : Prop :=
  ∃ f, log[k]? = some (.recv c f)

/-- A frame that was written was received before. -/
theorem ReceivedOn.of_append {log : List Action} {a : Action} {k : FrameKey} {c : ConnId}
    {pkt : List UInt8} (hframe : frameAt log k = some pkt) (h : ReceivedOn (log ++ [a]) k c) :
    ReceivedOn log k c := by
  obtain ⟨f, h⟩ := h
  obtain ⟨b, -, hb, -⟩ := mem_of_frameAt hframe
  rw [List.getElem?_append_left (List.getElem?_eq_some_iff.mp hb).1] at h
  exact ⟨f, h⟩

/-- A write comes after all earlier writes, on the same connection, of frames
from the same rx loop. -/
theorem Steps.write_last (hreach : Reachable gateway s) {t : Goroutine} {pc : Pc} {sw : Switch}
    {key : FrameKey} {d c : ConnId} {impl : ProtocolImpl} {pkt : List UInt8} {res : WriteResult}
    (hs : Steps gateway s t pc (.write key d impl pkt res) sw) (hkey : ReceivedOn s.log key c)
    {i : Nat} {k : FrameKey} (hi : WrittenAt s.log i k d) (hk : ReceivedOn s.log k c) :
    k < key := by
  obtain ⟨f, hk⟩ := hk
  obtain ⟨f', hkey⟩ := hkey
  obtain ⟨impl', pkt', res', hi⟩ := hi
  refine Nat.lt_of_le_of_ne ?_ ?_
  · -- the loop that writes is at the last frame it received
    obtain ⟨-, -, -, -, x, p, hpc, rfl, -⟩ := hs.moves.write_eq
    obtain ⟨r, rfl, rfl⟩ := rxBuf_of_recv hreach hpc hkey
    exact recv_le hreach t r (by rw [hpc]; rfl) k f hk
  · -- the frame would be twice in its trace
    rintro rfl
    exact hs.write_first hreach res' (mem_writes_of_mem_log (List.mem_of_getElem? hi))

/-- The frames of one connection are written on another in the order in which
they were received, and none twice. -/
theorem writes_ordered (hreach : Reachable gateway s) :
    ∀ i j k k' d c, i < j → WrittenAt s.log i k d → WrittenAt s.log j k' d →
      ReceivedOn s.log k c → ReceivedOn s.log k' c → k < k' := by
  induction hreach using Reachable.invariant with
  | init =>
    rintro i j k k' d c - ⟨impl, pkt, res, hi⟩
    exact absurd hi nofun
  | step s t pc a sw hreach ih hs =>
    intro i j k k' d c hij hi hj hk hk'
    obtain ⟨impl, pkt, res, hi⟩ := hi
    obtain ⟨impl', pkt', res', hj⟩ := hj
    have hilt : i < s.log.length := by
      rcases getElem?_append_one hj with ⟨hjlt, -⟩ | ⟨hjeq, -⟩
      · exact Nat.lt_trans hij hjlt
      · exact hjeq ▸ hij
    have hwritten : s.log[i]? = some (.write k d impl pkt res) := by
      rwa [List.getElem?_append_left hilt] at hi
    have hrecv : ReceivedOn s.log k c :=
      hk.of_append (write_frameAt hreach k d impl pkt res (List.mem_of_getElem? hwritten))
    rcases getElem?_append_one hj with ⟨-, hj⟩ | ⟨-, rfl⟩
    · have hframe := write_frameAt hreach k' d impl' pkt' res' (List.mem_of_getElem? hj)
      exact ih i j k k' d c hij ⟨_, _, _, hwritten⟩ ⟨_, _, _, hj⟩ hrecv (hk'.of_append hframe)
    · exact hs.write_last hreach (hk'.of_append (hs.write_frame hreach)) ⟨_, _, _, hwritten⟩
        hrecv

/-- **What a peer gets.** In every state reachable up to a panic, for every
connection: its bytes are whole encoded frames followed by at most one
incomplete frame; nothing was written after a failed write or after the
disconnect; every write carries the bytes of a frame of the log, and of two
writes of frames from one rx loop the earlier is of the frame that loop received
earlier. -/
theorem writes_framed_and_ordered (hreach : Reachable gateway s) (d : ConnId) :
    (∀ impl, .connect d impl ∈ s.log → ∃ tail,
      bytesOn s.log d = ((framesOn s.log d).map (txBufBytes impl)).flatten ++ tail ∧
        CutOff s.log impl tail) ∧
      (∀ i k impl pkt res, s.log[i]? = some (.write k d impl pkt res) →
        .disconnect d ∉ s.log.take i ∧ ¬ Failed (s.log.take i) d ∧
          frameAt s.log k = some pkt) ∧
      ∀ i j k k' c, i < j → WrittenAt s.log i k d → WrittenAt s.log j k' d →
        ReceivedOn s.log k c → ReceivedOn s.log k' c → k < k' := by
  refine ⟨fun impl himpl => ?_, fun i k impl pkt res h => ?_, fun i j k k' c =>
    writes_ordered hreach i j k k' d c⟩
  · obtain ⟨tail, hbytes, hcut, -⟩ := bytes_framed hreach d impl
      fun impl' h => connect_unique hreach d impl' impl h himpl
    exact ⟨tail, hbytes, hcut⟩
  · obtain ⟨hdisc, hfailed⟩ := writes_clean hreach i k d impl pkt res h
    exact ⟨hdisc, hfailed, write_frameAt hreach k d impl pkt res (List.mem_of_getElem? h)⟩

/-- Two broadcasts from connection 1; the second is cut off after three bytes. -/
theorem writes_framed_cutOff :
    ∃ s, Reachable gatewayMacAddress s ∧
      bytesOn s.log 0 = txBufBytes .hyperkitProtocol arpFrame ++ [15, 0, 255] ∧
      (∃ tail, bytesOn s.log 0 =
          ((framesOn s.log 0).map (txBufBytes .hyperkitProtocol)).flatten ++ tail ∧
        CutOff s.log .hyperkitProtocol tail) ∧
      .disconnect 0 ∉ s.log.take 32 ∧ 6 < 23 := by
  obtain ⟨s, hreach, hbytes, hconnect, hrecv, hrecv', hw, hw'⟩ := reachable_of_exec
    (fun s => bytesOn s.log 0 = txBufBytes .hyperkitProtocol arpFrame ++ [15, 0, 255] ∧
      Action.connect 0 .hyperkitProtocol ∈ s.log ∧
      s.log[6]? = some (Action.recv 1 arpFrame) ∧ s.log[23]? = some (Action.recv 1 arpFrame) ∧
      s.log[15]? = some (Action.write 6 0 .hyperkitProtocol arpFrame .ok) ∧
      s.log[32]? = some (Action.write 23 0 .hyperkitProtocol arpFrame (.err 3)))
    (accepts 0 .hyperKitProtocol ++ accepts 1 .hyperKitProtocol ++
      [receives 1 arpFrame] ++ goes 1 7 ++ [⟨1, .order [0, 1]⟩, ⟨1, .write .ok⟩] ++ goes 1 7 ++
      [receives 1 arpFrame] ++ goes 1 7 ++ [⟨1, .order [0, 1]⟩, ⟨1, .write (.err 3)⟩] ++ goes 1 2)
    (by decide)
  obtain ⟨hframed, hclean, horder⟩ := writes_framed_and_ordered hreach 0
  exact ⟨s, hreach, hbytes, hframed _ hconnect, (hclean 32 23 _ _ _ hw').1,
    horder 15 32 6 23 1 (by decide) ⟨_, _, _, hw⟩ ⟨_, _, _, hw'⟩ ⟨_, hrecv⟩ ⟨_, hrecv'⟩⟩

/-! ## Back to the sender -/

/-- The frame an action looks up. -/
def Action.looksUp : Action → Option FrameKey
  | .lookup key _ _ => some key
  | _ => none

/-- The connection and the bytes of a received frame. -/
def receivedFrame (log : List Action) (k : FrameKey) : Option (ConnId × List UInt8) :=
  log[k]?.bind (fun b => match b with | .recv id f => some (id, f) | _ => none)

/-- When a frame received on a connection is looked up, `e.cam` still maps its
source to that connection (or the connection is gone) if it is a broadcast,
and does not map its destination to it otherwise. -/
def SenderKnown (s : State) (a : Action) : Prop :=
  ∀ k ∈ a.looksUp, ∀ r ∈ receivedFrame s.log k, ∀ p ∈ (txAddresses r.2).toOption,
    if p.1 = ethernetBroadcastAddress then
      s.sw.cam.lookup p.2 = some r.1 ∨ r.1 ∉ s.sw.conns.keys
    else s.sw.cam.lookup p.1 ≠ some r.1

instance (s : State) (a : Action) : Decidable (SenderKnown s a) :=
  inferInstanceAs (Decidable (∀ k ∈ a.looksUp, ∀ r ∈ receivedFrame s.log k,
    ∀ p ∈ (txAddresses r.2).toOption,
      if p.1 = ethernetBroadcastAddress then
        s.sw.cam.lookup p.2 = some r.1 ∨ r.1 ∉ s.sw.conns.keys
      else s.sw.cam.lookup p.1 ≠ some r.1))

/-- A lookup that meets the condition does not find the sender. -/
theorem targets_of_senderKnown (hreach : Reachable gateway s) {t : Goroutine} {pc : Pc}
    {k : FrameKey} {conns : List ConnId} {hit : Option ConnId}
    (hmoves : Moves gateway s (s.pc t) pc (.lookup k conns hit))
    (hok : SenderKnown s (.lookup k conns hit)) {id : ConnId} {f : List UInt8}
    (hk : s.log[k]? = some (.recv id f)) {dst src : LinkAddress}
    (haddr : txAddresses f = .ok (dst, src)) : targets dst conns hit id = 0 := by
  obtain ⟨x, dst', src', hpc, rfl, rfl, rfl⟩ := hmoves.lookup_eq
  -- the lookup uses the addresses of the frame that was received
  obtain ⟨haddr', -⟩ := txProgress hreach hpc
  have hpkt : x.pkt = f := by
    have hframe := frameAt_tx hreach hpc
    rw [frameAt, hk] at hframe
    exact (Option.some.inj hframe).symm
  rw [hpkt, haddr] at haddr'
  obtain ⟨rfl, rfl⟩ := Prod.mk.inj (Except.ok.inj haddr')
  have hknown := hok x.key rfl (id, f) (by rw [receivedFrame, hk]; rfl) (dst, src)
    (by rw [haddr]; rfl)
  by_cases hdst : dst = ethernetBroadcastAddress
  · rw [if_pos hdst] at hknown ⊢
    rw [targets, if_pos hdst]
    exact if_neg fun h => hknown.elim h.2 fun hgone => hgone h.1
  · rw [if_neg hdst] at hknown ⊢
    rw [targets, if_neg hdst]
    exact if_neg hknown

/-- With such lookups only, no lookup of a frame finds its sender. -/
theorem targets_trace (hrun : Runs gateway SenderKnown State.init s) :
    ∀ k id f, s.log[k]? = some (.recv id f) → ∀ dst src, txAddresses f = .ok (dst, src) →
      ∀ l ∈ (trace s.log k).lookups, targets dst l.1 l.2 id = 0 := by
  induction hrun using Runs.invariant with
  | init => exact nofun
  | step s t pc a sw hrun ih hok hs _ =>
    intro k id f hk dst src haddr l hl
    have hl : l ∈ (trace (s.log ++ [a]) k).lookups := hl
    rcases getElem?_append_one hk with ⟨-, hold⟩ | ⟨rfl, rfl⟩
    · rw [trace_append] at hl
      rcases FrameTrace.mem_lookups_add hl with hl | rfl
      · exact ih k id f hold dst src haddr l hl
      · exact targets_of_senderKnown hrun.reach hs.moves hok hold haddr
    · have hkey : (Action.recv id f).key? ≠ some s.log.length := nofun
      rw [trace_append_of_ne hkey, trace_fresh hrun.reach _ (Nat.le_refl _)] at hl
      exact absurd hl nofun

/-- **Never back.** In every run, up to a panic, whose lookups meet the
condition, no frame is written on the connection it was received on. -/
theorem never_back_of_senderKnown (hrun : Runs gateway SenderKnown State.init s) {k : FrameKey}
    {id : ConnId} {f : List UInt8} (hk : s.log[k]? = some (.recv id f)) :
    ∀ impl pkt res, .write k id impl pkt res ∉ s.log := by
  intro impl pkt res hw
  have hmem := mem_writes_of_mem_log hw
  rcases (settled hrun.reach k _ hk).1 with ⟨-, hnone, -⟩ |
    ⟨conns, hit, _, ⟨dst, src, order, res', haddr, hnodup, horder, rfl⟩, hlookups, hwrites, -⟩
  · rw [hnone] at hmem
    exact absurd hmem nofun
  · have hzero := targets_trace hrun k id f hk dst src haddr (conns, hit)
      (by rw [hlookups]; exact List.mem_singleton.mpr rfl)
    have hcount := count_txWrites_le dst hit res' hnodup horder id
    rw [hzero, Nat.le_zero, List.count_eq_zero] at hcount
    exact hcount (List.mem_map_of_mem (hwrites.subset hmem))

/-- A broadcast that meets the condition. -/
theorem never_back_broadcast :
    ∃ s, Runs gatewayMacAddress SenderKnown State.init s ∧
      .write 6 0 .qemuProtocol arpFrame .ok ∈ s.log ∧
      ∀ impl pkt res, .write 6 1 impl pkt res ∉ s.log := by
  obtain ⟨s, hrun, hrecv, hwrite⟩ := runs_of_exec SenderKnown
    (fun s => s.log[6]? = some (Action.recv 1 arpFrame) ∧
      Action.write 6 0 .qemuProtocol arpFrame .ok ∈ s.log)
    (accepts 0 .qemuProtocol ++ accepts 1 .hyperKitProtocol ++ [receives 1 arpFrame] ++
      goes 1 7 ++ [⟨1, .order [0, 1]⟩, ⟨1, .write .ok⟩] ++ goes 1 7)
    (by decide)
  exact ⟨s, hrun, hwrite, never_back_of_senderKnown hrun hrecv⟩

/-- A frame to its own source address is sent back. So is a broadcast, when a
second connection with the same address learns before the first one sends. -/
theorem frame_written_back :
    (∃ s, Reachable gatewayMacAddress s ∧
      s.log[3]? = some (.recv 0 (tapMacAddress ++ tapMacAddress ++ [8, 0])) ∧
      .write 3 0 .hyperkitProtocol (tapMacAddress ++ tapMacAddress ++ [8, 0]) .ok ∈ s.log) ∧
    ∃ s, Reachable gatewayMacAddress s ∧ s.log[6]? = some (.recv 0 arpFrame) ∧
      .write 6 0 .hyperkitProtocol arpFrame .ok ∈ s.log := by
  constructor
  · exact reachable_of_exec _
      (accepts 0 .hyperKitProtocol ++
        [receives 0 (tapMacAddress ++ tapMacAddress ++ [8, 0])] ++ goes 0 8 ++ [⟨0, .write .ok⟩])
      (by decide)
  · exact reachable_of_exec _
      (accepts 0 .hyperKitProtocol ++ accepts 1 .hyperKitProtocol ++ [receives 0 arpFrame] ++
        goes 0 2 ++ [receives 1 arpFrame] ++ goes 1 2 ++ goes 0 5 ++
        [⟨0, .order [0, 1]⟩, ⟨0, .write .ok⟩])
      (by decide)

end GvisorTapVsock.Tap
