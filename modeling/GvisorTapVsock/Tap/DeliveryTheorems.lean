/-
GvisorTapVsock.Tap.DeliveryTheorems — who gets a frame.

`Tap.Progress` says what one frame's trace looks like in every run. Here it is
read for its two uses. `broadcast_refines` connects the big-step loop of
`Tap.TxPkt` to the interleaved switch. `delivers_of_noFailure` describes the
switch in the runs where no write fails and every frame has an Ethernet
header: nothing panics, the table holds the last learn of each address, and
each frame goes where its destination says, once and byte for byte. A frame is
never dropped on the way: it is with `rxBuf` or `txPkt` until they return, and
when they have it is at all its targets.
-/
import GvisorTapVsock.Tap.CamTheorems
import GvisorTapVsock.Tap.FailureTheorems
import GvisorTapVsock.Tap.Progress
import GvisorTapVsock.Tap.RxPathTheorems

namespace GvisorTapVsock.Tap

open GvisorTapVsock.Go GvisorTapVsock.Lts

variable {gateway : LinkAddress} {s : State}

/-! ## Broadcasts in the interleaved switch -/

/-- When the broadcast branch is done, the writes are those of the loop over
the connections there were at the lookup, and `e.conns` is what the loop
leaves of them. -/
theorem broadcast_refines (hreach : Reachable gateway s) {t : Goroutine} {x : Tx}
    (hpc : s.pc t = .tx x .unlock) {addr : LinkAddress}
    (haddr : txAddresses x.pkt = .ok (ethernetBroadcastAddress, addr)) :
    ∃ conns hit order res, order.Perm conns ∧
      (trace s.log x.key).lookups = [(conns, hit)] ∧
      (trace s.log x.key).writes = rangeWrites (srcID hit) res order ∧
      s.sw.conns.keys =
        conns.filter (fun d => decide (d ∉ disconnected (rangeWrites (srcID hit) res order))) := by
  obtain ⟨conns, hit, _, ⟨dst, src, order, res, haddr', -, horder, rfl⟩, hcur, htr⟩ :=
    txProgress hreach hpc
  obtain ⟨rfl, -⟩ := Prod.mk.inj (Except.ok.inj (haddr.symm.trans haddr'))
  rw [txWrites_broadcast] at hcur htr
  exact ⟨conns, hit, order, res, horder, by rw [htr], by rw [htr], hcur⟩

/-! ## Runs without a failing write -/

/-- The bytes a frame came in with. -/
def Action.frame? : Action → Option (List UInt8)
  | .recv _ frame => some frame
  | .send pkt => some pkt
  | _ => none

/-- No write fails, and every frame has at least an Ethernet header. -/
def NoFailure (_ : State) (a : Action) : Prop :=
  a.failsOn = none ∧ ∀ frame ∈ a.frame?, ethernetMinimumSize ≤ frame.length

instance (s : State) (a : Action) : Decidable (NoFailure s a) :=
  inferInstanceAs (Decidable (_ ∧ ∀ frame ∈ a.frame?, ethernetMinimumSize ≤ frame.length))

/-- The frame with a key. -/
def frameAt (log : List Action) (k : FrameKey) : Option (List UInt8) :=
  log[k]?.bind Action.frame?

theorem mem_of_frameAt {log : List Action} {k : FrameKey} {f : List UInt8}
    (h : frameAt log k = some f) : ∃ b ∈ log, log[k]? = some b ∧ b.frame? = some f := by
  obtain ⟨b, hb, hf⟩ := Option.bind_eq_some_iff.mp h
  exact ⟨b, List.mem_of_getElem? hb, hb, hf⟩

theorem frameAt_rx (hreach : Reachable gateway s) {t : Goroutine} {r : RxCall}
    (h : (s.pc t).rx? = some r) : frameAt s.log r.key = some r.buf.toList := by
  rw [frameAt, frames_log hreach t _ _ (Pc.origin_mem_frames h)]
  rfl

theorem frameAt_tx (hreach : Reachable gateway s) {t : Goroutine} {x : Tx} {p : TxPc}
    (h : s.pc t = .tx x p) : frameAt s.log x.key = some x.pkt := by
  have hlog := frames_log hreach t
  rw [h] at hlog
  cases x with
  | rxBuf r => rw [frameAt, Tx.key, hlog r.key _ (List.mem_singleton.mpr rfl)]; rfl
  | gateway r key pkt =>
    rw [frameAt, Tx.key, hlog key _ (List.mem_cons_of_mem _ (List.mem_singleton.mpr rfl))]; rfl
  | stack key pkt => rw [frameAt, Tx.key, hlog key _ (List.mem_singleton.mpr rfl)]; rfl

theorem frameAt_append {log : List Action} {k : FrameKey} {f : List UInt8} (a : Action)
    (h : frameAt log k = some f) : frameAt (log ++ [a]) k = some f := by
  obtain ⟨b, -, hb, hf⟩ := mem_of_frameAt h
  rw [frameAt, List.getElem?_append_left (List.getElem?_eq_some_iff.mp hb).1, hb]
  exact hf

/-- A write is made with the bytes of its frame. -/
theorem Steps.write_frame (hreach : Reachable gateway s) {t : Goroutine} {pc : Pc}
    {sw : Switch} {key : FrameKey} {d : ConnId} {impl : ProtocolImpl} {pkt : List UInt8}
    {res : WriteResult} (hs : Steps gateway s t pc (.write key d impl pkt res) sw) :
    frameAt s.log key = some pkt := by
  obtain ⟨-, -, -, -, x, p, hpc, rfl, rfl⟩ := hs.moves.write_eq
  exact frameAt_tx hreach hpc

/-- Every write in the log carries the bytes of its frame. -/
theorem write_frameAt (hreach : Reachable gateway s) :
    ∀ key d impl pkt res, .write key d impl pkt res ∈ s.log → frameAt s.log key = some pkt := by
  induction hreach using Reachable.invariant with
  | init => exact nofun
  | step s t pc a sw hreach ih hs =>
    intro key d impl pkt res h
    show frameAt (s.log ++ [a]) key = some pkt
    rcases List.mem_append.mp h with h | h
    · exact frameAt_append a (ih key d impl pkt res h)
    · obtain rfl := List.mem_singleton.mp h
      exact frameAt_append _ (hs.write_frame hreach)

section NoFailure

variable (hrun : Runs gateway NoFailure State.init s)
include hrun

/-- Every action of the log meets the condition. -/
theorem noFailure_log : ∀ a ∈ s.log, NoFailure s a := by
  induction hrun using Runs.invariant with
  | init => exact nofun
  | step s t pc a sw _ ih hok _ _ =>
    intro b hb
    rcases List.mem_append.mp hb with hb | hb
    · exact ih b hb
    · exact List.mem_singleton.mp hb ▸ hok

theorem not_failed (id : ConnId) : ¬ Failed s.log id := by
  rintro ⟨a, ha, hfail⟩
  exact absurd (hfail.symm.trans (noFailure_log hrun a ha).1) nofun

/-- Without a failing write nobody learns for a connection that is gone. -/
theorem learnsConnected_of_noFailure : Runs gateway LearnsConnected State.init s := by
  refine hrun.mono ?_
  intro s e hrun _ a ha id hid hdisc
  obtain ⟨pc, hmoves⟩ := moves_of_action ha
  cases a with
  | learn i src =>
    obtain rfl := Option.some.inj hid
    exact not_failed hrun i
      (failed_of_disconnected hrun.reach _ i hmoves.liveId_of_learn hdisc)
  | _ => exact absurd hid nofun

theorem frameOk_of_frameAt {k : FrameKey} {f : List UInt8} (h : frameAt s.log k = some f) :
    ethernetMinimumSize ≤ f.length := by
  obtain ⟨b, hb, -, hf⟩ := mem_of_frameAt h
  exact (noFailure_log hrun b hb).2 f hf

/-- Nothing panics. -/
theorem panicked_of_noFailure : s.panicked = none := by
  refine Option.eq_none_iff_forall_ne_some.mpr ?_
  induction hrun using Runs.invariant with
  | init => exact nofun
  | step s t pc a sw hrun _ _ hs _ =>
    intro p hpanic
    obtain rfl := panicked_append_eq_some.mp hpanic
    have hlen : ∀ r, (s.pc t).rx? = some r → 14 ≤ r.buf.len ∧ FrameOk gateway r.buf.toList := by
      intro r hr
      have hlong := frameOk_of_frameAt hrun (frameAt_rx hrun.reach hr)
      exact ⟨by rwa [Slice.length_toList] at hlong, Or.inl hlong⟩
    rcases hs.moves.of_panic with ⟨r, hr, h | h | h⟩ | ⟨x, q, hpc, h⟩ | ⟨x, id, hpc, hgone⟩
    · rw [sourceAddress_of_le _ (Nat.le_trans (by decide) (hlen r hr).1)] at h
      exact absurd h nofun
    · rw [isForwarded_of_le _ (Nat.le_trans (by decide) (hlen r hr).1)] at h
      exact absurd h nofun
    · rw [handedUp_of_frameOk _ (hlen r hr).2] at h
      exact absurd h nofun
    · have hlong := frameOk_of_frameAt hrun (frameAt_tx hrun.reach hpc)
      rw [txAddresses_of_le _ (Nat.le_trans (by decide) hlong)] at h
      exact absurd h nofun
    · obtain ⟨impl, hconn⟩ := unicast_conns (learnsConnected_of_noFailure hrun) t x id hpc
      exact absurd (hgone.symm.trans hconn) nofun

/-- All writes of the trace succeeded. -/
theorem disconnected_trace (k : FrameKey) : disconnected (trace s.log k).writes = [] := by
  refine List.eq_nil_iff_forall_not_mem.mpr fun d hd => ?_
  obtain ⟨n, hw⟩ := mem_disconnected.mp hd
  obtain ⟨impl, pkt, hlog⟩ := mem_log_of_mem_writes hw
  exact not_failed hrun d ⟨_, hlog, rfl⟩

end NoFailure

/-! ## Where frames go -/

/-- The number of writes on a connection. -/
def FrameTrace.writesOn (tr : FrameTrace) (d : ConnId) : Nat := (tr.writes.map Prod.fst).count d

/-- A frame is looked up once and written to its targets and nobody else: at
most once on the way, exactly once when `txPkt` has returned. -/
def Written (f : List UInt8) (tr : FrameTrace) : Prop :=
  (tr.lookups = [] ∧ tr.writes = [] ∧ tr.txReturns = 0) ∨
    ∃ conns hit, tr.lookups = [(conns, hit)] ∧
      (∀ d, tr.writesOn d ≤ targets (f.take 6) conns hit d) ∧
      (tr.txReturns ≠ 0 → ∀ d, tr.writesOn d = targets (f.take 6) conns hit d)

/-- The address `txPkt` looks up. -/
def lookupAddress (f : List UInt8) : LinkAddress :=
  if f.take 6 = ethernetBroadcastAddress then (f.drop 6).take 6 else f.take 6

theorem TxSettled.written {f : List UInt8} {tr : FrameTrace}
    (hlen : ethernetMinimumSize ≤ f.length) (hok : disconnected tr.writes = [])
    (h : TxSettled f tr) : Written f tr := by
  rcases h with h | ⟨conns, hit, writes, ⟨dst, src, order, res, haddr, hnodup, horder, rfl⟩,
    hlookups, hwrites, hret⟩
  · exact Or.inl h
  · rw [txAddresses_of_le _ (Nat.le_trans (by decide) hlen)] at haddr
    obtain ⟨rfl, -⟩ := Prod.mk.inj (Except.ok.inj haddr)
    refine Or.inr ⟨conns, hit, hlookups, fun d => ?_, fun hne d => ?_⟩
    · calc tr.writesOn d
          ≤ ((txWrites (f.take 6) hit res order).map Prod.fst).count d :=
            (hwrites.map Prod.fst).sublist.count_le d
        _ ≤ targets (f.take 6) conns hit d := count_txWrites_le _ _ _ hnodup horder d
    · have hall := hret hne
      rw [FrameTrace.writesOn, hall]
      exact count_txWrites_eq hnodup horder (hall ▸ hok) d

theorem Moves.lookup_eq {pc pc' : Pc} {k : FrameKey} {conns : List ConnId}
    {hit : Option ConnId} (h : Moves gateway s pc pc' (.lookup k conns hit)) :
    ∃ x dst src, pc = .tx x (.lookup dst src) ∧ k = x.key ∧ conns = s.sw.conns.keys ∧
      hit = s.sw.cam.lookup (if dst = ethernetBroadcastAddress then src else dst) := by
  cases h with
  | tx moves =>
    cases moves with
    | lookupBroadcast order => exact ⟨_, _, _, rfl, rfl, rfl, by rw [if_pos rfl]⟩
    | lookupMiss unicast miss => exact ⟨_, _, _, rfl, rfl, rfl, by rw [if_neg unicast, miss]⟩
    | lookupHit unicast hit => exact ⟨_, _, _, rfl, rfl, rfl, by rw [if_neg unicast, hit]⟩

/-- The lookup sees the table and the connections there are. -/
theorem lookup_step (hreach : Reachable gateway s) {e : Event} {k : FrameKey} {f : List UInt8}
    {conns : List ConnId} {hit : Option ConnId} (hlen : ethernetMinimumSize ≤ f.length)
    (hact : s.action gateway e = some (.lookup k conns hit)) (hf : frameAt s.log k = some f) :
    conns = s.sw.conns.keys ∧ hit = s.sw.cam.lookup (lookupAddress f) := by
  obtain ⟨pc, hmoves⟩ := moves_of_action hact
  obtain ⟨x, dst, src, hpc, rfl, hconns, hhit⟩ := hmoves.lookup_eq
  obtain ⟨haddr, -⟩ := txProgress hreach hpc
  have hpkt : x.pkt = f := Option.some.inj ((frameAt_tx hreach hpc).symm.trans hf)
  rw [hpkt, txAddresses_of_le _ (Nat.le_trans (by decide) hlen)] at haddr
  obtain ⟨rfl, rfl⟩ := Prod.mk.inj (Except.ok.inj haddr)
  exact ⟨hconns, hhit⟩

/-- What the switch does with its frames. -/
structure Delivers (gateway : LinkAddress) (s : State) : Prop where
  running : s.panicked = none
  /-- The table points at the connection that learned an address last, unless
  it was disconnected since. -/
  table : ∀ m id, s.sw.cam.lookup m = some id ↔ LearnedLast s.log m id
  /-- A received frame is handed to the gateway at most once, and as `handedTo`
  says. -/
  handed : ∀ k id f, s.log[k]? = some (.recv id f) →
    (trace s.log k).delivered = [] ∨
      (trace s.log k).delivered = (handedTo gateway f).toList
  /-- When `rxBuf` has returned it has been, and `txPkt` has returned as well
  unless the frame was for the gateway alone. -/
  returned : ∀ k id f, s.log[k]? = some (.recv id f) → (trace s.log k).rxReturns ≠ 0 →
    (trace s.log k).delivered = (handedTo gateway f).toList ∧
      (f.take 6 ≠ gateway → (trace s.log k).txReturns ≠ 0)
  /-- A received frame for the gateway is written to no connection. -/
  kept : ∀ k id f, s.log[k]? = some (.recv id f) → f.take 6 = gateway →
    (trace s.log k).writes = []
  /-- A frame is written to its targets. -/
  written : ∀ k f, frameAt s.log k = some f → Written f (trace s.log k)
  /-- The targets are those its lookup took from `e.conns` and `e.cam`. -/
  looked : ∀ e s' k f conns hit, step gateway s e = some s' →
    s.action gateway e = some (.lookup k conns hit) → frameAt s.log k = some f →
    conns = s.sw.conns.keys ∧ hit = s.sw.cam.lookup (lookupAddress f)
  /-- A received frame is with its rx loop until `rxBuf` has returned. -/
  handled : ∀ k id f, s.log[k]? = some (.recv id f) →
    s.Handling k ∨ (trace s.log k).rxReturns ≠ 0
  /-- A packet of the gateway is in `txPkt` until `txPkt` has returned. -/
  transmitted : ∀ k pkt, s.log[k]? = some (.send pkt) →
    s.Transmitting k ∨ (trace s.log k).txReturns ≠ 0
  /-- What is written is the frame. -/
  bytes : ∀ k d impl pkt res, .write k d impl pkt res ∈ s.log → frameAt s.log k = some pkt

/-- A received frame with a header: what its trace says of the gateway. -/
theorem RxSettled.of_frameOk {f : List UInt8} {buf : Slice UInt8} {tr : FrameTrace}
    (hlen : ethernetMinimumSize ≤ f.length) (hbuf : buf.toList = f)
    (h : RxSettled gateway buf tr) :
    (tr.delivered = [] ∨ tr.delivered = (handedTo gateway f).toList) ∧
      (tr.rxReturns ≠ 0 → tr.delivered = (handedTo gateway f).toList ∧
        (f.take 6 ≠ gateway → tr.txReturns ≠ 0)) ∧
      (f.take 6 = gateway → tr.writes = []) := by
  subst hbuf
  have hup := handedUp_of_frameOk gateway (Or.inl hlen)
  have hlen' : 6 ≤ buf.len := by
    rw [Slice.length_toList] at hlen
    exact Nat.le_trans (by decide) hlen
  have hfwd := isForwarded_of_le gateway hlen'
  refine ⟨h.handed.imp_right ?_, fun hret => ?_, fun hdst => ?_⟩
  · rintro ⟨up, hup', hdel⟩
    rw [hdel, Except.ok.inj (hup.symm.trans hup')]
    rfl
  · obtain ⟨htx, up, hup', hdel⟩ := h.returned hret
    refine ⟨by rw [hdel, Except.ok.inj (hup.symm.trans hup')], fun hdst => htx ?_⟩
    rw [hfwd, decide_eq_true hdst]
  · refine (h.kept ?_).2
    rw [hfwd]
    exact fun hyes => of_decide_eq_true (Except.ok.inj hyes) hdst

/-- **Delivery.** In every run in which no write fails and every frame has an
Ethernet header, every state reached has delivered as it should. -/
theorem delivers_of_noFailure (hrun : Runs gateway NoFailure State.init s) :
    Delivers gateway s := by
  have hrecv : ∀ k id f, s.log[k]? = some (.recv id f) →
      ∃ buf : Slice UInt8, ethernetMinimumSize ≤ f.length ∧ buf.toList = f ∧
        RxSettled gateway buf (trace s.log k) := by
    intro k id f h
    obtain ⟨-, buf, hbuf, hrx⟩ := settled hrun.reach k _ h
    exact ⟨buf, frameOk_of_frameAt hrun (k := k) (by rw [frameAt, h]; rfl), hbuf, hrx⟩
  constructor
  · exact panicked_of_noFailure hrun
  · exact cam_eq_history hrun.reach
  · intro k id f h
    obtain ⟨buf, hlen, hbuf, hrx⟩ := hrecv k id f h
    exact (hrx.of_frameOk hlen hbuf).1
  · intro k id f h
    obtain ⟨buf, hlen, hbuf, hrx⟩ := hrecv k id f h
    exact (hrx.of_frameOk hlen hbuf).2.1
  · intro k id f h
    obtain ⟨buf, hlen, hbuf, hrx⟩ := hrecv k id f h
    exact (hrx.of_frameOk hlen hbuf).2.2
  · intro k f h
    obtain ⟨b, -, hb, hf⟩ := mem_of_frameAt h
    have hset := settled hrun.reach k b hb
    have htx : TxSettled f (trace s.log k) := by
      cases b with
      | recv id g => exact Option.some.inj hf ▸ hset.1
      | send pkt => exact Option.some.inj hf ▸ hset
      | _ => exact absurd hf nofun
    exact htx.written (frameOk_of_frameAt hrun h) (disconnected_trace hrun k)
  · intro e s' k f conns hit _ hact hf
    exact lookup_step hrun.reach (frameOk_of_frameAt hrun hf) hact hf
  · intro k id f h
    exact (underWay hrun.reach k _ h).imp_left fun ⟨_, hframes⟩ => State.handling_of_frames hframes
  · intro k pkt h
    exact (underWay hrun.reach k _ h).imp_left
      fun ⟨_, hframes⟩ => State.transmitting_of_frames hframes
  · exact write_frameAt hrun.reach

/-- A broadcast frame of type ARP with one byte of payload. -/
def arpFrame : List UInt8 := ethernetBroadcastAddress ++ tapMacAddress ++ [8, 6, 1]

/-- A broadcast from connection 1 reaches connection 0 and the gateway, once. -/
theorem delivers_broadcast :
    ∃ s, Runs gatewayMacAddress NoFailure State.init s ∧
      (trace s.log 6).delivered = [(0x0806, [1])] ∧ (trace s.log 6).writesOn 0 = 1 ∧
      (trace s.log 6).writesOn 1 = 0 := by
  obtain ⟨s, hrun, hlog, hret, hlook⟩ := runs_of_exec NoFailure
    (fun s => s.log[6]? = some (Action.recv 1 arpFrame) ∧
      (trace s.log 6).rxReturns = 1 ∧ (trace s.log 6).lookups = [([1, 0], some 1)])
    (accepts 0 .qemuProtocol ++ accepts 1 .hyperKitProtocol ++
      [receives 1 arpFrame] ++ goes 1 7 ++
      [⟨1, .order [0, 1]⟩, ⟨1, .write .ok⟩] ++ goes 1 7)
    (by decide)
  have hd := delivers_of_noFailure hrun
  obtain ⟨hup, htx⟩ := hd.returned 6 1 _ hlog (by rw [hret]; decide)
  rcases hd.written 6 _ (by rw [frameAt, hlog]; rfl) with ⟨hnone, -⟩ | ⟨conns, hit, hlook', -, hall⟩
  · exact absurd (hnone.symm.trans hlook) nofun
  · obtain ⟨rfl, rfl⟩ := Prod.mk.inj (List.cons.inj (hlook'.symm.trans hlook)).1
    refine ⟨s, hrun, hup.trans (by decide), ?_, ?_⟩
    · exact (hall (htx (by decide)) 0).trans (by decide)
    · exact (hall (htx (by decide)) 1).trans (by decide)

end GvisorTapVsock.Tap
