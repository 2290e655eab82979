/-
GvisorTapVsock.Tap.Progress — the trace of a frame against the place of the
goroutine that handles it.

`Progress` says, for every program counter, what has happened so far to the
frames the goroutine has under way: nothing before the lookup, the writes on
the visited connections inside the `range`, all writes of one call of `txPkt`
(`TxWrote`) after it, the delivery to the gateway last. It holds in every
reachable state, failing writes included (`progress`). `settled` reads it for
ALL frames of the log, those whose goroutine has moved on included.
-/
import GvisorTapVsock.Tap.FrameTrace
import GvisorTapVsock.Tap.TxPkt

namespace GvisorTapVsock.Tap

open GvisorTapVsock.Go GvisorTapVsock.Lts

variable {gateway : LinkAddress} {s : State}

/-! ## Inside `txPkt` -/

/-- The writes are those of one call of `txPkt`, for some order of the `range`
and some way each write ends. -/
def TxWrote (pkt : List UInt8) (conns : List ConnId) (hit : Option ConnId)
    (writes : List (ConnId × WriteResult)) : Prop :=
  ∃ dst src order res, txAddresses pkt = .ok (dst, src) ∧ order.Nodup ∧ order.Perm conns ∧
    writes = txWrites dst hit res order

/-- The trace of a packet while `txPkt` handles it; `cur` are the keys of
`e.conns`. -/
def TxProgress (pkt : List UInt8) (cur : List ConnId) (tr : FrameTrace) : TxPc → Prop
  | .writeLock | .connLock | .parse => tr = .empty
  | .camRLock dst src | .lookup dst src => txAddresses pkt = .ok (dst, src) ∧ tr = .empty
  | .range src rest | .sentRange src rest =>
      ∃ hit visited addr, txAddresses pkt = .ok (ethernetBroadcastAddress, addr) ∧
        src = srcID hit ∧ (visited ++ rest).Perm cur ∧
        tr = ⟨[(cur, hit)], rangeWrites src (fun _ => .ok) visited, [], 0, 0⟩
  | .unicast id =>
      ∃ dst src, txAddresses pkt = .ok (dst, src) ∧ dst ≠ ethernetBroadcastAddress ∧
        tr = ⟨[(cur, some id)], [], [], 0, 0⟩
  | .camLock id | .disconnect id =>
      ∃ hit writes, TxWrote pkt cur hit writes ∧ disconnected writes = [id] ∧
        tr = ⟨[(cur, hit)], writes, [], 0, 0⟩
  | .sentUnicast | .unlock =>
      ∃ conns hit writes, TxWrote pkt conns hit writes ∧
        cur = conns.filter (fun d => decide (d ∉ disconnected writes)) ∧
        tr = ⟨[(conns, hit)], writes, [], 0, 0⟩

/-- The trace of a packet when `txPkt` has returned. -/
def TxReturned (pkt : List UInt8) (tr : FrameTrace) : Prop :=
  ∃ conns hit writes, TxWrote pkt conns hit writes ∧ tr = ⟨[(conns, hit)], writes, [], 1, 0⟩

/-- A call that has made all its writes without an error. -/
theorem txProgress_unlock {pkt : List UInt8} {cur : List ConnId} {hit : Option ConnId}
    {writes : List (ConnId × WriteResult)} (hwrote : TxWrote pkt cur hit writes)
    (hok : disconnected writes = []) :
    TxProgress pkt cur ⟨[(cur, hit)], writes, [], 0, 0⟩ .unlock := by
  refine ⟨cur, hit, writes, hwrote, ?_, rfl⟩
  rw [hok]
  simp

theorem disconnected_all_ok (src : Int) (visited : List ConnId) :
    disconnected (rangeWrites src (fun _ => .ok) visited) = [] := by
  refine List.eq_nil_iff_forall_not_mem.mpr fun d hd => ?_
  obtain ⟨n, hw⟩ := mem_disconnected.mp hd
  exact absurd (of_mem_rangeWrites src hw).2.2 nofun

/-- The visited connections and one that fails make up a whole call. -/
theorem txWrote_fail {pkt : List UInt8} {addr : LinkAddress} {cur visited rest : List ConnId}
    {id : ConnId} {hit : Option ConnId} {n : Nat}
    (haddr : txAddresses pkt = .ok (ethernetBroadcastAddress, addr))
    (hnodup : (visited ++ id :: rest).Nodup) (horder : (visited ++ id :: rest).Perm cur)
    (hid : (id : Int) ≠ srcID hit) :
    TxWrote pkt cur hit (rangeWrites (srcID hit) (fun _ => .ok) visited ++ [(id, .err n)]) := by
  have hvisited : ∀ d ∈ visited, (if d = id then WriteResult.err n else .ok) = .ok := by
    intro d hd
    refine if_neg fun heq => ?_
    exact (List.nodup_append.mp hnodup).2.2 d hd id List.mem_cons_self heq
  refine ⟨_, addr, visited ++ id :: rest, fun d => if d = id then .err n else .ok, haddr,
    hnodup, horder, ?_⟩
  rw [txWrites_broadcast, rangeWrites_append (srcID hit) _ hvisited,
    rangeWrites_err (srcID hit) rest hid (if_pos rfl)]

/-- The one write of a unicast, or none. -/
theorem txWrote_unicast {pkt : List UInt8} {dst src : LinkAddress} {cur : List ConnId}
    (haddr : txAddresses pkt = .ok (dst, src)) (hdst : dst ≠ ethernetBroadcastAddress)
    (hnodup : cur.Nodup) (hit : Option ConnId) (res : WriteResult) :
    TxWrote pkt cur hit (hit.toList.map (fun id => (id, res))) :=
  ⟨dst, src, cur, fun _ => res, haddr, hnodup, List.Perm.refl cur,
    (txWrites_unicast hdst hit _ cur).symm⟩

section TxStep

variable {sw sw' : Switch} {x : Tx} {pc : TxPc} {pc' : Pc} {a : Action} {t : Goroutine}
  {tr : FrameTrace}

/-- One step of `txPkt` takes the trace along, up to the return. -/
theorem TxMoves.progress (h : TxMoves sw x pc pc' a) (happ : sw.apply t a = some sw')
    (hp : TxProgress x.pkt sw.conns.keys tr pc) :
    (∃ p, pc' = .tx x p ∧ TxProgress x.pkt sw'.conns.keys (tr.add x.key a) p) ∨
      (pc' = x.ret ∧ TxReturned x.pkt (tr.add x.key a)) := by
  cases h with
  | writeLock | connLock => exact Or.inl ⟨_, rfl, hp⟩
  | parse addresses => exact Or.inl ⟨_, rfl, addresses, hp⟩
  | parsePanic addresses => exact Or.inl ⟨_, rfl, hp⟩
  | camRLock => exact Or.inl ⟨_, rfl, hp⟩
  | @lookupBroadcast src ids order =>
    obtain ⟨haddr, rfl⟩ := hp
    obtain rfl := Option.some.inj happ
    refine Or.inl ⟨_, rfl, sw.cam.lookup src, [], src, haddr, rfl, order, ?_⟩
    rw [FrameTrace.add_lookup_self]
    rfl
  | lookupMiss unicast miss =>
    obtain ⟨haddr, rfl⟩ := hp
    obtain rfl := Option.some.inj happ
    have hwrote := txWrote_unicast haddr unicast sw.conns.keys_nodup none .ok
    refine Or.inl ⟨_, rfl, ?_⟩
    rw [FrameTrace.add_lookup_self]
    exact txProgress_unlock hwrote rfl
  | lookupHit unicast hit =>
    obtain ⟨haddr, rfl⟩ := hp
    obtain rfl := Option.some.inj happ
    exact Or.inl ⟨_, rfl, _, _, haddr, unicast, FrameTrace.add_lookup_self _ _ _ _⟩
  | rangeEnd =>
    obtain ⟨hit, visited, addr, haddr, rfl, horder, rfl⟩ := hp
    obtain rfl := Option.some.inj happ
    rw [List.append_nil] at horder
    refine Or.inl ⟨_, rfl, txProgress_unlock ?_ (disconnected_all_ok _ visited)⟩
    exact ⟨_, addr, visited, fun _ => .ok, haddr, horder.nodup_iff.mpr sw.conns.keys_nodup,
      horder, (txWrites_broadcast _ _ _).symm⟩
  | @rangeGone src id rest gone =>
    obtain ⟨hit, visited, addr, haddr, rfl, horder, rfl⟩ := hp
    -- what is still to be visited is in `e.conns`
    have hmem : id ∈ sw.conns := horder.subset (List.mem_append_right _ List.mem_cons_self)
    exact absurd (AList.lookup_eq_none.mp gone) (not_not_intro hmem)
  | @rangeSender id rest =>
    obtain ⟨hit, visited, addr, haddr, hid, horder, rfl⟩ := hp
    obtain rfl := Option.some.inj happ
    refine Or.inl ⟨_, rfl, hit, visited ++ [id], addr, haddr, hid, ?_, ?_⟩
    · rwa [List.append_assoc]
    · rw [rangeWrites_append _ [id] fun _ _ => rfl, rangeWrites_sender _ [] rfl,
        rangeWrites, List.append_nil]
      rfl
  | @rangeWrite src id rest impl conn other =>
    obtain ⟨hit, visited, addr, haddr, rfl, horder, rfl⟩ := hp
    obtain rfl := Option.some.inj happ
    refine Or.inl ⟨_, rfl, hit, visited ++ [id], addr, haddr, rfl, ?_, ?_⟩
    · rwa [List.append_assoc]
    · rw [rangeWrites_append _ [id] fun _ _ => rfl, rangeWrites_ok _ [] other rfl]
      exact FrameTrace.add_write_self _ _ _ _ _ _
  | @rangeFail src id rest impl n conn other bound =>
    obtain ⟨hit, visited, addr, haddr, rfl, horder, rfl⟩ := hp
    obtain rfl := Option.some.inj happ
    have hnodup := horder.nodup_iff.mpr sw.conns.keys_nodup
    refine Or.inl ⟨_, rfl, hit, _, txWrote_fail (n := n) haddr hnodup horder other, ?_, ?_⟩
    · rw [disconnected, List.filterMap_append, ← disconnected, disconnected_all_ok]
      rfl
    · exact FrameTrace.add_write_self _ _ _ _ _ _
  | unicastNil gone => exact Or.inl ⟨_, rfl, (Option.some.inj happ) ▸ hp⟩
  | @unicastWrite id impl conn =>
    obtain ⟨dst, src, haddr, hdst, rfl⟩ := hp
    obtain rfl := Option.some.inj happ
    have hwrote := txWrote_unicast haddr hdst sw.conns.keys_nodup (some id) .ok
    rw [FrameTrace.add_write_self]
    exact Or.inl ⟨_, rfl, txProgress_unlock hwrote rfl⟩
  | @unicastFail id impl n conn bound =>
    obtain ⟨dst, src, haddr, hdst, rfl⟩ := hp
    obtain rfl := Option.some.inj happ
    have hwrote := txWrote_unicast haddr hdst sw.conns.keys_nodup (some id) (.err n)
    exact Or.inl ⟨_, rfl, some id, _, hwrote, rfl, FrameTrace.add_write_self _ _ _ _ _ _⟩
  | sentRange | sentUnicast => exact Or.inl ⟨_, rfl, (Option.some.inj happ) ▸ hp⟩
  | camLock =>
    obtain ⟨_, -, rfl⟩ := Option.map_eq_some_iff.mp happ
    exact Or.inl ⟨_, rfl, hp⟩
  | @disconnect id =>
    obtain ⟨hit, writes, hwrote, hdisc, rfl⟩ := hp
    obtain rfl := Option.some.inj happ
    refine Or.inl ⟨_, rfl, sw.conns.keys, hit, writes, hwrote, ?_, rfl⟩
    show (sw.conns.erase id).keys = _
    rw [AList.keys_erase, hdisc, sw.conns.keys_nodup.erase_eq_filter]
    exact List.filter_congr fun d _ => Bool.eq_iff_iff.mpr (by simp)
  | unlock =>
    obtain ⟨conns, hit, writes, hwrote, -, rfl⟩ := hp
    exact Or.inr ⟨rfl, conns, hit, writes, hwrote, FrameTrace.add_txReturn_self _ _⟩

end TxStep

theorem TxMoves.key_eq {sw : Switch} {x : Tx} {pc : TxPc} {pc' : Pc} {a : Action}
    (h : TxMoves sw x pc pc' a) {k : FrameKey} (hk : a.key? = some k) : k = x.key := by
  cases h with
  | lookupBroadcast | lookupMiss | lookupHit | rangeWrite | rangeFail | unicastWrite |
    unicastFail | unlock => exact (Option.some.inj hk).symm
  | _ => exact absurd hk nofun

/-- `e.conns` matters under `connLock` only. -/
theorem TxProgress.congr {pkt : List UInt8} {cur cur' : List ConnId} {tr : FrameTrace}
    {pc : TxPc} (hcur : pc.holdsConn = true → cur' = cur) (hp : TxProgress pkt cur tr pc) :
    TxProgress pkt cur' tr pc := by
  cases pc with
  | writeLock | connLock => exact hp
  | _ => exact hcur rfl ▸ hp

/-! ## Inside `rxBuf` -/

/-- The trace of a received frame when its forwarding is over. -/
def RxForwarded (gateway : LinkAddress) (buf : Slice UInt8) (tr : FrameTrace) : Prop :=
  (isForwarded gateway buf = .ok false ∧ tr.lookups = [] ∧ tr.writes = [] ∧ tr.txReturns = 0) ∨
    (isForwarded gateway buf = .ok true ∧ tr.txReturns = 1 ∧
      ∃ conns hit, TxWrote buf.toList conns hit tr.writes ∧ tr.lookups = [(conns, hit)])

/-- The same, with what was delivered to the gateway. -/
def RxDelivered (gateway : LinkAddress) (r : RxCall) (tr : FrameTrace)
    (up : Option (Nat × List UInt8)) : Prop :=
  RxForwarded gateway r.buf tr ∧ tr.delivered = up.toList ∧ tr.rxReturns = 0

/-- The traces of the frames a goroutine has under way. -/
def Progress (gateway : LinkAddress) (cur : List ConnId) (tr : FrameKey → FrameTrace) : Pc → Prop
  | .learnLock r | .learn r | .forward r => tr r.key = .empty
  | .tx (.rxBuf r) pc =>
      isForwarded gateway r.buf = .ok true ∧ TxProgress r.buf.toList cur (tr r.key) pc
  | .tx (.gateway r key pkt) pc =>
      (∃ up, handedUp gateway r.buf = .ok (some up) ∧
        RxDelivered gateway r (tr r.key) (some up)) ∧ TxProgress pkt cur (tr key) pc
  | .tx (.stack key pkt) pc => TxProgress pkt cur (tr key) pc
  | .handUp r => RxDelivered gateway r (tr r.key) none
  | .inGateway r =>
      ∃ up, handedUp gateway r.buf = .ok (some up) ∧ RxDelivered gateway r (tr r.key) (some up)
  | .count r => ∃ up, handedUp gateway r.buf = .ok up ∧ RxDelivered gateway r (tr r.key) up
  | _ => True

theorem Progress.congr {cur cur' : List ConnId} {tr tr' : FrameKey → FrameTrace} {pc : Pc}
    (htr : ∀ k b, (k, b) ∈ pc.frames → tr' k = tr k) (hcur : pc.holdsConn = true → cur' = cur)
    (hp : Progress gateway cur tr pc) : Progress gateway cur' tr' pc := by
  cases pc with
  | learnLock r | learn r | forward r =>
    exact (htr r.key _ (List.mem_singleton.mpr rfl)).trans hp
  | handUp r | inGateway r | count r =>
    have hr := htr r.key _ (List.mem_singleton.mpr rfl)
    simpa only [Progress, hr] using hp
  | tx x pc =>
    cases x with
    | rxBuf r =>
      have hr := htr r.key _ (List.mem_singleton.mpr rfl)
      exact ⟨hp.1, hr ▸ TxProgress.congr hcur hp.2⟩
    | gateway r key pkt =>
      have hr := htr r.key _ List.mem_cons_self
      have hkey := htr key _ (List.mem_cons_of_mem _ (List.mem_singleton.mpr rfl))
      exact ⟨hr ▸ hp.1, hkey ▸ TxProgress.congr hcur hp.2⟩
    | stack key pkt =>
      have hkey := htr key _ (List.mem_singleton.mpr rfl)
      show TxProgress pkt cur' (tr' key) pc
      rw [hkey]
      exact TxProgress.congr hcur hp
  | _ => trivial

/-- The goroutine that moves takes the traces of its frames along. -/
theorem Moves.progress {pc pc' : Pc} {a : Action} {t : Goroutine} {sw : Switch}
    (h : Moves gateway s pc pc' a) (happ : s.sw.apply t a = some sw)
    (hlog : ∀ k b, (k, b) ∈ pc.frames → s.log[k]? = some b)
    (hfresh : trace s.log s.log.length = .empty)
    (hp : Progress gateway s.sw.conns.keys (trace s.log) pc) :
    Progress gateway sw.conns.keys (trace (s.log ++ [a])) pc' := by
  have hnew : a.key? = none → trace (s.log ++ [a]) s.log.length = .empty := by
    intro hkey
    rw [trace_append_of_ne (by rw [hkey]; exact nofun), hfresh]
  cases h with
  | send | recv => exact hnew rfl
  | learnLock | learn | learnPanic | forwardPanic => exact (trace_append _ _ _).trans hp
  | forward forwarded => exact ⟨forwarded, (trace_append _ _ _).trans hp⟩
  | keep forwarded =>
    have hempty := (trace_append s.log .tau _).trans hp
    rw [Progress, hempty]
    exact ⟨Or.inl ⟨forwarded, rfl, rfl, rfl⟩, rfl, rfl⟩
  | @tx x pc _ _ moves =>
    cases x with
    | rxBuf r =>
      obtain ⟨hfwd, htx⟩ := hp
      rcases moves.progress happ htx with ⟨p, rfl, htx⟩ | ⟨rfl, conns, hit, writes, hwrote, htr⟩
      · exact ⟨hfwd, (trace_append _ _ _) ▸ htx⟩
      · rw [Tx.ret, Progress, trace_append]
        rw [Tx.key] at htr
        rw [htr]
        exact ⟨Or.inr ⟨hfwd, rfl, conns, hit, hwrote, rfl⟩, rfl, rfl⟩
    | gateway r key pkt =>
      obtain ⟨hup, htx⟩ := hp
      -- the frame that was delivered and the answer have different keys
      have hne : a.key? ≠ some r.key := by
        intro hk
        have hrecv := hlog r.key _ List.mem_cons_self
        have hsend := hlog key _ (List.mem_cons_of_mem _ (List.mem_singleton.mpr rfl))
        rw [moves.key_eq hk] at hrecv
        exact absurd (hrecv.symm.trans hsend) (by simp)
      rcases moves.progress happ htx with ⟨p, rfl, htx⟩ | ⟨rfl, -⟩
      · rw [Progress, trace_append_of_ne hne, trace_append s.log a key]
        exact ⟨hup, htx⟩
      · show Progress gateway _ _ (.inGateway r)
        rw [Progress, trace_append_of_ne hne]
        exact hup
    | stack key pkt =>
      rcases moves.progress happ hp with ⟨p, rfl, htx⟩ | ⟨rfl, -⟩
      · rw [Progress, trace_append]
        exact htx
      · trivial
  | @handUp r type payload handed =>
    obtain ⟨hfwd, hdel, hret⟩ := hp
    refine ⟨(type, payload), handed, ?_⟩
    rw [trace_append, FrameTrace.add_deliver_self]
    exact ⟨hfwd, by rw [hdel]; rfl, hret⟩
  | handUpNone handed => exact ⟨none, handed, (trace_append _ _ _) ▸ hp⟩
  | handUpPanic =>
    rw [Progress, trace_append]
    exact hp
  | answer => exact ⟨(trace_append s.log _ _) ▸ hp, hnew rfl⟩
  | gatewayReturn =>
    obtain ⟨up, handed, hdel⟩ := hp
    exact ⟨some up, handed, (trace_append _ _ _) ▸ hdel⟩
  | _ => trivial

/-- **Progress.** In every reachable state every goroutine is as far with its
frames as its program counter says. -/
theorem progress (hreach : Reachable gateway s) :
    ∀ t, Progress gateway s.sw.conns.keys (trace s.log) (s.pc t) := by
  induction hreach using Reachable.invariant with
  | init =>
    intro t
    trivial
  | step s t pc a sw hreach ih hs =>
    intro t'
    show Progress gateway sw.conns.keys (trace (s.log ++ [a])) (Function.update s.pc t pc t')
    by_cases ht : t' = t
    · subst ht
      rw [Function.update_self]
      exact hs.moves.progress hs.applies (fun k b => frames_log hreach t' k b)
        (trace_fresh hreach _ (Nat.le_refl _)) (ih t')
    · rw [Function.update_of_ne ht]
      refine (ih t').congr (fun k b h => hs.trace_of_other hreach ht h) fun hholds => ?_
      rw [hs.conns_of_other hreach ht hholds]

theorem txProgress (hreach : Reachable gateway s) {t : Goroutine} {x : Tx} {p : TxPc}
    (hpc : s.pc t = .tx x p) : TxProgress x.pkt s.sw.conns.keys (trace s.log x.key) p := by
  have hp := progress hreach t
  rw [hpc] at hp
  cases x with
  | rxBuf r => exact hp.2
  | gateway r key pkt => exact hp.2
  | stack key pkt => exact hp

/-! ## All frames -/

/-- A packet that `txPkt` was or will be called with: no more writes than those
of one call, and all of them when it has returned. -/
def TxSettled (pkt : List UInt8) (tr : FrameTrace) : Prop :=
  (tr.lookups = [] ∧ tr.writes = [] ∧ tr.txReturns = 0) ∨
    ∃ conns hit writes, TxWrote pkt conns hit writes ∧ tr.lookups = [(conns, hit)] ∧
      tr.writes <+: writes ∧ (tr.txReturns ≠ 0 → tr.writes = writes)

/-- A received frame: forwarded only if `isForwarded`, handed to the gateway at
most once, and all of it when `rxBuf` has returned. -/
structure RxSettled (gateway : LinkAddress) (buf : Slice UInt8) (tr : FrameTrace) : Prop where
  kept : isForwarded gateway buf ≠ .ok true → tr.lookups = [] ∧ tr.writes = []
  handed : tr.delivered = [] ∨ ∃ up, handedUp gateway buf = .ok (some up) ∧ tr.delivered = [up]
  returned : tr.rxReturns ≠ 0 →
    (isForwarded gateway buf = .ok true → tr.txReturns ≠ 0) ∧
      ∃ up, handedUp gateway buf = .ok up ∧ tr.delivered = up.toList

/-- The trace of a frame, by the action that brought it in. -/
def Settled (gateway : LinkAddress) : Action → FrameTrace → Prop
  | .recv _ frame, tr =>
      TxSettled frame tr ∧ ∃ buf : Slice UInt8, buf.toList = frame ∧ RxSettled gateway buf tr
  | .send pkt, tr => TxSettled pkt tr
  | _, _ => True

theorem settled_empty (b : Action) : Settled gateway b .empty := by
  cases b with
  | recv id frame =>
    exact ⟨Or.inl ⟨rfl, rfl, rfl⟩, Slice.exact frame, Slice.toList_exact _,
      fun _ => ⟨rfl, rfl⟩, Or.inl rfl, fun h => absurd rfl h⟩
  | send pkt => exact Or.inl ⟨rfl, rfl, rfl⟩
  | _ => trivial

theorem TxProgress.settled {pkt : List UInt8} {cur : List ConnId} {tr : FrameTrace} {pc : TxPc}
    (hcur : cur.Nodup) (hp : TxProgress pkt cur tr pc) :
    TxSettled pkt tr ∧ tr.delivered = [] ∧ tr.rxReturns = 0 := by
  cases pc with
  | writeLock | connLock | parse =>
    obtain rfl := hp
    exact ⟨Or.inl ⟨rfl, rfl, rfl⟩, rfl, rfl⟩
  | camRLock dst src | lookup dst src =>
    obtain ⟨-, rfl⟩ := hp
    exact ⟨Or.inl ⟨rfl, rfl, rfl⟩, rfl, rfl⟩
  | range src rest | sentRange src rest =>
    obtain ⟨hit, visited, addr, haddr, rfl, horder, rfl⟩ := hp
    refine ⟨Or.inr ⟨cur, hit, _, ⟨_, addr, visited ++ rest, fun _ => .ok, haddr,
      horder.nodup_iff.mpr hcur, horder, rfl⟩, rfl, ?_, fun h => absurd rfl h⟩, rfl, rfl⟩
    rw [txWrites_broadcast, rangeWrites_append _ _ fun _ _ => rfl]
    exact List.prefix_append _ _
  | unicast id =>
    obtain ⟨dst, src, haddr, -, rfl⟩ := hp
    exact ⟨Or.inr ⟨cur, some id, _, ⟨dst, src, cur, fun _ => .ok, haddr, hcur, .refl _, rfl⟩,
      rfl, List.nil_prefix, fun h => absurd rfl h⟩, rfl, rfl⟩
  | camLock id | disconnect id =>
    obtain ⟨hit, writes, hwrote, -, rfl⟩ := hp
    exact ⟨Or.inr ⟨cur, hit, writes, hwrote, rfl, List.prefix_refl _, fun _ => rfl⟩, rfl, rfl⟩
  | sentUnicast | unlock =>
    obtain ⟨conns, hit, writes, hwrote, -, rfl⟩ := hp
    exact ⟨Or.inr ⟨conns, hit, writes, hwrote, rfl, List.prefix_refl _, fun _ => rfl⟩, rfl, rfl⟩

theorem TxReturned.settled {pkt : List UInt8} {tr : FrameTrace} (h : TxReturned pkt tr) :
    TxSettled pkt tr := by
  obtain ⟨conns, hit, writes, hwrote, rfl⟩ := h
  exact Or.inr ⟨conns, hit, writes, hwrote, rfl, List.prefix_refl _, fun _ => rfl⟩

theorem RxForwarded.settled {buf : Slice UInt8} {tr : FrameTrace}
    (h : RxForwarded gateway buf tr) : TxSettled buf.toList tr := by
  rcases h with ⟨-, hlookups, hwrites, hret⟩ | ⟨-, -, conns, hit, hwrote, hlookups⟩
  · exact Or.inl ⟨hlookups, hwrites, hret⟩
  · exact Or.inr ⟨conns, hit, tr.writes, hwrote, hlookups, List.prefix_refl _, fun _ => rfl⟩

/-- A frame that was forwarded, and delivered as far as `up` says. -/
theorem RxForwarded.rxSettled {buf : Slice UInt8} {tr : FrameTrace}
    (h : RxForwarded gateway buf tr) {up : Option (Nat × List UInt8)}
    (hup : up = none ∨ handedUp gateway buf = .ok up) (hdel : tr.delivered = up.toList)
    (hret : tr.rxReturns ≠ 0 → handedUp gateway buf = .ok up) : RxSettled gateway buf tr where
  kept hfwd := by
    rcases h with ⟨-, hlookups, hwrites, -⟩ | ⟨hyes, -⟩
    · exact ⟨hlookups, hwrites⟩
    · exact absurd hyes hfwd
  handed := by
    cases up with
    | none => exact Or.inl hdel
    | some up => exact Or.inr ⟨up, hup.resolve_left nofun, hdel⟩
  returned hne := by
    refine ⟨fun hyes => ?_, up, hret hne, hdel⟩
    rcases h with ⟨hno, -⟩ | ⟨-, hone, -⟩
    · exact absurd (hyes.symm.trans hno) (by simp)
    · rw [hone]
      exact Nat.one_ne_zero

theorem RxDelivered.settled {r : RxCall} {tr : FrameTrace} {up : Option (Nat × List UInt8)}
    (h : RxDelivered gateway r tr up) (hup : up = none ∨ handedUp gateway r.buf = .ok up) :
    Settled gateway (.recv r.id r.buf.toList) tr := by
  obtain ⟨hfwd, hdel, hret⟩ := h
  exact ⟨hfwd.settled, r.buf, rfl, hfwd.rxSettled hup hdel fun hne => absurd hret hne⟩

theorem Progress.settled {cur : List ConnId} {tr : FrameKey → FrameTrace} {pc : Pc}
    (hcur : cur.Nodup) (hp : Progress gateway cur tr pc) {k : FrameKey} {b : Action}
    (h : (k, b) ∈ pc.frames) :
    Settled gateway b (tr k) := by
  cases pc with
  | learnLock r | learn r | forward r =>
    obtain ⟨rfl, rfl⟩ := Prod.mk.inj (List.mem_singleton.mp h)
    rw [Progress] at hp
    rw [hp]
    exact settled_empty _
  | handUp r =>
    obtain ⟨rfl, rfl⟩ := Prod.mk.inj (List.mem_singleton.mp h)
    exact RxDelivered.settled hp (Or.inl rfl)
  | inGateway r =>
    obtain ⟨rfl, rfl⟩ := Prod.mk.inj (List.mem_singleton.mp h)
    obtain ⟨up, hup, hdel⟩ := hp
    exact hdel.settled (Or.inr hup)
  | count r =>
    obtain ⟨rfl, rfl⟩ := Prod.mk.inj (List.mem_singleton.mp h)
    obtain ⟨up, hup, hdel⟩ := hp
    exact hdel.settled (Or.inr hup)
  | tx x pc =>
    cases x with
    | rxBuf r =>
      obtain ⟨rfl, rfl⟩ := Prod.mk.inj (List.mem_singleton.mp h)
      obtain ⟨hfwd, htx⟩ := hp
      obtain ⟨htx, hdel, hret⟩ := htx.settled hcur
      exact ⟨htx, r.buf, rfl, fun hno => absurd hfwd hno, Or.inl hdel, fun hne => absurd hret hne⟩
    | gateway r key pkt =>
      obtain ⟨⟨up, hup, hdel⟩, htx⟩ := hp
      rcases List.mem_cons.mp h with h | h
      · obtain ⟨rfl, rfl⟩ := Prod.mk.inj h
        exact hdel.settled (Or.inr hup)
      · obtain ⟨rfl, rfl⟩ := Prod.mk.inj (List.mem_singleton.mp h)
        exact (htx.settled hcur).1
    | stack key pkt =>
      obtain ⟨rfl, rfl⟩ := Prod.mk.inj (List.mem_singleton.mp h)
      exact (TxProgress.settled hcur hp).1
  | _ => exact absurd h nofun

/-- A frame the goroutine is done with. -/
theorem Moves.settled_of_dropped {pc pc' : Pc} {a : Action} {t : Goroutine} {sw : Switch}
    (h : Moves gateway s pc pc' a) (happ : s.sw.apply t a = some sw)
    (hp : Progress gateway s.sw.conns.keys (trace s.log) pc) {k : FrameKey} {b : Action}
    (hmem : (k, b) ∈ pc.frames) (hdrop : (k, b) ∉ pc'.frames) (hkey : a.key? = some k) :
    Settled gateway b (trace (s.log ++ [a]) k) := by
  cases h with
  | @tx x pc _ _ moves =>
    have hk := moves.key_eq hkey
    subst hk
    rw [trace_append]
    cases x with
    | rxBuf r =>
      rcases moves.progress happ hp.2 with ⟨p, rfl, -⟩ | ⟨rfl, -⟩
      · exact absurd hmem hdrop
      · exact absurd hmem hdrop
    | gateway r key pkt =>
      rcases moves.progress happ hp.2 with ⟨p, rfl, -⟩ | ⟨rfl, hret⟩
      · exact absurd hmem hdrop
      · rcases List.mem_cons.mp hmem with hmem | hmem
        · exact absurd (List.mem_singleton.mpr hmem) hdrop
        · obtain ⟨-, rfl⟩ := Prod.mk.inj (List.mem_singleton.mp hmem)
          exact hret.settled
    | stack key pkt =>
      rcases moves.progress happ hp with ⟨p, rfl, -⟩ | ⟨rfl, hret⟩
      · exact absurd hmem hdrop
      · obtain ⟨-, rfl⟩ := Prod.mk.inj (List.mem_singleton.mp hmem)
        exact hret.settled
  | @count r =>
    obtain ⟨rfl, rfl⟩ := Prod.mk.inj (List.mem_singleton.mp hmem)
    obtain ⟨up, hup, hfwd, hdel, -⟩ := hp
    have hfwd : RxForwarded gateway r.buf { trace s.log r.key with
        rxReturns := (trace s.log r.key).rxReturns + 1 } := hfwd
    rw [trace_append, FrameTrace.add_received_self]
    exact ⟨hfwd.settled, r.buf, rfl, hfwd.rxSettled (Or.inr hup) hdel fun _ => hup⟩
  | handUp => exact absurd hmem hdrop
  | _ => exact absurd hkey nofun

/-- **Every frame of the log** has a trace that one call of `rxBuf` and one of
`txPkt` leave. -/
theorem settled (hreach : Reachable gateway s) :
    ∀ k b, s.log[k]? = some b → Settled gateway b (trace s.log k) := by
  induction hreach using Reachable.invariant with
  | init => exact nofun
  | step s t pc a sw hreach ih hs =>
    intro k b hb
    show Settled gateway b (trace (s.log ++ [a]) k)
    have hb : (s.log ++ [a])[k]? = some b := hb
    by_cases hkey : a.key? = some k
    · obtain ⟨b', hmem⟩ := hs.moves.key_mem hkey
      have hb' := frames_log hreach t k b' hmem
      rw [List.getElem?_append_left (frames_lt hreach hmem), hb', Option.some.injEq] at hb
      subst hb
      have hp := progress hreach t
      by_cases hstay : (k, b') ∈ pc.frames
      · exact (hs.moves.progress hs.applies (fun k b => frames_log hreach t k b)
          (trace_fresh hreach _ (Nat.le_refl _)) hp).settled sw.conns.keys_nodup hstay
      · exact hs.moves.settled_of_dropped hs.applies hp hmem hstay hkey
    · rw [trace_append_of_ne hkey]
      rcases Nat.lt_or_ge k s.log.length with hlt | hge
      · rw [List.getElem?_append_left hlt] at hb
        exact ih k b hb
      · rw [trace_fresh hreach k hge]
        exact settled_empty b

end GvisorTapVsock.Tap
