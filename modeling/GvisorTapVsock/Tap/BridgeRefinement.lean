/-
GvisorTapVsock.Tap.BridgeRefinement — the switch is a learning bridge that does
one thing at a time.

The goroutines of the switch interleave at every lock, table access and write.
`history` reads a log as operations of the sequential bridge of `Lts.Bridge`:
a `txPkt` counts as ONE operation, at its lookup, with all the writes it has
made so far, wherever they stand in the log.

  * `after_ops` — the tables of the switch are those of the bridge;
  * `legal_of_split` — each operation is one the bridge may do where it stands;
  * `writes_eq_blocks` — the writes of the log are those of one frame after the
    other, since a `txPkt` holds `connLock` from its lookup to its return.

The write that fails and the `disconnect` it causes are two operations, since
another goroutine may learn in between.
-/
import GvisorTapVsock.Lts.Bridge
import GvisorTapVsock.Tap.WriteTheorems

namespace GvisorTapVsock.Tap

open GvisorTapVsock.Go GvisorTapVsock.Lts

variable {gateway : LinkAddress} {s : State}

/-! ## The bridge of a switch -/

def WriteResult.failed : WriteResult → Bool
  | .ok => false
  | .err _ => true

/-- The way of a packet, as `txPkt` reads it. A packet without addresses is
never looked up. -/
def dest (pkt : List UInt8) : Dest LinkAddress :=
  match txAddresses pkt with
  | .ok (dst, src) => if dst = ethernetBroadcastAddress then .broadcast src else .unicast dst
  | .error _ => .unicast []

/-- The operation an action stands for, with the writes of the whole log. -/
def Action.op? (log : List Action) :
    Action → Option (BridgeOp LinkAddress ConnId WriteResult (List UInt8))
  | .connect id _ => some (.attach id)
  | .disconnect id => some (.detach id)
  | .learn id src => some (.learn id src)
  | .lookup key _ _ =>
      let pkt := (frameAt log key).getD []
      let tr := trace log key
      some (.transmit pkt (dest pkt) tr.writes (decide (tr.txReturns ≠ 0)))
  | _ => none

/-- A log as operations of the bridge. -/
def history (log : List Action) : List (BridgeOp LinkAddress ConnId WriteResult (List UInt8)) :=
  log.filterMap (Action.op? log)

/-- The tables of the switch. -/
def Switch.bridge (sw : Switch) : Bridge LinkAddress ConnId :=
  ⟨{id | id ∈ sw.conns}, fun m => sw.cam.lookup m⟩

/-- A write with its frame. -/
def Action.sent? : Action → Option (List UInt8 × ConnId × WriteResult)
  | .write _ id _ pkt res => some (pkt, id, res)
  | _ => none

/-! ## Tables -/

/-- An action changes the tables as its operation does. -/
theorem bridge_apply {sw sw' : Switch} {t : Goroutine} {a : Action} (log : List Action)
    (h : sw.apply t a = some sw') : sw'.bridge = sw.bridge.after (a.op? log).toList := by
  cases a with
  | connect id impl =>
    obtain rfl := Option.some.inj h
    have hports : {d | d ∈ sw.conns.insert id impl} = insert id {d | d ∈ sw.conns} := by
      ext d
      simp [AList.mem_insert]
    exact congrArg (Bridge.mk · _) hports
  | disconnect id =>
    obtain rfl := Option.some.inj h
    have hports : {d | d ∈ sw.conns.erase id} = {d | d ∈ sw.conns} \ {id} := by
      ext d
      simp [AList.mem_erase, and_comm]
    have htable : (fun m => (sw.disconnect id).cam.lookup m) =
        fun m => (sw.cam.lookup m).filter fun q => decide (q ≠ id) := by
      funext m
      refine Option.ext fun i => ?_
      rw [Switch.cam_disconnect, Option.filter_eq_some_iff]
      simp
    exact congrArg₂ Bridge.mk hports htable
  | learn id src =>
    obtain rfl := Option.some.inj h
    have htable : (fun m => (sw.cam.insert src id).lookup m) =
        Function.update (fun m => sw.cam.lookup m) src (some id) := by
      funext m
      rw [GoMap.lookup_insert_eq, Function.update_apply]
    exact congrArg (Bridge.mk _) htable
  | lockWrite | lockConn | lockCam | rlockCam =>
    obtain ⟨_, -, rfl⟩ := Option.map_eq_some_iff.mp h
    rfl
  | _ =>
    obtain rfl := Option.some.inj h
    rfl

/-- The tables of the switch are those of the bridge, whatever the
transmissions say. -/
theorem after_ops (hreach : Reachable gateway s) (log : List Action) :
    Bridge.empty.after (s.log.filterMap (Action.op? log)) = s.sw.bridge := by
  induction hreach using Reachable.invariant with
  | init =>
    show Bridge.empty = Switch.new.bridge
    simp [Bridge.empty, Switch.bridge, Switch.new]
  | step s t pc a sw _ ih hs =>
    have hone : [a].filterMap (Action.op? log) = (a.op? log).toList := by
      cases hop : a.op? log <;> simp [hop]
    show Bridge.empty.after ((s.log ++ [a]).filterMap (Action.op? log)) = sw.bridge
    rw [List.filterMap_append, Bridge.after_append, ih, hone, bridge_apply log hs.applies]

/-! ## Positions in a run -/

/-- Every action of a log was taken in a state of the run, whose log ends
before it. -/
theorem exists_steps (hreach : Reachable gateway s) :
    ∀ {before : List Action} {a : Action} {rest : List Action}, s.log = before ++ a :: rest →
      ∃ s₀ t pc sw, Reachable gateway s₀ ∧ s₀.log = before ∧ Steps gateway s₀ t pc a sw := by
  induction hreach using Reachable.invariant with
  | init =>
    intro before a rest h
    simp [State.init] at h
  | step s t pc a sw hreach ih hs =>
    intro before b rest h
    rcases List.eq_nil_or_concat rest with rfl | ⟨rest, c, rfl⟩
    · obtain ⟨hlog, hb⟩ := List.append_inj' (h : s.log ++ [a] = before ++ [b]) rfl
      obtain rfl := (List.cons.inj hb).1
      exact ⟨s, t, pc, sw, hreach, hlog, hs⟩
    · have hlog : s.log ++ [a] = (before ++ b :: rest) ++ [c] := by
        simpa using h
      exact ih (List.append_inj' hlog rfl).1

/-! ## The trace of a frame as a part of the log -/

/-- The write under a key. -/
def Action.writeUnder? (k : FrameKey) : Action → Option (ConnId × WriteResult)
  | .write key id _ _ res => if key = k then some (id, res) else none
  | _ => none

theorem trace_writes (log : List Action) (k : FrameKey) :
    (trace log k).writes = log.filterMap (Action.writeUnder? k) := by
  induction log using List.reverseRecOn with
  | nil => rfl
  | append_singleton log a ih =>
    rw [trace_append, List.filterMap_append, ← ih]
    cases a with
    | write key id impl pkt res =>
      by_cases hkey : key = k <;> simp [FrameTrace.add, Action.writeUnder?, hkey]
    | lookup key | txReturn key | deliver key | received key =>
      by_cases hkey : key = k <;> simp [FrameTrace.add, Action.writeUnder?, hkey]
    | _ => simp [FrameTrace.add, Action.writeUnder?]

theorem trace_txReturns (log : List Action) (k : FrameKey) :
    (trace log k).txReturns = log.count (.txReturn k) := by
  induction log using List.reverseRecOn with
  | nil => rfl
  | append_singleton log a ih =>
    rw [trace_append, List.count_append, ← ih]
    cases a with
    | write key | lookup key | txReturn key | deliver key | received key =>
      by_cases hkey : key = k <;> simp [FrameTrace.add, hkey]
    | _ => simp [FrameTrace.add]

/-- The lookup under a key. -/
def Action.lookupUnder? (k : FrameKey) : Action → Option (List ConnId × Option ConnId)
  | .lookup key conns hit => if key = k then some (conns, hit) else none
  | _ => none

theorem trace_lookups (log : List Action) (k : FrameKey) :
    (trace log k).lookups = log.filterMap (Action.lookupUnder? k) := by
  induction log using List.reverseRecOn with
  | nil => rfl
  | append_singleton log a ih =>
    rw [trace_append, List.filterMap_append, ← ih]
    cases a with
    | write key | lookup key | txReturn key | deliver key | received key =>
      by_cases hkey : key = k <;> simp [FrameTrace.add, Action.lookupUnder?, hkey]
    | _ => simp [FrameTrace.add, Action.lookupUnder?]

theorem count_looksUp (log : List Action) (k : FrameKey) :
    (log.filterMap Action.looksUp).count k = (trace log k).lookups.length := by
  rw [trace_lookups]
  induction log with
  | nil => rfl
  | cons a log ih =>
    cases a with
    | lookup key conns hit =>
      by_cases hkey : key = k <;> simp [Action.looksUp, Action.lookupUnder?, hkey, ih]
    | _ => exact ih

/-! ## A transmission -/

/-- Nothing follows a write that failed. -/
theorem rangeWrites_stops (src : Int) {res : ConnId → WriteResult} :
    ∀ {order : List ConnId} {before : List (ConnId × WriteResult)} {w : ConnId × WriteResult}
      {rest : List (ConnId × WriteResult)}, rangeWrites src res order = before ++ w :: rest →
      w.2.failed = true → rest = [] := by
  intro order
  induction order with
  | nil =>
    intro before w rest h
    simp [rangeWrites] at h
  | cons id order ih =>
    intro before w rest h hfailed
    by_cases hid : (id : Int) = src
    · rw [rangeWrites_sender src _ hid] at h
      exact ih h hfailed
    · cases hres : res id with
      | ok =>
        rw [rangeWrites_ok src _ hid hres] at h
        cases before with
        | nil =>
          obtain ⟨rfl, -⟩ := List.cons.inj h
          cases hfailed
        | cons v before => exact ih (List.cons.inj h).2 hfailed
      | err n =>
        rw [rangeWrites_err src _ hid hres] at h
        cases before with
        | nil => exact (List.cons.inj h).2.symm
        | cons v before => simp at h

/-- What a call of `txPkt` does is a transmission of the bridge. -/
theorem TxWrote.transmits {pkt : List UInt8} {conns : List ConnId} {hit : Option ConnId}
    {all writes : List (ConnId × WriteResult)} {returned : Bool} {b : Bridge LinkAddress ConnId}
    {dst src : LinkAddress} (hwrote : TxWrote pkt conns hit all) (hwrites : writes <+: all)
    (hreturned : returned = true → writes = all) (haddr : txAddresses pkt = .ok (dst, src))
    (hports : b.ports = {d | d ∈ conns})
    (hhit : hit = b.table (if dst = ethernetBroadcastAddress then src else dst)) :
    b.Transmits WriteResult.failed (dest pkt) writes returned := by
  obtain ⟨dst', src', order, res, haddr', hnodup, horder, rfl⟩ := hwrote
  obtain ⟨rfl, rfl⟩ := Prod.mk.inj (Except.ok.inj (haddr.symm.trans haddr'))
  have honce := (hwrites.map Prod.fst).sublist.nodup (nodup_txWrites hnodup)
  obtain ⟨more, hmore⟩ := hwrites
  by_cases hdst : dst = ethernetBroadcastAddress
  · subst hdst
    rw [if_pos rfl] at hhit
    have hdest : dest pkt = .broadcast src := by simp [dest, haddr]
    rw [txWrites_broadcast] at hmore hreturned
    refine ⟨honce, fun w hw => ?_, fun before w rest hsplit hfailed => ?_, fun hret hok d hd => ?_⟩
    · have hmem : (w.1, w.2) ∈ rangeWrites (srcID hit) res order :=
        hmore ▸ List.mem_append_left _ hw
      obtain ⟨hd, hne, -⟩ := of_mem_rangeWrites _ hmem
      rw [hdest, Bridge.targets, hports]
      exact ⟨horder.subset hd, hhit ▸ ne_srcID_iff.mp hne⟩
    · have hall : rangeWrites (srcID hit) res order = before ++ w :: (rest ++ more) := by
        rw [← hmore, hsplit]
        simp
      exact (List.append_eq_nil_iff.mp (rangeWrites_stops _ hall hfailed)).1
    · rw [hdest, Bridge.targets, hports] at hd
      obtain ⟨hd, hne⟩ := hd
      have hnone : disconnected (rangeWrites (srcID hit) res order) = [] := by
        refine List.eq_nil_iff_forall_not_mem.mpr fun i hi => ?_
        obtain ⟨n, hn⟩ := mem_disconnected.mp hi
        exact absurd (hok _ (hreturned hret ▸ hn)) (by simp [WriteResult.failed])
      rw [hreturned hret, rangeWrites_of_disconnected_nil _ hnone, rangeWrites_all_ok]
      simpa [ne_srcID_iff, hhit] using ⟨horder.mem_iff.mpr hd, hne⟩
  · rw [if_neg hdst] at hhit
    have hdest : dest pkt = .unicast dst := by simp [dest, haddr, hdst]
    rw [txWrites_unicast hdst] at hmore hreturned
    refine ⟨honce, fun w hw => ?_, fun before w rest hsplit _ => ?_, fun hret _ d hd => ?_⟩
    · have hmem : w ∈ hit.toList.map fun id => (id, res id) := hmore ▸ List.mem_append_left _ hw
      rw [hdest, Bridge.targets]
      obtain ⟨d, hd, rfl⟩ := List.mem_map.mp hmem
      exact hhit ▸ Option.mem_toList.mp hd
    · -- there is one write at most
      have hlen := congrArg List.length hmore
      simp only [List.length_append, List.length_map, hsplit, List.length_cons] at hlen
      have hle : hit.toList.length ≤ 1 := by cases hit <;> simp
      exact List.length_eq_zero_iff.mp (by omega)
    · rw [hdest, Bridge.targets] at hd
      rw [hreturned hret, hhit, hd]
      simp

/-- The writes and lookups of a frame. -/
theorem txSettled (hreach : Reachable gateway s) {k : FrameKey} {f : List UInt8}
    (h : frameAt s.log k = some f) : TxSettled f (trace s.log k) := by
  obtain ⟨b, -, hb, hf⟩ := mem_of_frameAt h
  have hset := settled hreach k b hb
  cases b with
  | recv id g =>
    obtain rfl := Option.some.inj hf
    exact hset.1
  | send pkt =>
    obtain rfl := Option.some.inj hf
    exact hset
  | _ => cases hf

theorem frameAt_of_isPrefix {log log' : List Action} (h : log <+: log') {k : FrameKey}
    {f : List UInt8} (hf : frameAt log k = some f) : frameAt log' k = some f := by
  obtain ⟨b, -, hb, -⟩ := mem_of_frameAt hf
  obtain ⟨more, rfl⟩ := h
  rw [frameAt, List.getElem?_append_left (List.getElem?_eq_some_iff.mp hb).1]
  exact hf

/-- Each operation of a history is one the bridge may do where it stands. -/
theorem legal_of_split (hreach : Reachable gateway s) {before : List Action} {a : Action}
    {rest : List Action} (hsplit : s.log = before ++ a :: rest)
    {op : BridgeOp LinkAddress ConnId WriteResult (List UInt8)} (hop : a.op? s.log = some op) :
    (Bridge.empty.after (before.filterMap (Action.op? s.log))).Legal WriteResult.failed op := by
  obtain ⟨s₀, t, pc, sw, hreach₀, rfl, hs⟩ := exists_steps hreach hsplit
  rw [after_ops hreach₀ s.log]
  cases a with
  | connect id impl =>
    obtain rfl := Option.some.inj hop
    obtain ⟨rfl, -⟩ := hs.moves.connect_eq
    intro hmem
    obtain ⟨impl', hlookup⟩ := AList.lookup_isSome.mpr hmem |> Option.isSome_iff_exists.mp
    obtain ⟨t', hlive⟩ := live_of_conns hreach₀ _ impl' hlookup
    exact Nat.lt_irrefl _ (acceptOf_lt hreach₀ t' _ (Pc.acceptOf_of_liveId hlive))
  | disconnect id | learn id src =>
    obtain rfl := Option.some.inj hop
    trivial
  | lookup key conns hit =>
    obtain rfl := Option.some.inj hop
    obtain ⟨x, dst, src, hpc, rfl, rfl, hhit⟩ := hs.moves.lookup_eq
    obtain ⟨haddr, -⟩ := txProgress hreach₀ hpc
    have hframe : frameAt s.log x.key = some x.pkt :=
      frameAt_of_isPrefix ⟨_, hsplit.symm⟩ (frameAt_tx hreach₀ hpc)
    -- the frame has this lookup, so it has no other
    have hlookup : (s₀.sw.conns.keys, hit) ∈ (trace s.log x.key).lookups := by
      rw [trace_lookups]
      refine List.mem_filterMap.mpr ⟨.lookup x.key s₀.sw.conns.keys hit, ?_, ?_⟩
      · simp [hsplit]
      · simp [Action.lookupUnder?]
    rcases txSettled hreach hframe with ⟨hnone, -⟩ | ⟨conns, hit', all, hwrote, hone, hpre, hall⟩
    · rw [hnone] at hlookup
      cases hlookup
    · rw [hone, List.mem_singleton] at hlookup
      obtain ⟨rfl, rfl⟩ := Prod.mk.inj hlookup
      rw [hframe]
      exact hwrote.transmits hpre (fun hret => hall (of_decide_eq_true hret)) haddr rfl hhit
  | _ => cases hop

/-! ## One frame after the other -/

/-- The packet of a `txPkt` that has done its lookup. -/
def Pc.looked : Pc → Option FrameKey
  | .tx _ .writeLock | .tx _ .connLock | .tx _ .parse | .tx _ (.camRLock _ _)
  | .tx _ (.lookup _ _) => none
  | .tx x _ => some x.key
  | _ => none

theorem Pc.holdsConn_of_looked {pc : Pc} {k : FrameKey} (h : pc.looked = some k) :
    pc.holdsConn = true := by
  cases pc with
  | tx x p => cases p <;> first | rfl | cases h
  | _ => cases h

theorem Tx.looked_ret (x : Tx) : x.ret.looked = none := by
  cases x <;> rfl

/-- A `txPkt` past its lookup was there before, or has just done it. -/
theorem Moves.looked {pc pc' : Pc} {a : Action} (h : Moves gateway s pc pc' a) {k : FrameKey}
    (hk : pc'.looked = some k) :
    a.looksUp = some k ∨ a.looksUp = none ∧ pc.looked = some k := by
  cases h with
  | @tx x _ _ _ moves =>
    cases moves with
    | writeLock | connLock | parse | parsePanic | camRLock => cases hk
    | lookupBroadcast | lookupMiss | lookupHit => exact Or.inl hk
    | unlock => exact absurd (x.looked_ret.symm.trans hk) (by simp)
    | _ => exact Or.inr ⟨rfl, hk⟩
  | _ => cases hk

theorem Moves.holdsConn_of_looksUp {pc pc' : Pc} {a : Action} (h : Moves gateway s pc pc' a)
    {k : FrameKey} (hk : a.looksUp = some k) : pc.holdsConn = true := by
  cases h with
  | tx moves =>
    cases moves with
    | lookupBroadcast | lookupMiss | lookupHit => rfl
    | _ => cases hk
  | _ => cases hk

theorem Moves.looked_of_write {pc pc' : Pc} {key : FrameKey} {id : ConnId} {impl : ProtocolImpl}
    {pkt : List UInt8} {res : WriteResult}
    (h : Moves gateway s pc pc' (.write key id impl pkt res)) : pc.looked = some key := by
  cases h with
  | tx moves => cases moves <;> rfl

/-- The last lookup of a log is that of the packet that is being written. -/
theorem getLast_looksUp (hreach : Reachable gateway s) :
    ∀ t k, (s.pc t).looked = some k → (s.log.filterMap Action.looksUp).getLast? = some k := by
  induction hreach using Reachable.invariant with
  | init =>
    intro t k h
    cases h
  | step s t pc a sw hreach ih hs =>
    intro t' k hk
    show ((s.log ++ [a]).filterMap Action.looksUp).getLast? = some k
    rw [List.filterMap_append]
    by_cases ht : t' = t
    · subst ht
      simp only [Function.update_self] at hk
      rcases hs.moves.looked hk with hlook | ⟨hnone, hk⟩
      · simp [hlook]
      · simpa [hnone] using ih t' k hk
    · simp only [Function.update_of_ne ht] at hk
      -- another goroutine looks nothing up while this one holds `connLock`
      have hnone : a.looksUp = none := by
        cases hlook : a.looksUp with
        | none => rfl
        | some k' =>
          exact absurd (eq_of_holdsConn hreach (Pc.holdsConn_of_looked hk)
            (hs.moves.holdsConn_of_looksUp hlook)) ht
      simpa [hnone] using ih t' k hk

/-- A packet is looked up once. -/
theorem nodup_looksUp (hreach : Reachable gateway s) :
    (s.log.filterMap Action.looksUp).Nodup := by
  refine List.nodup_iff_count_le_one.mpr fun k => ?_
  rw [count_looksUp]
  by_cases hmem : k ∈ s.log.filterMap Action.looksUp
  · obtain ⟨a, ha, hk⟩ := List.mem_filterMap.mp hmem
    cases a with
    | lookup key conns hit =>
      obtain rfl := Option.some.inj hk
      obtain ⟨before, rest, hsplit⟩ := List.append_of_mem ha
      obtain ⟨s₀, t, pc, sw, hreach₀, rfl, hs⟩ := exists_steps hreach hsplit
      obtain ⟨x, dst, src, hpc, rfl, -, -⟩ := hs.moves.lookup_eq
      have hframe := frameAt_of_isPrefix ⟨_, hsplit.symm⟩ (frameAt_tx hreach₀ hpc)
      rcases txSettled hreach hframe with ⟨hnone, -⟩ | ⟨conns, hit, all, -, hone, -⟩
      · simp [hnone]
      · simp [hone]
    | _ => cases hk
  · rw [← count_looksUp, List.count_eq_zero.mpr hmem]
    exact Nat.zero_le 1

/-- A write with the key of its frame. -/
def Action.write? : Action → Option (FrameKey × List UInt8 × ConnId × WriteResult)
  | .write key id _ pkt res => some (key, pkt, id, res)
  | _ => none

/-- The operations that transmit are the lookups. -/
theorem history_sent (log acts : List Action) :
    (acts.filterMap (Action.op? log)).flatMap BridgeOp.sent =
      (acts.filterMap Action.looksUp).flatMap fun k =>
        (trace log k).writes.map fun w => ((frameAt log k).getD [], w) := by
  induction acts with
  | nil => rfl
  | cons a acts ih =>
    cases a with
    | lookup key conns hit =>
      simp [Action.op?, Action.looksUp, BridgeOp.sent, ih]
    | _ => exact ih

/-- The writes under a key are the writes of the log with that key. -/
theorem writes_under (hreach : Reachable gateway s) (k : FrameKey) :
    ((trace s.log k).writes.map fun w => ((frameAt s.log k).getD [], w)) =
      ((s.log.filterMap Action.write?).filter fun i => decide (i.1 = k)).map Prod.snd := by
  rw [trace_writes, List.map_filterMap, List.filter_filterMap, List.map_filterMap]
  refine List.filterMap_congr fun a ha => ?_
  cases a with
  | write key id impl pkt res =>
    by_cases hkey : key = k
    · subst hkey
      simp [Action.writeUnder?, Action.write?, Option.filter,
        write_frameAt hreach key id impl pkt res ha]
    · simp [Action.writeUnder?, Action.write?, Option.filter, hkey]
  | _ => rfl

/-- The writes of the log are those of one operation after the other. -/
theorem writes_eq_history (hreach : Reachable gateway s) :
    (history s.log).flatMap BridgeOp.sent = s.log.filterMap Action.sent? := by
  have hblocks := blocks Action.looksUp Action.write? s.log (by
    intro before a rest k x hsplit hitem
    obtain ⟨s₀, t, pc, sw, hreach₀, rfl, hs⟩ := exists_steps hreach hsplit
    cases a with
    | write key id impl pkt res =>
      obtain ⟨rfl, -⟩ := Prod.mk.inj (Option.some.inj hitem)
      exact getLast_looksUp hreach₀ t _ hs.moves.looked_of_write
    | _ => cases hitem) (nodup_looksUp hreach)
  have hsent : s.log.filterMap Action.sent? = (s.log.filterMap Action.write?).map Prod.snd := by
    rw [List.map_filterMap]
    refine List.filterMap_congr fun a _ => ?_
    cases a <;> rfl
  rw [hsent, hblocks, List.map_flatMap, history, history_sent]
  exact List.flatMap_congr fun k _ => writes_under hreach k

/-! ## Refinement -/

/-- A packet is looked up after it came in and before its `txPkt` returns. -/
theorem lookup_between (hreach : Reachable gateway s) {i : Nat} {k : FrameKey}
    {conns : List ConnId} {hit : Option ConnId} (hi : s.log[i]? = some (.lookup k conns hit)) :
    k < i ∧ ∀ j, s.log[j]? = some (.txReturn k) → i < j := by
  obtain ⟨hlt, hget⟩ := List.getElem?_eq_some_iff.mp hi
  have hsplit : s.log = s.log.take i ++ .lookup k conns hit :: s.log.drop (i + 1) := by
    rw [← hget, List.getElem_cons_drop, List.take_append_drop]
  obtain ⟨s₀, t, pc, sw, hreach₀, hlog₀, hs⟩ := exists_steps hreach hsplit
  have hlen : s₀.log.length = i := by
    rw [hlog₀, List.length_take]
    omega
  obtain ⟨b, hb⟩ := hs.moves.key_mem rfl
  refine ⟨hlen ▸ frames_lt hreach₀ hb, fun j hj => ?_⟩
  by_contra hle
  have hne : j ≠ i := by
    rintro rfl
    exact absurd (hi.symm.trans hj) (by simp)
  have hmem : Action.txReturn k ∈ s₀.log := by
    rw [hlog₀]
    refine List.mem_of_getElem? (i := j) ?_
    rw [List.getElem?_take_of_lt (by omega), hj]
  -- nothing has happened under the key of a packet that is looked up
  obtain ⟨x, dst, src, hpc, rfl, -, -⟩ := hs.moves.lookup_eq
  obtain ⟨-, hempty⟩ := txProgress hreach₀ hpc
  have hcount := trace_txReturns s₀.log x.key
  rw [hempty] at hcount
  exact List.count_eq_zero.mp hcount.symm hmem

/-- **The switch is a sequential learning bridge.** In every run of its
goroutines, up to a panic and with any failures of a write, the log can be read
as operations of the bridge in the order of the log, each `txPkt` as one
transmission at its lookup, which lies between its call and its return. The
bridge may do these operations, they lead to the tables of the switch, and the
writes of the log are the writes of these operations, in the same order. -/
theorem switch_refines_bridge (hreach : Reachable gateway s) :
    Bridge.empty.Allows WriteResult.failed (history s.log) ∧
    Bridge.empty.after (history s.log) = s.sw.bridge ∧
    (history s.log).flatMap BridgeOp.sent = s.log.filterMap Action.sent? ∧
    ∀ (i k : Nat) (conns : List ConnId) (hit : Option ConnId),
      s.log[i]? = some (.lookup k conns hit) →
        k < i ∧ ∀ j : Nat, s.log[j]? = some (.txReturn k) → i < j := by
  refine ⟨?_, after_ops hreach s.log, writes_eq_history hreach,
    fun _ _ _ _ => lookup_between hreach⟩
  intro before op rest hsplit
  obtain ⟨acts, acts', hlog, rfl, hrest⟩ := List.filterMap_eq_append_iff.mp hsplit
  obtain ⟨skipped, a, more, rfl, hskipped, hop, -⟩ := List.filterMap_eq_cons_iff.mp hrest
  have hnone : skipped.filterMap (Action.op? s.log) = [] :=
    List.filterMap_eq_nil_iff.mpr hskipped
  have hcut : s.log = (acts ++ skipped) ++ a :: more := by simpa using hlog
  have hlegal := legal_of_split hreach hcut hop
  rwa [List.filterMap_append, hnone, List.append_nil] at hlegal

/-- A frame to the tap device, from another address. -/
def answerFrame : List UInt8 := tapMacAddress ++ [2, 0, 0, 0, 0, 1, 8, 0]

/-- A broadcast of connection 1 is looked up, connection 0 learns an address,
and only then the broadcast is written. -/
theorem switch_refines_bridge_interleaved :
    ∃ s, Reachable gatewayMacAddress s ∧
      s.log.filterMap Action.sent? = [(arpFrame, 0, .ok)] ∧
      (history s.log).flatMap BridgeOp.sent = [(arpFrame, 0, .ok)] ∧
      Bridge.empty.after (history s.log) = s.sw.bridge ∧
      s.sw.cam.lookup [2, 0, 0, 0, 0, 1] = some 0 := by
  obtain ⟨s, hreach, hsent, hcam⟩ := reachable_of_exec
    (fun s => s.log.filterMap Action.sent? = [(arpFrame, 0, .ok)] ∧
      s.sw.cam.lookup [2, 0, 0, 0, 0, 1] = some 0)
    (accepts 0 .hyperKitProtocol ++ accepts 1 .hyperKitProtocol ++ [receives 1 arpFrame] ++
      goes 1 7 ++ [⟨1, .order [0, 1]⟩, receives 0 answerFrame] ++ goes 0 2 ++ [⟨1, .write .ok⟩])
    (by decide)
  obtain ⟨-, hafter, hwrites, -⟩ := switch_refines_bridge hreach
  exact ⟨s, hreach, hsent, hwrites.trans hsent, hafter, hcam⟩

end GvisorTapVsock.Tap
