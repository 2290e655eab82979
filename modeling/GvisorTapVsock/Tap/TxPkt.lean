/-
GvisorTapVsock.Tap.TxPkt — one call of `txPkt` in big steps: which writes it
makes, given the hit of its lookup, the order of its `range` and how each
write would end.

The loop over `e.conns` RETURNS at the first write that fails. What a
broadcast reaches therefore depends on where in the iteration order the
failing connection stands: `broadcastComplete_iff` says that the broadcast
reaches everybody else exactly when no connection that fails is followed by
another one to be served. That the interleaved switch makes these writes and
no others is `broadcast_refines` in `Tap.DeliveryTheorems`.
-/
import GvisorTapVsock.Tap.Switch

namespace GvisorTapVsock.Tap

open GvisorTapVsock.Go

/-! ## The writes of a call -/

/-- The loop `for id, conn := range e.conns` of the broadcast branch. -/
def rangeWrites (src : Int) (res : ConnId → WriteResult) :
    List ConnId → List (ConnId × WriteResult)
  | [] => []
  | id :: rest =>
      if (id : Int) = src then rangeWrites src res rest
      else
        match res id with
        | .ok => (id, .ok) :: rangeWrites src res rest
        | .err n => [(id, .err n)]

/-- `txPkt` after its lookup. -/
def txWrites (dst : LinkAddress) (hit : Option ConnId) (res : ConnId → WriteResult)
    (order : List ConnId) : List (ConnId × WriteResult) :=
  if dst = ethernetBroadcastAddress then rangeWrites (srcID hit) res order
  else
    match hit with
    | none => []
    | some id => [(id, res id)]

/-- `txBuf` disconnects the connection of a write that failed. -/
def disconnected (writes : List (ConnId × WriteResult)) : List ConnId :=
  writes.filterMap (fun w => match w with | (id, .err _) => some id | (_, .ok) => none)

theorem txWrites_broadcast (hit : Option ConnId) (res : ConnId → WriteResult)
    (order : List ConnId) :
    txWrites ethernetBroadcastAddress hit res order = rangeWrites (srcID hit) res order :=
  if_pos rfl

theorem txWrites_unicast {dst : LinkAddress} (h : dst ≠ ethernetBroadcastAddress)
    (hit : Option ConnId) (res : ConnId → WriteResult) (order : List ConnId) :
    txWrites dst hit res order = hit.toList.map (fun id => (id, res id)) := by
  cases hit with
  | none => exact if_neg h
  | some id => exact if_neg h

/-! ## The loop -/

section Range

variable (src : Int) {res : ConnId → WriteResult}

theorem rangeWrites_sender {id : ConnId} (rest : List ConnId) (h : (id : Int) = src) :
    rangeWrites src res (id :: rest) = rangeWrites src res rest := by
  rw [rangeWrites, if_pos h]

theorem rangeWrites_ok {id : ConnId} (rest : List ConnId) (h : (id : Int) ≠ src)
    (hres : res id = .ok) :
    rangeWrites src res (id :: rest) = (id, .ok) :: rangeWrites src res rest := by
  rw [rangeWrites, if_neg h, hres]

theorem rangeWrites_err {id : ConnId} (rest : List ConnId) (h : (id : Int) ≠ src) {n : Nat}
    (hres : res id = .err n) : rangeWrites src res (id :: rest) = [(id, .err n)] := by
  rw [rangeWrites, if_neg h, hres]

/-- Writes go to visited connections, never to the sender, and end as `res` says. -/
theorem of_mem_rangeWrites {d : ConnId} {r : WriteResult} :
    ∀ {order : List ConnId}, (d, r) ∈ rangeWrites src res order →
      d ∈ order ∧ (d : Int) ≠ src ∧ r = res d := by
  intro order
  induction order with
  | nil => exact nofun
  | cons id rest ih =>
    intro h
    by_cases hid : (id : Int) = src
    · rw [rangeWrites_sender src rest hid] at h
      obtain ⟨hd, hrest⟩ := ih h
      exact ⟨List.mem_cons_of_mem _ hd, hrest⟩
    · cases hres : res id with
      | ok =>
        rw [rangeWrites_ok src rest hid hres, List.mem_cons] at h
        rcases h with h | h
        · obtain ⟨rfl, rfl⟩ := Prod.mk.inj h
          exact ⟨List.mem_cons_self, hid, hres.symm⟩
        · obtain ⟨hd, hrest⟩ := ih h
          exact ⟨List.mem_cons_of_mem _ hd, hrest⟩
      | err n =>
        rw [rangeWrites_err src rest hid hres, List.mem_singleton] at h
        obtain ⟨rfl, rfl⟩ := Prod.mk.inj h
        exact ⟨List.mem_cons_self, hid, hres.symm⟩

/-- A part without a failure is passed through. -/
theorem rangeWrites_append {visited : List ConnId} (rest : List ConnId)
    (hok : ∀ d ∈ visited, res d = .ok) :
    rangeWrites src res (visited ++ rest) =
      rangeWrites src (fun _ => .ok) visited ++ rangeWrites src res rest := by
  induction visited with
  | nil => rfl
  | cons id visited ih =>
    have ih := ih fun d hd => hok d (List.mem_cons_of_mem _ hd)
    rw [List.cons_append]
    by_cases hid : (id : Int) = src
    · rw [rangeWrites_sender src _ hid, rangeWrites_sender src _ hid, ih]
    · rw [rangeWrites_ok src _ hid (hok id List.mem_cons_self), rangeWrites_ok src _ hid rfl, ih]
      rfl

/-- Without a failure everybody but the sender is written to. -/
theorem rangeWrites_all_ok (order : List ConnId) :
    rangeWrites src (fun _ => .ok) order =
      (order.filter (fun d : ConnId => decide ((d : Int) ≠ src))).map (fun d => (d, .ok)) := by
  induction order with
  | nil => rfl
  | cons id rest ih =>
    by_cases hid : (id : Int) = src
    · rw [rangeWrites_sender src _ hid, ih, List.filter_cons_of_neg (by simpa using hid)]
    · rw [rangeWrites_ok src _ hid rfl, ih, List.filter_cons_of_pos (by simpa using hid)]
      rfl

/-- Nobody is written to twice. -/
theorem nodup_rangeWrites {order : List ConnId} (hnodup : order.Nodup) :
    ((rangeWrites src res order).map Prod.fst).Nodup := by
  induction order with
  | nil => exact List.nodup_nil
  | cons id rest ih =>
    obtain ⟨hnotin, hrest⟩ := List.nodup_cons.mp hnodup
    by_cases hid : (id : Int) = src
    · rw [rangeWrites_sender src rest hid]
      exact ih hrest
    · cases hres : res id with
      | ok =>
        rw [rangeWrites_ok src rest hid hres, List.map_cons, List.nodup_cons]
        refine ⟨fun h => ?_, ih hrest⟩
        obtain ⟨⟨d, r⟩, hw, rfl⟩ := List.mem_map.mp h
        exact hnotin (of_mem_rangeWrites src hw).1
      | err n =>
        rw [rangeWrites_err src rest hid hres]
        exact List.nodup_singleton _

end Range

/-- The same for either branch of `txPkt`. -/
theorem nodup_txWrites {dst : LinkAddress} {hit : Option ConnId} {res : ConnId → WriteResult}
    {order : List ConnId} (hnodup : order.Nodup) :
    ((txWrites dst hit res order).map Prod.fst).Nodup := by
  by_cases hdst : dst = ethernetBroadcastAddress
  · rw [hdst, txWrites_broadcast]
    exact nodup_rangeWrites _ hnodup
  · rw [txWrites_unicast hdst]
    cases hit with
    | none => exact List.nodup_nil
    | some id => exact List.nodup_singleton _

theorem mem_disconnected {writes : List (ConnId × WriteResult)} {d : ConnId} :
    d ∈ disconnected writes ↔ ∃ n, (d, .err n) ∈ writes := by
  simp only [disconnected, List.mem_filterMap]
  constructor
  · rintro ⟨⟨id, r⟩, hw, hd⟩
    cases r with
    | ok => exact absurd hd nofun
    | err n => exact ⟨n, Option.some.inj hd ▸ hw⟩
  · rintro ⟨n, hw⟩
    exact ⟨(d, .err n), hw, rfl⟩

/-- A loop that ran without a failure is the loop in which none is possible. -/
theorem rangeWrites_of_disconnected_nil (src : Int) {res : ConnId → WriteResult}
    {order : List ConnId} (h : disconnected (rangeWrites src res order) = []) :
    rangeWrites src res order = rangeWrites src (fun _ => .ok) order := by
  induction order with
  | nil => rfl
  | cons id rest ih =>
    by_cases hid : (id : Int) = src
    · rw [rangeWrites_sender src rest hid] at h ⊢
      rw [rangeWrites_sender src rest hid, ih h]
    · cases hres : res id with
      | ok =>
        rw [rangeWrites_ok src rest hid hres] at h ⊢
        rw [rangeWrites_ok src rest hid rfl, ih h]
      | err n =>
        rw [rangeWrites_err src rest hid hres] at h
        exact absurd h nofun

/-! ## How often a connection is written to -/

/-- The number of writes a frame makes on a connection when none fails. -/
def targets (dst : LinkAddress) (conns : List ConnId) (hit : Option ConnId) (d : ConnId) : Nat :=
  if dst = ethernetBroadcastAddress then
    if d ∈ conns ∧ hit ≠ some d then 1 else 0
  else if hit = some d then 1 else 0

theorem ne_srcID_iff {hit : Option ConnId} {d : ConnId} :
    (d : Int) ≠ srcID hit ↔ hit ≠ some d := by
  cases hit with
  | none =>
    refine iff_of_true ?_ nofun
    show (d : Int) ≠ -1
    omega
  | some id =>
    rw [srcID, ne_eq, Int.natCast_inj, ne_eq, Option.some.injEq]
    exact not_congr eq_comm

theorem count_txWrites_le (dst : LinkAddress) (hit : Option ConnId) (res : ConnId → WriteResult)
    {order conns : List ConnId} (hnodup : order.Nodup) (horder : order.Perm conns) (d : ConnId) :
    ((txWrites dst hit res order).map Prod.fst).count d ≤ targets dst conns hit d := by
  by_cases hdst : dst = ethernetBroadcastAddress
  · subst hdst
    rw [txWrites_broadcast, targets, if_pos rfl]
    split
    · exact List.nodup_iff_count_le_one.mp (nodup_rangeWrites _ hnodup) d
    · rename_i hnot
      refine Nat.le_of_eq (List.count_eq_zero.mpr fun hmem => hnot ?_)
      obtain ⟨⟨_, r⟩, hw, rfl⟩ := List.mem_map.mp hmem
      obtain ⟨hd, hne, -⟩ := of_mem_rangeWrites _ hw
      exact ⟨horder.subset hd, ne_srcID_iff.mp hne⟩
  · rw [txWrites_unicast hdst, targets, if_neg hdst]
    cases hit with
    | none => exact Nat.zero_le _
    | some id => simp [List.count_singleton]

theorem count_txWrites_eq {dst : LinkAddress} {hit : Option ConnId} {res : ConnId → WriteResult}
    {order conns : List ConnId} (hnodup : order.Nodup) (horder : order.Perm conns)
    (hok : disconnected (txWrites dst hit res order) = []) (d : ConnId) :
    ((txWrites dst hit res order).map Prod.fst).count d = targets dst conns hit d := by
  by_cases hdst : dst = ethernetBroadcastAddress
  · subst hdst
    rw [txWrites_broadcast] at hok ⊢
    rw [rangeWrites_of_disconnected_nil _ hok, rangeWrites_all_ok, List.map_map, targets,
      if_pos rfl, show (Prod.fst ∘ fun d : ConnId => (d, WriteResult.ok)) = id from rfl,
      List.map_id]
    split
    · rename_i h
      refine List.count_eq_one_of_mem (hnodup.filter _) (List.mem_filter.mpr ⟨?_, ?_⟩)
      · exact horder.symm.subset h.1
      · exact decide_eq_true (ne_srcID_iff.mpr h.2)
    · rename_i hnot
      refine List.count_eq_zero.mpr fun hmem => hnot ?_
      obtain ⟨hd, hne⟩ := List.mem_filter.mp hmem
      exact ⟨horder.subset hd, ne_srcID_iff.mp (of_decide_eq_true hne)⟩
  · rw [txWrites_unicast hdst, targets, if_neg hdst]
    cases hit with
    | none => rfl
    | some id => simp [List.count_singleton]

/-! ## Broadcasts -/

/-- Everybody but the sender whose write would succeed gets the frame once,
and those whose write would fail, and only they, are disconnected. -/
def BroadcastComplete (src : Int) (res : ConnId → WriteResult) (order : List ConnId) : Prop :=
  (∀ d ∈ order, (d : Int) ≠ src → res d = .ok →
      (rangeWrites src res order).count (d, .ok) = 1) ∧
    ∀ d : ConnId, d ∈ disconnected (rangeWrites src res order) ↔
      d ∈ order ∧ (d : Int) ≠ src ∧ res d ≠ .ok

/-- No connection to be served comes after one whose write fails. -/
def FailsLast (src : Int) (res : ConnId → WriteResult) (order : List ConnId) : Prop :=
  ∀ (before : List ConnId) (id : ConnId) (after : List ConnId), order = before ++ id :: after →
    (id : Int) ≠ src → res id ≠ .ok → ∀ d ∈ after, (d : Int) = src

section Broadcast

variable {src : Int} {res : ConnId → WriteResult}

theorem failsLast_cons {id : ConnId} {rest : List ConnId} :
    FailsLast src res (id :: rest) ↔
      ((id : Int) ≠ src → res id ≠ .ok → ∀ d ∈ rest, (d : Int) = src) ∧
        FailsLast src res rest := by
  constructor
  · intro h
    refine ⟨h [] id rest rfl, fun before i after hsplit => ?_⟩
    exact h (id :: before) i after (by rw [hsplit, List.cons_append])
  · rintro ⟨hhead, hrest⟩ before i after hsplit
    cases before with
    | nil =>
      obtain ⟨rfl, rfl⟩ := List.cons.inj hsplit
      exact hhead
    | cons b before =>
      obtain ⟨-, hsplit⟩ := List.cons.inj hsplit
      exact hrest before i after hsplit

/-- The sender plays no part. -/
theorem broadcastComplete_sender {id : ConnId} {rest : List ConnId} (h : (id : Int) = src) :
    BroadcastComplete src res (id :: rest) ↔ BroadcastComplete src res rest := by
  have hskip : ∀ d : ConnId, (d : Int) ≠ src → (d ∈ id :: rest ↔ d ∈ rest) := by
    intro d hd
    rw [List.mem_cons, or_iff_right]
    rintro rfl
    exact hd h
  unfold BroadcastComplete
  rw [rangeWrites_sender src rest h]
  refine and_congr (forall_congr' fun d => ?_) (forall_congr' fun d => ?_)
  · exact ⟨fun hd hmem hne => hd ((hskip d hne).mpr hmem) hne,
      fun hd hmem hne => hd ((hskip d hne).mp hmem) hne⟩
  · refine iff_congr Iff.rfl ⟨?_, ?_⟩
    · exact fun hd => ⟨(hskip d hd.2.1).mp hd.1, hd.2⟩
    · exact fun hd => ⟨(hskip d hd.2.1).mpr hd.1, hd.2⟩

/-- A connection that takes the frame leaves the rest of the loop as it is. -/
theorem broadcastComplete_ok {id : ConnId} {rest : List ConnId} (hnotin : id ∉ rest)
    (h : (id : Int) ≠ src) (hres : res id = .ok) :
    BroadcastComplete src res (id :: rest) ↔ BroadcastComplete src res rest := by
  have hdisc : disconnected ((id, WriteResult.ok) :: rangeWrites src res rest) =
      disconnected (rangeWrites src res rest) := rfl
  have hzero : (rangeWrites src res rest).count (id, .ok) = 0 :=
    List.count_eq_zero.mpr fun hw => hnotin (of_mem_rangeWrites src hw).1
  unfold BroadcastComplete
  rw [rangeWrites_ok src rest h hres, hdisc]
  refine and_congr ⟨fun hd d hmem => ?_, fun hd d hmem hne hok => ?_⟩
    (forall_congr' fun d => iff_congr Iff.rfl ⟨?_, ?_⟩)
  · have hne : d ≠ id := fun heq => hnotin (heq ▸ hmem)
    have hcount := hd d (List.mem_cons_of_mem _ hmem)
    rwa [List.count_cons_of_ne fun heq => hne (Prod.mk.inj heq).1.symm] at hcount
  · rcases List.mem_cons.mp hmem with rfl | hmem
    · rw [List.count_cons_self, hzero]
    · have hne' : d ≠ id := fun heq => hnotin (heq ▸ hmem)
      rw [List.count_cons_of_ne fun heq => hne' (Prod.mk.inj heq).1.symm]
      exact hd d hmem hne hok
  · rintro ⟨hmem, hne, hfail⟩
    exact ⟨(List.mem_cons.mp hmem).resolve_left fun heq => hfail (heq ▸ hres), hne, hfail⟩
  · exact fun hd => ⟨List.mem_cons_of_mem _ hd.1, hd.2⟩

/-- A connection that fails cuts off whoever would come after it. -/
theorem broadcastComplete_err {id : ConnId} {rest : List ConnId} (hnotin : id ∉ rest)
    (h : (id : Int) ≠ src) {n : Nat} (hres : res id = .err n) :
    BroadcastComplete src res (id :: rest) ↔ ∀ d ∈ rest, (d : Int) = src := by
  have hfail : res id ≠ .ok := by rw [hres]; exact nofun
  have hdisc : ∀ d, d ∈ disconnected [(id, WriteResult.err n)] ↔ d = id := by
    intro d
    exact List.mem_singleton
  unfold BroadcastComplete
  rw [rangeWrites_err src rest h hres]
  constructor
  · rintro ⟨hcount, hfailed⟩ d hmem
    by_contra hne
    by_cases hok : res d = .ok
    · have hone := hcount d (List.mem_cons_of_mem _ hmem) hne hok
      simp at hone
    · have hid := (hdisc d).mp ((hfailed d).mpr ⟨List.mem_cons_of_mem _ hmem, hne, hok⟩)
      exact hnotin (hid ▸ hmem)
  · intro hrest
    -- whoever is neither the sender nor in the rest is the one that failed
    have honly : ∀ d ∈ id :: rest, (d : Int) ≠ src → d = id := by
      intro d hmem hne
      exact (List.mem_cons.mp hmem).resolve_right fun hd => hne (hrest d hd)
    refine ⟨fun d hmem hne hok => ?_, fun d => ?_⟩
    · exact absurd (honly d hmem hne ▸ hok) hfail
    · rw [hdisc]
      constructor
      · rintro rfl
        exact ⟨List.mem_cons_self, h, hfail⟩
      · exact fun hd => honly d hd.1 hd.2.1

/-- The two conditions agree on every order without repetitions. -/
theorem broadcastComplete_iff_of_nodup {order : List ConnId} (hnodup : order.Nodup) :
    BroadcastComplete src res order ↔ FailsLast src res order := by
  induction order with
  | nil =>
    refine iff_of_true ⟨nofun, fun d => ?_⟩ ?_
    · exact ⟨nofun, fun h => absurd h.1 nofun⟩
    · intro before id after hsplit
      exact absurd hsplit (by simp)
  | cons id rest ih =>
    obtain ⟨hnotin, hrest⟩ := List.nodup_cons.mp hnodup
    rw [failsLast_cons]
    by_cases hid : (id : Int) = src
    · rw [broadcastComplete_sender hid, ih hrest]
      exact (and_iff_right fun hne => absurd hid hne).symm
    · cases hres : res id with
      | ok =>
        rw [broadcastComplete_ok hnotin hid hres, ih hrest]
        exact (and_iff_right fun _ hne => absurd rfl hne).symm
      | err n =>
        rw [broadcastComplete_err hnotin hid hres]
        refine ⟨fun hall => ⟨fun _ _ => hall, ?_⟩, fun h => h.1 hid nofun⟩
        intro before i after hsplit _ _ d hd
        exact hall d (by rw [hsplit]; exact List.mem_append_right _ (List.mem_cons_of_mem _ hd))

/-- **Broadcasts.** For every set of connections, every order in which the
loop visits them, every hit of the sender's lookup and every choice of failing
writes: a broadcast reaches all it can reach, and disconnects all that fail,
exactly when no connection to be served comes after one that fails. -/
theorem broadcastComplete_iff (conns : GoMap ConnId ProtocolImpl) {order : List ConnId}
    (horder : order.Perm conns.keys) (hit : Option ConnId) (res : ConnId → WriteResult) :
    BroadcastComplete (srcID hit) res order ↔ FailsLast (srcID hit) res order :=
  broadcastComplete_iff_of_nodup (horder.nodup_iff.mpr conns.keys_nodup)

def threeConns : GoMap ConnId ProtocolImpl :=
  ((∅ : GoMap ConnId ProtocolImpl).insert 0 .qemuProtocol).insert 1 .qemuProtocol
    |>.insert 2 .qemuProtocol

/-- The connection that fails is visited last. -/
theorem broadcastComplete_last :
    [2, 1, 0].Perm threeConns.keys ∧
      BroadcastComplete (srcID (some 1)) (fun d => if d = 0 then .err 3 else .ok) [2, 1, 0] := by
  refine ⟨by decide, ?_⟩
  rw [broadcastComplete_iff threeConns (by decide), failsLast_cons, failsLast_cons, failsLast_cons]
  refine ⟨fun _ h => absurd rfl h, fun h => absurd rfl h, fun _ _ d hd => absurd hd nofun, ?_⟩
  intro before id after hsplit
  exact absurd hsplit (by simp)

/-- The sender is not in `e.cam`; the connection visited first is dead, and the
two others never see the frame. -/
theorem dead_peer_stops_broadcast :
    [0, 1, 2].Perm threeConns.keys ∧
      rangeWrites (srcID none) (fun d => if d = 0 then .err 0 else .ok) [0, 1, 2] =
        [(0, .err 0)] ∧
      ¬ BroadcastComplete (srcID none) (fun d => if d = 0 then .err 0 else .ok) [0, 1, 2] := by
  refine ⟨by decide, by decide, fun h => ?_⟩
  have hcount := h.1 1 (by decide) (by decide) (by decide)
  exact absurd hcount (by decide)

end Broadcast

end GvisorTapVsock.Tap
