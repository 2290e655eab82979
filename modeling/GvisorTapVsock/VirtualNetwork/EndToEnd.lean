/-
GvisorTapVsock.VirtualNetwork.EndToEnd — from the tap device of one machine to
that of another.

The way of a packet goes through three programs: `rx` of a gvforwarder, the
switch, and `tx` of the other gvforwarder. Between them are byte streams, cut
anywhere and perhaps not read to their end. The stages are proved elsewhere;
this module composes them.

  * `Wired` — the rx loop of a connection has read from what `rx` wrote;
  * `attempts` — the writes of the switch on a connection, each with the key of
    its frame; what its peer can read are the first bytes of these frames;
  * `tx_written` — `tx` writes the frames its stream decodes to, as far as it
    gets.

`tap_to_tap` — the packets a tap device gets are the first of the frames that
were written to its machine, and among them those of another machine are
packets of its tap device, unchanged, in their order and none twice.
-/
import GvisorTapVsock.Tap.WriteTheorems
import GvisorTapVsock.VirtualNetwork.ConnectTheorems
import GvisorTapVsock.Vm.TxTheorems
import Mathlib.Data.List.Sort

namespace GvisorTapVsock.Vm

open GvisorTapVsock.Go GvisorTapVsock.Tap

/-! ## `tx` on any stream -/

/-- What `tx` writes are the first frames its stream decodes to, whatever the
stream, its fragmentation and the device. -/
theorem txLoop_written (buf : Slice UInt8) (tapFails : Nat → Bool) (conn : Reader)
    (written : List (List UInt8)) :
    (txLoop buf tapFails conn written).written <+:
      written ++ ((StreamProtocol.format .hyperkitProtocol).decodeAll conn.content).1 := by
  fun_induction txLoop buf tapFails conn written with
  | case1 conn written hsize => exact List.prefix_append _ _
  | case2 conn written sizeBuf afterSize hsize p hslice => exact List.prefix_append _ _
  | case3 conn written sizeBuf afterSize hsize window hslice hpayload =>
    exact List.prefix_append _ _
  | case4 => exact List.prefix_append _ _
  | case5 => exact List.prefix_append _ _
  | case6 conn written sizeBuf afterSize hsize window hslice payload afterPayload hpayload hne hok
      ih =>
    have hlen : window.len = leNat sizeBuf := by
      unfold Slice.reslice at hslice
      split at hslice
      · rw [← Except.ok.inj hslice]
      · cases hslice
    have hread : StreamProtocol.hyperkitProtocol.read sizeBuf = leNat sizeBuf := by
      obtain ⟨hle, rfl, -⟩ := Reader.readFull_eq_some hsize
      simp [StreamProtocol.read, List.take_take]
    rw [hlen, ← hread] at hpayload
    rw [Format.decodeAll_of_some _ (decodeOne?_of_readFull .hyperkitProtocol hsize hpayload)]
    simpa using ih

theorem tx_written (maxAlloc mtu : Nat) (tapFails : Nat → Bool) (reads : List (List UInt8)) :
    (tx maxAlloc mtu tapFails reads).written <+:
      ((StreamProtocol.format .hyperkitProtocol).decodeAll reads.flatten).1 := by
  unfold tx
  split
  · exact List.nil_prefix
  · simpa using txLoop_written _ tapFails (Reader.newReader reads) []

/-- A device that takes every packet gets all that fit the buffer. -/
theorem txOutcome_all {cap : Nat} {tapFails : Nat → Bool} (htap : ∀ n, tapFails n = false) :
    ∀ {frames : List (List UInt8)} (written : List (List UInt8)),
      (∀ f ∈ frames, f.length ≤ cap) →
        (txOutcome cap tapFails frames written).written = written ++ frames
  | [], written, _ => by simp [txOutcome]
  | f :: frames, written, hcap => by
      have hf := hcap f List.mem_cons_self
      rw [txOutcome, if_pos hf, htap, if_neg Bool.false_ne_true,
        txOutcome_all htap _ fun g hg => hcap g (List.mem_cons_of_mem f hg)]
      simp

end GvisorTapVsock.Vm

namespace GvisorTapVsock.Tap

open GvisorTapVsock.Go GvisorTapVsock.Lts

variable {gateway : LinkAddress} {s : State}

/-! ## What the switch writes on a connection -/

/-- The frame an action writes on a connection, whole or not, and its key. -/
def Action.attemptOn? (d : ConnId) : Action → Option (FrameKey × List UInt8)
  | .write key id _ pkt _ => if id = d then some (key, pkt) else none
  | _ => none

/-- The frames that were written on a connection; only the last write may have
failed. -/
def attempts (log : List Action) (d : ConnId) : List (FrameKey × List UInt8) :=
  log.filterMap (Action.attemptOn? d)

theorem attempts_append (log : List Action) (a : Action) (d : ConnId) :
    attempts (log ++ [a]) d = attempts log d ++ (a.attemptOn? d).toList := by
  rw [attempts, List.filterMap_append, attempts]
  cases h : a.attemptOn? d <;> simp [h]

theorem Action.attemptOn?_eq_none {a : Action} {d : ConnId}
    (h : ∀ key impl pkt res, a ≠ .write key d impl pkt res) : a.attemptOn? d = none := by
  cases a with
  | write key id impl pkt res => exact if_neg fun hid => h key impl pkt res (by rw [hid])
  | _ => rfl

theorem WriteResult.sent_prefix (bytes : List UInt8) (res : WriteResult) :
    res.sent bytes <+: bytes := by
  cases res with
  | ok => exact List.prefix_rfl
  | err n => exact List.take_prefix n bytes

/-- What a peer can read are the first bytes of the frames written to it; all
of them, if no write failed. -/
theorem bytesOn_attempts (hreach : Reachable gateway s) :
    ∀ d p, (∀ impl, .connect d impl ∈ s.log → impl = p) →
      bytesOn s.log d <+: ((attempts s.log d).map Prod.snd).flatMap (txBufBytes p) ∧
      (¬ Failed s.log d →
        bytesOn s.log d = ((attempts s.log d).map Prod.snd).flatMap (txBufBytes p)) := by
  induction hreach using Reachable.invariant with
  | init => exact fun d p _ => ⟨List.prefix_rfl, fun _ => rfl⟩
  | step s t pc a sw hreach ih hs =>
    intro d p hp
    obtain ⟨hpre, hall⟩ := ih d p fun impl h => hp impl (List.mem_append_left _ h)
    show bytesOn (s.log ++ [a]) d <+: ((attempts (s.log ++ [a]) d).map Prod.snd).flatMap _ ∧
      (¬ Failed (s.log ++ [a]) d → bytesOn (s.log ++ [a]) d =
        ((attempts (s.log ++ [a]) d).map Prod.snd).flatMap _)
    rw [bytesOn_append, attempts_append, failed_append]
    by_cases ha : ∃ key impl pkt res, a = .write key d impl pkt res
    · obtain ⟨key, impl, pkt, res, rfl⟩ := ha
      have hconnect := connect_of_conns hreach d impl hs.moves.write_eq.1
      obtain rfl := hp impl (List.mem_append_left _ hconnect)
      have hbytes : (Action.write key d impl pkt res).bytesOn d =
          res.sent (txBufBytes impl pkt) := if_pos rfl
      have hattempt : (Action.write key d impl pkt res).attemptOn? d = some (key, pkt) :=
        if_pos rfl
      -- no write on the connection had failed before
      rw [hbytes, hattempt, hall (hs.write_clean hreach).2]
      simp only [Option.toList_some, List.map_append, List.map_cons, List.map_nil,
        List.flatMap_append, List.flatMap_singleton]
      refine ⟨(List.prefix_append_right_inj _).mpr (WriteResult.sent_prefix _ res), fun hok => ?_⟩
      cases res with
      | ok => rfl
      | err n => exact absurd (Or.inr rfl) hok
    · have hnone := Action.attemptOn?_eq_none (a := a) (d := d)
        fun key impl pkt res h => ha ⟨key, impl, pkt, res, h⟩
      obtain ⟨hsilent, -⟩ := Action.silent_of_not_write (a := a) (d := d)
        fun key impl pkt res h => ha ⟨key, impl, pkt, res, h⟩
      rw [hsilent, hnone]
      simp only [Option.toList_none, List.append_nil, not_or]
      exact ⟨hpre, fun hok => hall hok.1⟩

/-! ## Where the frames come from -/

/-- The frame received at a position of the log, if it was received on this
connection. -/
def receivedAt? (c : ConnId) : Action × Nat → Option (FrameKey × List UInt8)
  | (.recv id f, k) => if id = c then some (k, f) else none
  | _ => none

/-- The frames received on a connection, with their keys. -/
def received (log : List Action) (c : ConnId) : List (FrameKey × List UInt8) :=
  log.zipIdx.filterMap (receivedAt? c)

/-- Whether a frame with this key was received on a connection. -/
def cameFrom (log : List Action) (c : ConnId) (k : FrameKey) : Bool :=
  match log[k]? with
  | some (.recv id _) => id == c
  | _ => false

theorem receivedAt?_eq_some {c : ConnId} {x : Action × Nat} {k : FrameKey} {f : List UInt8} :
    receivedAt? c x = some (k, f) ↔ x = (.recv c f, k) := by
  obtain ⟨a, i⟩ := x
  cases a with
  | recv id g => grind [receivedAt?]
  | _ => simp [receivedAt?]

theorem mem_received {log : List Action} {c : ConnId} {k : FrameKey} {f : List UInt8} :
    (k, f) ∈ received log c ↔ log[k]? = some (.recv c f) := by
  simp only [received, List.mem_filterMap, receivedAt?_eq_some, exists_eq_right]
  exact List.mem_zipIdx_iff_getElem?

theorem cameFrom_iff {log : List Action} {c : ConnId} {k : FrameKey} :
    cameFrom log c k = true ↔ ReceivedOn log k c := by
  unfold cameFrom ReceivedOn
  cases h : log[k]? with
  | none => simp
  | some a => cases a <;> simp

/-- The keys go up along the log. -/
theorem received_sorted (log : List Action) (c : ConnId) :
    (received log c).Pairwise fun p q => p.1 < q.1 := by
  rw [received, List.pairwise_filterMap, List.pairwise_iff_getElem]
  rintro i j hi hj hij ⟨k, f⟩ hp ⟨k', f'⟩ hq
  rw [receivedAt?_eq_some, List.getElem_zipIdx] at hp hq
  have hk := (Prod.mk.inj hp).2
  have hk' := (Prod.mk.inj hq).2
  rw [Nat.zero_add] at hk hk'
  exact hk ▸ hk' ▸ hij

/-- Of the frames written on a connection, those that came from another one
were received on it, and in this order. -/
theorem attempts_from (hreach : Reachable gateway s) (c d : ConnId) :
    ((attempts s.log d).filter fun p => cameFrom s.log c p.1).Sublist (received s.log c) := by
  have hwrite : ∀ {a : Action} {k : FrameKey} {f : List UInt8}, a.attemptOn? d = some (k, f) →
      ∃ impl res, a = .write k d impl f res := by
    intro a k f h
    cases a with
    | write key id impl pkt res =>
      simp only [Action.attemptOn?, Option.ite_none_right_eq_some, Option.some.injEq,
        Prod.mk.injEq] at h
      obtain ⟨rfl, rfl, rfl⟩ := h
      exact ⟨impl, res, rfl⟩
    | _ => cases h
  have hsorted : ((attempts s.log d).filter fun p => cameFrom s.log c p.1).Pairwise
      fun p q => p.1 < q.1 := by
    rw [List.pairwise_filter, attempts, List.pairwise_filterMap, List.pairwise_iff_getElem]
    rintro i j hi hj hij ⟨k, f⟩ hp ⟨k', f'⟩ hq hk hk'
    obtain ⟨impl, res, hwi⟩ := hwrite hp
    obtain ⟨impl', res', hwj⟩ := hwrite hq
    exact writes_ordered hreach i j k k' d c hij
      ⟨impl, f, res, by rw [List.getElem?_eq_getElem hi, hwi]⟩
      ⟨impl', f', res', by rw [List.getElem?_eq_getElem hj, hwj]⟩
      (cameFrom_iff.mp hk) (cameFrom_iff.mp hk')
  have hsubset : ((attempts s.log d).filter fun p => cameFrom s.log c p.1) ⊆
      received s.log c := by
    rintro ⟨k, f⟩ hmem
    obtain ⟨hattempt, hfrom⟩ := List.mem_filter.mp hmem
    obtain ⟨a, ha, hka⟩ := List.mem_filterMap.mp hattempt
    obtain ⟨impl, res, rfl⟩ := hwrite hka
    obtain ⟨g, hg⟩ := cameFrom_iff.mp hfrom
    -- the write carries the bytes that were received
    have hframe := write_frameAt hreach k d impl f res ha
    rw [frameAt, hg] at hframe
    obtain rfl : g = f := Option.some.inj hframe
    exact mem_received.mpr hg
  have hnodup : ((attempts s.log d).filter fun p => cameFrom s.log c p.1).Nodup :=
    hsorted.imp (S := fun p q => p ≠ q) fun h => ne_of_apply_ne Prod.fst (Nat.ne_of_lt h)
  exact List.sublist_of_subperm_of_pairwise (List.subperm_of_subset hnodup hsubset) hsorted
    (received_sorted s.log c)

end GvisorTapVsock.Tap

namespace GvisorTapVsock.VirtualNetwork

open GvisorTapVsock.Go GvisorTapVsock.Tap

variable {gateway : LinkAddress} {s : State}

/-! ## The whole way -/

/-- The rx loop of a connection has read a part of what the `rx` of a
gvforwarder wrote, cut anywhere. -/
def Wired (log : List Action) (c : ConnId) (mtu : Nat) (packets : List (List UInt8)) : Prop :=
  ∃ reads : List (List UInt8), reads.flatten <+: (Vm.rx mtu [] packets).flatten ∧
    (received log c).map Prod.snd = (rxFrames .hyperkitProtocol reads).1

/-- A part of a stream decodes to the first of its frames. -/
theorem decodeAll_mono (F : Format) {part whole : List UInt8} (h : part <+: whole) :
    (F.decodeAll part).1 <+: (F.decodeAll whole).1 := by
  obtain ⟨k, -, hk, -⟩ := F.decodeAll_take whole part.length
  rw [← List.prefix_iff_eq_take.mp h] at hk
  rw [hk]
  exact List.take_prefix k _

theorem Wired.received {log : List Action} {c : ConnId} {mtu : Nat} {packets : List (List UInt8)}
    (h : Wired log c mtu packets) (hmtu : mtu + 22 < 2 ^ 16) :
    (received log c).map Prod.snd <+: Vm.rxPackets mtu [] packets := by
  obtain ⟨reads, hreads, hrecv⟩ := h
  have hdec := decodeAll_mono (StreamProtocol.format .hyperkitProtocol) hreads
  rw [rxFrames_rx hmtu] at hdec
  rw [hrecv, rxFrames_eq]
  exact hdec

/-- **From tap to tap.** In every reachable state of the switch, for a
gvforwarder that has read a part of what the switch wrote on its hyperkit
connection, where the size field holds the length of every frame: its tap
device got the first of these frames, and all of them if it read everything,
no write failed and each frame fits the device. Those that came in on another
connection are packets of the tap device behind it, unchanged, in their order
and none twice. -/
theorem tap_to_tap (hreach : Reachable gateway s) {d : ConnId}
    (hd : .connect d .hyperkitProtocol ∈ s.log)
    (hfits : ∀ p ∈ attempts s.log d, p.2.length ≤ 65535) (maxAlloc mtu : Nat)
    (tapFails : Nat → Bool) {reads : List (List UInt8)} (hreads : reads.flatten <+: bytesOn s.log d) :
    ∃ arrived, arrived <+: attempts s.log d ∧
      (Vm.tx maxAlloc mtu tapFails reads).written = arrived.map Prod.snd ∧
      (∀ c mtu' packets, mtu' + 22 < 2 ^ 16 → Wired s.log c mtu' packets →
        ((arrived.filter fun p => cameFrom s.log c p.1).map Prod.snd).Sublist
          (Vm.rxPackets mtu' [] packets)) ∧
      (reads.flatten = bytesOn s.log d → ¬ Failed s.log d → (∀ n, tapFails n = false) →
        mtu + 14 < 2 ^ 63 ∧ mtu + 14 ≤ maxAlloc →
        (∀ p ∈ attempts s.log d, 1 ≤ p.2.length ∧ p.2.length ≤ mtu + 14) →
        arrived = attempts s.log d) := by
  obtain ⟨hpre, hall⟩ := bytesOn_attempts hreach d .hyperkitProtocol
    fun impl h => connect_unique hreach d impl _ h hd
  -- the stream is that of the frames written
  have hframes : ((attempts s.log d).map Prod.snd).flatMap (txBufBytes .hyperkitProtocol) =
      txFrames .hyperkitProtocol ((attempts s.log d).map Prod.snd) := rfl
  rw [hframes] at hpre hall
  have hdec : ((StreamProtocol.format .hyperkitProtocol).decodeAll
      (txFrames .hyperkitProtocol ((attempts s.log d).map Prod.snd))).1 =
      (attempts s.log d).map Prod.snd := by
    rw [txFrames_eq, Format.decodeAll_encodeAll]
    intro f hf
    obtain ⟨p, hp, rfl⟩ := List.mem_map.mp hf
    have := hfits p hp
    exact StreamProtocol.fits_hyperkit.mpr (by omega)
  have hwritten := (Vm.tx_written maxAlloc mtu tapFails reads).trans
    (decodeAll_mono (StreamProtocol.format .hyperkitProtocol) (hreads.trans hpre))
  rw [hdec] at hwritten
  set n := (Vm.tx maxAlloc mtu tapFails reads).written.length with hn
  refine ⟨(attempts s.log d).take n, List.take_prefix _ _, ?_, ?_, ?_⟩
  · rw [List.map_take, hn]
    exact List.prefix_iff_eq_take.mp hwritten
  · intro c mtu' packets hmtu hwired
    have hsub : (((attempts s.log d).take n).filter fun p => cameFrom s.log c p.1).Sublist
        (received s.log c) :=
      ((List.take_sublist n _).filter _).trans (attempts_from hreach c d)
    exact (hsub.map Prod.snd).trans (hwired.received hmtu).sublist
  · intro hread hclean htap hmake hdevice
    have hlen : ∀ f ∈ (attempts s.log d).map Prod.snd, 1 ≤ f.length ∧ f.length ≤ 65535 := by
      intro f hf
      obtain ⟨p, hp, rfl⟩ := List.mem_map.mp hf
      exact ⟨(hdevice p hp).1, hfits p hp⟩
    have hcap : ∀ f ∈ (attempts s.log d).map Prod.snd, f.length ≤ mtu + 14 := by
      intro f hf
      obtain ⟨p, hp, rfl⟩ := List.mem_map.mp hf
      exact (hdevice p hp).2
    have htx := Vm.tx_eq_outcome tapFails maxAlloc mtu hlen (hread.trans (hall hclean))
    rw [if_pos hmake] at htx
    rw [hn, htx, Vm.txOutcome_all htap [] hcap]
    simp

/-- A broadcast of machine 1 arrives on the tap device of machine 0. -/
theorem tap_to_tap_broadcast :
    ∃ s, Reachable gatewayMacAddress s ∧ Wired s.log 1 1500 [arpFrame] ∧
      (Vm.tx Vm.amd64MaxAlloc 1500 (fun _ => false) [bytesOn s.log 0]).written = [arpFrame] ∧
      ([arpFrame].Sublist (Vm.rxPackets 1500 [] [arpFrame])) := by
  obtain ⟨s, hreach, hconnect, hreceived, hattempts, hfrom, hclean⟩ := reachable_of_exec
    (fun s => Action.connect 0 .hyperkitProtocol ∈ s.log ∧ received s.log 1 = [(6, arpFrame)] ∧
      attempts s.log 0 = [(6, arpFrame)] ∧ cameFrom s.log 1 6 = true ∧
      ∀ a ∈ s.log, a.failsOn ≠ some 0)
    (accepts 0 .hyperKitProtocol ++ accepts 1 .hyperKitProtocol ++ [receives 1 arpFrame] ++
      goes 1 7 ++ [⟨1, .order [0, 1]⟩, ⟨1, .write .ok⟩])
    (by decide)
  have hwired : Wired s.log 1 1500 [arpFrame] := by
    refine ⟨[(Vm.rx 1500 [] [arpFrame]).flatten], by simp, ?_⟩
    rw [rxFrames_eq, List.flatten_singleton, rxFrames_rx (by decide), hreceived]
    rfl
  have hlen : arpFrame.length = 15 := by decide
  have hnotFailed : ¬ Failed s.log 0 := fun ⟨a, ha, hfail⟩ => hclean a ha hfail
  have hwhole : [bytesOn s.log 0].flatten <+: bytesOn s.log 0 := by simp
  obtain ⟨arrived, -, hwritten, hpackets, hall⟩ := tap_to_tap hreach hconnect
    (by simp [hattempts, hlen]) Vm.amd64MaxAlloc 1500 (fun _ => false) hwhole
  have harrived : arrived = [(6, arpFrame)] := by
    rw [hall (by simp) hnotFailed (fun _ => rfl) (by decide) (by simp [hattempts, hlen]),
      hattempts]
  have hsub := hpackets 1 1500 [arpFrame] (by decide) hwired
  rw [harrived] at hwritten hsub
  exact ⟨s, hreach, hwired, hwritten, by simpa [hfrom] using hsub⟩

end GvisorTapVsock.VirtualNetwork
