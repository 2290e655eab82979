/-
GvisorTapVsock.Tap.FrameTrace — what the log says about one frame.

Several frames are under way at a time. `trace log k` collects the lookups,
writes, deliveries and returns that carry the key `k`. Only the goroutine that
handles a frame acts under its key (`Moves.key_mem`), and no two goroutines
handle the same frame (`frames_unique`), so the trace of a frame is written by
ONE goroutine and can be related to where that goroutine is. No frame is lost on
the way: it is under way until the call that has it returns (`underWay`).
-/
import GvisorTapVsock.Tap.ConnIdTheorems
import Mathlib.Data.List.Induction

namespace GvisorTapVsock.Tap

open GvisorTapVsock.Go GvisorTapVsock.Lts

variable {gateway : LinkAddress} {s : State} {pc pc' : Pc} {a : Action}

/-! ## Traces -/

/-- The frame an action is about, if it is about one that came in before. -/
def Action.key? : Action → Option FrameKey
  | .lookup key _ _ | .write key _ _ _ _ | .txReturn key | .deliver key _ _ |
    .received key _ => some key
  | _ => none

/-- The actions under one key, by kind and in order. -/
structure FrameTrace where
  /-- The keys of `e.conns` and the hit, at each lookup. -/
  lookups : List (List ConnId × Option ConnId)
  writes : List (ConnId × WriteResult)
  delivered : List (Nat × List UInt8)
  txReturns : Nat
  rxReturns : Nat
  deriving DecidableEq

namespace FrameTrace

def empty : FrameTrace := ⟨[], [], [], 0, 0⟩

/-- One more action. -/
def add (k : FrameKey) (tr : FrameTrace) : Action → FrameTrace
  | .lookup key conns hit =>
      if key = k then { tr with lookups := tr.lookups ++ [(conns, hit)] } else tr
  | .write key id _ _ res =>
      if key = k then { tr with writes := tr.writes ++ [(id, res)] } else tr
  | .txReturn key => if key = k then { tr with txReturns := tr.txReturns + 1 } else tr
  | .deliver key type payload =>
      if key = k then { tr with delivered := tr.delivered ++ [(type, payload)] } else tr
  | .received key _ => if key = k then { tr with rxReturns := tr.rxReturns + 1 } else tr
  | _ => tr

theorem add_of_ne {k : FrameKey} {tr : FrameTrace} (h : a.key? ≠ some k) : tr.add k a = tr := by
  cases a with
  | lookup key | write key | txReturn key | deliver key | received key =>
    exact if_neg fun heq => h (by rw [← heq]; rfl)
  | _ => rfl

section Self

variable (k : FrameKey) (tr : FrameTrace)

@[simp] theorem add_lookup_self (conns : List ConnId) (hit : Option ConnId) :
    tr.add k (.lookup k conns hit) = { tr with lookups := tr.lookups ++ [(conns, hit)] } :=
  if_pos rfl

@[simp] theorem add_write_self (id : ConnId) (impl : ProtocolImpl) (pkt : List UInt8)
    (res : WriteResult) :
    tr.add k (.write k id impl pkt res) = { tr with writes := tr.writes ++ [(id, res)] } :=
  if_pos rfl

@[simp] theorem add_txReturn_self :
    tr.add k (.txReturn k) = { tr with txReturns := tr.txReturns + 1 } :=
  if_pos rfl

@[simp] theorem add_deliver_self (type : Nat) (payload : List UInt8) :
    tr.add k (.deliver k type payload) =
      { tr with delivered := tr.delivered ++ [(type, payload)] } :=
  if_pos rfl

@[simp] theorem add_received_self (size : Nat) :
    tr.add k (.received k size) = { tr with rxReturns := tr.rxReturns + 1 } :=
  if_pos rfl

end Self

theorem mem_lookups_add {k : FrameKey} {tr : FrameTrace} {a : Action}
    {l : List ConnId × Option ConnId} (h : l ∈ (tr.add k a).lookups) :
    l ∈ tr.lookups ∨ a = .lookup k l.1 l.2 := by
  by_cases hkey : a.key? = some k
  · cases a with
    | lookup key conns hit =>
      obtain rfl := Option.some.inj hkey
      rw [add_lookup_self] at h
      exact (List.mem_append.mp h).imp_right fun h => by rw [List.mem_singleton.mp h]
    | write key | txReturn key | deliver key | received key =>
      obtain rfl := Option.some.inj hkey
      simp only [add_write_self, add_txReturn_self, add_deliver_self, add_received_self] at h
      exact Or.inl h
    | _ => exact Or.inl h
  · rw [add_of_ne hkey] at h
    exact Or.inl h

/-- Writes are never taken back. -/
theorem writes_add (k : FrameKey) (tr : FrameTrace) (a : Action) :
    tr.writes <+: (tr.add k a).writes := by
  by_cases hkey : a.key? = some k
  · cases a with
    | write key =>
      obtain rfl := Option.some.inj hkey
      rw [add_write_self]
      exact List.prefix_append _ _
    | lookup key | txReturn key | deliver key | received key =>
      obtain rfl := Option.some.inj hkey
      simp
    | _ => exact List.prefix_refl _
  · simp [add_of_ne hkey]

/-- Returns are never taken back. -/
theorem returns_le_add (k : FrameKey) (tr : FrameTrace) (a : Action) :
    tr.txReturns ≤ (tr.add k a).txReturns ∧ tr.rxReturns ≤ (tr.add k a).rxReturns := by
  by_cases hkey : a.key? = some k
  · cases a with
    | lookup key | write key | txReturn key | deliver key | received key =>
      obtain rfl := Option.some.inj hkey
      simp
    | _ => exact ⟨Nat.le_refl _, Nat.le_refl _⟩
  · rw [add_of_ne hkey]
    exact ⟨Nat.le_refl _, Nat.le_refl _⟩

end FrameTrace

/-- The trace of a frame. -/
def trace (log : List Action) (k : FrameKey) : FrameTrace :=
  log.foldl (FrameTrace.add k) .empty

theorem trace_append (log : List Action) (a : Action) (k : FrameKey) :
    trace (log ++ [a]) k = (trace log k).add k a := by
  rw [trace, List.foldl_append]
  rfl

theorem trace_append_of_ne {log : List Action} {k : FrameKey} (h : a.key? ≠ some k) :
    trace (log ++ [a]) k = trace log k := by
  rw [trace_append, FrameTrace.add_of_ne h]

/-- A write in the trace is a write in the log. -/
theorem mem_log_of_mem_writes {k : FrameKey} {d : ConnId} {res : WriteResult}
    {log : List Action} :
    (d, res) ∈ (trace log k).writes → ∃ impl pkt, .write k d impl pkt res ∈ log := by
  induction log using List.reverseRecOn with
  | nil => exact nofun
  | append_singleton log a ih =>
    intro h
    rw [trace_append] at h
    have hold : (d, res) ∈ (trace log k).writes →
        ∃ impl pkt, .write k d impl pkt res ∈ log ++ [a] := by
      intro h
      obtain ⟨impl, pkt, hw⟩ := ih h
      exact ⟨impl, pkt, List.mem_append_left _ hw⟩
    by_cases hkey : a.key? = some k
    · cases a with
      | write key id impl pkt r =>
        obtain rfl := Option.some.inj hkey
        rw [FrameTrace.add_write_self] at h
        rcases List.mem_append.mp h with h | h
        · exact hold h
        · obtain ⟨rfl, rfl⟩ := Prod.mk.inj (List.mem_singleton.mp h)
          exact ⟨impl, pkt, by simp⟩
      | lookup key | txReturn key | deliver key | received key =>
        obtain rfl := Option.some.inj hkey
        simp only [FrameTrace.add_lookup_self, FrameTrace.add_txReturn_self,
          FrameTrace.add_deliver_self, FrameTrace.add_received_self] at h
        exact hold h
      | _ => exact absurd hkey nofun
    · rw [FrameTrace.add_of_ne hkey] at h
      exact hold h

/-- A write in the log is a write in the trace. -/
theorem mem_writes_of_mem_log {k : FrameKey} {d : ConnId} {impl : ProtocolImpl}
    {pkt : List UInt8} {res : WriteResult} {log : List Action} :
    .write k d impl pkt res ∈ log → (d, res) ∈ (trace log k).writes := by
  induction log using List.reverseRecOn with
  | nil => exact nofun
  | append_singleton log a ih =>
    intro h
    rw [trace_append]
    rcases List.mem_append.mp h with h | h
    · exact (FrameTrace.writes_add _ _ _).subset (ih h)
    · rw [← List.mem_singleton.mp h, FrameTrace.add_write_self]
      exact List.mem_append_right _ (List.mem_singleton.mpr rfl)

/-! ## Frames under way -/

/-- The action that brought the frame in. -/
def RxCall.origin (r : RxCall) : FrameKey × Action := (r.key, .recv r.id r.buf.toList)

/-- The frames a call of `txPkt` has under way, each with the action that
brought it in. -/
def Tx.frames : Tx → List (FrameKey × Action)
  | .rxBuf r => [r.origin]
  | .gateway r key pkt => [r.origin, (key, .send pkt)]
  | .stack key pkt => [(key, .send pkt)]

/-- The frames a goroutine has under way. -/
def Pc.frames : Pc → List (FrameKey × Action)
  | .learnLock r | .learn r | .forward r | .handUp r | .inGateway r | .count r => [r.origin]
  | .tx x _ => x.frames
  | _ => []

theorem Tx.frames_ret (x : Tx) {p : FrameKey × Action} (h : p ∈ x.ret.frames) :
    p ∈ x.frames := by
  cases x with
  | rxBuf r => exact h
  | gateway r key pkt => exact List.mem_cons.mpr (Or.inl (List.mem_singleton.mp h))
  | stack key pkt => exact absurd h nofun

theorem Tx.key_mem_frames (x : Tx) : ∃ b, (x.key, b) ∈ x.frames := by
  cases x with
  | rxBuf r => exact ⟨_, List.mem_singleton.mpr rfl⟩
  | gateway r key pkt => exact ⟨_, List.mem_cons_of_mem _ (List.mem_singleton.mpr rfl)⟩
  | stack key pkt => exact ⟨_, List.mem_singleton.mpr rfl⟩

theorem Pc.origin_mem_frames {pc : Pc} {r : RxCall} (h : pc.rx? = some r) :
    r.origin ∈ pc.frames := by
  cases pc with
  | learnLock | learn | forward | handUp | inGateway | count =>
    obtain rfl := Option.some.inj h
    exact List.mem_singleton.mpr rfl
  | tx x p =>
    cases x with
    | rxBuf | gateway =>
      obtain rfl := Option.some.inj h
      exact List.mem_cons_self
    | stack => exact absurd h nofun
  | _ => exact absurd h nofun

/-- A goroutine is in `rxBuf` with the frame. -/
def State.Handling (s : State) (k : FrameKey) : Prop :=
  ∃ t r, (s.pc t).rx? = some r ∧ r.key = k

/-- A goroutine is in `txPkt` with the packet. -/
def State.Transmitting (s : State) (k : FrameKey) : Prop :=
  ∃ t x p, s.pc t = .tx x p ∧ x.key = k

theorem State.handling_of_frames {t : Goroutine} {k : FrameKey} {id : ConnId} {f : List UInt8}
    (h : (k, .recv id f) ∈ (s.pc t).frames) : s.Handling k := by
  cases hpc : s.pc t with
  | learnLock r | learn r | forward r | handUp r | inGateway r | count r =>
    rw [hpc] at h
    exact ⟨t, r, by rw [hpc]; rfl, (Prod.mk.inj (List.mem_singleton.mp h)).1.symm⟩
  | tx x p =>
    rw [hpc] at h
    cases x with
    | rxBuf r => exact ⟨t, r, by rw [hpc]; rfl, (Prod.mk.inj (List.mem_singleton.mp h)).1.symm⟩
    | gateway r key pkt =>
      rcases List.mem_cons.mp h with h | h
      · exact ⟨t, r, by rw [hpc]; rfl, (Prod.mk.inj h).1.symm⟩
      · exact absurd (Prod.mk.inj (List.mem_singleton.mp h)).2 nofun
    | stack key pkt => exact absurd (Prod.mk.inj (List.mem_singleton.mp h)).2 nofun
  | _ =>
    rw [hpc] at h
    exact absurd h nofun

theorem State.transmitting_of_frames {t : Goroutine} {k : FrameKey} {pkt : List UInt8}
    (h : (k, .send pkt) ∈ (s.pc t).frames) : s.Transmitting k := by
  cases hpc : s.pc t with
  | learnLock r | learn r | forward r | handUp r | inGateway r | count r =>
    rw [hpc] at h
    exact absurd (Prod.mk.inj (List.mem_singleton.mp h)).2 nofun
  | tx x p =>
    rw [hpc] at h
    refine ⟨t, x, p, hpc, ?_⟩
    cases x with
    | rxBuf r => exact absurd (Prod.mk.inj (List.mem_singleton.mp h)).2 nofun
    | gateway r key pkt =>
      rcases List.mem_cons.mp h with h | h
      · exact absurd (Prod.mk.inj h).2 nofun
      · exact (Prod.mk.inj (List.mem_singleton.mp h)).1.symm
    | stack key pkt => exact (Prod.mk.inj (List.mem_singleton.mp h)).1.symm
  | _ =>
    rw [hpc] at h
    exact absurd h nofun

/-- A frame that is new to a goroutine has just come in. -/
theorem Moves.frames (h : Moves gateway s pc pc' a) {p : FrameKey × Action}
    (hp : p ∈ pc'.frames) : p ∈ pc.frames ∨ p = (s.log.length, a) := by
  cases h with
  | @tx x _ _ _ moves =>
    cases moves with
    | unlock => exact Or.inl (x.frames_ret hp)
    | _ => exact Or.inl hp
  | send => exact Or.inr (List.mem_singleton.mp hp)
  | recv => exact Or.inr (List.mem_singleton.mp hp)
  | answer =>
    rcases List.mem_cons.mp hp with hp | hp
    · exact Or.inl (List.mem_singleton.mpr hp)
    · exact Or.inr (List.mem_singleton.mp hp)
  | connect | stop | count | exitUnlock | camRead => exact absurd hp nofun
  | _ => exact Or.inl hp

/-- A goroutine acts under the keys of its frames only. -/
theorem Moves.key_mem (h : Moves gateway s pc pc' a) {k : FrameKey} (hk : a.key? = some k) :
    ∃ b, (k, b) ∈ pc.frames := by
  cases h with
  | @tx x _ _ _ moves =>
    cases moves with
    | lookupBroadcast | lookupMiss | lookupHit | rangeWrite | rangeFail | unicastWrite |
      unicastFail | unlock => exact Option.some.inj hk ▸ x.key_mem_frames
    | _ => exact absurd hk nofun
  | handUp | count => exact ⟨_, List.mem_singleton.mpr (by rw [← Option.some.inj hk]; rfl)⟩
  | _ => exact absurd hk nofun

/-- The call that has the frame has returned: `rxBuf` for a received frame,
`txPkt` for a packet of the gateway's stack. -/
def FrameTrace.Returned (tr : FrameTrace) : Action → Prop
  | .recv _ _ => tr.rxReturns ≠ 0
  | .send _ => tr.txReturns ≠ 0
  | _ => True

theorem FrameTrace.Returned.add {tr : FrameTrace} {b : Action} (h : tr.Returned b)
    (k : FrameKey) (a : Action) : (tr.add k a).Returned b := by
  obtain ⟨htx, hrx⟩ := tr.returns_le_add k a
  cases b with
  | recv id f => exact fun hzero => h (Nat.le_zero.mp (hzero ▸ hrx))
  | send pkt => exact fun hzero => h (Nat.le_zero.mp (hzero ▸ htx))
  | _ => trivial

/-- A frame that comes in is under way. -/
theorem Moves.frames_new (h : Moves gateway s pc pc' a) (tr : FrameTrace) :
    (s.log.length, a) ∈ pc'.frames ∨ tr.Returned a := by
  cases h with
  | send | recv => exact Or.inl (List.mem_singleton.mpr rfl)
  | answer => exact Or.inl (List.mem_cons_of_mem _ (List.mem_singleton.mpr rfl))
  | tx moves => cases moves <;> exact Or.inr trivial
  | _ => exact Or.inr trivial

/-- A goroutine keeps its frames until the call that has them returns. -/
theorem Moves.frames_kept (h : Moves gateway s pc pc' a) {k : FrameKey} {b : Action}
    (hp : (k, b) ∈ pc.frames) (tr : FrameTrace) :
    (k, b) ∈ pc'.frames ∨ (tr.add k a).Returned b := by
  cases h with
  | @tx x _ _ _ moves =>
    cases moves with
    | unlock =>
      cases x with
      | rxBuf r => exact Or.inl hp
      | gateway r key pkt =>
        rcases List.mem_cons.mp hp with hp | hp
        · exact Or.inl (List.mem_singleton.mpr hp)
        · obtain ⟨rfl, rfl⟩ := Prod.mk.inj (List.mem_singleton.mp hp)
          rw [Tx.key, FrameTrace.add_txReturn_self]
          exact Or.inr (Nat.succ_ne_zero _)
      | stack key pkt =>
        obtain ⟨rfl, rfl⟩ := Prod.mk.inj (List.mem_singleton.mp hp)
        rw [Tx.key, FrameTrace.add_txReturn_self]
        exact Or.inr (Nat.succ_ne_zero _)
    | _ => exact Or.inl hp
  | count =>
    obtain ⟨rfl, rfl⟩ := Prod.mk.inj (List.mem_singleton.mp hp)
    rw [FrameTrace.add_received_self]
    exact Or.inr (Nat.succ_ne_zero _)
  | answer => exact Or.inl (List.mem_cons.mpr (Or.inl (List.mem_singleton.mp hp)))
  | accept | send | cam | connectLock | connect | recv | stop | exitConnLock | exitCamLock |
    exitDisconnect | exitUnlock | camRLock | camRead => exact absurd hp nofun
  | _ => exact Or.inl hp

/-! ## Who handles a frame -/

/-- The log holds what brought a frame in, at the frame's key. -/
theorem frames_log (hreach : Reachable gateway s) :
    ∀ t k b, (k, b) ∈ (s.pc t).frames → s.log[k]? = some b := by
  induction hreach using Reachable.invariant with
  | init => exact nofun
  | step s t pc a sw _ ih hs =>
    intro t' k b h
    have hold : ∀ t', (k, b) ∈ (s.pc t').frames → (s.log ++ [a])[k]? = some b := by
      intro t' h
      have hk := ih t' k b h
      rwa [List.getElem?_append_left (List.getElem?_eq_some_iff.mp hk).1]
    show (s.log ++ [a])[k]? = some b
    by_cases ht : t' = t
    · subst ht
      simp only [Function.update_self] at h
      rcases hs.moves.frames h with h | h
      · exact hold t' h
      · obtain ⟨rfl, rfl⟩ := Prod.mk.inj h
        exact List.getElem?_concat_length
    · simp only [Function.update_of_ne ht] at h
      exact hold t' h

theorem frames_lt (hreach : Reachable gateway s) {t : Goroutine} {k : FrameKey} {b : Action}
    (h : (k, b) ∈ (s.pc t).frames) : k < s.log.length :=
  (List.getElem?_eq_some_iff.mp (frames_log hreach t k b h)).1

/-- No two goroutines handle one frame. -/
theorem frames_unique (hreach : Reachable gateway s) :
    Exclusive (fun pc k => ∃ b, (k, b) ∈ pc.frames) s.pc := by
  induction hreach using Reachable.invariant with
  | init =>
    intro t t' k h
    exact absurd h.choose_spec nofun
  | step s t pc a sw hreach ih hs =>
    refine ih.update fun k hpc => ?_
    obtain ⟨b, hpc⟩ := hpc
    rcases hs.moves.frames hpc with hkept | hnew
    · exact Or.inl ⟨b, hkept⟩
    · refine Or.inr fun t' hother => ?_
      obtain ⟨b', hother⟩ := hother
      have hlt := frames_lt hreach hother
      rw [(Prod.mk.inj hnew).1] at hlt
      exact Nat.lt_irrefl _ hlt

/-- **No frame is lost.** Every frame of the log is under way, or the call that
had it has returned. -/
theorem underWay (hreach : Reachable gateway s) :
    ∀ k b, s.log[k]? = some b →
      (∃ t, (k, b) ∈ (s.pc t).frames) ∨ (trace s.log k).Returned b := by
  induction hreach using Reachable.invariant with
  | init => exact nofun
  | step s t pc a sw _ ih hs =>
    intro k b hb
    show (∃ t', (k, b) ∈ (Function.update s.pc t pc t').frames) ∨
      (trace (s.log ++ [a]) k).Returned b
    have hmoved : (k, b) ∈ pc.frames → ∃ t', (k, b) ∈ (Function.update s.pc t pc t').frames :=
      fun h => ⟨t, by rwa [Function.update_self]⟩
    rw [trace_append]
    rcases getElem?_append_one hb with ⟨-, hold⟩ | ⟨rfl, rfl⟩
    · rcases ih k b hold with ⟨t', hframes⟩ | hret
      · by_cases ht : t' = t
        · exact (hs.moves.frames_kept (ht ▸ hframes) _).imp_left hmoved
        · exact Or.inl ⟨t', by rwa [Function.update_of_ne ht]⟩
      · exact Or.inr (hret.add k a)
    · exact (hs.moves.frames_new _).imp_left hmoved

/-- A step of another goroutine does not touch the trace of a frame. -/
theorem Steps.trace_of_other (hreach : Reachable gateway s) {t t' : Goroutine} {sw : Switch}
    (hs : Steps gateway s t pc' a sw) (ht : t' ≠ t) {k : FrameKey} {b : Action}
    (h : (k, b) ∈ (s.pc t').frames) : trace (s.log ++ [a]) k = trace s.log k := by
  refine trace_append_of_ne fun hk => ?_
  obtain ⟨b', hb'⟩ := hs.moves.key_mem hk
  exact ht (frames_unique hreach t' t k ⟨b, h⟩ ⟨b', hb'⟩)

/-- Nothing has happened under a key that is not in the log yet. -/
theorem trace_fresh (hreach : Reachable gateway s) :
    ∀ k, s.log.length ≤ k → trace s.log k = .empty := by
  induction hreach using Reachable.invariant with
  | init =>
    intro k _
    rfl
  | step s t pc a sw hreach ih hs =>
    intro k hk
    simp only [List.length_append, List.length_singleton] at hk
    have hkey : a.key? ≠ some k := by
      intro h
      obtain ⟨b, hb⟩ := hs.moves.key_mem h
      exact absurd (frames_lt hreach hb) (Nat.not_lt.mpr (Nat.le_of_succ_le hk))
    show trace (s.log ++ [a]) k = .empty
    rw [trace_append_of_ne hkey, ih k (Nat.le_of_succ_le hk)]

end GvisorTapVsock.Tap
