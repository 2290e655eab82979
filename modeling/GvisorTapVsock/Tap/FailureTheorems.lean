/-
GvisorTapVsock.Tap.FailureTheorems — failed writes and disconnects over whole
runs.

A goroutine whose write failed keeps `connLock` until it has disconnected the
connection, so nobody else can write in between: `writes_clean` says that
nothing is written on a connection after a write on it failed, or after it was
disconnected. The other way round, a connection whose `Accept` is still
running is disconnected only because of a failed write
(`failed_of_disconnected`).
-/
import GvisorTapVsock.Tap.ConnIdTheorems

namespace GvisorTapVsock.Tap

open GvisorTapVsock.Go GvisorTapVsock.Lts

variable {gateway : LinkAddress} {s : State} {pc pc' : Pc} {a : Action}

/-! ## Failures -/

/-- The connection on which the action is a failed write. -/
def Action.failsOn : Action → Option ConnId
  | .write _ id _ _ (.err _) => some id
  | _ => none

/-- A write on the connection has failed. -/
def Failed (log : List Action) (id : ConnId) : Prop := ∃ a ∈ log, a.failsOn = some id

theorem failed_append (log : List Action) (a : Action) (id : ConnId) :
    Failed (log ++ [a]) id ↔ Failed log id ∨ a.failsOn = some id := by
  simp [Failed, or_and_right, exists_or]

/-- The connection a goroutine is about to disconnect after a failed write. -/
def Pc.failing : Pc → Option ConnId
  | .tx _ (.camLock id) | .tx _ (.disconnect id) => some id
  | _ => none

theorem Pc.holdsConn_of_failing {id : ConnId} (h : pc.failing = some id) :
    pc.holdsConn = true := by
  cases pc with
  | tx x p =>
    cases p with
    | camLock i | disconnect i => rfl
    | _ => exact absurd h nofun
  | _ => exact absurd h nofun

theorem Tx.failing_ret (x : Tx) : x.ret.failing = none := by
  cases x <;> rfl

/-! ## Rows -/

theorem Moves.failing_of (h : Moves gateway s pc pc' a) {id : ConnId}
    (hf : pc'.failing = some id) : pc.failing = some id ∨ a.failsOn = some id := by
  cases h with
  | @tx x _ _ _ moves =>
    cases moves with
    | rangeFail | unicastFail => exact Or.inr hf
    | camLock => exact Or.inl hf
    | unlock => exact absurd (hf.symm.trans x.failing_ret) nofun
    | _ => exact absurd hf nofun
  | _ => exact absurd hf nofun

/-- A goroutine with a failed write disconnects next. -/
theorem Moves.failing_next (h : Moves gateway s pc pc' a) {id : ConnId}
    (hf : pc.failing = some id) : pc'.failing = some id ∨ a = .disconnect id := by
  cases h with
  | tx moves =>
    cases moves with
    | camLock => exact Or.inl hf
    | disconnect => exact Or.inr (congrArg _ (Option.some.inj hf))
    | _ => exact absurd hf nofun
  | _ => exact absurd hf nofun

/-- A write goes to a connection of `e.conns`, under `connLock`, with the bytes
of the packet. -/
theorem Moves.write_eq {key : FrameKey} {id : ConnId} {impl : ProtocolImpl}
    {pkt : List UInt8} {res : WriteResult}
    (h : Moves gateway s pc pc' (.write key id impl pkt res)) :
    s.sw.conns.lookup id = some impl ∧ pc.holdsConn = true ∧ pc.failing = none ∧
      ((Action.write key id impl pkt res).failsOn = some id → pc'.failing = some id) ∧
      ∃ x p, pc = .tx x p ∧ key = x.key ∧ pkt = x.pkt := by
  cases h with
  | tx moves =>
    cases moves with
    | rangeWrite conn | unicastWrite conn => exact ⟨conn, rfl, rfl, nofun, _, _, rfl, rfl, rfl⟩
    | rangeFail conn | unicastFail conn =>
      exact ⟨conn, rfl, rfl, fun _ => rfl, _, _, rfl, rfl, rfl⟩

theorem Moves.disconnect_eq {id : ConnId} (h : Moves gateway s pc pc' (.disconnect id)) :
    pc.failing = some id ∨ (pc.acceptOf = some id ∧ pc'.liveId = none) := by
  cases h with
  | tx moves => cases moves; exact Or.inl rfl
  | exitDisconnect => exact Or.inr ⟨rfl, rfl⟩

theorem Action.failsOn_eq_some {id : ConnId} (h : a.failsOn = some id) :
    ∃ key impl pkt n, a = .write key id impl pkt (.err n) := by
  cases a with
  | write key i impl pkt res =>
    cases res with
    | ok => exact absurd h nofun
    | err n => exact ⟨key, impl, pkt, n, by rw [← Option.some.inj h]⟩
  | _ => exact absurd h nofun

/-! ## Disconnects -/

/-- A goroutine disconnects only ids that were given out. -/
theorem failing_lt (hreach : Reachable gateway s) :
    ∀ t id, (s.pc t).failing = some id → id < s.sw.nextConnID := by
  induction hreach using Reachable.invariant with
  | init => exact nofun
  | step s t pc a sw hreach ih hs =>
    intro t' id h
    have hle := Switch.nextConnID_le_apply hs.applies
    refine Nat.lt_of_lt_of_le ?_ hle
    by_cases ht : t' = t
    · subst ht
      simp only [Function.update_self] at h
      rcases hs.moves.failing_of h with h | h
      · exact ih t' id h
      · obtain ⟨key, impl, pkt, n, rfl⟩ := Action.failsOn_eq_some h
        obtain ⟨t'', hlive⟩ := live_of_conns hreach id impl hs.moves.write_eq.1
        exact acceptOf_lt hreach t'' id (Pc.acceptOf_of_liveId hlive)
    · simp only [Function.update_of_ne ht] at h
      exact ih t' id h

theorem disconnected_lt (hreach : Reachable gateway s) :
    ∀ id, .disconnect id ∈ s.log → id < s.sw.nextConnID := by
  induction hreach using Reachable.invariant with
  | init => exact nofun
  | step s t pc a sw hreach ih hs =>
    intro id h
    have hle := Switch.nextConnID_le_apply hs.applies
    refine Nat.lt_of_lt_of_le ?_ hle
    rcases List.mem_append.mp h with h | h
    · exact ih id h
    · obtain rfl := List.mem_singleton.mp h
      rcases hs.moves.disconnect_eq with h | ⟨h, -⟩
      · exact failing_lt hreach t id h
      · exact acceptOf_lt hreach t id h

/-- Connections in `e.conns` have not been disconnected. -/
theorem conns_not_disconnected (hreach : Reachable gateway s) :
    ∀ id impl, s.sw.conns.lookup id = some impl → .disconnect id ∉ s.log := by
  induction hreach using Reachable.invariant with
  | init =>
    intro id impl h
    simp [State.init, Switch.new] at h
  | step s t pc a sw hreach ih hs =>
    intro id impl h
    show .disconnect id ∉ s.log ++ [a]
    rw [List.mem_append, List.mem_singleton, not_or]
    rcases Switch.conns_apply hs.applies with
      ⟨i, impl', rfl, heq⟩ | ⟨i, rfl, heq⟩ | ⟨-, hdisc, heq⟩
    all_goals simp only [heq] at h
    · refine ⟨?_, by simp⟩
      by_cases hid : id = i
      · intro hd
        rw [hid, (hs.moves.connect_eq).1] at hd
        exact Nat.lt_irrefl _ (disconnected_lt hreach _ hd)
      · rw [AList.lookup_insert_ne hid] at h
        exact ih id impl h
    · by_cases hid : id = i
      · rw [hid, AList.lookup_erase] at h
        simp at h
      · rw [AList.lookup_erase_ne hid] at h
        exact ⟨ih id impl h, fun hd => hid (Action.disconnect.inj hd)⟩
    · exact ⟨ih id impl h, Ne.symm (hdisc id)⟩

/-- A failed write is followed by the disconnect, and until then the goroutine
is on its way to it. -/
theorem failed_pending (hreach : Reachable gateway s) :
    ∀ id, Failed s.log id → .disconnect id ∈ s.log ∨ ∃ t, (s.pc t).failing = some id := by
  induction hreach using Reachable.invariant with
  | init =>
    rintro id ⟨a, ha, -⟩
    exact absurd ha nofun
  | step s t pc a sw _ ih hs =>
    intro id h
    show .disconnect id ∈ s.log ++ [a] ∨
      ∃ t', (Function.update s.pc t pc t').failing = some id
    rw [List.mem_append, List.mem_singleton]
    rcases (failed_append _ _ _).mp h with h | h
    · rcases ih id h with hd | ⟨t', ht'⟩
      · exact Or.inl (Or.inl hd)
      · by_cases ht : t' = t
        · subst ht
          rcases hs.moves.failing_next ht' with h | h
          · exact Or.inr ⟨t', by rw [Function.update_self, h]⟩
          · exact Or.inl (Or.inr h.symm)
        · exact Or.inr ⟨t', by rw [Function.update_of_ne ht, ht']⟩
    · obtain ⟨key, impl, pkt, n, rfl⟩ := Action.failsOn_eq_some h
      exact Or.inr ⟨t, by rw [Function.update_self, hs.moves.write_eq.2.2.2.1 h]⟩

/-- A write finds the connection without a failure and not disconnected. -/
theorem Steps.write_clean (hreach : Reachable gateway s) {t : Goroutine} {sw : Switch}
    {key : FrameKey} {d : ConnId} {impl : ProtocolImpl} {pkt : List UInt8} {res : WriteResult}
    (hs : Steps gateway s t pc (.write key d impl pkt res) sw) :
    .disconnect d ∉ s.log ∧ ¬ Failed s.log d := by
  obtain ⟨hconn, hholds, hfree, -, -⟩ := hs.moves.write_eq
  have hdisc := conns_not_disconnected hreach d impl hconn
  refine ⟨hdisc, fun hfailed => ?_⟩
  obtain ⟨t', ht'⟩ := (failed_pending hreach d hfailed).resolve_left hdisc
  obtain rfl := eq_of_holdsConn hreach (Pc.holdsConn_of_failing ht') hholds
  exact absurd (ht'.symm.trans hfree) nofun

/-- Nothing is written on a connection after a failed write on it or after its
disconnect. -/
theorem writes_clean (hreach : Reachable gateway s) :
    ∀ i key d impl pkt res, s.log[i]? = some (.write key d impl pkt res) →
      .disconnect d ∉ s.log.take i ∧ ¬ Failed (s.log.take i) d := by
  induction hreach using Reachable.invariant with
  | init => exact nofun
  | step s t pc a sw hreach ih hs =>
    intro i key d impl pkt res h
    show .disconnect d ∉ (s.log ++ [a]).take i ∧ ¬ Failed ((s.log ++ [a]).take i) d
    rcases getElem?_append_one h with ⟨hlt, h⟩ | ⟨rfl, rfl⟩
    · rw [List.take_append_of_le_length (Nat.le_of_lt hlt)]
      exact ih i key d impl pkt res h
    · rw [List.take_left]
      exact hs.write_clean hreach

/-- Whoever is about to disconnect after a failed write has seen it fail. -/
theorem failed_of_failing (hreach : Reachable gateway s) :
    ∀ t id, (s.pc t).failing = some id → Failed s.log id := by
  induction hreach using Reachable.invariant with
  | init => exact nofun
  | step s t pc a sw _ ih hs =>
    intro t' id h
    show Failed (s.log ++ [a]) id
    rw [failed_append]
    by_cases ht : t' = t
    · subst ht
      simp only [Function.update_self] at h
      exact (hs.moves.failing_of h).imp_left (ih t' id)
    · simp only [Function.update_of_ne ht] at h
      exact Or.inl (ih t' id h)

/-- While its `Accept` runs, a connection is disconnected because of a failed
write only. -/
theorem failed_of_disconnected (hreach : Reachable gateway s) :
    ∀ t id, (s.pc t).liveId = some id → .disconnect id ∈ s.log → Failed s.log id := by
  induction hreach using Reachable.invariant with
  | init => exact nofun
  | step s t pc a sw hreach ih hs =>
    intro t' id hlive hdisc
    show Failed (s.log ++ [a]) id
    rw [failed_append]
    by_cases ht : t' = t
    · subst ht
      simp only [Function.update_self] at hlive
      rcases List.mem_append.mp hdisc with hold | hnew
      · rcases hs.moves.liveId with hsame | ⟨impl, -, -, hnext⟩ | ⟨_, -, -, hnone⟩
        · exact Or.inl (ih t' id (hsame ▸ hlive) hold)
        · rw [hnext, Option.some.injEq] at hlive
          exact absurd (disconnected_lt hreach id hold) (hlive ▸ Nat.lt_irrefl _)
        · exact absurd (hlive.symm.trans hnone) nofun
      · obtain rfl := List.mem_singleton.mp hnew
        rcases hs.moves.disconnect_eq with hfailing | ⟨-, hnone⟩
        · exact Or.inl (failed_of_failing hreach t' id hfailing)
        · exact absurd (hlive.symm.trans hnone) nofun
    · simp only [Function.update_of_ne ht] at hlive
      rcases List.mem_append.mp hdisc with hold | hnew
      · exact Or.inl (ih t' id hlive hold)
      · obtain rfl := List.mem_singleton.mp hnew
        rcases hs.moves.disconnect_eq with hfailing | ⟨hown, -⟩
        · exact Or.inl (failed_of_failing hreach t id hfailing)
        · exact absurd (acceptOf_unique hreach t' t id (Pc.acceptOf_of_liveId hlive) hown) ht

end GvisorTapVsock.Tap
