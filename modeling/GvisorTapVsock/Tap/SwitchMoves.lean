/-
GvisorTapVsock.Tap.SwitchMoves — what a step of the switch can do.

`Moves` and `TxMoves` list the rows of `next` and `nextTx` with their guards,
one constructor a row; `step_moves` is the inversion every invariant starts
from. The rest of the module reads off the rows, once, the facts invariants
need again and again: which fields an action changes, which actions need
`connLock`, and which connection a goroutine serves.
-/
import GvisorTapVsock.Tap.Switch

namespace GvisorTapVsock.Tap

open GvisorTapVsock.Go GvisorTapVsock.Lts

/-! ## Rows -/

/-- The rows of `nextTx`. -/
inductive TxMoves (sw : Switch) (x : Tx) : TxPc → Pc → Action → Prop where
  | writeLock : TxMoves sw x .writeLock (.tx x .connLock) .lockWrite
  | connLock : TxMoves sw x .connLock (.tx x .parse) .lockConn
  | parse {dst src : LinkAddress} (addresses : txAddresses x.pkt = .ok (dst, src)) :
      TxMoves sw x .parse (.tx x (.camRLock dst src)) .tau
  | parsePanic {p : Panic} (addresses : txAddresses x.pkt = .error p) :
      TxMoves sw x .parse (.tx x .parse) (.panic p)
  | camRLock {dst src : LinkAddress} :
      TxMoves sw x (.camRLock dst src) (.tx x (.lookup dst src)) .rlockCam
  | lookupBroadcast {src : LinkAddress} {ids : List ConnId} (order : ids.Perm sw.conns.keys) :
      TxMoves sw x (.lookup ethernetBroadcastAddress src)
        (.tx x (.range (srcID (sw.cam.lookup src)) ids))
        (.lookup x.key sw.conns.keys (sw.cam.lookup src))
  | lookupMiss {dst src : LinkAddress} (unicast : dst ≠ ethernetBroadcastAddress)
      (miss : sw.cam.lookup dst = none) :
      TxMoves sw x (.lookup dst src) (.tx x .unlock) (.lookup x.key sw.conns.keys none)
  | lookupHit {dst src : LinkAddress} {id : ConnId} (unicast : dst ≠ ethernetBroadcastAddress)
      (hit : sw.cam.lookup dst = some id) :
      TxMoves sw x (.lookup dst src) (.tx x (.unicast id))
        (.lookup x.key sw.conns.keys (some id))
  | rangeEnd {srcID : Int} : TxMoves sw x (.range srcID []) (.tx x .unlock) .tau
  | rangeGone {srcID : Int} {id : ConnId} {rest : List ConnId}
      (gone : sw.conns.lookup id = none) :
      TxMoves sw x (.range srcID (id :: rest)) (.tx x (.range srcID rest)) .tau
  | rangeSender {id : ConnId} {rest : List ConnId} :
      TxMoves sw x (.range id (id :: rest)) (.tx x (.range id rest)) .tau
  | rangeWrite {srcID : Int} {id : ConnId} {rest : List ConnId} {impl : ProtocolImpl}
      (conn : sw.conns.lookup id = some impl) (other : (id : Int) ≠ srcID) :
      TxMoves sw x (.range srcID (id :: rest)) (.tx x (.sentRange srcID rest))
        (.write x.key id impl x.pkt .ok)
  | rangeFail {srcID : Int} {id : ConnId} {rest : List ConnId} {impl : ProtocolImpl} {n : Nat}
      (conn : sw.conns.lookup id = some impl) (other : (id : Int) ≠ srcID)
      (bound : n ≤ (txBufBytes impl x.pkt).length) :
      TxMoves sw x (.range srcID (id :: rest)) (.tx x (.camLock id))
        (.write x.key id impl x.pkt (.err n))
  | unicastNil {id : ConnId} (gone : sw.conns.lookup id = none) :
      TxMoves sw x (.unicast id) (.tx x (.unicast id)) (.panic .nilDereference)
  | unicastWrite {id : ConnId} {impl : ProtocolImpl} (conn : sw.conns.lookup id = some impl) :
      TxMoves sw x (.unicast id) (.tx x .sentUnicast) (.write x.key id impl x.pkt .ok)
  | unicastFail {id : ConnId} {impl : ProtocolImpl} {n : Nat}
      (conn : sw.conns.lookup id = some impl) (bound : n ≤ (txBufBytes impl x.pkt).length) :
      TxMoves sw x (.unicast id) (.tx x (.camLock id)) (.write x.key id impl x.pkt (.err n))
  | sentRange {srcID : Int} {rest : List ConnId} :
      TxMoves sw x (.sentRange srcID rest) (.tx x (.range srcID rest)) (.addSent x.pkt.length)
  | sentUnicast : TxMoves sw x .sentUnicast (.tx x .unlock) (.addSent x.pkt.length)
  | camLock {id : ConnId} : TxMoves sw x (.camLock id) (.tx x (.disconnect id)) .lockCam
  | disconnect {id : ConnId} :
      TxMoves sw x (.disconnect id) (.tx x .unlock) (.disconnect id)
  | unlock : TxMoves sw x .unlock x.ret (.txReturn x.key)

/-- The rows of `next`. -/
inductive Moves (gateway : LinkAddress) (s : State) : Pc → Pc → Action → Prop where
  | accept {protocol : Protocol} :
      Moves gateway s .idle (.connectLock (protocolImplementation protocol)) .tau
  | send {pkt : List UInt8} (header : ethernetMinimumSize ≤ pkt.length) :
      Moves gateway s .idle (.tx (.stack s.log.length pkt) .writeLock) (.send pkt)
  | cam : Moves gateway s .idle .camRLock .tau
  | connectLock {impl : ProtocolImpl} :
      Moves gateway s (.connectLock impl) (.connect impl) .lockConn
  | connect {impl : ProtocolImpl} :
      Moves gateway s (.connect impl) (.rxRead s.sw.nextConnID impl)
        (.connect s.sw.nextConnID impl)
  | recv {id : ConnId} {impl : ProtocolImpl} {buf : Slice UInt8}
      (can : s.canReceive id impl buf = true) :
      Moves gateway s (.rxRead id impl) (.learnLock ⟨id, impl, s.log.length, buf⟩)
        (.recv id buf.toList)
  | stop {id : ConnId} {impl : ProtocolImpl} :
      Moves gateway s (.rxRead id impl) (.exitConnLock id) .tau
  | learnLock {r : RxCall} : Moves gateway s (.learnLock r) (.learn r) .lockCam
  | learn {r : RxCall} {src : LinkAddress} (source : sourceAddress r.buf = .ok src) :
      Moves gateway s (.learn r) (.forward r) (.learn r.id src)
  | learnPanic {r : RxCall} {p : Panic} (source : sourceAddress r.buf = .error p) :
      Moves gateway s (.learn r) (.learn r) (.panic p)
  | forward {r : RxCall} (forwarded : isForwarded gateway r.buf = .ok true) :
      Moves gateway s (.forward r) (.tx (.rxBuf r) .writeLock) .tau
  | keep {r : RxCall} (forwarded : isForwarded gateway r.buf = .ok false) :
      Moves gateway s (.forward r) (.handUp r) .tau
  | forwardPanic {r : RxCall} {p : Panic} (forwarded : isForwarded gateway r.buf = .error p) :
      Moves gateway s (.forward r) (.forward r) (.panic p)
  | tx {x : Tx} {pc : TxPc} {pc' : Pc} {a : Action} (moves : TxMoves s.sw x pc pc' a) :
      Moves gateway s (.tx x pc) pc' a
  | handUp {r : RxCall} {type : Nat} {payload : List UInt8}
      (handed : handedUp gateway r.buf = .ok (some (type, payload))) :
      Moves gateway s (.handUp r) (.inGateway r) (.deliver r.key type payload)
  | handUpNone {r : RxCall} (handed : handedUp gateway r.buf = .ok none) :
      Moves gateway s (.handUp r) (.count r) .tau
  | handUpPanic {r : RxCall} {p : Panic} (handed : handedUp gateway r.buf = .error p) :
      Moves gateway s (.handUp r) (.handUp r) (.panic p)
  | answer {r : RxCall} {pkt : List UInt8} (header : ethernetMinimumSize ≤ pkt.length) :
      Moves gateway s (.inGateway r) (.tx (.gateway r s.log.length pkt) .writeLock) (.send pkt)
  | gatewayReturn {r : RxCall} : Moves gateway s (.inGateway r) (.count r) .tau
  | count {r : RxCall} :
      Moves gateway s (.count r) (.rxRead r.id r.impl) (.received r.key r.buf.len)
  | exitConnLock {id : ConnId} :
      Moves gateway s (.exitConnLock id) (.exitCamLock id) .lockConn
  | exitCamLock {id : ConnId} :
      Moves gateway s (.exitCamLock id) (.exitDisconnect id) .lockCam
  | exitDisconnect {id : ConnId} :
      Moves gateway s (.exitDisconnect id) (.exitUnlock id) (.disconnect id)
  | exitUnlock {id : ConnId} : Moves gateway s (.exitUnlock id) .idle (.acceptReturn id)
  | camRLock : Moves gateway s .camRLock .camRead .rlockCam
  | camRead : Moves gateway s .camRead .idle .runlockCam

section Inversion

variable {gateway : LinkAddress} {s s' : State} {sw : Switch} {x : Tx} {pc' : Pc} {a : Action}

theorem nextWrite_eq_some {id : ConnId} {impl : ProtocolImpl} {sent : TxPc} {ch : Choice}
    (h : nextWrite x id impl sent ch = some (pc', a)) :
    (pc' = .tx x sent ∧ a = .write x.key id impl x.pkt .ok) ∨
      ∃ n, n ≤ (txBufBytes impl x.pkt).length ∧ pc' = .tx x (.camLock id) ∧
        a = .write x.key id impl x.pkt (.err n) := by
  cases ch with
  | write res =>
    cases res with
    | ok =>
      simp only [nextWrite, WriteResult.fits, if_true, Option.some.injEq, Prod.mk.injEq] at h
      exact Or.inl ⟨h.1.symm, h.2.symm⟩
    | err n =>
      simp only [nextWrite, WriteResult.fits, decide_eq_true_eq] at h
      split at h
      · rename_i hn
        simp only [Option.some.injEq, Prod.mk.injEq] at h
        exact Or.inr ⟨n, hn, h.1.symm, h.2.symm⟩
      · simp at h
  | _ => simp [nextWrite] at h

theorem nextTx_moves {pc : TxPc} {ch : Choice} (h : nextTx sw x pc ch = some (pc', a)) :
    TxMoves sw x pc pc' a := by
  cases pc with
  | writeLock =>
    cases ch <;> simp only [nextTx, reduceCtorEq, Option.some.injEq, Prod.mk.injEq] at h
    obtain ⟨rfl, rfl⟩ := h
    exact .writeLock
  | connLock =>
    cases ch <;> simp only [nextTx, reduceCtorEq, Option.some.injEq, Prod.mk.injEq] at h
    obtain ⟨rfl, rfl⟩ := h
    exact .connLock
  | parse =>
    cases ch <;> simp only [nextTx, reduceCtorEq] at h
    split at h <;> simp only [Option.some.injEq, Prod.mk.injEq] at h <;> obtain ⟨rfl, rfl⟩ := h
    · exact .parsePanic ‹_›
    · exact .parse ‹_›
  | camRLock dst src =>
    cases ch <;> simp only [nextTx, reduceCtorEq, Option.some.injEq, Prod.mk.injEq] at h
    obtain ⟨rfl, rfl⟩ := h
    exact .camRLock
  | lookup dst src =>
    cases ch with
    | order ids =>
      simp only [nextTx, Option.ite_none_right_eq_some, Option.some.injEq, Prod.mk.injEq] at h
      obtain ⟨⟨rfl, horder⟩, rfl, rfl⟩ := h
      exact .lookupBroadcast horder
    | go =>
      simp only [nextTx, Option.ite_none_left_eq_some] at h
      obtain ⟨hdst, h⟩ := h
      split at h <;> simp only [Option.some.injEq, Prod.mk.injEq] at h <;>
        obtain ⟨rfl, rfl⟩ := h
      · exact .lookupMiss hdst ‹_›
      · exact .lookupHit hdst ‹_›
    | _ => simp [nextTx] at h
  | range srcID rest =>
    cases rest with
    | nil =>
      cases ch <;> simp only [nextTx, reduceCtorEq, Option.some.injEq, Prod.mk.injEq] at h
      obtain ⟨rfl, rfl⟩ := h
      exact .rangeEnd
    | cons id rest =>
      simp only [nextTx] at h
      split at h
      · simp only [Option.some.injEq, Prod.mk.injEq] at h
        obtain ⟨rfl, rfl⟩ := h
        exact .rangeGone ‹_›
      · simp at h
      · rename_i impl ch' hconn
        split at h
        · rename_i hid
          subst hid
          split at h <;> simp only [reduceCtorEq, Option.some.injEq, Prod.mk.injEq] at h
          obtain ⟨rfl, rfl⟩ := h
          exact .rangeSender
        · rename_i hid
          obtain ⟨rfl, rfl⟩ | ⟨n, hn, rfl, rfl⟩ := nextWrite_eq_some h
          · exact .rangeWrite hconn hid
          · exact .rangeFail hconn hid hn
  | unicast id =>
    simp only [nextTx] at h
    split at h
    · simp only [Option.some.injEq, Prod.mk.injEq] at h
      obtain ⟨rfl, rfl⟩ := h
      exact .unicastNil ‹_›
    · simp at h
    · rename_i impl ch' hconn
      obtain ⟨rfl, rfl⟩ | ⟨n, hn, rfl, rfl⟩ := nextWrite_eq_some h
      · exact .unicastWrite hconn
      · exact .unicastFail hconn hn
  | sentRange srcID rest =>
    cases ch <;> simp only [nextTx, reduceCtorEq, Option.some.injEq, Prod.mk.injEq] at h
    obtain ⟨rfl, rfl⟩ := h
    exact .sentRange
  | sentUnicast =>
    cases ch <;> simp only [nextTx, reduceCtorEq, Option.some.injEq, Prod.mk.injEq] at h
    obtain ⟨rfl, rfl⟩ := h
    exact .sentUnicast
  | camLock id =>
    cases ch <;> simp only [nextTx, reduceCtorEq, Option.some.injEq, Prod.mk.injEq] at h
    obtain ⟨rfl, rfl⟩ := h
    exact .camLock
  | disconnect id =>
    cases ch <;> simp only [nextTx, reduceCtorEq, Option.some.injEq, Prod.mk.injEq] at h
    obtain ⟨rfl, rfl⟩ := h
    exact .disconnect
  | unlock =>
    cases ch <;> simp only [nextTx, reduceCtorEq, Option.some.injEq, Prod.mk.injEq] at h
    obtain ⟨rfl, rfl⟩ := h
    exact .unlock

theorem next_moves {pc : Pc} {ch : Choice} (h : next gateway s pc ch = some (pc', a)) :
    Moves gateway s pc pc' a := by
  cases pc with
  | idle =>
    cases ch with
    | accept protocol =>
      simp only [next, Option.some.injEq, Prod.mk.injEq] at h
      obtain ⟨rfl, rfl⟩ := h
      exact .accept
    | send pkt =>
      simp only [next, Option.ite_none_right_eq_some, Option.some.injEq, Prod.mk.injEq] at h
      obtain ⟨hlen, rfl, rfl⟩ := h
      exact .send hlen
    | cam =>
      simp only [next, Option.some.injEq, Prod.mk.injEq] at h
      obtain ⟨rfl, rfl⟩ := h
      exact .cam
    | _ => simp [next] at h
  | connectLock impl =>
    cases ch <;> simp only [next, reduceCtorEq, Option.some.injEq, Prod.mk.injEq] at h
    obtain ⟨rfl, rfl⟩ := h
    exact .connectLock
  | connect impl =>
    cases ch <;> simp only [next, reduceCtorEq, Option.some.injEq, Prod.mk.injEq] at h
    obtain ⟨rfl, rfl⟩ := h
    exact .connect
  | rxRead id impl =>
    cases ch with
    | recv buf =>
      simp only [next, Option.ite_none_right_eq_some, Option.some.injEq, Prod.mk.injEq] at h
      obtain ⟨hcan, rfl, rfl⟩ := h
      exact .recv hcan
    | stop =>
      simp only [next, Option.some.injEq, Prod.mk.injEq] at h
      obtain ⟨rfl, rfl⟩ := h
      exact .stop
    | _ => simp [next] at h
  | learnLock r =>
    cases ch <;> simp only [next, reduceCtorEq, Option.some.injEq, Prod.mk.injEq] at h
    obtain ⟨rfl, rfl⟩ := h
    exact .learnLock
  | learn r =>
    cases ch <;> simp only [next, reduceCtorEq] at h
    split at h <;> simp only [Option.some.injEq, Prod.mk.injEq] at h <;> obtain ⟨rfl, rfl⟩ := h
    · exact .learnPanic ‹_›
    · exact .learn ‹_›
  | forward r =>
    cases ch <;> simp only [next, reduceCtorEq] at h
    split at h <;> simp only [Option.some.injEq, Prod.mk.injEq] at h <;> obtain ⟨rfl, rfl⟩ := h
    · exact .forwardPanic ‹_›
    · exact .forward ‹_›
    · exact .keep ‹_›
  | tx x pc => exact .tx (nextTx_moves h)
  | handUp r =>
    cases ch <;> simp only [next, reduceCtorEq] at h
    split at h <;> simp only [Option.some.injEq, Prod.mk.injEq] at h <;> obtain ⟨rfl, rfl⟩ := h
    · exact .handUpPanic ‹_›
    · exact .handUpNone ‹_›
    · exact .handUp ‹_›
  | inGateway r =>
    cases ch with
    | send pkt =>
      simp only [next, Option.ite_none_right_eq_some, Option.some.injEq, Prod.mk.injEq] at h
      obtain ⟨hlen, rfl, rfl⟩ := h
      exact .answer hlen
    | go =>
      simp only [next, Option.some.injEq, Prod.mk.injEq] at h
      obtain ⟨rfl, rfl⟩ := h
      exact .gatewayReturn
    | _ => simp [next] at h
  | count r =>
    cases ch <;> simp only [next, reduceCtorEq, Option.some.injEq, Prod.mk.injEq] at h
    obtain ⟨rfl, rfl⟩ := h
    exact .count
  | exitConnLock id =>
    cases ch <;> simp only [next, reduceCtorEq, Option.some.injEq, Prod.mk.injEq] at h
    obtain ⟨rfl, rfl⟩ := h
    exact .exitConnLock
  | exitCamLock id =>
    cases ch <;> simp only [next, reduceCtorEq, Option.some.injEq, Prod.mk.injEq] at h
    obtain ⟨rfl, rfl⟩ := h
    exact .exitCamLock
  | exitDisconnect id =>
    cases ch <;> simp only [next, reduceCtorEq, Option.some.injEq, Prod.mk.injEq] at h
    obtain ⟨rfl, rfl⟩ := h
    exact .exitDisconnect
  | exitUnlock id =>
    cases ch <;> simp only [next, reduceCtorEq, Option.some.injEq, Prod.mk.injEq] at h
    obtain ⟨rfl, rfl⟩ := h
    exact .exitUnlock
  | camRLock =>
    cases ch <;> simp only [next, reduceCtorEq, Option.some.injEq, Prod.mk.injEq] at h
    obtain ⟨rfl, rfl⟩ := h
    exact .camRLock
  | camRead =>
    cases ch <;> simp only [next, reduceCtorEq, Option.some.injEq, Prod.mk.injEq] at h
    obtain ⟨rfl, rfl⟩ := h
    exact .camRead

theorem moves_of_action {e : Event} (h : a ∈ s.action gateway e) :
    ∃ pc, Moves gateway s (s.pc e.goroutine) pc a := by
  obtain ⟨⟨pc, b⟩, hnext, rfl⟩ := Option.map_eq_some_iff.mp h
  exact ⟨pc, next_moves hnext⟩

/-- A step of goroutine `t`: a row, and the effect of its action. -/
structure Steps (gateway : LinkAddress) (s : State) (t : Goroutine) (pc' : Pc) (a : Action)
    (sw' : Switch) : Prop where
  moves : Moves gateway s (s.pc t) pc' a
  applies : s.sw.apply t a = some sw'
  isStep : ∃ e, step gateway s e = some ⟨sw', Function.update s.pc t pc', s.log ++ [a]⟩

/-- **Inversion.** Nothing else is a step. -/
theorem step_moves {e : Event} (h : step gateway s e = some s') :
    ∃ pc a sw, s.action gateway e = some a ∧ Steps gateway s e.goroutine pc a sw ∧
      s' = ⟨sw, Function.update s.pc e.goroutine pc, s.log ++ [a]⟩ := by
  have hstep := h
  unfold step at h
  split at h
  · rename_i pc a hpanic hnext
    obtain ⟨sw, hsw, rfl⟩ := Option.map_eq_some_iff.mp h
    exact ⟨pc, a, sw, by rw [State.action, hnext]; rfl, ⟨next_moves hnext, hsw, e, hstep⟩, rfl⟩
  · simp at h

theorem Steps.reachable {t : Goroutine} {sw' : Switch} (hs : Steps gateway s t pc' a sw')
    (hreach : Reachable gateway s) :
    Reachable gateway ⟨sw', Function.update s.pc t pc', s.log ++ [a]⟩ := by
  obtain ⟨e, he⟩ := hs.isStep
  exact Run.step e hreach trivial he

/-- The invariant rule for the switch, as an induction on a run. -/
@[elab_as_elim]
theorem Runs.invariant {ok : State → Action → Prop}
    {motive : (s : State) → Runs gateway ok State.init s → Prop}
    (init : motive State.init Run.refl)
    (step : ∀ s t pc a sw (hrun : Runs gateway ok State.init s), motive s hrun → ok s a →
      Steps gateway s t pc a sw →
      ∀ hnext, motive ⟨sw, Function.update s.pc t pc, s.log ++ [a]⟩ hnext)
    (hrun : Runs gateway ok State.init s) : motive s hrun := by
  induction hrun with
  | refl => exact init
  | step e run meets next ih =>
    obtain ⟨pc, a, sw, haction, hsteps, rfl⟩ := step_moves next
    exact step _ _ pc a sw run ih (meets a haction) hsteps _

/-- The invariant rule without a condition on the actions. -/
@[elab_as_elim]
theorem Reachable.invariant {motive : (s : State) → Reachable gateway s → Prop}
    (init : motive State.init Run.refl)
    (step : ∀ s t pc a sw (hreach : Reachable gateway s), motive s hreach →
      ∀ hs : Steps gateway s t pc a sw,
        motive ⟨sw, Function.update s.pc t pc, s.log ++ [a]⟩ (hs.reachable hreach))
    (hreach : Reachable gateway s) : motive s hreach := by
  induction hreach with
  | refl => exact init
  | step e run meets next ih =>
    obtain ⟨pc, a, sw, -, hsteps, rfl⟩ := step_moves next
    exact step _ _ pc a sw run ih hsteps

end Inversion

/-! ## Positions in the log -/

/-- A position of the longer log is an old one or the last. -/
theorem getElem?_append_one {log : List Action} {a b : Action} {i : Nat}
    (h : (log ++ [a])[i]? = some b) :
    (i < log.length ∧ log[i]? = some b) ∨ (i = log.length ∧ b = a) := by
  rcases Nat.lt_or_ge i log.length with hlt | hge
  · rw [List.getElem?_append_left hlt] at h
    exact Or.inl ⟨hlt, h⟩
  · rw [List.getElem?_append_right hge, List.getElem?_singleton] at h
    split at h
    · exact Or.inr ⟨Nat.le_antisymm (Nat.sub_eq_zero_iff_le.mp ‹_›) hge, (Option.some.inj h).symm⟩
    · exact absurd h nofun

/-! ## Effects on the fields -/

namespace Action

def takesConn : Action → Bool
  | .lockConn => true
  | _ => false

def releasesConn : Action → Bool
  | .connect _ _ | .txReturn _ | .acceptReturn _ => true
  | _ => false

end Action

namespace Switch

variable {sw sw' : Switch} {t : Goroutine} {a : Action}

/-- The two actions that change `e.conns`. -/
theorem conns_apply (h : sw.apply t a = some sw') :
    (∃ id impl, a = .connect id impl ∧ sw'.conns = sw.conns.insert id impl) ∨
      (∃ id, a = .disconnect id ∧ sw'.conns = sw.conns.erase id) ∨
      ((∀ id impl, a ≠ .connect id impl) ∧ (∀ id, a ≠ .disconnect id) ∧
        sw'.conns = sw.conns) := by
  cases a with
  | connect id impl => exact Or.inl ⟨id, impl, rfl, (Option.some.inj h) ▸ rfl⟩
  | disconnect id => exact Or.inr (Or.inl ⟨id, rfl, (Option.some.inj h) ▸ rfl⟩)
  | lockWrite | lockConn | lockCam | rlockCam =>
    obtain ⟨_, -, rfl⟩ := Option.map_eq_some_iff.mp h
    exact Or.inr (Or.inr ⟨nofun, nofun, rfl⟩)
  | _ => exact Or.inr (Or.inr ⟨nofun, nofun, (Option.some.inj h) ▸ rfl⟩)

/-- The two actions that change `e.cam`. -/
theorem cam_apply (h : sw.apply t a = some sw') :
    (∃ id src, a = .learn id src ∧ sw'.cam = sw.cam.insert src id) ∨
      (∃ id, a = .disconnect id ∧ sw'.cam = (sw.disconnect id).cam) ∨
      ((∀ id src, a ≠ .learn id src) ∧ (∀ id, a ≠ .disconnect id) ∧ sw'.cam = sw.cam) := by
  cases a with
  | learn id src => exact Or.inl ⟨id, src, rfl, (Option.some.inj h) ▸ rfl⟩
  | disconnect id => exact Or.inr (Or.inl ⟨id, rfl, (Option.some.inj h) ▸ rfl⟩)
  | lockWrite | lockConn | lockCam | rlockCam =>
    obtain ⟨_, -, rfl⟩ := Option.map_eq_some_iff.mp h
    exact Or.inr (Or.inr ⟨nofun, nofun, rfl⟩)
  | _ => exact Or.inr (Or.inr ⟨nofun, nofun, (Option.some.inj h) ▸ rfl⟩)

theorem nextConnID_connect {id : ConnId} {impl : ProtocolImpl}
    (h : sw.apply t (.connect id impl) = some sw') : sw'.nextConnID = sw.nextConnID + 1 :=
  (Option.some.inj h) ▸ rfl

theorem nextConnID_le_apply (h : sw.apply t a = some sw') : sw.nextConnID ≤ sw'.nextConnID := by
  cases a with
  | lockWrite | lockConn | lockCam | rlockCam =>
    obtain ⟨_, -, rfl⟩ := Option.map_eq_some_iff.mp h
    exact Nat.le_refl _
  | connect id impl => exact (nextConnID_connect h) ▸ Nat.le_succ _
  | _ => exact (Option.some.inj h) ▸ Nat.le_refl _

theorem connLock_apply (h : sw.apply t a = some sw') :
    (a.takesConn = true → sw.connLock.holder = none) ∧
      sw'.connLock.holder =
        if a.takesConn then some t else if a.releasesConn then none else sw.connLock.holder := by
  cases a with
  | lockConn =>
    obtain ⟨l, hl, rfl⟩ := Option.map_eq_some_iff.mp h
    obtain ⟨hfree, hholder⟩ := Mutex.lock_eq_some hl
    exact ⟨fun _ => hfree, hholder⟩
  | lockWrite | lockCam | rlockCam =>
    obtain ⟨_, -, rfl⟩ := Option.map_eq_some_iff.mp h
    exact ⟨fun htakes => by simp [Action.takesConn] at htakes, rfl⟩
  | _ =>
    simp only [apply, Option.some.injEq] at h
    subst h
    exact ⟨fun htakes => by simp [Action.takesConn] at htakes, rfl⟩

/-- `disconnect(id)` deletes the entries of `e.cam` that point at `id`. -/
theorem cam_disconnect (sw : Switch) (id : ConnId) (m : LinkAddress) (i : ConnId) :
    (sw.disconnect id).cam.lookup m = some i ↔ sw.cam.lookup m = some i ∧ i ≠ id := by
  rw [disconnect, GoMap.lookup_rangeDelete_keys _ _ (fun _ h => h)]
  simp

end Switch

/-! ## Who holds `connLock` -/

def TxPc.holdsConn : TxPc → Bool
  | .writeLock | .connLock => false
  | _ => true

def Pc.holdsConn : Pc → Bool
  | .connect _ | .exitCamLock _ | .exitDisconnect _ | .exitUnlock _ => true
  | .tx _ pc => pc.holdsConn
  | _ => false

/-! ## Which connection a goroutine serves -/

/-- The call of `rxBuf` a call of `txPkt` runs in. -/
def Tx.rx? : Tx → Option RxCall
  | .rxBuf r => some r
  | .gateway r _ _ => some r
  | .stack _ _ => none

/-- The call of `rxBuf` in progress. -/
def Pc.rx? : Pc → Option RxCall
  | .learnLock r | .learn r | .forward r | .handUp r | .inGateway r | .count r => some r
  | .tx x _ => x.rx?
  | _ => none

/-- The id whose `Accept` the goroutine runs. -/
def Pc.acceptOf : Pc → Option ConnId
  | .rxRead id _ => some id
  | .exitConnLock id | .exitCamLock id | .exitDisconnect id | .exitUnlock id => some id
  | pc => pc.rx?.map RxCall.id

/-- The same, up to the deferred `disconnect`. -/
def Pc.liveId : Pc → Option ConnId
  | .exitUnlock _ => none
  | pc => pc.acceptOf

theorem Pc.acceptOf_of_liveId {pc : Pc} {i : ConnId} (h : pc.liveId = some i) :
    pc.acceptOf = some i := by
  cases pc <;> first | exact h | simp [liveId] at h

section Rows

variable {gateway : LinkAddress} {s : State} {pc pc' : Pc} {a : Action}

/-- `connLock` is taken when free, and released by who holds it. -/
theorem Moves.holdsConn (h : Moves gateway s pc pc' a) :
    (a.takesConn = true → pc.holdsConn = false) ∧
      (a.releasesConn = true → pc.holdsConn = true) ∧
      pc'.holdsConn = (a.takesConn || pc.holdsConn && !a.releasesConn) := by
  cases h with
  | @tx x _ _ _ moves =>
    cases moves with
    | unlock =>
      cases x <;>
        simp [Tx.ret, Pc.holdsConn, TxPc.holdsConn, Action.takesConn, Action.releasesConn]
    | _ => simp [Pc.holdsConn, TxPc.holdsConn, Action.takesConn, Action.releasesConn]
  | _ => simp [Pc.holdsConn, TxPc.holdsConn, Action.takesConn, Action.releasesConn]

/-- `e.conns` changes under `connLock` only. -/
theorem Moves.holdsConn_of_disconnect {id : ConnId}
    (h : Moves gateway s pc pc' (.disconnect id)) : pc.holdsConn = true := by
  cases h with
  | tx moves => cases moves; rfl
  | exitDisconnect => rfl

/-- A goroutine serves one connection, from `connect` to the end of `Accept`. -/
theorem Moves.acceptOf (h : Moves gateway s pc pc' a) :
    pc'.acceptOf = pc.acceptOf ∨
      (∃ impl, a = .connect s.sw.nextConnID impl ∧ pc.acceptOf = none ∧
        pc'.acceptOf = some s.sw.nextConnID) ∨
      (∃ id, a = .acceptReturn id ∧ pc.acceptOf = some id ∧ pc.liveId = none ∧
        pc'.acceptOf = none) := by
  cases h with
  | @tx x _ _ _ moves =>
    refine Or.inl ?_
    cases moves with
    | unlock => cases x <;> rfl
    | _ => rfl
  | connect => exact Or.inr (Or.inl ⟨_, rfl, rfl, rfl⟩)
  | exitUnlock => exact Or.inr (Or.inr ⟨_, rfl, rfl, rfl, rfl⟩)
  | _ => exact Or.inl rfl

/-- The connection is live until the deferred `disconnect`. -/
theorem Moves.liveId (h : Moves gateway s pc pc' a) :
    pc'.liveId = pc.liveId ∨
      (∃ impl, a = .connect s.sw.nextConnID impl ∧ pc.liveId = none ∧
        pc'.liveId = some s.sw.nextConnID) ∨
      (∃ id, a = .disconnect id ∧ pc.liveId = some id ∧ pc'.liveId = none) := by
  cases h with
  | @tx x _ _ _ moves =>
    refine Or.inl ?_
    cases moves with
    | unlock => cases x <;> rfl
    | _ => rfl
  | connect => exact Or.inr (Or.inl ⟨_, rfl, rfl, rfl⟩)
  | exitDisconnect => exact Or.inr (Or.inr ⟨_, rfl, rfl, rfl⟩)
  | _ => exact Or.inl rfl

theorem Moves.connect_eq {id : ConnId} {impl : ProtocolImpl}
    (h : Moves gateway s pc pc' (.connect id impl)) :
    id = s.sw.nextConnID ∧ pc'.liveId = some id := by
  cases h with
  | tx moves => cases moves
  | connect => exact ⟨rfl, rfl⟩

theorem Moves.acceptReturn_eq {id : ConnId} (h : Moves gateway s pc pc' (.acceptReturn id)) :
    pc = .exitUnlock id ∧ pc' = .idle := by
  cases h with
  | tx moves => cases moves
  | exitUnlock => exact ⟨rfl, rfl⟩

theorem Moves.liveId_of_learn {id : ConnId} {src : LinkAddress}
    (h : Moves gateway s pc pc' (.learn id src)) : pc.liveId = some id := by
  cases h with
  | tx moves => cases moves
  | learn => rfl

end Rows

end GvisorTapVsock.Tap
