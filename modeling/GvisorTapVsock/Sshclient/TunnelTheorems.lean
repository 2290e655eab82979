/-
GvisorTapVsock.Sshclient.TunnelTheorems — what an accepted connection of an
SSH forward goes through.

The calls of `connectForward` form a small language (`Connects`), whatever the
world answers. From it follow the bounds on the attempts, that a bastion is
reconnected only after it did not answer, and that a cancelled context leaves
at most one more dial (`connectForward_calls`).

The tunnel keeps both directions apart until both have ended: a stream that
ended is passed on with `CloseWrite`, and the connections are closed when
nothing is left to copy (`tunnel_keeps_streams`). Every run ends, with both
connections closed and everything delivered that no failed call stopped
(`tunnel_ends`).
-/
import GvisorTapVsock.Sshclient.Tunnel

namespace GvisorTapVsock.Sshclient

open GvisorTapVsock.Lts

/-! ## The calls of `connectForward` -/

def ConnectCall.isDial : ConnectCall → Bool
  | .dial _ => true
  | .alive _ | .reconnect _ | .sleep _ => false

def ConnectCall.isReconnect : ConnectCall → Bool
  | .reconnect _ => true
  | .dial _ | .alive _ | .sleep _ => false

def ConnectCall.isSleep : ConnectCall → Bool
  | .sleep _ => true
  | .dial _ | .alive _ | .reconnect _ => false

/-- The answer to an alive request. -/
def ConnectCall.answer? : ConnectCall → Option Bool
  | .alive ok => some ok
  | .dial _ | .reconnect _ | .sleep _ => none

/-- The calls of the inner loop with the retries left, and whether it found a
connection. -/
inductive Reconnects : Nat → List ConnectCall → Bool → Prop where
  | ok (left : Nat) : Reconnects left [.reconnect true] true
  | gaveUp : Reconnects 0 [.reconnect false] false
  | cancelled (left : Nat) : Reconnects (left + 1) [.reconnect false, .sleep false] false
  | again {left : Nat} {calls : List ConnectCall} {ok : Bool} (h : Reconnects left calls ok) :
      Reconnects (left + 1) (.reconnect false :: .sleep true :: calls) ok

/-- The calls that follow a failed dial. -/
inductive Revives : List ConnectCall → Bool → Prop where
  | alive : Revives [.alive true] true
  | reconnects {calls : List ConnectCall} {ok : Bool} (h : Reconnects 2 calls ok) :
      Revives (.alive false :: calls) ok

/-- The calls of the outer loop with the retries left, and whether it found a
stream. -/
inductive Connects : Nat → List ConnectCall → Bool → Prop where
  | dialled (left : Nat) : Connects left [.dial true] true
  | failed : Connects 0 [.dial false] false
  | lost {left : Nat} {calls : List ConnectCall} (h : Revives calls false) :
      Connects (left + 1) (.dial false :: calls) false
  | again {left : Nat} {calls rest : List ConnectCall} {ok : Bool} (h : Revives calls true)
      (hrest : Connects left rest ok) :
      Connects (left + 1) (.dial false :: (calls ++ .sleep true :: rest)) ok
  | cancelled {left : Nat} {calls : List ConnectCall} (ok : Bool) (h : Revives calls true) :
      Connects (left + 1) (.dial false :: (calls ++ [.sleep false, .dial ok])) ok

section Calls

variable {κ : Type} (w : World κ) (path host : String)

theorem reconnectFrom_calls (left : Nat) (log : List ConnectCall) :
    ∃ calls, (reconnectFrom w left log).2 = log ++ calls ∧
      Reconnects left calls (reconnectFrom w left log).1.isNone := by
  induction left generalizing log with
  | zero =>
    rw [reconnectFrom]
    cases w.reconnect log with
    | none => exact ⟨_, rfl, .ok 0⟩
    | some err => exact ⟨_, rfl, .gaveUp⟩
  | succ left ih =>
    rw [reconnectFrom]
    cases w.reconnect log with
    | none => exact ⟨_, rfl, .ok _⟩
    | some err =>
      dsimp only
      split
      · obtain ⟨calls, hlog, hcalls⟩ := ih (log ++ [.reconnect false] ++ [.sleep true])
        exact ⟨_, by rw [hlog]; simp, .again hcalls⟩
      · exact ⟨[.reconnect false, .sleep false], by simp, .cancelled left⟩

theorem revive_calls (log : List ConnectCall) :
    ∃ calls, (revive w log).2 = log ++ calls ∧ Revives calls (revive w log).1.isNone := by
  rw [revive]
  cases w.alive log with
  | none => exact ⟨_, rfl, .alive⟩
  | some err =>
    obtain ⟨calls, hlog, hcalls⟩ := reconnectFrom_calls w 2 (log ++ [.alive false])
    exact ⟨_, by rw [hlog]; simp, .reconnects hcalls⟩

theorem lastDial_calls (log : List ConnectCall) :
    (lastDial w path log).2 = log ++ [.dial (lastDial w path log).1.isOk] := by
  cases hd : w.dial log <;> simp [lastDial, hd, Except.isOk, Except.toBool]

theorem connectFrom_calls (left : Nat) (log : List ConnectCall) :
    ∃ calls, (connectFrom w path host left log).2 = log ++ calls ∧
      Connects left calls (connectFrom w path host left log).1.isOk := by
  induction left generalizing log with
  | zero =>
    refine ⟨_, lastDial_calls w path log, ?_⟩
    rw [connectFrom]
    cases (lastDial w path log).1.isOk
    · exact .failed
    · exact .dialled 0
  | succ left ih =>
    rw [connectFrom]
    cases hd : w.dial log with
    | ok stream => exact ⟨_, rfl, .dialled _⟩
    | error err =>
      obtain ⟨calls, hlog, hcalls⟩ := revive_calls w (log ++ [.dial false])
      cases hr : revive w (log ++ [.dial false]) with
      | mk lost log' =>
        rw [hr] at hlog hcalls
        obtain rfl : log' = log ++ [.dial false] ++ calls := hlog
        cases lost with
        | some e => exact ⟨_, by simp, .lost hcalls⟩
        | none =>
          dsimp only
          split
          · obtain ⟨rest, hrest, hconn⟩ := ih (log ++ [.dial false] ++ calls ++ [.sleep true])
            exact ⟨_, by rw [hrest]; simp, .again hcalls hconn⟩
          · refine ⟨_, ?_, .cancelled _ hcalls⟩
            rw [lastDial_calls]
            simp

end Calls

/-! ### What the language says -/

/-- The bounds on the calls: dials, reconnections and sleeps. -/
structure CallBounds (dials reconnects sleeps : Nat) (calls : List ConnectCall) : Prop where
  dials : calls.countP ConnectCall.isDial ≤ dials
  reconnects : calls.countP ConnectCall.isReconnect ≤ reconnects
  sleeps : calls.countP ConnectCall.isSleep ≤ sleeps

theorem Reconnects.bounds {left : Nat} {calls : List ConnectCall} {ok : Bool}
    (h : Reconnects left calls ok) : CallBounds 0 (left + 1) left calls := by
  induction h with
  | ok left => exact ⟨by decide, Nat.le_add_left 1 left, Nat.zero_le left⟩
  | gaveUp => exact ⟨by decide, by decide, by decide⟩
  | cancelled left => exact ⟨by decide, Nat.le_add_left 1 (left + 1), Nat.le_add_left 1 left⟩
  | again _ ih =>
    obtain ⟨hd, hr, hs⟩ := ih
    refine ⟨?_, ?_, ?_⟩ <;>
      simp only [List.countP_cons, ConnectCall.isDial, ConnectCall.isReconnect,
        ConnectCall.isSleep, Bool.false_eq_true, if_true, if_false] <;> omega

theorem Revives.bounds {calls : List ConnectCall} {ok : Bool} (h : Revives calls ok) :
    CallBounds 0 3 2 calls := by
  cases h with
  | alive => exact ⟨by decide, by decide, by decide⟩
  | reconnects h =>
    obtain ⟨hd, hr, hs⟩ := h.bounds
    exact ⟨by simpa [ConnectCall.isDial] using hd, by simpa [ConnectCall.isReconnect] using hr,
      by simpa [ConnectCall.isSleep] using hs⟩

theorem Connects.bounds {left : Nat} {calls : List ConnectCall} {ok : Bool}
    (h : Connects left calls ok) : CallBounds (left + 1) (3 * left) (3 * left) calls := by
  induction h with
  | dialled left => exact ⟨Nat.le_add_left 1 left, Nat.zero_le _, Nat.zero_le _⟩
  | failed => exact ⟨by decide, by decide, by decide⟩
  | lost h =>
    obtain ⟨hd, hr, hs⟩ := h.bounds
    refine ⟨?_, ?_, ?_⟩ <;>
      simp only [List.countP_cons, ConnectCall.isDial, ConnectCall.isReconnect,
        ConnectCall.isSleep, Bool.false_eq_true, if_true, if_false] <;> omega
  | again h _ ih =>
    obtain ⟨hd, hr, hs⟩ := h.bounds
    obtain ⟨hd', hr', hs'⟩ := ih
    refine ⟨?_, ?_, ?_⟩ <;>
      simp only [List.countP_cons, List.countP_append, ConnectCall.isDial,
        ConnectCall.isReconnect, ConnectCall.isSleep, Bool.false_eq_true, if_true, if_false] <;>
      omega
  | cancelled ok h =>
    obtain ⟨hd, hr, hs⟩ := h.bounds
    refine ⟨?_, ?_, ?_⟩ <;>
      simp only [List.countP_cons, List.countP_append, List.countP_nil, ConnectCall.isDial,
        ConnectCall.isReconnect, ConnectCall.isSleep, Bool.false_eq_true, if_true, if_false] <;>
      omega

/-- A call that is not among the first ones of a log is among the rest. -/
theorem exists_split_of_not_mem {a : ConnectCall} (first : List ConnectCall)
    {rest before after : List ConnectCall} (ha : a ∉ first) (h : first ++ rest = before ++ a :: after) :
    ∃ before', before = first ++ before' ∧ rest = before' ++ a :: after := by
  rcases List.append_eq_append_iff.mp h with ⟨mid, rfl, hrest⟩ | ⟨mid, rfl, hmid⟩
  · exact ⟨mid, rfl, hrest⟩
  · cases mid with
    | nil => exact ⟨[], by simp, by simpa using hmid.symm⟩
    | cons b mid =>
      obtain ⟨rfl, -⟩ := List.cons.inj hmid
      exact absurd (by simp) ha

theorem Reconnects.not_cancelled {left : Nat} {calls : List ConnectCall} {ok : Bool}
    (h : Reconnects left calls ok) (hok : ok = true) : ConnectCall.sleep false ∉ calls := by
  induction h with
  | ok left => simp
  | gaveUp => simp
  | cancelled left => cases hok
  | again _ ih => simp [ih hok]

theorem Revives.not_cancelled {calls : List ConnectCall} (h : Revives calls true) :
    ConnectCall.sleep false ∉ calls := by
  cases h with
  | alive => simp
  | reconnects h => simpa using h.not_cancelled rfl

/-- The inner loop makes no call after a sleep that was cut short. -/
theorem Reconnects.after_cancelled {left : Nat} {calls : List ConnectCall} {ok : Bool}
    (h : Reconnects left calls ok) : ∀ {before after : List ConnectCall},
      calls = before ++ .sleep false :: after → after = [] := by
  induction h with
  | ok left => intro before after heq; simp [List.singleton_eq_append_iff] at heq
  | gaveUp => intro before after heq; simp [List.singleton_eq_append_iff] at heq
  | cancelled left =>
    intro before after heq
    obtain ⟨before', -, hrest⟩ := exists_split_of_not_mem [.reconnect false] (by simp) heq
    cases before' with
    | nil => exact (List.cons.inj hrest).2.symm
    | cons c before' => simp at hrest
  | again _ ih =>
    intro before after heq
    obtain ⟨before', -, hrest⟩ :=
      exists_split_of_not_mem [.reconnect false, .sleep true] (by simp) heq
    exact ih hrest

/-- What may follow a sleep that was cut short: nothing, or one dial. -/
def AtMostDial (after : List ConnectCall) : Prop := after = [] ∨ ∃ ok, after = [.dial ok]

theorem Connects.after_cancelled {left : Nat} {calls : List ConnectCall} {ok : Bool}
    (h : Connects left calls ok) : ∀ {before after : List ConnectCall},
      calls = before ++ .sleep false :: after → AtMostDial after := by
  induction h with
  | dialled left => intro before after heq; simp [List.singleton_eq_append_iff] at heq
  | failed => intro before after heq; simp [List.singleton_eq_append_iff] at heq
  | lost h =>
    intro before after heq
    cases h with
    | reconnects h =>
      obtain ⟨before', -, hrest⟩ :=
        exists_split_of_not_mem [.dial false, .alive false] (by simp) heq
      exact Or.inl (h.after_cancelled hrest)
  | @again left calls rest ok h _ ih =>
    intro before after heq
    have hnot : ConnectCall.sleep false ∉ .dial false :: (calls ++ [.sleep true]) := by
      simpa using h.not_cancelled
    obtain ⟨before', -, hrest⟩ := exists_split_of_not_mem _ hnot (by simpa using heq)
    exact ih hrest
  | @cancelled left calls ok h =>
    intro before after heq
    have hnot : ConnectCall.sleep false ∉ .dial false :: calls := by simpa using h.not_cancelled
    obtain ⟨before', -, hrest⟩ := exists_split_of_not_mem _ hnot heq
    -- the sleep is the first of the last two calls
    rcases before' with _ | ⟨c, _ | ⟨c', before'⟩⟩
    · exact Or.inr ⟨ok, (List.cons.inj hrest).2.symm⟩
    · simp at hrest
    · simp at hrest

/-- The last answer before a call. -/
def lastAnswer (before : List ConnectCall) : Option Bool :=
  (before.filterMap ConnectCall.answer?).getLast?

theorem Reconnects.no_answer {left : Nat} {calls : List ConnectCall} {ok : Bool}
    (h : Reconnects left calls ok) : ∀ c ∈ calls, c.answer? = none := by
  induction h with
  | ok left => simp [ConnectCall.answer?]
  | gaveUp => simp [ConnectCall.answer?]
  | cancelled left => simp [ConnectCall.answer?]
  | again _ ih => simpa [ConnectCall.answer?] using ih

/-- The bastion is reconnected after a request it did not answer. -/
theorem Revives.reconnects_dead {calls : List ConnectCall} {ok ok' : Bool} (h : Revives calls ok)
    {before after : List ConnectCall} (heq : calls = before ++ .reconnect ok' :: after) :
    lastAnswer before = some false := by
  cases h with
  | alive => simp [List.singleton_eq_append_iff] at heq
  | reconnects h =>
    obtain ⟨before', rfl, hrest⟩ := exists_split_of_not_mem [.alive false] (by simp) heq
    have hnone : before'.filterMap ConnectCall.answer? = [] :=
      List.filterMap_eq_nil_iff.mpr fun c hc => h.no_answer c (by simp [hrest, hc])
    simp [lastAnswer, ConnectCall.answer?, hnone]

theorem lastAnswer_append {before before' : List ConnectCall} {ok : Bool}
    (h : lastAnswer before' = some ok) : lastAnswer (before ++ before') = some ok := by
  rw [lastAnswer] at h ⊢
  rw [List.filterMap_append, List.getLast?_append, h, Option.some_or]

theorem Connects.reconnects_dead {left : Nat} {calls : List ConnectCall} {ok ok' : Bool}
    (h : Connects left calls ok) : ∀ {before after : List ConnectCall},
      calls = before ++ .reconnect ok' :: after → lastAnswer before = some false := by
  induction h with
  | dialled left => intro before after heq; simp [List.singleton_eq_append_iff] at heq
  | failed => intro before after heq; simp [List.singleton_eq_append_iff] at heq
  | lost h =>
    intro before after heq
    obtain ⟨before', rfl, hrest⟩ := exists_split_of_not_mem [.dial false] (by simp) heq
    exact lastAnswer_append (h.reconnects_dead hrest)
  | @again left calls rest ok h _ ih =>
    intro before after heq
    obtain ⟨before', rfl, hrest⟩ := exists_split_of_not_mem [.dial false] (by simp) heq
    apply lastAnswer_append
    -- among the calls that revive the bastion, or in a later round
    rcases List.append_eq_append_iff.mp hrest with ⟨mid, rfl, hlater⟩ | ⟨mid, rfl, hmid⟩
    · obtain ⟨before', rfl, hround⟩ := exists_split_of_not_mem [.sleep true] (by simp) hlater
      exact lastAnswer_append (lastAnswer_append (ih hround))
    · cases mid with
      | nil => simp at hmid
      | cons c mid =>
        obtain ⟨rfl, -⟩ := List.cons.inj hmid
        exact h.reconnects_dead rfl
  | @cancelled left calls ok h =>
    intro before after heq
    obtain ⟨before', rfl, hrest⟩ := exists_split_of_not_mem [.dial false] (by simp) heq
    apply lastAnswer_append
    rcases List.append_eq_append_iff.mp hrest with ⟨mid, rfl, hlater⟩ | ⟨mid, rfl, hmid⟩
    · rcases mid with _ | ⟨c, _ | ⟨c', mid⟩⟩ <;> simp at hlater
    · cases mid with
      | nil => simp at hmid
      | cons c mid =>
        obtain ⟨rfl, -⟩ := List.cons.inj hmid
        exact h.reconnects_dead rfl

theorem Revives.no_dial {calls : List ConnectCall} {ok : Bool} (h : Revives calls ok) :
    ∀ c ∈ calls, c.isDial = false := by
  have hcount := Nat.le_zero.mp h.bounds.dials
  simpa using List.countP_eq_zero.mp hcount

theorem Connects.ne_nil {left : Nat} {calls : List ConnectCall} {ok : Bool}
    (h : Connects left calls ok) : calls ≠ [] := by
  cases h <;> simp

/-- There is a stream if and only if the last call was a dial that succeeded. -/
theorem Connects.last {left : Nat} {calls : List ConnectCall} {ok : Bool}
    (h : Connects left calls ok) : calls.getLast? = some (.dial true) ↔ ok = true := by
  induction h with
  | dialled left => simp
  | failed => simp
  | @lost left calls h =>
    refine ⟨fun hlast => ?_, fun hok => nomatch hok⟩
    have hmem : ConnectCall.dial true ∈ ConnectCall.dial false :: calls := List.mem_of_getLast? hlast
    have hcalls : ConnectCall.dial true ∈ calls := by simpa using hmem
    exact absurd (h.no_dial _ hcalls) (by decide)
  | @again left calls rest ok h hrest ih =>
    have happ : ConnectCall.dial false :: (calls ++ .sleep true :: rest) =
        (.dial false :: (calls ++ [.sleep true])) ++ rest := by simp
    rw [happ, List.getLast?_append_of_ne_nil _ hrest.ne_nil]
    exact ih
  | @cancelled left calls ok h =>
    have happ : ConnectCall.dial false :: (calls ++ [.sleep false, .dial ok]) =
        (.dial false :: (calls ++ [.sleep false])) ++ [.dial ok] := by simp
    rw [happ, List.getLast?_concat]
    simp

/-- **The calls of `connectForward`, whatever the world answers.** At most three
dials, six reconnections and six sleeps; there is a stream if and only if the
last call was a dial that succeeded; after a sleep that the context cut short
there is at most one more dial; and the bastion is reconnected only after it
left the last request unanswered. -/
theorem connectForward_calls {κ : Type} (w : World κ) (path host : String) :
    CallBounds 3 6 6 (connectForward w path host).2 ∧
    ((connectForward w path host).2.getLast? = some (.dial true) ↔
      (connectForward w path host).1.isOk = true) ∧
    (∀ before after, (connectForward w path host).2 = before ++ .sleep false :: after →
      AtMostDial after) ∧
    ∀ before ok after, (connectForward w path host).2 = before ++ .reconnect ok :: after →
      lastAnswer before = some false := by
  obtain ⟨calls, hlog, hcalls⟩ := connectFrom_calls w path host 2 []
  have hlog' : (connectForward w path host).2 = calls := by
    rw [connectForward, hlog, List.nil_append]
  rw [hlog']
  exact ⟨hcalls.bounds, hcalls.last, fun _ _ => hcalls.after_cancelled,
    fun _ _ _ => hcalls.reconnects_dead⟩

/-- An accepted connection is closed, or handed to a tunnel together with the
stream it needs; the error is that of `Accept`. -/
theorem acceptConnection_settled {κ : Type} (accept : Option String) (halfClose : Bool)
    (w : World κ) (path host : String) :
    (acceptConnection accept halfClose w path host).1 = accept ∧
    held (acceptConnection accept halfClose w path host).2 = [] ∧
    (handed (acceptConnection accept halfClose w path host).2 = [] ∨
      handed (acceptConnection accept halfClose w path host).2 = [.src, .dest] ∧
        (connectForward w path host).1.isOk = true) := by
  unfold acceptConnection
  cases accept with
  | some err => exact ⟨rfl, rfl, Or.inl rfl⟩
  | none =>
    cases halfClose with
    | false => exact ⟨rfl, rfl, Or.inl rfl⟩
    | true =>
      cases (connectForward w path host).1 with
      | error err => exact ⟨rfl, rfl, Or.inl rfl⟩
      | ok stream => exact ⟨rfl, rfl, Or.inr ⟨rfl, rfl⟩⟩

/-! ## The goroutines of a tunnel -/

/-- What a step of the tunnel may be. -/
inductive Tunnel.Steps (t : Tunnel) : Event → Tunnel → Prop where
  | copy {e : End} {call : CopyEvent} {c : Copy UInt8} (hpc : t.pc e = .copying)
      (hstep : (t.copies e).step call = some c) :
      Steps t (.copy e call) { t with copies := Function.update t.copies e c }
  | closeWrite {e : End} (hpc : t.pc e = .copying) (hret : (t.copies e).Returned) :
      Steps t (.closeWrite e) { t with
        pc := Function.update t.pc e .finishing
        calls := t.calls ++ [.closeWrite e.other] }
  | done {e : End} (hpc : t.pc e = .finishing) :
      Steps t (.done e) { t with
        pc := Function.update t.pc e .returned
        complete := t.complete - 1 }
  | wait (hpc : t.waiter = .waiting) (hzero : t.complete = 0) :
      Steps t .wait { t with waiter := .closeSrc }
  | closeSrc (hpc : t.waiter = .closeSrc) :
      Steps t .closeSrc { t with waiter := .closeDest, calls := t.calls ++ [.close .src] }
  | closeDest (hpc : t.waiter = .closeDest) :
      Steps t .closeDest { t with waiter := .returned, calls := t.calls ++ [.close .dest] }

theorem Tunnel.steps_of_step {t t' : Tunnel} {e : Event} (h : t.step e = some t') :
    t.Steps e t' := by
  cases e with
  | copy e call =>
    simp only [Tunnel.step] at h
    split at h
    · next hpc =>
      obtain ⟨c, hc, rfl⟩ := Option.map_eq_some_iff.mp h
      exact .copy hpc hc
    · cases h
  | closeWrite e =>
    simp only [Tunnel.step, Option.ite_none_right_eq_some, Option.some.injEq] at h
    obtain ⟨⟨hpc, hret⟩, rfl⟩ := h
    exact .closeWrite hpc hret
  | done e =>
    simp only [Tunnel.step, Option.ite_none_right_eq_some, Option.some.injEq] at h
    obtain ⟨hpc, rfl⟩ := h
    exact .done hpc
  | wait =>
    simp only [Tunnel.step, Option.ite_none_right_eq_some, Option.some.injEq] at h
    obtain ⟨⟨hpc, hzero⟩, rfl⟩ := h
    exact .wait hpc hzero
  | closeSrc =>
    simp only [Tunnel.step, Option.ite_none_right_eq_some, Option.some.injEq] at h
    obtain ⟨hpc, rfl⟩ := h
    exact .closeSrc hpc
  | closeDest =>
    simp only [Tunnel.step, Option.ite_none_right_eq_some, Option.some.injEq] at h
    obtain ⟨hpc, rfl⟩ := h
    exact .closeDest hpc

/-- What a `forward` counts in the wait group. -/
def ForwardPc.live : ForwardPc → Nat
  | .copying | .finishing => 1
  | .returned => 0

@[simp] theorem ForwardPc.live_copying : ForwardPc.copying.live = 1 := rfl
@[simp] theorem ForwardPc.live_finishing : ForwardPc.finishing.live = 1 := rfl
@[simp] theorem ForwardPc.live_returned : ForwardPc.returned.live = 0 := rfl

/-- The tunnel at work on two streams. -/
structure Tunnel.Ok (sent : End → List UInt8) (t : Tunnel) : Prop where
  copied : ∀ e, Copy.Copied (sent e) (t.copies e)
  returned : ∀ e, t.pc e ≠ .copying → (t.copies e).Returned
  count : t.complete = (t.pc .src).live + (t.pc .dest).live
  waited : t.waiter ≠ .waiting → ∀ e, t.pc e = .returned
  closedWrite : ∀ e, .closeWrite e.other ∈ t.calls ↔ t.pc e ≠ .copying
  closedSrc : .close .src ∈ t.calls ↔ t.waiter = .closeDest ∨ t.waiter = .returned
  closedDest : .close .dest ∈ t.calls ↔ t.waiter = .returned
  nodup : t.calls.Nodup

theorem Tunnel.ok_start (sent : End → List UInt8) : Tunnel.Ok sent (Tunnel.start sent) where
  copied := fun e => Copy.copied_start (sent e)
  returned := fun _ h => absurd rfl h
  count := rfl
  waited := fun h => absurd rfl h
  closedWrite := by simp [Tunnel.start]
  closedSrc := by simp [Tunnel.start]
  closedDest := by simp [Tunnel.start]
  nodup := List.nodup_nil

@[simp] theorem End.other_inj {e e' : End} : e.other = e'.other ↔ e = e' := by
  cases e <;> cases e' <;> decide

/-- The counter of the wait group follows the goroutine that moves. -/
theorem live_update (pc : End → ForwardPc) (e : End) (p : ForwardPc) :
    (Function.update pc e p .src).live + (Function.update pc e p .dest).live + (pc e).live =
      (pc .src).live + (pc .dest).live + p.live := by
  cases e <;> simp [Function.update] <;> omega

/-- The waiter has not gone on while a `forward` runs. -/
theorem Tunnel.Ok.waiting {sent : End → List UInt8} {t : Tunnel} (hok : t.Ok sent) {e : End}
    (hpc : t.pc e ≠ .returned) : t.waiter = .waiting := by
  by_contra hw
  exact hpc (hok.waited hw e)

theorem Tunnel.Ok.step {sent : End → List UInt8} {t t' : Tunnel} {ev : Event} (hok : t.Ok sent)
    (h : t.step ev = some t') : t'.Ok sent := by
  cases Tunnel.steps_of_step h with
  | @copy e call c hpc hstep =>
    refine { hok with copied := ?_, returned := ?_ }
    · intro e'
      by_cases he : e' = e
      · subst he
        simpa using (hok.copied e').step hstep
      · simpa [he] using hok.copied e'
    · intro e' hne
      have he : e' ≠ e := fun he => hne (he ▸ hpc)
      simpa [he] using hok.returned e' hne
  | @closeWrite e hpc hret =>
    have hwait := hok.waiting (e := e) (by simp [hpc])
    have hnew : CloseCall.closeWrite e.other ∉ t.calls := fun hmem =>
      (hok.closedWrite e).mp hmem hpc
    refine { hok with returned := ?_, count := ?_, waited := ?_, closedWrite := ?_,
                      closedSrc := ?_, closedDest := ?_, nodup := ?_ }
    · intro e' hne
      by_cases he : e' = e
      · exact he ▸ hret
      · exact hok.returned e' (by simpa [he] using hne)
    · have hcount := live_update t.pc e .finishing
      rw [hpc, ForwardPc.live_copying, ForwardPc.live_finishing] at hcount
      have hold := hok.count
      dsimp only
      omega
    · exact fun hne => absurd hwait hne
    · intro e'
      by_cases he : e' = e
      · simp [he]
      · simpa [he] using hok.closedWrite e'
    · simpa using hok.closedSrc
    · simpa using hok.closedDest
    · simpa [List.nodup_append] using ⟨hok.nodup, fun c hc hce => hnew (hce ▸ hc)⟩
  | @done e hpc =>
    have hwait := hok.waiting (e := e) (by simp [hpc])
    refine { hok with returned := ?_, count := ?_, waited := ?_, closedWrite := ?_ }
    · intro e' hne
      by_cases he : e' = e
      · exact he ▸ hok.returned e (by simp [hpc])
      · exact hok.returned e' (by simpa [he] using hne)
    · have hcount := live_update t.pc e .returned
      rw [hpc, ForwardPc.live_finishing, ForwardPc.live_returned] at hcount
      have hold := hok.count
      dsimp only
      omega
    · exact fun hne => absurd hwait hne
    · intro e'
      by_cases he : e' = e
      · simpa [he, hpc] using hok.closedWrite e
      · simpa [he] using hok.closedWrite e'
  | wait hpc hzero =>
    have hret : ∀ e, t.pc e = .returned := by
      have hcount := hok.count
      intro e
      cases e with
      | src => cases hp : t.pc .src <;> simp_all [ForwardPc.live]
      | dest => cases hp : t.pc .dest <;> simp_all [ForwardPc.live]
    refine { hok with waited := fun _ => hret, closedSrc := ?_, closedDest := ?_ }
    · simpa [hpc] using hok.closedSrc
    · simpa [hpc] using hok.closedDest
  | closeSrc hpc =>
    have hnew : CloseCall.close .src ∉ t.calls := by simpa [hpc] using hok.closedSrc
    refine { hok with waited := fun _ => hok.waited (by simp [hpc]), closedWrite := ?_,
                      closedSrc := by simp, closedDest := ?_, nodup := ?_ }
    · simpa using hok.closedWrite
    · simpa [hpc] using hok.closedDest
    · simpa [List.nodup_append] using ⟨hok.nodup, fun c hc hce => hnew (hce ▸ hc)⟩
  | closeDest hpc =>
    have hnew : CloseCall.close .dest ∉ t.calls := by simpa [hpc] using hok.closedDest
    refine { hok with waited := fun _ => hok.waited (by simp [hpc]), closedWrite := ?_,
                      closedSrc := ?_, closedDest := by simp, nodup := ?_ }
    · simpa using hok.closedWrite
    · simpa [hpc] using hok.closedSrc
    · simpa [List.nodup_append] using ⟨hok.nodup, fun c hc hce => hnew (hce ▸ hc)⟩

theorem Tunnel.ok_of_run {sent : End → List UInt8} {ok : Tunnel → Event → Prop} {t : Tunnel}
    (hrun : Run Tunnel.step ok (Tunnel.start sent) t) : t.Ok sent := by
  induction hrun with
  | refl => exact Tunnel.ok_start sent
  | step e _ _ next ih => exact ih.step next

/-- **A tunnel keeps its streams whole and apart.** What was written to either
side is the beginning of what the other side sent; its writing side is closed
once the copy has returned, and then, if no call failed, it was sent
everything; no connection is closed before both directions have ended, and no
call is made twice; and nothing is read or written on a connection that was
closed, or written on one whose writing side was. -/
theorem tunnel_keeps_streams (sent : End → List UInt8) (t : Tunnel)
    (hreach : Reach Tunnel.step (Tunnel.start sent) t) :
    (∀ e, (t.copies e).written <+: sent e) ∧
    (∀ e, .closeWrite e.other ∈ t.calls → (t.copies e).Returned ∧
      ((t.copies e).pc = .returned false → (t.copies e).written = sent e)) ∧
    (∀ e, .close e ∈ t.calls → ∀ e', .closeWrite e' ∈ t.calls) ∧
    t.calls.Nodup ∧
    ∀ e call t', t.step (.copy e call) = some t' →
      .closeWrite e.other ∉ t.calls ∧ ∀ e', .close e' ∉ t.calls := by
  have hok := Tunnel.ok_of_run hreach
  -- a connection is closed by the waiter, which waited for both directions
  have hclosed : ∀ e, .close e ∈ t.calls → ∀ e', t.pc e' = .returned := by
    intro e hmem
    refine hok.waited ?_
    cases e with
    | src => rcases hok.closedSrc.mp hmem with h | h <;> simp [h]
    | dest => simp [hok.closedDest.mp hmem]
  refine ⟨fun e => (hok.copied e).written_sent, ?_, ?_, hok.nodup, ?_⟩
  · intro e hmem
    exact ⟨hok.returned e ((hok.closedWrite e).mp hmem), (hok.copied e).complete⟩
  · intro e hmem e'
    have hpc : t.pc e'.other ≠ .copying := by simp [hclosed e hmem e'.other]
    have hother : e'.other.other = e' := by cases e' <;> rfl
    simpa [hother] using (hok.closedWrite e'.other).mpr hpc
  · intro e call t' hstep
    cases Tunnel.steps_of_step hstep with
    | copy hpc _ =>
      refine ⟨fun hmem => (hok.closedWrite e).mp hmem hpc, fun e' hmem => ?_⟩
      simp [hclosed e' hmem e] at hpc

/-- A request of one byte, and an answer of two. -/
def exchange : End → List UInt8
  | .src => [7]
  | .dest => [8, 9]

/-- The request was passed on with its end; the other direction is open. -/
def halfClosed : List Event :=
  [.copy .src (.read 1 (some .eof)), .copy .src (.write 1 false), .closeWrite .src, .done .src]

theorem tunnel_half_closed : ∃ t, Reach Tunnel.step (Tunnel.start exchange) t ∧
    CloseCall.closeWrite .dest ∈ t.calls ∧ (t.copies .src).written = exchange .src ∧
    ∀ e, CloseCall.close e ∉ t.calls := by
  have hexec : ∃ t, Reach Tunnel.step (Tunnel.start exchange) t ∧
      (t.calls = [.closeWrite .dest] ∧ (t.copies .src).pc = .returned false) :=
    run_of_exec halfClosed _ (by decide)
  obtain ⟨t, hrun, hcalls, hpc⟩ := hexec
  have hkept := tunnel_keeps_streams exchange t hrun
  refine ⟨t, hrun, by simp [hcalls], ?_, by simp [hcalls]⟩
  exact (hkept.2.1 .src (by simp [hcalls, End.other])).2 hpc

/-! ### Every run ends -/

def ForwardPc.toGo : ForwardPc → Nat
  | .copying => 2
  | .finishing => 1
  | .returned => 0

def WaiterPc.toGo : WaiterPc → Nat
  | .waiting => 3
  | .closeSrc => 2
  | .closeDest => 1
  | .returned => 0

/-- The most steps a tunnel may still take. -/
def Tunnel.toGo (t : Tunnel) : Nat :=
  ∑ e, (t.copies e).toGo + ∑ e, (t.pc e).toGo + t.waiter.toGo

theorem Tunnel.toGo_step {t t' : Tunnel} {ev : Event} (h : t.step ev = some t') :
    t'.toGo < t.toGo := by
  unfold Tunnel.toGo
  cases Tunnel.steps_of_step h with
  | copy hpc hstep =>
    have hlower := sum_update_lt (Copy.toGo_step hstep)
    dsimp only
    omega
  | @closeWrite e hpc hret =>
    have hlower : ∑ e', (Function.update t.pc e .finishing e').toGo < ∑ e', (t.pc e').toGo :=
      sum_update_lt (by simp [hpc, ForwardPc.toGo])
    dsimp only
    omega
  | @done e hpc =>
    have hlower : ∑ e', (Function.update t.pc e .returned e').toGo < ∑ e', (t.pc e').toGo :=
      sum_update_lt (by simp [hpc, ForwardPc.toGo])
    dsimp only
    omega
  | wait hpc hzero => simp [hpc, WaiterPc.toGo]
  | closeSrc hpc => simp [hpc, WaiterPc.toGo]
  | closeDest hpc => simp [hpc, WaiterPc.toGo]

/-- A tunnel without a step has closed both connections. -/
theorem Tunnel.Ok.stuck {sent : End → List UInt8} {t : Tunnel} (hok : t.Ok sent)
    (hstuck : ∀ ev, t.step ev = none) : t.waiter = .returned := by
  have hret : ∀ e, t.pc e = .returned := by
    intro e
    cases hpc : t.pc e with
    | copying =>
      by_cases hcopy : (t.copies e).Returned
      · have hstep := hstuck (.closeWrite e)
        simp [Tunnel.step, hpc, hcopy] at hstep
      · obtain ⟨call, c, hc⟩ := Copy.exists_step hcopy
        have hstep := hstuck (.copy e call)
        simp [Tunnel.step, hpc, hc] at hstep
    | finishing =>
      have hstep := hstuck (.done e)
      simp [Tunnel.step, hpc] at hstep
    | returned => rfl
  have hzero : t.complete = 0 := by simp [hok.count, hret]
  cases hw : t.waiter with
  | waiting =>
    have hstep := hstuck .wait
    simp [Tunnel.step, hw, hzero] at hstep
  | closeSrc =>
    have hstep := hstuck .closeSrc
    simp [Tunnel.step, hw] at hstep
  | closeDest =>
    have hstep := hstuck .closeDest
    simp [Tunnel.step, hw] at hstep
  | returned => rfl

/-- A step whose read or write, if it is one, did not fail. -/
def CallSucceeds (t : Tunnel) : Event → Prop
  | .copy e call => (t.copies e).Succeeds call
  | .closeWrite _ | .done _ | .wait | .closeSrc | .closeDest => True

instance (t : Tunnel) (ev : Event) : Decidable (CallSucceeds t ev) :=
  match ev with
  | .copy e call => inferInstanceAs (Decidable ((t.copies e).Succeeds call))
  | .closeWrite _ | .done _ | .wait | .closeSrc | .closeDest => inferInstanceAs (Decidable True)

theorem unfailed_of_run {sent : End → List UInt8} {ok : Tunnel → Event → Prop} {t : Tunnel}
    (hok : ∀ s ev, ok s ev → CallSucceeds s ev)
    (hrun : Run Tunnel.step ok (Tunnel.start sent) t) : ∀ e, (t.copies e).Unfailed := by
  induction hrun with
  | refl => exact fun e => Copy.unfailed_start (sent e)
  | @step s s' ev run meets next ih =>
    have hsucc := hok s ev meets
    cases Tunnel.steps_of_step next with
    | @copy e call c hpc hstep =>
      intro e'
      by_cases he : e' = e
      · subst he
        simpa using (ih e').step hsucc hstep
      · simpa [he] using ih e'
    | closeWrite hpc hret => exact ih
    | done hpc => exact ih
    | wait hpc hzero => exact ih
    | closeSrc hpc => exact ih
    | closeDest hpc => exact ih

/-- **Every run of a tunnel ends, with both connections closed.** No run is
longer than the bound, which is linear in what the peers send; a run that can
not go on has closed both connections, after the writing side of each; and if
no read or write failed on the way, each side was sent all of the other's
stream. -/
theorem tunnel_ends (sent : End → List UInt8) {ok : Tunnel → Event → Prop} {es : List Event}
    {t : Tunnel} (htrace : Trace Tunnel.step ok (Tunnel.start sent) es t) :
    es.length ≤ 2 * ((sent .src).length + (sent .dest).length) + 9 ∧
    ((∀ ev, t.step ev = none) →
      (∀ e, .closeWrite e ∈ t.calls ∧ .close e ∈ t.calls) ∧
      ((∀ s ev, ok s ev → CallSucceeds s ev) → ∀ e, (t.copies e).written = sent e)) := by
  have hok := Tunnel.ok_of_run htrace.run
  constructor
  · have hlen := Trace.length_le (fun _ _ _ _ _ => Tunnel.toGo_step) htrace
    have hstart : (Tunnel.start sent).toGo =
        2 * ((sent .src).length + (sent .dest).length) + 9 := by
      have hends : (Finset.univ : Finset End) = {.src, .dest} := rfl
      simp [Tunnel.toGo, Tunnel.start, Copy.start, Copy.toGo, ForwardPc.toGo, WaiterPc.toGo, hends]
      omega
    omega
  · intro hstuck
    have hret := hok.stuck hstuck
    have hpc : ∀ e, t.pc e = .returned := hok.waited (by simp [hret])
    have hother : ∀ e : End, e.other.other = e := fun e => by cases e <;> rfl
    refine ⟨fun e => ⟨?_, ?_⟩, fun hsucc e => ?_⟩
    · simpa [hother] using (hok.closedWrite e.other).mpr (by simp [hpc])
    · cases e with
      | src => exact hok.closedSrc.mpr (Or.inr hret)
      | dest => exact hok.closedDest.mpr hret
    · obtain ⟨failed, hfailed⟩ := hok.returned e (by simp [hpc])
      cases failed with
      | true => exact absurd hfailed (unfailed_of_run hsucc htrace.run e).1
      | false => exact (hok.copied e).complete hfailed

/-- The answer comes in two pieces after the other direction was half-closed,
and then both connections are closed. -/
def answered : List Event :=
  halfClosed ++
    [.copy .dest (.read 1 none), .copy .dest (.write 1 false), .copy .dest (.read 1 none),
      .copy .dest (.write 1 false), .copy .dest (.read 0 (some .eof)), .closeWrite .dest,
      .done .dest, .wait, .closeSrc, .closeDest]

theorem tunnel_ends_answered :
    ∃ t, Trace Tunnel.step CallSucceeds (Tunnel.start exchange) answered t ∧
      (∀ e, (t.copies e).written = exchange e) ∧ ∀ e, CloseCall.close e ∈ t.calls := by
  have hexec : ∃ t, Trace Tunnel.step CallSucceeds (Tunnel.start exchange) answered t ∧
      (t.waiter = .returned ∧ t.pc .src = .returned ∧ t.pc .dest = .returned) :=
    trace_of_exec answered _ (by decide)
  obtain ⟨t, htrace, hw, hsrc, hdest⟩ := hexec
  have hpc : ∀ e, t.pc e = .returned := fun e => by cases e <;> assumption
  have hstuck : ∀ ev, t.step ev = none := by
    intro ev
    cases ev <;> simp [Tunnel.step, hw, hpc]
  have hends := (tunnel_ends exchange htrace).2 hstuck
  exact ⟨t, htrace, hends.2 fun _ _ h => h, fun e => (hends.1 e).2⟩

end GvisorTapVsock.Sshclient
