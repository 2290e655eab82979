/-
GvisorTapVsock.Sshclient.CancelTheorems — a context that is done before there
is a connection (`initialConnection` and `setupProxy` in
`pkg/sshclient/ssh_forwarder.go`).

The loop returns its two variables, both nil until the first attempt. After a
failed attempt the error is there, so every later exit returns it; an attempt
that succeeds returns the connection. The exit before the first attempt returns
neither, `setupProxy` takes the missing error for success, and `CreateBastion`
dials with a background context what the caller no longer wants.
-/
import GvisorTapVsock.Sshclient.Forward

namespace GvisorTapVsock.Sshclient

open GvisorTapVsock.Go GvisorTapVsock.Lts

/-! ## What is asked -/

/-- The errors `setupProxy` returns before it calls `CreateBastion`. -/
def SetupError.beforeBastion : SetupError → Bool
  | .scheme _ | .listen _ | .connect _ => true
  | .bastion _ | .redial _ _ | .handshake _ => false

/-- A run of `setupProxy` that called `CreateBastion`. -/
def CalledCreateBastion {K : Type} (r : Except SetupError (SSHForward K)) : Prop :=
  ∀ e, r = .error e → e.beforeBastion = false

/-- The loop finds the context done, and no attempt before had a connection. -/
def CancelledBeforeConn (o : Outcomes) : Prop :=
  ∃ i < maxAttempts, o.cancelled i = true ∧ ∀ j < i, o.connect j ≠ none

/-! ## The loop -/

section Loop

variable {cancelled : Nat → Bool} {connect : Nat → Option String}

/-- A context found done after failed attempts only: no connection. -/
theorem initialConnectionFrom_cancelled {left i k : Nat} {err : Option String} (hi : i ≤ k)
    (hk : k < i + left) (hdone : cancelled k = true)
    (hfailed : ∀ j, i ≤ j → j < k → connect j ≠ none) :
    (initialConnectionFrom cancelled connect left i err).1 = none := by
  induction left generalizing i err with
  | zero => rfl
  | succ left ih =>
    rw [initialConnectionFrom]
    split
    · rfl
    · next hnot =>
      have hne : i ≠ k := by
        rintro rfl
        exact hnot hdone
      have hlt : i < k := Nat.lt_of_le_of_ne hi hne
      cases hconnect : connect i with
      | none => exact absurd hconnect (hfailed i (Nat.le_refl i) hlt)
      | some e => exact ih hlt (by omega) fun j hj => hfailed j (by omega)

end Loop

/-- A caller who cancels early gets the error of an attempt, if there was one. -/
theorem initialConnection_of_cancelled {o : Outcomes} (hcancel : CancelledBeforeConn o)
    (hfirst : o.cancelled 0 = false) : ∃ err, initialConnection o = (none, some err) := by
  obtain ⟨i, hi, hdone, hfailed⟩ := hcancel
  have hnone : (initialConnection o).1 = none :=
    initialConnectionFrom_cancelled (Nat.zero_le i) (by omega) hdone fun j _ hj => hfailed j hj
  rcases (initialConnection_connOrError_iff o).mpr hfirst with ⟨c, hc⟩ | herr
  · rw [hc] at hnone
    simp at hnone
  · exact herr

/-! ## The forward -/

theorem listenOn_beforeBastion {scheme : String} {listen : Option String} {e : SetupError}
    (h : listenOn scheme listen = .error e) : e.beforeBastion = true := by
  unfold listenOn at h
  split at h
  · cases listen with
    | none => simp at h
    | some err =>
      cases h
      rfl
  · split at h
    · simp at h
    · cases h
      rfl

theorem newClientConn_not_beforeBastion {o : Outcomes} {conn : Nat} {e : SetupError}
    (h : (newClientConn o conn).1 = .error e) : e.beforeBastion = false := by
  unfold newClientConn at h
  split at h <;> cases h
  rfl

theorem reconnect_not_beforeBastion {o : Outcomes} {host : String} {conn : Option Nat}
    {e : SetupError} (h : (reconnect o host conn).1 = .error e) : e.beforeBastion = false := by
  unfold reconnect at h
  split at h
  · exact newClientConn_not_beforeBastion h
  · split at h
    · cases h
      rfl
    · exact newClientConn_not_beforeBastion h

section Setup

variable {K Salt : Type} (parsePublicKey : List Char → Option K)
  (hashHostname : String → Salt → String) (knownHosts : Option (List Char)) (salt : Salt)
  (socketURI dest : URL) (user : Userinfo) (identity : String) (o : Outcomes)

/-- `setupProxy` calls `CreateBastion` if there is a listener where the scheme
asks for one and the loop returned no error. Nobody looks at the connection. -/
theorem calledCreateBastion_iff :
    CalledCreateBastion
        (setupProxy parsePublicKey hashHostname knownHosts salt socketURI dest user identity o).1 ↔
      (∃ listener, listenOn socketURI.scheme o.listen = .ok listener) ∧
        (initialConnection o).2 = none := by
  rw [setupProxy]
  cases hlisten : listenOn socketURI.scheme o.listen with
  | error e =>
    simp [CalledCreateBastion, listenOn_beforeBastion hlisten]
  | ok listener =>
    rcases initialConnection o with ⟨conn, _ | err⟩
    · simp only [Except.ok.injEq, exists_eq', and_self, iff_true]
      cases createBastion parsePublicKey hashHostname knownHosts salt dest user identity
          o.publicKey with
      | error e =>
        rintro _ ⟨⟩
        rfl
      | ok bastion =>
        rcases hre : reconnect o bastion.host conn with ⟨e | client, uses⟩ <;> simp only [hre]
        · rintro _ ⟨⟩
          exact reconnect_not_beforeBastion (congrArg Prod.fst hre)
        · rintro _ ⟨⟩
    · simp [CalledCreateBastion, SetupError.beforeBastion]

/-- **A cancelled forward does not dial again** exactly if the context was not
done before the first attempt: then the loop has a connection or an error to
return, and a forward cancelled before it had a connection ends there. -/
theorem cancelled_before_bastion_iff :
    (ConnOrError (initialConnection o) ∧
      (CancelledBeforeConn o →
        ¬ CalledCreateBastion (setupProxy parsePublicKey hashHostname knownHosts salt socketURI
          dest user identity o).1)) ↔
      o.cancelled 0 = false := by
  rw [initialConnection_connOrError_iff]
  refine ⟨And.left, fun hfirst => ⟨hfirst, fun hcancel hcalled => ?_⟩⟩
  obtain ⟨err, hinit⟩ := initialConnection_of_cancelled hcancel hfirst
  have hnone := ((calledCreateBastion_iff parsePublicKey hashHostname knownHosts salt socketURI
    dest user identity o).mp hcalled).2
  rw [hinit] at hnone
  simp at hnone

end Setup

/-- A context that is done from the start, with calls that all succeed. -/
def Outcomes.givenUp : Outcomes := { Outcomes.fine with cancelled := fun _ => true }

/-- With a context that is done from the start there is no connection and no
error, and the forward is made all the same: on a connection that
`CreateBastion` dials after the last attempt of the loop. -/
theorem initialConnection_given_up :
    CancelledBeforeConn Outcomes.givenUp ∧
      initialConnection Outcomes.givenUp = (none, none) ∧
      ¬ ConnOrError (initialConnection Outcomes.givenUp) ∧
      CalledCreateBastion (forwardTo "unix" Outcomes.givenUp).1 ∧
      (forwardTo "unix" Outcomes.givenUp).2
        = [.opens .listener, .opens (.conn maxAttempts),
          .hands .listener, .hands (.conn maxAttempts)] := by
  have hinit : initialConnection Outcomes.givenUp = (none, none) := rfl
  refine ⟨⟨0, by decide, rfl, by simp⟩, hinit, ?_, ?_, rfl⟩
  · rw [hinit]
    simp [ConnOrError]
  · exact (calledCreateBastion_iff ..).mpr ⟨⟨some .listener, rfl⟩, congrArg Prod.snd hinit⟩

end GvisorTapVsock.Sshclient
