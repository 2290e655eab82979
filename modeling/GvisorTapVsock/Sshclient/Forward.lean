/-
GvisorTapVsock.Sshclient.Forward — what an SSH forward holds (`setupProxy`,
`initialConnection` in `pkg/sshclient/ssh_forwarder.go`; `reconnect` and the
end of `CreateBastion` in `bastion.go`).

Resources are taken in three stages: the listener, a raw connection, and the
SSH client on it. `setupProxy` returns its result together with the log of the
resources it opened, closed and handed to the `SSHForward`. What lies outside
is an argument: the outcome of each call and whether the context is done before
each attempt.

`ssh.NewClientConn` closes the connection it was given when the handshake
fails. No other exit closes anything, so what was opened before it leaks:
`setupProxy_clean_iff` says on which inputs that happens.
-/
import GvisorTapVsock.Lts.Resources
import GvisorTapVsock.Sshclient.Bastion

namespace GvisorTapVsock.Sshclient

open GvisorTapVsock.Go GvisorTapVsock.Lts

/-- What `setupProxy` opens; a connection has the number of its dial. -/
inductive Resource where
  | listener
  | conn (n : Nat)
  deriving DecidableEq, Repr

/-- What the calls return, `none` for success, and when the context is done. -/
structure Outcomes where
  /-- of `listenUnix` or `ListenNpipe` -/
  listen : Option String
  /-- `ctx.Done()`, before each attempt -/
  cancelled : Nat → Bool
  /-- of `connectFunc(ctx, nil)` in each attempt -/
  connect : Nat → Option String
  /-- of `PublicKey(identity, passPhrase)` -/
  publicKey : Option String
  /-- of `bastion.connect` in `reconnect` -/
  redial : Option String
  /-- of the handshake in `ssh.NewClientConn` -/
  handshake : Option String

/-- Why there is no forward. -/
inductive SetupError where
  /-- "URI scheme not supported: …" -/
  | scheme (scheme : String)
  | listen (err : String)
  | connect (err : String)
  | bastion (err : BastionError)
  /-- "Connection to bastion host (…) failed" -/
  | redial (host err : String)
  /-- "ssh: handshake failed: …" -/
  | handshake (err : String)
  deriving DecidableEq

/-- `SSHForward`; `client` is the connection of `bastion.Client`. -/
structure SSHForward (K : Type) where
  listener : Option Resource
  bastion : Bastion K
  client : Nat
  sock : URL

/-- The resources an `SSHForward` closes in its `Close`. -/
def SSHForward.owned {K : Type} (forward : SSHForward K) : List Resource :=
  forward.listener.toList ++ [.conn forward.client]

/-! ## The stages -/

/-- The `switch socketURI.Scheme`: the listener, if there is to be one. -/
def listenOn (scheme : String) (listen : Option String) : Except SetupError (Option Resource) :=
  if scheme = "unix" ∨ scheme = "npipe" then
    match listen with
    | some err => .error (.listen err)
    | none => .ok (some .listener)
  else if scheme = "" then .ok none
  else .error (.scheme scheme)

/-- The loop of `initialConnection` from attempt `i` on, with the attempts left
and the error of the last one: the connection and the error it returns. -/
def initialConnectionFrom (cancelled : Nat → Bool) (connect : Nat → Option String) :
    Nat → Nat → Option String → Option Nat × Option String
  | 0, _, err => (none, err)
  | left + 1, i, err =>
      if cancelled i then (none, err)
      else
        match connect i with
        | none => (some i, none)
        | some e => initialConnectionFrom cancelled connect left (i + 1) (some e)

/-- The bound of the loop. -/
def maxAttempts : Nat := 60

/-- `initialConnection(ctx, connectFunc)`. -/
def initialConnection (o : Outcomes) : Option Nat × Option String :=
  initialConnectionFrom o.cancelled o.connect maxAttempts 0 none

/-- `ssh.NewClientConn(conn, …)`, which closes the connection if it fails. -/
def newClientConn (o : Outcomes) (conn : Nat) : Except SetupError Nat × List (Use Resource) :=
  match o.handshake with
  | some err => (.error (.handshake err), [.closes (.conn conn)])
  | none => (.ok conn, [])

/-- `bastion.reconnect(ctx, conn)`: without a connection it dials one of its
own, with the number after the last attempt. -/
def reconnect (o : Outcomes) (host : String) (conn : Option Nat) :
    Except SetupError Nat × List (Use Resource) :=
  match conn with
  | some c => newClientConn o c
  | none =>
      match o.redial with
      | some err => (.error (.redial host err), [])
      | none =>
          ((newClientConn o maxAttempts).1,
            .opens (.conn maxAttempts) :: (newClientConn o maxAttempts).2)

section Setup

variable {K Salt : Type} (parsePublicKey : List Char → Option K)
  (hashHostname : String → Salt → String) (knownHosts : Option (List Char)) (salt : Salt)

/-- `setupProxy(ctx, socketURI, dest, identity, passphrase, dialer)`, with the
log of what it does. -/
def setupProxy (socketURI dest : URL) (user : Userinfo) (identity : String) (o : Outcomes) :
    Except SetupError (SSHForward K) × List (Use Resource) :=
  match listenOn socketURI.scheme o.listen with
  | .error e => (.error e, [])
  | .ok listener =>
      let log := listener.toList.map Use.opens
      match initialConnection o with
      | (_, some err) => (.error (.connect err), log)
      | (conn, none) =>
          let log := log ++ (conn.toList.map Resource.conn).map Use.opens
          match createBastion parsePublicKey hashHostname knownHosts salt dest user identity
              o.publicKey with
          | .error e => (.error (.bastion e), log)
          | .ok bastion =>
              match reconnect o bastion.host conn with
              | (.error e, uses) => (.error e, log ++ uses)
              | (.ok client, uses) =>
                  let forward : SSHForward K := ⟨listener, bastion, client, socketURI⟩
                  (.ok forward, log ++ uses ++ forward.owned.map Use.hands)

end Setup

/-! ## What is asked -/

/-- Whether a scheme has a listener. -/
def listens (scheme : String) : Prop := scheme = "unix" ∨ scheme = "npipe"

/-- On an error nothing is left open; on success the forward owns the listener,
if the scheme has one, and one connection, and nothing else is open. -/
structure Clean {K : Type} (scheme : String)
    (r : Except SetupError (SSHForward K) × List (Use Resource)) : Prop where
  failed : ∀ e, r.1 = .error e → held r.2 = [] ∧ handed r.2 = []
  succeeded : ∀ forward, r.1 = .ok forward →
    held r.2 = [] ∧ handed r.2 = forward.owned ∧ (forward.listener.isSome = true ↔ listens scheme)

/-! ## The loop -/

/-- An attempt that succeeds is the last one, and clears the error. -/
theorem initialConnectionFrom_some {cancelled : Nat → Bool} {connect : Nat → Option String} :
    ∀ {left i c : Nat} {err err' : Option String},
      initialConnectionFrom cancelled connect left i err = (some c, err') →
        err' = none ∧ i ≤ c ∧ c < i + left ∧ connect c = none
  | 0, i, c, err, err', h => by simp [initialConnectionFrom] at h
  | left + 1, i, c, err, err', h => by
      rw [initialConnectionFrom] at h
      split at h
      · simp at h
      · cases hi : connect i with
        | none =>
          simp only [hi, Prod.mk.injEq, Option.some.injEq] at h
          obtain ⟨rfl, rfl⟩ := h
          exact ⟨rfl, Nat.le_refl _, by omega, hi⟩
        | some e =>
          rw [hi] at h
          obtain ⟨herr, hle, hlt, hc⟩ := initialConnectionFrom_some h
          exact ⟨herr, by omega, by omega, hc⟩

/-- The attempts of the loop are not the redial of `reconnect`. -/
theorem initialConnection_lt {o : Outcomes} {c : Nat} {err : Option String}
    (h : initialConnection o = (some c, err)) : err = none ∧ c < maxAttempts := by
  obtain ⟨herr, -, hlt, -⟩ := initialConnectionFrom_some h
  exact ⟨herr, by simpa using hlt⟩

/-- A connection without an error, or an error without a connection. -/
def ConnOrError (r : Option Nat × Option String) : Prop :=
  (∃ c, r = (some c, none)) ∨ ∃ err, r = (none, some err)

/-- Once an attempt has failed, there is always something to return. -/
theorem initialConnectionFrom_connOrError {cancelled : Nat → Bool}
    {connect : Nat → Option String} (left i : Nat) (err : String) :
    ConnOrError (initialConnectionFrom cancelled connect left i (some err)) := by
  induction left generalizing i err with
  | zero => exact Or.inr ⟨err, rfl⟩
  | succ left ih =>
    rw [initialConnectionFrom]
    split
    · exact Or.inr ⟨err, rfl⟩
    · cases connect i with
      | none => exact Or.inl ⟨i, rfl⟩
      | some e => exact ih (i + 1) e

/-- The whole loop has nothing to return only if it never tried. -/
theorem initialConnection_connOrError_iff (o : Outcomes) :
    ConnOrError (initialConnection o) ↔ o.cancelled 0 = false := by
  rw [initialConnection, maxAttempts, initialConnectionFrom]
  cases hdone : o.cancelled 0 with
  | true => simp [ConnOrError]
  | false =>
    simp only [Bool.false_eq_true, if_false, iff_true]
    cases o.connect 0 with
    | none => exact Or.inl ⟨0, rfl⟩
    | some e => exact initialConnectionFrom_connOrError 59 1 e

/-- The loop has a connection if an attempt succeeds before the context is
done. -/
theorem initialConnectionFrom_isSome {cancelled : Nat → Bool} {connect : Nat → Option String}
    {left i k : Nat} {err : Option String} (hi : i ≤ k) (hk : k < i + left)
    (hconnect : connect k = none) (hgo : ∀ j ≤ k, cancelled j = false) :
    (initialConnectionFrom cancelled connect left i err).1.isSome = true := by
  induction left generalizing i err with
  | zero => omega
  | succ left ih =>
    rw [initialConnectionFrom, hgo i hi]
    cases hfirst : connect i with
    | none => rfl
    | some e =>
      have hne : i ≠ k := by
        rintro rfl
        rw [hconnect] at hfirst
        cases hfirst
      exact ih (by omega) (by omega)

/-- The attempts up to the one that succeeds found the context open. -/
theorem initialConnectionFrom_open {cancelled : Nat → Bool} {connect : Nat → Option String}
    {left i c : Nat} {err err' : Option String}
    (h : initialConnectionFrom cancelled connect left i err = (some c, err')) :
    ∀ j, i ≤ j → j ≤ c → cancelled j = false := by
  induction left generalizing i err with
  | zero => simp [initialConnectionFrom] at h
  | succ left ih =>
    intro j hij hjc
    rw [initialConnectionFrom] at h
    split at h
    · simp at h
    · next hdone =>
      by_cases hj : j = i
      · rw [hj]
        simpa using hdone
      · cases hi : connect i with
        | none =>
          simp only [hi, Prod.mk.injEq, Option.some.injEq] at h
          omega
        | some e =>
          rw [hi] at h
          exact ih h j (by omega) hjc

/-- An attempt succeeds before the context is done. -/
def Outcomes.Connects (o : Outcomes) : Prop :=
  ∃ i < maxAttempts, o.connect i = none ∧ ∀ j ≤ i, o.cancelled j = false

theorem initialConnection_isSome_iff (o : Outcomes) :
    (initialConnection o).1.isSome = true ↔ o.Connects := by
  constructor
  · intro h
    obtain ⟨c, hc⟩ := Option.isSome_iff_exists.mp h
    have heq : initialConnection o = (some c, (initialConnection o).2) := by rw [← hc]
    obtain ⟨-, -, hlt, hconnect⟩ := initialConnectionFrom_some heq
    exact ⟨c, by omega, hconnect, fun j hj => initialConnectionFrom_open heq j (by omega) hj⟩
  · rintro ⟨i, hi, hconnect, hgo⟩
    exact initialConnectionFrom_isSome (Nat.zero_le i) (by omega) hconnect hgo

/-- The three ways out of the loop. -/
theorem initialConnection_cases (o : Outcomes) :
    (∃ c, initialConnection o = (some c, none) ∧ o.Connects) ∨
      initialConnection o = (none, none) ∧ o.cancelled 0 = true ∧ ¬ o.Connects ∨
      ∃ err, initialConnection o = (none, some err) ∧ o.cancelled 0 = false ∧ ¬ o.Connects := by
  cases hdone : o.cancelled 0 with
  | true =>
    refine Or.inr (Or.inl ⟨?_, rfl, fun ⟨i, _, _, hgo⟩ => ?_⟩)
    · rw [initialConnection, maxAttempts, initialConnectionFrom, if_pos hdone]
    · rw [hgo 0 (Nat.zero_le i)] at hdone
      cases hdone
  | false =>
    rcases (initialConnection_connOrError_iff o).mpr hdone with ⟨c, hc⟩ | ⟨err, herr⟩
    · exact Or.inl ⟨c, hc, (initialConnection_isSome_iff o).mp (by rw [hc]; rfl)⟩
    · refine Or.inr (Or.inr ⟨err, herr, rfl, fun hconnects => ?_⟩)
      have hsome := (initialConnection_isSome_iff o).mpr hconnects
      rw [herr] at hsome
      cases hsome

/-! ## The exits -/

theorem listenOn_ok {scheme : String} {listen : Option String} {listener : Option Resource}
    (h : listenOn scheme listen = .ok listener) :
    listens scheme ∧ listen = none ∧ listener = some .listener ∨
      scheme = "" ∧ listener = none := by
  unfold listenOn at h
  split at h
  · next hlistens =>
    cases listen with
    | some err => simp at h
    | none => exact Or.inl ⟨hlistens, rfl, (Except.ok.inj h).symm⟩
  · split at h
    · next hempty => exact Or.inr ⟨hempty, (Except.ok.inj h).symm⟩
    · simp at h

theorem listenOn_error {scheme : String} {listen : Option String} {e : SetupError}
    (h : listenOn scheme listen = .error e) :
    ¬ (listens scheme ∧ listen = none) ∧ scheme ≠ "" := by
  unfold listenOn at h
  split at h
  · next hlistens =>
    refine ⟨fun hboth => ?_, ?_⟩
    · simp [hboth.2] at h
    · rintro rfl
      simp at hlistens
  · next hlistens =>
    split at h
    · simp at h
    · next hempty => exact ⟨fun hboth => hlistens hboth.1, hempty⟩

/-- `reconnect` leaves nothing open that it does not return. -/
theorem reconnect_uses (o : Outcomes) (host : String) (conn : Option Nat)
    (log : List (Use Resource)) (hlog : ∀ c, Resource.conn c ∉ held log) :
    (∃ e uses, reconnect o host conn = (.error e, uses) ∧
        held (log ++ (conn.toList.map Resource.conn).map Use.opens ++ uses) = held log ∧
        handed uses = []) ∨
      ∃ client uses, reconnect o host conn = (.ok client, uses) ∧
        held (log ++ (conn.toList.map Resource.conn).map Use.opens ++ uses)
          = held log ++ [.conn client] ∧ handed uses = [] := by
  have herase : ∀ c, (held log ++ [Resource.conn c]).erase (.conn c) = held log := by
    intro c
    rw [List.erase_append_right _ (hlog c)]
    simp
  cases conn with
  | some c =>
    cases hshake : o.handshake with
    | some err =>
      refine Or.inl ⟨.handshake err, [.closes (.conn c)],
        by simp [reconnect, newClientConn, hshake], ?_, rfl⟩
      simp [held_append, Use.apply, herase]
    | none =>
      exact Or.inr ⟨c, [], by simp [reconnect, newClientConn, hshake],
        by simp [held_append, Use.apply], rfl⟩
  | none =>
    cases hdial : o.redial with
    | some err =>
      exact Or.inl ⟨.redial host err, [], by simp [reconnect, hdial], by simp, rfl⟩
    | none =>
      cases hshake : o.handshake with
      | some err =>
        refine Or.inl ⟨.handshake err, [.opens (.conn maxAttempts), .closes (.conn maxAttempts)],
          by simp [reconnect, newClientConn, hdial, hshake], ?_, rfl⟩
        simp [held_append, Use.apply, herase]
      | none =>
        exact Or.inr ⟨maxAttempts, [.opens (.conn maxAttempts)],
          by simp [reconnect, newClientConn, hdial, hshake],
          by simp [held_append, Use.apply], rfl⟩

/-- The listener is open after the first stage. -/
theorem held_listener {scheme : String} {listen : Option String} {listener : Option Resource}
    (h : listenOn scheme listen = .ok listener) :
    held (listener.toList.map Use.opens) = listener.toList ∧
      ∀ c, Resource.conn c ∉ held (listener.toList.map Use.opens) := by
  rcases listenOn_ok h with ⟨-, -, rfl⟩ | ⟨-, rfl⟩
  · exact ⟨rfl, by simp [held, Use.apply]⟩
  · exact ⟨rfl, by simp [held]⟩

/-- Nothing is handed over while resources are opened. -/
theorem handed_opens (rs : List Resource) : handed (rs.map Use.opens) = [] := by
  induction rs with
  | nil => rfl
  | cons r rs ih => exact ih

theorem handed_hands (rs : List Resource) : handed (rs.map Use.hands) = rs := by
  induction rs with
  | nil => rfl
  | cons r rs ih => rw [List.map_cons, handed, ih]

/-- There is something to authenticate with: the identity can be read, or, if
none is given, there is a password. -/
def Authenticates (user : Userinfo) (identity : String) (publicKey : Option String) : Prop :=
  if identity = "" then user.password.isSome = true else publicKey = none

section Exits

variable {K Salt : Type} (parsePublicKey : List Char → Option K)
  (hashHostname : String → Salt → String) (knownHosts : Option (List Char)) (salt : Salt)
  (socketURI dest : URL) (user : Userinfo) (identity : String) (o : Outcomes)

/-- The connection that is left when there is no configuration for the bastion. -/
def unusedConn : List Resource :=
  match createBastion parsePublicKey hashHostname knownHosts salt dest user identity
      o.publicKey with
  | .error _ => (initialConnection o).1.toList.map Resource.conn
  | .ok _ => []

/-- What an exit after the first stage leaves behind. -/
theorem setupProxy_exits {listener : Option Resource}
    (hlisten : listenOn socketURI.scheme o.listen = .ok listener) :
    (∃ e log,
        setupProxy parsePublicKey hashHostname knownHosts salt socketURI dest user identity o
          = (.error e, log) ∧ handed log = [] ∧
        held log = listener.toList ++
          unusedConn parsePublicKey hashHostname knownHosts salt dest user identity o) ∨
      ∃ forward log,
        setupProxy parsePublicKey hashHostname knownHosts salt socketURI dest user identity o
          = (.ok forward, log) ∧ forward.listener = listener ∧ handed log = forward.owned ∧
        held log = [] := by
  obtain ⟨hheld, hconn⟩ := held_listener hlisten
  rw [setupProxy, hlisten]
  rcases hinit : initialConnection o with ⟨conn, _ | err⟩
  · cases hbastion : createBastion parsePublicKey hashHostname knownHosts salt dest user identity
        o.publicKey with
    | error e =>
      -- no authentication: the initial connection is not used
      refine Or.inl ⟨.bastion e, _, rfl, ?_, ?_⟩
      · rw [handed_append, handed_opens, handed_opens]
        rfl
      · rw [unusedConn, hbastion, hinit, held_append, hheld]
        cases conn <;> simp [Use.apply]
    | ok bastion =>
      rcases reconnect_uses o bastion.host conn (listener.toList.map Use.opens) hconn with
        ⟨e, uses, hre, hopen, hhands⟩ | ⟨client, uses, hre, hopen, hhands⟩
      · refine Or.inl ⟨e, listener.toList.map Use.opens ++
          (conn.toList.map Resource.conn).map Use.opens ++ uses, by simp [hre], ?_, ?_⟩
        · rw [handed_append, handed_append, handed_opens, handed_opens, hhands]
          rfl
        · rw [hopen, hheld, unusedConn, hbastion, List.append_nil]
      · refine Or.inr ⟨⟨listener, bastion, client, socketURI⟩, listener.toList.map Use.opens ++
          (conn.toList.map Resource.conn).map Use.opens ++ uses ++
          (SSHForward.owned ⟨listener, bastion, client, socketURI⟩).map Use.hands,
          by simp only [hre], rfl, ?_, ?_⟩
        · rw [handed_append, handed_append, handed_append, handed_opens, handed_opens, hhands,
            handed_hands]
          rfl
        · rw [held_append, hopen, hheld]
          rcases listenOn_ok hlisten with ⟨-, -, rfl⟩ | ⟨-, rfl⟩ <;>
            simp [SSHForward.owned, Use.apply]
  · -- the loop ended without a connection
    have hnone : conn = none := by
      cases conn with
      | none => rfl
      | some c => exact absurd (initialConnection_lt hinit).1 (by simp)
    refine Or.inl ⟨.connect err, _, rfl, handed_opens _, ?_⟩
    rw [hheld, unusedConn, hinit, hnone]
    cases createBastion parsePublicKey hashHostname knownHosts salt dest user identity
      o.publicKey <;> simp

theorem createBastion_error_iff (publicKey : Option String) :
    (∃ be, createBastion parsePublicKey hashHostname knownHosts salt dest user identity publicKey
      = .error be) ↔ ¬ Authenticates user identity publicKey := by
  unfold createBastion authMethods Authenticates
  by_cases hidentity : identity = ""
  · rw [if_pos hidentity, if_pos hidentity]
    cases user.password <;> simp [Except.map]
  · rw [if_neg hidentity, if_neg hidentity]
    cases publicKey <;> simp [Except.map]

theorem createBastion_ok (publicKey : Option String)
    (h : Authenticates user identity publicKey) :
    ∃ bastion, createBastion parsePublicKey hashHostname knownHosts salt dest user identity
      publicKey = .ok bastion := by
  cases hbastion : createBastion parsePublicKey hashHostname knownHosts salt dest user identity
      publicKey with
  | error be => exact absurd h ((createBastion_error_iff _ _ _ _ _ _ _ _).mp ⟨be, hbastion⟩)
  | ok bastion => exact ⟨bastion, rfl⟩

theorem unusedConn_eq_nil_iff :
    unusedConn parsePublicKey hashHostname knownHosts salt dest user identity o = [] ↔
      (o.Connects → Authenticates user identity o.publicKey) := by
  rw [unusedConn]
  cases hbastion : createBastion parsePublicKey hashHostname knownHosts salt dest user identity
      o.publicKey with
  | error be =>
    have hnot := (createBastion_error_iff _ _ _ _ _ _ _ _).mp ⟨be, hbastion⟩
    rw [← initialConnection_isSome_iff]
    cases (initialConnection o).1 <;> simp [hnot]
  | ok bastion =>
    have hauth : Authenticates user identity o.publicKey := by
      by_contra hnot
      obtain ⟨be, hbe⟩ := (createBastion_error_iff parsePublicKey hashHostname knownHosts salt
        dest user identity o.publicKey).mpr hnot
      rw [hbastion] at hbe
      cases hbe
    simp [hauth]

/-- After the listener, every call that is made succeeds: an attempt, or, with a
context that is done from the start, the dial of `reconnect`; the authentication
methods; and the handshake. -/
def Succeeds : Prop :=
  (o.Connects ∨ o.cancelled 0 = true ∧ o.redial = none) ∧
    Authenticates user identity o.publicKey ∧ o.handshake = none

theorem reconnect_ok_iff (host : String) (conn : Option Nat) :
    (∃ client, (reconnect o host conn).1 = .ok client) ↔
      (conn = none → o.redial = none) ∧ o.handshake = none := by
  cases conn with
  | some c => cases hshake : o.handshake <;> simp [reconnect, newClientConn, hshake]
  | none =>
    cases hdial : o.redial with
    | some err => simp [reconnect, hdial]
    | none => cases hshake : o.handshake <;> simp [reconnect, newClientConn, hdial, hshake]

/-- Whether there is a forward, once there is a listener where the scheme has
one. -/
theorem setupProxy_ok_iff {listener : Option Resource}
    (hlisten : listenOn socketURI.scheme o.listen = .ok listener) :
    (∃ forward, (setupProxy parsePublicKey hashHostname knownHosts salt socketURI dest user
      identity o).1 = .ok forward) ↔ Succeeds user identity o := by
  -- the connection the loop returned decides about the dial of `reconnect`
  have hstages : ∀ conn, initialConnection o = (conn, none) →
      ((∃ forward, (setupProxy parsePublicKey hashHostname knownHosts salt socketURI dest user
        identity o).1 = .ok forward) ↔
        (conn = none → o.redial = none) ∧ Authenticates user identity o.publicKey ∧
          o.handshake = none) := by
    intro conn hconn
    rw [setupProxy, hlisten]
    simp only [hconn]
    by_cases hauth : Authenticates user identity o.publicKey
    · obtain ⟨bastion, hbastion⟩ := createBastion_ok parsePublicKey hashHostname knownHosts salt
        dest user identity o.publicKey hauth
      rw [hbastion]
      have hre := reconnect_ok_iff o bastion.host conn
      rcases hout : reconnect o bastion.host conn with ⟨_ | client, uses⟩
      all_goals
        rw [hout] at hre
        simp only [hout]
        simpa [hauth] using hre
    · obtain ⟨be, hbe⟩ := (createBastion_error_iff parsePublicKey hashHostname knownHosts salt
        dest user identity o.publicKey).mpr hauth
      rw [hbe]
      simp [hauth]
  rcases initialConnection_cases o with ⟨c, hc, hconnects⟩ | ⟨hnone, hdone, hconnects⟩ |
    ⟨err, herr, hdone, hconnects⟩
  · rw [hstages _ hc, Succeeds]
    simp [hconnects]
  · rw [hstages _ hnone, Succeeds]
    simp [hconnects, hdone]
  · rw [setupProxy, hlisten, Succeeds]
    simp [herr, hconnects, hdone]

/-- **An SSH forward cleans up after itself** exactly if everything succeeds once
a listener is open, and there is something to authenticate with wherever a
connection is made without a listener. -/
theorem setupProxy_clean_iff :
    Clean socketURI.scheme
        (setupProxy parsePublicKey hashHostname knownHosts salt socketURI dest user identity o) ↔
      (listens socketURI.scheme → o.listen = none → Succeeds user identity o) ∧
      (socketURI.scheme = "" → o.Connects → Authenticates user identity o.publicKey) := by
  cases hlisten : listenOn socketURI.scheme o.listen with
  | error e =>
    obtain ⟨hno, hscheme⟩ := listenOn_error hlisten
    have hsetup : setupProxy parsePublicKey hashHostname knownHosts salt socketURI dest user
        identity o = (.error e, []) := by rw [setupProxy, hlisten]
    rw [hsetup]
    refine ⟨fun _ => ⟨fun hl hn => absurd ⟨hl, hn⟩ hno, fun hs => absurd hs hscheme⟩,
      fun _ => ⟨fun _ _ => ⟨rfl, rfl⟩, ?_⟩⟩
    intro forward hforward
    simp at hforward
  | ok listener =>
    have hok := setupProxy_ok_iff parsePublicKey hashHostname knownHosts salt socketURI dest user
      identity o hlisten
    rcases setupProxy_exits parsePublicKey hashHostname knownHosts salt socketURI dest user identity
      o hlisten with ⟨e, log, hsetup, hhanded, hheld⟩ | ⟨forward, log, hsetup, hl, hhanded, hheld⟩
    · -- an error: what is held decides
      have hclean : Clean socketURI.scheme
          ((.error e, log) : Except SetupError (SSHForward K) × List (Use Resource)) ↔
            held log = [] := by
        refine ⟨fun h => (h.failed e rfl).1, fun h => ⟨fun _ _ => ⟨h, hhanded⟩, ?_⟩⟩
        intro forward hforward
        simp at hforward
      have hfails : ¬ Succeeds user identity o := by
        rw [← hok, hsetup]
        simp
      rw [hsetup, hclean, hheld, List.append_eq_nil_iff, unusedConn_eq_nil_iff]
      rcases listenOn_ok hlisten with ⟨hlistens, hnone, rfl⟩ | ⟨hscheme, rfl⟩
      · simp [hlistens, hnone, hfails]
      · have hno : ¬ listens "" := by simp [listens]
        simp [hno, hscheme]
    · -- success: both conditions hold
      have hsucceeds : Succeeds user identity o := hok.mp ⟨forward, by rw [hsetup]⟩
      have hiff : forward.listener.isSome = true ↔ listens socketURI.scheme := by
        rw [hl]
        rcases listenOn_ok hlisten with ⟨hlistens, -, rfl⟩ | ⟨hscheme, rfl⟩
        · simp [hlistens]
        · simp [listens, hscheme]
      rw [hsetup]
      refine ⟨fun _ => ⟨fun _ _ => hsucceeds, fun _ _ => hsucceeds.2.1⟩,
        fun _ => ⟨fun e he => by simp at he, ?_⟩⟩
      intro forward' hforward
      obtain rfl := Except.ok.inj hforward
      exact ⟨hheld, hhanded, hiff⟩

end Exits

/-- Calls that all succeed, with a context that is never done. -/
def Outcomes.fine : Outcomes := ⟨none, fun _ => false, fun _ => none, none, none, none⟩

/-- A forward to `ssh://core@host/run/podman.sock`, with an identity. -/
def forwardTo (scheme : String) (o : Outcomes) :
    Except SetupError (SSHForward Unit) × List (Use Resource) :=
  setupProxy (fun _ => none) (fun (host : String) (_ : Unit) => host) none ()
    ⟨scheme, "", "/tmp/podman.sock", ∅⟩ ⟨"ssh", "host:22", "/run/podman.sock", ∅⟩ ⟨"core", none⟩
    "id_rsa" o

/-- Where the server refuses the handshake, or all sixty connections, the
listener stays open; where the identity cannot be parsed, the connection stays
open as well, also without a listener. -/
theorem setupProxy_leaks :
    ¬ Clean "unix" (forwardTo "unix" { Outcomes.fine with handshake := some "no" }) ∧
      held (forwardTo "unix" { Outcomes.fine with handshake := some "no" }).2 = [.listener] ∧
      held (forwardTo "unix" { Outcomes.fine with connect := fun _ => some "no" }).2
        = [.listener] ∧
      held (forwardTo "unix" { Outcomes.fine with publicKey := some "no" }).2
        = [.listener, .conn 0] ∧
      held (forwardTo "" { Outcomes.fine with publicKey := some "no" }).2 = [.conn 0] := by
  have hheld : held (forwardTo "unix" { Outcomes.fine with handshake := some "no" }).2
      = [.listener] := rfl
  refine ⟨fun hclean => ?_, hheld, rfl, rfl, rfl⟩
  have hnil := (hclean.failed (.handshake "no") rfl).1
  rw [hheld] at hnil
  exact absurd hnil (by simp)

end GvisorTapVsock.Sshclient
