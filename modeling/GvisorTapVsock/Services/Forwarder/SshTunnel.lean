/-
GvisorTapVsock.Services.Forwarder.SshTunnel — a unix or npipe proxy with an
ssh-tunnel remote, as a system of goroutines (`pkg/services/forwarder/ports.go`,
`pkg/sshclient/ssh_forwarder.go`).

`Expose` makes three closures over two variables, `sshForward` and `connLock`.
Each connection the proxy accepts runs `dialFn` on a goroutine of its own: under
`connLock` it creates the one `SSHForward` of the proxy if there is none yet,
and opens a tunnel through it. `Unexpose` takes the proxy out of the table, so
only one call gets it, and runs `CloseWrapper`: `cleanup`, which looks at
`sshForward` without the lock, and `p.Close()`.

A step is one operation on the lock, the variable, the listener or the SSH
connection, and the step's MOVE says how the operation ended. `forwards` holds
for each `SSHForward` that was created whether its SSH client is connected.
`connectForward` reconnects a client it finds dead, up to three times.
Connections have numbers, in the order in which they were accepted.
-/
import GvisorTapVsock.Lts.Run
import GvisorTapVsock.Go.Sync

namespace GvisorTapVsock.Services.Forwarder

open GvisorTapVsock.Go GvisorTapVsock.Lts

/-- Where the goroutine of a client connection is. `f` is the `SSHForward` it
works with, `retries` and `bastionRetries` count as in `connectForward`. -/
inductive DialPc where
  /-- accepted, before the `Lock` of `dialFn` -/
  | accepted
  /-- at `if sshForward == nil` -/
  | check
  /-- in `CreateSSHForwardPassphrase` -/
  | create
  /-- at `sshForward = client` -/
  | assign (f : Nat)
  /-- in `bastion.Client.Dial` -/
  | dial (f retries : Nat)
  /-- in `SendRequest("alive@gvproxy")` -/
  | alive (f retries : Nat)
  /-- in `bastion.Reconnect` -/
  | reconnect (f retries bastionRetries : Nat)
  /-- in the `sleep` at the end of the loop -/
  | pause (f retries : Nat)
  /-- before the deferred `Unlock` -/
  | unlock
  | returned
  deriving DecidableEq

/-- Where `Unexpose` is. -/
inductive UnexposePc where
  | start
  /-- at `if sshForward != nil` of `cleanup` -/
  | check
  /-- at `sshForward.Close()` -/
  | close (f : Nat)
  /-- at `p.Close()` -/
  | listener
  | returned
  deriving DecidableEq

/-- The proxy, with its goroutines. -/
structure SshTunnel where
  listening : Bool
  connLock : Mutex Nat
  sshForward : Option Nat
  /-- for each `SSHForward` that was created, whether it is open -/
  forwards : List Bool
  /-- the connections that were accepted -/
  conns : List DialPc
  unexpose : UnexposePc

namespace SshTunnel

/-- The proxy that `Expose` has started. -/
def start : SshTunnel where
  listening := true
  connLock := .unlocked
  sshForward := none
  forwards := []
  conns := []
  unexpose := .start

inductive DialMove where
  | lock
  | check
  | created
  | createFailed
  | assign
  | dialled
  | dialFailed
  | alive
  /-- `SendRequest` failed: the connection is dead -/
  | dead
  | reconnected
  | reconnectFailed (slept : Bool)
  | slept (slept : Bool)
  | unlock

inductive UnexposeMove where
  | begin
  | check
  | close
  | listener

/-- A connection goes on at another point. -/
def goto (s : SshTunnel) (i : Nat) (pc : DialPc) : SshTunnel :=
  { s with conns := s.conns.set i pc }

/-- A step of the goroutine of connection `i`, which is at a given point. -/
def dialStep (s : SshTunnel) (i : Nat) (pc : DialPc) (m : DialMove) : Option SshTunnel :=
  match pc, m with
  | .accepted, .lock =>
      (s.connLock.lock i).map (fun l => { s.goto i .check with connLock := l })
  | .check, .check =>
      match s.sshForward with
      | none => some (s.goto i .create)
      | some f => some (s.goto i (.dial f 1))
  | .create, .created =>
      some { s.goto i (.assign s.forwards.length) with forwards := s.forwards ++ [true] }
  | .create, .createFailed => some (s.goto i .unlock)
  | .assign f, .assign => some { s.goto i (.dial f 1) with sshForward := some f }
  | .dial f _, .dialled =>
      if s.forwards[f]? = some true then some (s.goto i .unlock) else none
  | .dial f retries, .dialFailed =>
      if 2 < retries then some (s.goto i .unlock) else some (s.goto i (.alive f retries))
  | .alive f retries, .alive =>
      if s.forwards[f]? = some true then some (s.goto i (.pause f retries)) else none
  | .alive f retries, .dead =>
      some { s.goto i (.reconnect f retries 1) with forwards := s.forwards.set f false }
  | .reconnect f retries _, .reconnected =>
      some { s.goto i (.pause f retries) with forwards := s.forwards.set f true }
  | .reconnect f retries bastionRetries, .reconnectFailed slept =>
      if 2 < bastionRetries ∨ slept = false then some (s.goto i .unlock)
      else some (s.goto i (.reconnect f retries (bastionRetries + 1)))
  -- without the sleep `retries` is set to 3, and counted up
  | .pause f retries, .slept slept => some (s.goto i (.dial f (if slept then retries + 1 else 4)))
  | .unlock, .unlock => some { s.goto i .returned with connLock := s.connLock.unlock }
  | _, _ => none

/-- A step of `Unexpose`. -/
def unexposeStep (s : SshTunnel) (m : UnexposeMove) : Option SshTunnel :=
  match s.unexpose, m with
  | .start, .begin => some { s with unexpose := .check }
  | .check, .check =>
      match s.sshForward with
      | none => some { s with unexpose := .listener }
      | some f => some { s with unexpose := .close f }
  | .close f, .close => some { s with unexpose := .listener, forwards := s.forwards.set f false }
  | .listener, .listener => some { s with unexpose := .returned, listening := false }
  | _, _ => none

inductive Event where
  | accept
  | conn (i : Nat) (m : DialMove)
  | unexpose (m : UnexposeMove)

/-- A step of the proxy; `none` if it is not possible. -/
def step (s : SshTunnel) : Event → Option SshTunnel
  | .accept =>
      if s.listening then some { s with conns := s.conns ++ [.accepted] } else none
  | .conn i m =>
      match s.conns[i]? with
      | none => none
      | some pc => s.dialStep i pc m
  | .unexpose m => s.unexposeStep m

/-- Every state of every run of the proxy. -/
abbrev Reachable (s : SshTunnel) : Prop := Reach step start s

/-- An `SSHForward` is open. -/
def IsOpen (s : SshTunnel) (f : Nat) : Prop := s.forwards[f]? = some true

end SshTunnel

end GvisorTapVsock.Services.Forwarder
