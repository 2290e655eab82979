/-
GvisorTapVsock.Sshclient.Tunnel — an accepted connection of an SSH forward
(`connectForward`, `acceptConnection`, `forward` in
`pkg/sshclient/ssh_forwarder.go`).

`connectForward` opens a stream to the socket behind the bastion and repairs
the SSH connection on the way. How each of its calls ends is the world's to
say, and may depend on the calls before it; the model keeps the log of the
calls.

After that three goroutines share the accepted connection and the stream: one
`forward` for each direction, which copies and then closes the writing side of
its destination, and one that waits for both and closes both connections.
`Tunnel.step` interleaves them in every way. A read, a write or the end of a
stream comes when the outside lets it, so it is an event with its outcome.
-/
import GvisorTapVsock.Lts.Copy
import GvisorTapVsock.Lts.Measure
import GvisorTapVsock.Lts.Resources

namespace GvisorTapVsock.Sshclient

open GvisorTapVsock.Lts

/-! ## `connectForward` -/

/-- A call of `connectForward`, and whether it succeeded. -/
inductive ConnectCall where
  /-- `bastion.Client.Dial("unix", bastion.Path)` -/
  | dial (ok : Bool)
  /-- `SendRequest("alive@gvproxy", true, nil)` -/
  | alive (ok : Bool)
  /-- `bastion.Reconnect(ctx)` -/
  | reconnect (ok : Bool)
  /-- `sleep(ctx, 200*time.Millisecond)`, which fails once the context is done -/
  | sleep (ok : Bool)
  deriving DecidableEq, Repr

/-- How the next call ends, given the calls before it. -/
structure World (κ : Type) where
  dial : List ConnectCall → Except String κ
  alive : List ConnectCall → Option String
  reconnect : List ConnectCall → Option String
  sleep : List ConnectCall → Bool

/-- Why there is no stream. -/
inductive ConnectError where
  /-- "Couldn't reestablish ssh tunnel on path: …" -/
  | tunnel (path err : String)
  /-- "Couldn't reestablish ssh connection: …" -/
  | connection (host err : String)
  deriving DecidableEq, Repr

/-- The inner loop, over `bastionRetries`, with the retries left; `none` when
the bastion is connected again. -/
def reconnectFrom {κ : Type} (w : World κ) : Nat → List ConnectCall →
    Option String × List ConnectCall
  | left, log =>
      match w.reconnect log with
      | none => (none, log ++ [.reconnect true])
      | some err =>
          let log := log ++ [.reconnect false]
          match left with
          | 0 => (some err, log)
          | left + 1 =>
              if w.sleep log then reconnectFrom w left (log ++ [.sleep true])
              else (some err, log ++ [.sleep false])

/-- A dial with no retry left. -/
def lastDial {κ : Type} (w : World κ) (path : String) (log : List ConnectCall) :
    Except ConnectError κ × List ConnectCall :=
  match w.dial log with
  | .ok stream => (.ok stream, log ++ [.dial true])
  | .error err => (.error (.tunnel path err), log ++ [.dial false])

/-- What a failed dial is followed by: the request that asks whether the
connection is alive, and the inner loop if it is not. -/
def revive {κ : Type} (w : World κ) (log : List ConnectCall) : Option String × List ConnectCall :=
  match w.alive log with
  | none => (none, log ++ [.alive true])
  | some _ => reconnectFrom w 2 (log ++ [.alive false])

/-- The loop over `retries`, with the retries left. A sleep that is cut short
sets `retries = 3`, which leaves one dial. -/
def connectFrom {κ : Type} (w : World κ) (path host : String) : Nat → List ConnectCall →
    Except ConnectError κ × List ConnectCall
  | 0, log => lastDial w path log
  | left + 1, log =>
      match w.dial log with
      | .ok stream => (.ok stream, log ++ [.dial true])
      | .error _ =>
          match revive w (log ++ [.dial false]) with
          | (some err, log) => (.error (.connection host err), log)
          | (none, log) =>
              if w.sleep log then connectFrom w path host left (log ++ [.sleep true])
              else lastDial w path (log ++ [.sleep false])

/-- `connectForward(ctx, bastion)`, with the calls it made. -/
def connectForward {κ : Type} (w : World κ) (path host : String) :
    Except ConnectError κ × List ConnectCall :=
  connectFrom w path host 2 []

/-! ## `acceptConnection` -/

/-- The two connections: the accepted one, and the stream of
`connectForward`. -/
inductive End where
  | src
  | dest
  deriving DecidableEq, Repr

instance : Fintype End := ⟨{.src, .dest}, fun e => by cases e <;> decide⟩

/-- Where the bytes of a connection go. -/
def End.other : End → End
  | .src => .dest
  | .dest => .src

/-- `acceptConnection(ctx, listener, bastion, socketURI)`: the error it returns
and what it does with the connections. `accept` is the error of
`listener.Accept`, `halfClose` whether the connection has a `CloseWrite`. The
error of a connection that has none wraps a nil error, and so is nil. -/
def acceptConnection {κ : Type} (accept : Option String) (halfClose : Bool) (w : World κ)
    (path host : String) : Option String × List (Use End) :=
  match accept with
  | some err => (some err, [])
  | none =>
      if halfClose then
        match (connectForward w path host).1 with
        | .error _ => (none, [.opens .src, .closes .src])
        | .ok _ => (none, [.opens .src, .opens .dest, .hands .src, .hands .dest])
      else (none, [.opens .src, .closes .src])

/-! ## The goroutines -/

/-- Where `forward(src, dest, complete)` is: in `io.Copy`, before the deferred
`complete.Done()`, or after it. -/
inductive ForwardPc where
  | copying
  | finishing
  | returned
  deriving DecidableEq, Repr

/-- Where the goroutine that closes the connections is. -/
inductive WaiterPc where
  | waiting
  | closeSrc
  | closeDest
  | returned
  deriving DecidableEq, Repr

/-- A call that closes a connection, or its writing side. -/
inductive CloseCall where
  | closeWrite (e : End)
  | close (e : End)
  deriving DecidableEq, Repr

/-- The goroutines of one accepted connection. `copies e` and `pc e` belong to
the `forward` that reads from `e`. -/
structure Tunnel where
  copies : End → Copy UInt8
  pc : End → ForwardPc
  waiter : WaiterPc
  /-- the counter of the wait group -/
  complete : Nat
  calls : List CloseCall

/-- The peers send `sent` before they end their streams. -/
def Tunnel.start (sent : End → List UInt8) : Tunnel :=
  ⟨fun e => Copy.start (sent e), fun _ => .copying, .waiting, 2, []⟩

inductive Event where
  /-- a read or a write of `io.Copy` returns -/
  | copy (e : End) (call : CopyEvent)
  /-- `dest.CloseWrite()` of the `forward` that reads from `e` -/
  | closeWrite (e : End)
  /-- `complete.Done()` -/
  | done (e : End)
  /-- `complete.Wait()` returns -/
  | wait
  | closeSrc
  | closeDest
  deriving DecidableEq, Repr

def Tunnel.step (t : Tunnel) : Event → Option Tunnel
  | .copy e call =>
      if t.pc e = .copying then
        ((t.copies e).step call).map fun c =>
          { t with copies := Function.update t.copies e c }
      else none
  | .closeWrite e =>
      if t.pc e = .copying ∧ (t.copies e).Returned then
        some { t with
          pc := Function.update t.pc e .finishing
          calls := t.calls ++ [.closeWrite e.other] }
      else none
  | .done e =>
      if t.pc e = .finishing then
        some { t with pc := Function.update t.pc e .returned, complete := t.complete - 1 }
      else none
  | .wait =>
      if t.waiter = .waiting ∧ t.complete = 0 then some { t with waiter := .closeSrc } else none
  | .closeSrc =>
      if t.waiter = .closeSrc then
        some { t with waiter := .closeDest, calls := t.calls ++ [.close .src] }
      else none
  | .closeDest =>
      if t.waiter = .closeDest then
        some { t with waiter := .returned, calls := t.calls ++ [.close .dest] }
      else none

end GvisorTapVsock.Sshclient
