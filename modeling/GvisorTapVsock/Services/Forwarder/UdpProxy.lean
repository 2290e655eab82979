/-
GvisorTapVsock.Services.Forwarder.UdpProxy — a UDP proxy as a system of
goroutines (`pkg/services/forwarder/udp_proxy.go`).

Three kinds of goroutine run over one `UDPProxy`: `Run`, one `replyLoop` for
each backend connection that was dialled, and any number of calls of `Close`.
A step is one operation on the lock, the table or a socket, and the step's MOVE
says how the operation ended: the datagram a read returned, the number of bytes
a write took, an error. A connection has the number of its dial.

The store into the table and the `go` statement after it are one step with the
return of the dial: they stand in one critical section and touch nothing else.
Read deadlines are not part of this state, so a read may fail at any time.

`dials`, `toBackend` and `toClient` record what has happened: for whom each
connection was dialled, and the calls of `Write` and `WriteTo` with what they
were given.
-/
import Mathlib.Logic.Function.Basic
import GvisorTapVsock.Lts.Run
import GvisorTapVsock.Go.Map
import GvisorTapVsock.Go.Net
import GvisorTapVsock.Go.Sync

namespace GvisorTapVsock.Services.Forwarder

open GvisorTapVsock.Go GvisorTapVsock.Lts

/-- `UDPBufSize`. -/
def udpBufSize : Nat := 65507

/-- `net.UDPAddr`, as the reads of a socket return it. -/
structure UDPAddr where
  ip : IP
  port : Nat
  zone : String
  length_eq : ip.length = 4 ∨ ip.length = 16
  deriving DecidableEq

/-- `connTrackKey`. -/
structure ConnTrackKey where
  ipHigh : UInt64
  ipLow : UInt64
  port : Nat
  deriving DecidableEq

/-- `newConnTrackKey(addr)`. -/
def newConnTrackKey (addr : UDPAddr) : ConnTrackKey :=
  if addr.ip.length = 4 then ⟨0, UInt64.ofNat (beNat addr.ip), addr.port⟩
  else
    ⟨UInt64.ofNat (beNat (addr.ip.take 8)), UInt64.ofNat (beNat (addr.ip.drop 8)), addr.port⟩

/-- A backend connection, by the number of its dial. -/
abbrev Backend := Nat

/-! ## Goroutines -/

inductive Goroutine where
  | run
  | replyLoop (c : Backend)
  | close (i : Nat)
  deriving DecidableEq

/-- Where `Run` is, with the datagram at hand and its sender. -/
inductive RunPc where
  /-- in `ReadFrom` -/
  | read
  | lock (data : List UInt8) (sender : UDPAddr)
  | lookup (data : List UInt8) (sender : UDPAddr)
  | dial (data : List UInt8) (sender : UDPAddr)
  /-- before the unlock; there is no connection after a failed dial -/
  | unlock (data : List UInt8) (sender : UDPAddr) (proxyConn : Option Backend)
  | write (data : List UInt8) (sender : UDPAddr) (proxyConn : Backend) (i : Nat)
  | ended
  deriving DecidableEq

/-- The head of the write loop of `Run`: the next write, or the next read. -/
def RunPc.writeFrom (data : List UInt8) (sender : UDPAddr) (proxyConn : Backend) (i : Nat) :
    RunPc :=
  if i = data.length then .read else .write data sender proxyConn i

/-- Where a `replyLoop` is; from `lock` on it is in its deferred function. -/
inductive ReplyPc where
  | read
  | write (data : List UInt8) (i : Nat)
  | lock
  | delete
  | unlock
  | close
  | ended
  deriving DecidableEq

/-- The head of the write loop of a `replyLoop`. -/
def ReplyPc.writeFrom (data : List UInt8) (i : Nat) : ReplyPc :=
  if i = data.length then .read else .write data i

/-- Whether the deferred function has yet to run its `delete`. -/
def ReplyPc.undeleted : ReplyPc → Bool
  | .read | .write _ _ | .lock | .delete => true
  | .unlock | .close | .ended => false

/-- A `replyLoop(proxyConn, clientAddr, clientKey)`. -/
structure ReplyLoop where
  clientAddr : UDPAddr
  clientKey : ConnTrackKey
  pc : ReplyPc
  deriving DecidableEq

/-- Where a call of `Close` is, with the keys its loop has yet to visit. -/
inductive ClosePc where
  | listener
  | lock
  | conns (rest : List ConnTrackKey)
  | returned
  deriving DecidableEq

/-! ## The proxy -/

/-- `proxyConn.Write(bytes)`, for a datagram of this sender. -/
structure Sent where
  proxyConn : Backend
  sender : UDPAddr
  bytes : List UInt8
  deriving DecidableEq

/-- `listener.WriteTo(bytes, clientAddr)`, for a datagram of this connection. -/
structure Replied where
  proxyConn : Backend
  clientAddr : UDPAddr
  bytes : List UInt8
  deriving DecidableEq

/-- `UDPProxy` with its goroutines and what they did. -/
structure UDPProxy where
  listenerClosed : Bool
  connTrackTable : GoMap ConnTrackKey Backend
  connTrackLock : Mutex Goroutine
  run : RunPc
  loops : Backend → Option ReplyLoop
  closers : Nat → ClosePc
  /-- the clients whose datagrams made `Run` dial, in order -/
  dials : List UDPAddr
  closed : List Backend
  toBackend : List Sent
  toClient : List Replied

namespace UDPProxy

/-- `NewUDPProxy`, and `go p.Run()`. -/
def start : UDPProxy where
  listenerClosed := false
  connTrackTable := ∅
  connTrackLock := .unlocked
  run := .read
  loops := fun _ => none
  closers := fun _ => .listener
  dials := []
  closed := []
  toBackend := []
  toClient := []

/-- The dialer returned a connection: `connTrackTable[*fromKey] = proxyConn`
and `go proxy.replyLoop(proxyConn, from, fromKey)`. -/
def dialled (s : UDPProxy) (data : List UInt8) (sender : UDPAddr) : UDPProxy :=
  { s with
    connTrackTable := s.connTrackTable.insert (newConnTrackKey sender) s.dials.length
    loops := Function.update s.loops s.dials.length
      (some ⟨sender, newConnTrackKey sender, .read⟩)
    dials := s.dials ++ [sender]
    run := .unlock data sender (some s.dials.length) }

inductive RunMove where
  | received (data : List UInt8) (sender : UDPAddr)
  | readFailed
  | lock
  | lookup
  | dialled
  | dialFailed
  | unlock
  | wrote (n : Nat)
  | writeFailed

/-- A step of `Run`. -/
def runStep (s : UDPProxy) (m : RunMove) : Option UDPProxy :=
  match s.run, m with
  | .read, .received data sender =>
      if s.listenerClosed = false ∧ data.length ≤ udpBufSize then
        some { s with run := .lock data sender }
      else none
  -- the listener is not closed here
  | .read, .readFailed => some { s with run := .ended }
  | .lock data sender, .lock =>
      (s.connTrackLock.lock .run).map (fun l =>
        { s with connTrackLock := l, run := .lookup data sender })
  | .lookup data sender, .lookup =>
      match s.connTrackTable.lookup (newConnTrackKey sender) with
      | some proxyConn => some { s with run := .unlock data sender (some proxyConn) }
      | none => some { s with run := .dial data sender }
  | .dial data sender, .dialled => some (s.dialled data sender)
  | .dial data sender, .dialFailed => some { s with run := .unlock data sender none }
  | .unlock _ _ none, .unlock =>
      some { s with connTrackLock := s.connTrackLock.unlock, run := .read }
  | .unlock data sender (some proxyConn), .unlock =>
      some { s with
        connTrackLock := s.connTrackLock.unlock
        run := .writeFrom data sender proxyConn 0 }
  | .write data sender proxyConn i, .wrote n =>
      if proxyConn ∉ s.closed ∧ i + n ≤ data.length then
        some { s with
          toBackend := s.toBackend ++ [⟨proxyConn, sender, data.drop i⟩]
          run := .writeFrom data sender proxyConn (i + n) }
      else none
  | .write data sender proxyConn i, .writeFailed =>
      some { s with
        toBackend := s.toBackend ++ [⟨proxyConn, sender, data.drop i⟩]
        run := .read }
  | _, _ => none

inductive ReplyMove where
  | read (data : List UInt8)
  /-- `ECONNREFUSED`: read again -/
  | refused
  | readFailed
  | wrote (n : Nat)
  | writeFailed
  | lock
  | delete
  | unlock
  | close

/-- A `replyLoop` goes on at another point. -/
def goto (s : UDPProxy) (c : Backend) (loop : ReplyLoop) (pc : ReplyPc) : UDPProxy :=
  { s with loops := Function.update s.loops c (some { loop with pc := pc }) }

/-- A step of the `replyLoop` of a connection. -/
def replyStep (s : UDPProxy) (c : Backend) (loop : ReplyLoop) (m : ReplyMove) : Option UDPProxy :=
  match loop.pc, m with
  | .read, .read data =>
      if c ∉ s.closed ∧ data.length ≤ udpBufSize then some (s.goto c loop (.writeFrom data 0))
      else none
  | .read, .refused => if c ∉ s.closed then some (s.goto c loop .read) else none
  | .read, .readFailed => some (s.goto c loop .lock)
  | .write data i, .wrote n =>
      if s.listenerClosed = false ∧ i + n ≤ data.length then
        some { s.goto c loop (.writeFrom data (i + n)) with
          toClient := s.toClient ++ [⟨c, loop.clientAddr, data.drop i⟩] }
      else none
  | .write data i, .writeFailed =>
      some { s.goto c loop .lock with
        toClient := s.toClient ++ [⟨c, loop.clientAddr, data.drop i⟩] }
  | .lock, .lock =>
      (s.connTrackLock.lock (.replyLoop c)).map (fun l =>
        { s.goto c loop .delete with connTrackLock := l })
  | .delete, .delete =>
      some { s.goto c loop .unlock with
        connTrackTable := s.connTrackTable.erase loop.clientKey }
  | .unlock, .unlock =>
      some { s.goto c loop .close with connTrackLock := s.connTrackLock.unlock }
  | .close, .close => some { s.goto c loop .ended with closed := c :: s.closed }
  | _, _ => none

inductive CloseMove where
  | listener
  /-- with the order in which the loop will range over the table -/
  | lock (order : List ConnTrackKey)
  | conn
  | unlock

/-- A step of a call of `Close`. -/
def closeStep (s : UDPProxy) (i : Nat) (m : CloseMove) : Option UDPProxy :=
  match s.closers i, m with
  | .listener, .listener =>
      some { s with listenerClosed := true, closers := Function.update s.closers i .lock }
  | .lock, .lock order =>
      if s.connTrackTable.RangeOrder order then
        (s.connTrackLock.lock (.close i)).map (fun l =>
          { s with connTrackLock := l, closers := Function.update s.closers i (.conns order) })
      else none
  | .conns (k :: rest), .conn =>
      some { s with
        closed := (s.connTrackTable.lookup k).toList ++ s.closed
        closers := Function.update s.closers i (.conns rest) }
  | .conns [], .unlock =>
      some { s with
        connTrackLock := s.connTrackLock.unlock
        closers := Function.update s.closers i .returned }
  | _, _ => none

inductive Event where
  | run (m : RunMove)
  | reply (c : Backend) (m : ReplyMove)
  | close (i : Nat) (m : CloseMove)

/-- A step of the proxy; `none` if it is not possible. -/
def step (s : UDPProxy) : Event → Option UDPProxy
  | .run m => s.runStep m
  | .reply c m =>
      match s.loops c with
      | none => none
      | some loop => s.replyStep c loop m
  | .close i m => s.closeStep i m

/-! ## What a step can do -/

section Steps

variable {s s' : UDPProxy} {c : Backend} {loop : ReplyLoop} {i : Nat}

/-- The steps of `Run`, a constructor for each branch. -/
inductive RunSteps (s : UDPProxy) : RunMove → UDPProxy → Prop where
  | received {data : List UInt8} {sender : UDPAddr} (hrun : s.run = .read)
      (hopen : s.listenerClosed = false) (hlen : data.length ≤ udpBufSize) :
      RunSteps s (.received data sender) { s with run := .lock data sender }
  | readFailed (hrun : s.run = .read) : RunSteps s .readFailed { s with run := .ended }
  | lock {data : List UInt8} {sender : UDPAddr} {l : Mutex Goroutine}
      (hrun : s.run = .lock data sender) (hlock : s.connTrackLock.lock .run = some l) :
      RunSteps s .lock { s with connTrackLock := l, run := .lookup data sender }
  | hit {data : List UInt8} {sender : UDPAddr} {proxyConn : Backend}
      (hrun : s.run = .lookup data sender)
      (hlookup : s.connTrackTable.lookup (newConnTrackKey sender) = some proxyConn) :
      RunSteps s .lookup { s with run := .unlock data sender (some proxyConn) }
  | miss {data : List UInt8} {sender : UDPAddr} (hrun : s.run = .lookup data sender)
      (hlookup : s.connTrackTable.lookup (newConnTrackKey sender) = none) :
      RunSteps s .lookup { s with run := .dial data sender }
  | dialled {data : List UInt8} {sender : UDPAddr} (hrun : s.run = .dial data sender) :
      RunSteps s .dialled (s.dialled data sender)
  | dialFailed {data : List UInt8} {sender : UDPAddr} (hrun : s.run = .dial data sender) :
      RunSteps s .dialFailed { s with run := .unlock data sender none }
  | unlockFailed {data : List UInt8} {sender : UDPAddr}
      (hrun : s.run = .unlock data sender none) :
      RunSteps s .unlock { s with connTrackLock := s.connTrackLock.unlock, run := .read }
  | unlock {data : List UInt8} {sender : UDPAddr} {proxyConn : Backend}
      (hrun : s.run = .unlock data sender (some proxyConn)) :
      RunSteps s .unlock { s with
        connTrackLock := s.connTrackLock.unlock
        run := .writeFrom data sender proxyConn 0 }
  | wrote {data : List UInt8} {sender : UDPAddr} {proxyConn : Backend} {i n : Nat}
      (hrun : s.run = .write data sender proxyConn i) (hopen : proxyConn ∉ s.closed)
      (hlen : i + n ≤ data.length) :
      RunSteps s (.wrote n) { s with
        toBackend := s.toBackend ++ [⟨proxyConn, sender, data.drop i⟩]
        run := .writeFrom data sender proxyConn (i + n) }
  | writeFailed {data : List UInt8} {sender : UDPAddr} {proxyConn : Backend} {i : Nat}
      (hrun : s.run = .write data sender proxyConn i) :
      RunSteps s .writeFailed { s with
        toBackend := s.toBackend ++ [⟨proxyConn, sender, data.drop i⟩]
        run := .read }

theorem runSteps_of_runStep {m : RunMove} (h : s.runStep m = some s') : RunSteps s m s' := by
  unfold runStep at h
  split at h
  · next hrun =>
    obtain ⟨⟨hopen, hlen⟩, hs⟩ := Option.ite_none_right_eq_some.mp h
    obtain rfl := Option.some.inj hs
    exact .received hrun hopen hlen
  · next hrun =>
    obtain rfl := Option.some.inj h
    exact .readFailed hrun
  · next hrun =>
    obtain ⟨l, hlock, rfl⟩ := Option.map_eq_some_iff.mp h
    exact .lock hrun hlock
  · next hrun =>
    split at h
    · next hlookup =>
      obtain rfl := Option.some.inj h
      exact .hit hrun hlookup
    · next hlookup =>
      obtain rfl := Option.some.inj h
      exact .miss hrun hlookup
  · next hrun =>
    obtain rfl := Option.some.inj h
    exact .dialled hrun
  · next hrun =>
    obtain rfl := Option.some.inj h
    exact .dialFailed hrun
  · next hrun =>
    obtain rfl := Option.some.inj h
    exact .unlockFailed hrun
  · next hrun =>
    obtain rfl := Option.some.inj h
    exact .unlock hrun
  · next hrun =>
    obtain ⟨⟨hopen, hlen⟩, hs⟩ := Option.ite_none_right_eq_some.mp h
    obtain rfl := Option.some.inj hs
    exact .wrote hrun hopen hlen
  · next hrun =>
    obtain rfl := Option.some.inj h
    exact .writeFailed hrun
  · simp at h

/-- The steps of the `replyLoop` of a connection, a constructor for each branch. -/
inductive ReplySteps (s : UDPProxy) (c : Backend) (loop : ReplyLoop) :
    ReplyMove → UDPProxy → Prop where
  | read {data : List UInt8} (hpc : loop.pc = .read) (hopen : c ∉ s.closed)
      (hlen : data.length ≤ udpBufSize) :
      ReplySteps s c loop (.read data) (s.goto c loop (.writeFrom data 0))
  | refused (hpc : loop.pc = .read) (hopen : c ∉ s.closed) :
      ReplySteps s c loop .refused (s.goto c loop .read)
  | readFailed (hpc : loop.pc = .read) :
      ReplySteps s c loop .readFailed (s.goto c loop .lock)
  | wrote {data : List UInt8} {i n : Nat} (hpc : loop.pc = .write data i)
      (hopen : s.listenerClosed = false) (hlen : i + n ≤ data.length) :
      ReplySteps s c loop (.wrote n) { s.goto c loop (.writeFrom data (i + n)) with
        toClient := s.toClient ++ [⟨c, loop.clientAddr, data.drop i⟩] }
  | writeFailed {data : List UInt8} {i : Nat} (hpc : loop.pc = .write data i) :
      ReplySteps s c loop .writeFailed { s.goto c loop .lock with
        toClient := s.toClient ++ [⟨c, loop.clientAddr, data.drop i⟩] }
  | lock {l : Mutex Goroutine} (hpc : loop.pc = .lock)
      (hlock : s.connTrackLock.lock (.replyLoop c) = some l) :
      ReplySteps s c loop .lock { s.goto c loop .delete with connTrackLock := l }
  | delete (hpc : loop.pc = .delete) :
      ReplySteps s c loop .delete { s.goto c loop .unlock with
        connTrackTable := s.connTrackTable.erase loop.clientKey }
  | unlock (hpc : loop.pc = .unlock) :
      ReplySteps s c loop .unlock { s.goto c loop .close with
        connTrackLock := s.connTrackLock.unlock }
  | close (hpc : loop.pc = .close) :
      ReplySteps s c loop .close { s.goto c loop .ended with closed := c :: s.closed }

theorem replySteps_of_replyStep {m : ReplyMove} (h : s.replyStep c loop m = some s') :
    ReplySteps s c loop m s' := by
  unfold replyStep at h
  split at h
  · next hpc =>
    obtain ⟨⟨hopen, hlen⟩, hs⟩ := Option.ite_none_right_eq_some.mp h
    obtain rfl := Option.some.inj hs
    exact .read hpc hopen hlen
  · next hpc =>
    obtain ⟨hopen, hs⟩ := Option.ite_none_right_eq_some.mp h
    obtain rfl := Option.some.inj hs
    exact .refused hpc hopen
  · next hpc =>
    obtain rfl := Option.some.inj h
    exact .readFailed hpc
  · next hpc =>
    obtain ⟨⟨hopen, hlen⟩, hs⟩ := Option.ite_none_right_eq_some.mp h
    obtain rfl := Option.some.inj hs
    exact .wrote hpc hopen hlen
  · next hpc =>
    obtain rfl := Option.some.inj h
    exact .writeFailed hpc
  · next hpc =>
    obtain ⟨l, hlock, rfl⟩ := Option.map_eq_some_iff.mp h
    exact .lock hpc hlock
  · next hpc =>
    obtain rfl := Option.some.inj h
    exact .delete hpc
  · next hpc =>
    obtain rfl := Option.some.inj h
    exact .unlock hpc
  · next hpc =>
    obtain rfl := Option.some.inj h
    exact .close hpc
  · simp at h

/-- The steps of a call of `Close`, a constructor for each branch. -/
inductive CloseSteps (s : UDPProxy) (i : Nat) : CloseMove → UDPProxy → Prop where
  | listener (hpc : s.closers i = .listener) :
      CloseSteps s i .listener
        { s with listenerClosed := true, closers := Function.update s.closers i .lock }
  | lock {order : List ConnTrackKey} {l : Mutex Goroutine} (hpc : s.closers i = .lock)
      (horder : s.connTrackTable.RangeOrder order)
      (hlock : s.connTrackLock.lock (.close i) = some l) :
      CloseSteps s i (.lock order)
        { s with connTrackLock := l, closers := Function.update s.closers i (.conns order) }
  | conn {k : ConnTrackKey} {rest : List ConnTrackKey} (hpc : s.closers i = .conns (k :: rest)) :
      CloseSteps s i .conn { s with
        closed := (s.connTrackTable.lookup k).toList ++ s.closed
        closers := Function.update s.closers i (.conns rest) }
  | unlock (hpc : s.closers i = .conns []) :
      CloseSteps s i .unlock { s with
        connTrackLock := s.connTrackLock.unlock
        closers := Function.update s.closers i .returned }

theorem closeSteps_of_closeStep {m : CloseMove} (h : s.closeStep i m = some s') :
    CloseSteps s i m s' := by
  unfold closeStep at h
  split at h
  · next hpc =>
    obtain rfl := Option.some.inj h
    exact .listener hpc
  · next hpc =>
    obtain ⟨horder, hs⟩ := Option.ite_none_right_eq_some.mp h
    obtain ⟨l, hlock, rfl⟩ := Option.map_eq_some_iff.mp hs
    exact .lock hpc horder hlock
  · next hpc =>
    obtain rfl := Option.some.inj h
    exact .conn hpc
  · next hpc =>
    obtain rfl := Option.some.inj h
    exact .unlock hpc
  · simp at h

/-- A `replyLoop` leaves `Run`, the dials and the listener as they are. -/
theorem replyStep_frame {m : ReplyMove} (h : s.replyStep c loop m = some s') :
    s'.run = s.run ∧ s'.dials = s.dials ∧ s'.listenerClosed = s.listenerClosed := by
  cases replySteps_of_replyStep h <;> exact ⟨rfl, rfl, rfl⟩

/-- `Close` leaves `Run` and the dials as they are. -/
theorem closeStep_frame {m : CloseMove} (h : s.closeStep i m = some s') :
    s'.run = s.run ∧ s'.dials = s.dials ∧
      (s.listenerClosed = true → s'.listenerClosed = true) := by
  cases closeSteps_of_closeStep h with
  | listener => exact ⟨rfl, rfl, fun _ => rfl⟩
  | lock | conn | unlock => exact ⟨rfl, rfl, id⟩

end Steps

/-- Every state of every run of a proxy. -/
abbrev Reachable (s : UDPProxy) : Prop := Reach step start s

/-- A connection that was dialled for a key. -/
def DialledFor (s : UDPProxy) (c : Backend) (k : ConnTrackKey) : Prop :=
  ∃ clientAddr, s.dials[c]? = some clientAddr ∧ newConnTrackKey clientAddr = k

/-- A connection whose `replyLoop` has yet to run its `delete`. -/
def Undeleted (s : UDPProxy) (c : Backend) : Prop :=
  ∃ loop, s.loops c = some loop ∧ loop.pc.undeleted = true

end UDPProxy

end GvisorTapVsock.Services.Forwarder
