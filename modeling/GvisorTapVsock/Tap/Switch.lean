/-
GvisorTapVsock.Tap.Switch — the switch as a system of goroutines
(`pkg/tap/switch.go`).

A state holds the `Switch` value, the program counter of every goroutine and
the log of what has happened. A step is taken by one goroutine: a lock
operation, one access to shared data, one read or write on a socket, or a
branch. What the code leaves open is the step's CHOICE: which call a goroutine
starts, what a peer sends, how a write ends, in which order a `range` visits a
map.

  * `next` is control flow: from a program counter and a choice to the next
    program counter and the ACTION taken on the way;
  * `Switch.apply` is the effect of an action on the shared `Switch`;
  * every action goes to the log, so a property of whole runs is a property
    of the logs of reachable states.

A frame is named by its KEY, the position in the log of the action that
brought it in (`recv` on a connection, `send` from the gateway).

A run here goes up to a panic: no step follows the first one, so what is proved
of every reachable state is proved up to it. What follows a panic, the deferred
unlocks and the caller that recovers from it, is in `Tap.SwitchLocks`.
-/
import GvisorTapVsock.Lts.Run
import GvisorTapVsock.Go.Sync
import GvisorTapVsock.Go.Map
import GvisorTapVsock.Tap.RxPath
import Mathlib.Logic.Function.Basic
import Mathlib.Data.List.Perm.Basic

namespace GvisorTapVsock.Tap

open GvisorTapVsock.Go GvisorTapVsock.Lts

abbrev ConnId := Nat

abbrev Goroutine := Nat

abbrev FrameKey := Nat

/-! ## Actions -/

/-- How `conn.Write` ended: an error comes with the number of bytes that were
written all the same. -/
inductive WriteResult where
  | ok
  | err (n : Nat)
  deriving DecidableEq, Repr

/-- What reached the socket of `bytes`. -/
def WriteResult.sent (bytes : List UInt8) : WriteResult → List UInt8
  | .ok => bytes
  | .err n => bytes.take n

/-- No write reports more bytes than it was given. -/
def WriteResult.fits (bytes : List UInt8) : WriteResult → Bool
  | .ok => true
  | .err n => decide (n ≤ bytes.length)

/-- What one step does to the rest of the system. -/
inductive Action where
  | tau
  | lockWrite
  | lockConn
  | lockCam
  | rlockCam
  | runlockCam
  /-- `connect` returned this id. -/
  | connect (id : ConnId) (impl : ProtocolImpl)
  /-- The rx loop of a connection has read a frame. -/
  | recv (id : ConnId) (frame : List UInt8)
  /-- The gateway calls `DeliverNetworkPacket`. -/
  | send (pkt : List UInt8)
  | learn (id : ConnId) (src : LinkAddress)
  /-- `txPkt` looks an address up: the keys `e.conns` has and what `e.cam` says. -/
  | lookup (key : FrameKey) (conns : List ConnId) (hit : Option ConnId)
  /-- `conn.Write` in `txBuf`. -/
  | write (key : FrameKey) (id : ConnId) (impl : ProtocolImpl) (pkt : List UInt8)
      (res : WriteResult)
  | addSent (size : Nat)
  | disconnect (id : ConnId)
  | txReturn (key : FrameKey)
  /-- The gateway's `DeliverNetworkPacket` is called. -/
  | deliver (key : FrameKey) (type : Nat) (payload : List UInt8)
  | received (key : FrameKey) (size : Nat)
  | acceptReturn (id : ConnId)
  | panic (p : Panic)
  deriving DecidableEq

/-! ## The shared value -/

/-- The fields of `Switch` the code changes. A `protocolConn` is its protocol:
the socket is named by the id. -/
structure Switch where
  sent : UInt64
  received : UInt64
  nextConnID : ConnId
  conns : GoMap ConnId ProtocolImpl
  connLock : Mutex Goroutine
  cam : GoMap LinkAddress ConnId
  camLock : RWMutex Goroutine
  writeLock : Mutex Goroutine

namespace Switch

/-- `NewSwitch`. -/
def new : Switch where
  sent := 0
  received := 0
  nextConnID := 0
  conns := ∅
  connLock := .unlocked
  cam := ∅
  camLock := .unlocked
  writeLock := .unlocked

/-- `connect`, up to its deferred unlock. -/
def connect (sw : Switch) (id : ConnId) (impl : ProtocolImpl) : Switch :=
  { sw with nextConnID := sw.nextConnID + 1, conns := sw.conns.insert id impl }

/-- `e.cam[src] = id`. -/
def learn (sw : Switch) (id : ConnId) (src : LinkAddress) : Switch :=
  { sw with cam := sw.cam.insert src id }

/-- `disconnect`, between its lock operations. -/
def disconnect (sw : Switch) (id : ConnId) : Switch :=
  { sw with
    cam := GoMap.rangeDelete (fun _ targetConn => decide (targetConn = id)) sw.cam sw.cam.keys
    conns := sw.conns.erase id }

/-- The effect of an action of goroutine `t`; `none` when a lock is not free. -/
def apply (sw : Switch) (t : Goroutine) : Action → Option Switch
  | .lockWrite => (sw.writeLock.lock t).map (fun l => { sw with writeLock := l })
  | .lockConn => (sw.connLock.lock t).map (fun l => { sw with connLock := l })
  | .lockCam => (sw.camLock.lock t).map (fun l => { sw with camLock := l })
  | .rlockCam => (sw.camLock.rlock t).map (fun l => { sw with camLock := l })
  | .runlockCam => some { sw with camLock := sw.camLock.runlock t }
  | .connect id impl => some { sw.connect id impl with connLock := sw.connLock.unlock }
  | .learn id src => some { sw.learn id src with camLock := sw.camLock.unlock }
  | .lookup _ _ _ => some { sw with camLock := sw.camLock.runlock t }
  | .addSent size => some { sw with sent := sw.sent + UInt64.ofNat size }
  | .disconnect id => some { sw.disconnect id with camLock := sw.camLock.unlock }
  -- the deferred unlocks of `txPkt`; neither blocks
  | .txReturn _ => some { sw with
      connLock := sw.connLock.unlock, writeLock := sw.writeLock.unlock }
  | .received _ size => some { sw with received := sw.received + UInt64.ofNat size }
  | .acceptReturn _ => some { sw with connLock := sw.connLock.unlock }
  | .tau | .recv _ _ | .send _ | .write _ _ _ _ _ | .deliver _ _ _ | .panic _ => some sw

end Switch

/-! ## Program counters -/

/-- A call of `rxBuf`: the connection and its protocol, the frame and its key. -/
structure RxCall where
  id : ConnId
  impl : ProtocolImpl
  key : FrameKey
  buf : Slice UInt8

/-- A call of `txPkt`, by who made it: `rxBuf`; the gateway, while it handles a
frame `rxBuf` gave it; another goroutine of the gateway's stack. -/
inductive Tx where
  | rxBuf (r : RxCall)
  | gateway (r : RxCall) (key : FrameKey) (pkt : List UInt8)
  | stack (key : FrameKey) (pkt : List UInt8)

namespace Tx

def key : Tx → FrameKey
  | rxBuf r => r.key
  | gateway _ key _ => key
  | stack key _ => key

/-- The packet, as bytes. -/
def pkt : Tx → List UInt8
  | rxBuf r => r.buf.toList
  | gateway _ _ pkt => pkt
  | stack _ pkt => pkt

end Tx

/-- Inside `txPkt`. Where a lock is named the goroutine is about to take it. -/
inductive TxPc where
  | writeLock
  | connLock
  | parse
  | camRLock (dst src : LinkAddress)
  | lookup (dst src : LinkAddress)
  /-- `for id, conn := range e.conns`, with the keys still to visit. -/
  | range (srcID : Int) (rest : List ConnId)
  | unicast (id : ConnId)
  | sentRange (srcID : Int) (rest : List ConnId)
  | sentUnicast
  /-- `disconnect` after a failed write. -/
  | camLock (id : ConnId)
  | disconnect (id : ConnId)
  | unlock

/-- Where a goroutine is. -/
inductive Pc where
  | idle
  | connectLock (impl : ProtocolImpl)
  | connect (impl : ProtocolImpl)
  | rxRead (id : ConnId) (impl : ProtocolImpl)
  | learnLock (r : RxCall)
  | learn (r : RxCall)
  | forward (r : RxCall)
  | tx (x : Tx) (pc : TxPc)
  | handUp (r : RxCall)
  | inGateway (r : RxCall)
  | count (r : RxCall)
  /-- The deferred call of `Accept`. -/
  | exitConnLock (id : ConnId)
  | exitCamLock (id : ConnId)
  | exitDisconnect (id : ConnId)
  | exitUnlock (id : ConnId)
  /-- `CAM()`. -/
  | camRLock
  | camRead

/-- Where `txPkt` returns to. -/
def Tx.ret : Tx → Pc
  | .rxBuf r => .handUp r
  | .gateway r _ _ => .inGateway r
  | .stack _ _ => .idle

/-- What the code does not decide. -/
inductive Choice where
  | go
  | accept (protocol : Protocol)
  | send (pkt : List UInt8)
  | cam
  | recv (buf : Slice UInt8)
  /-- A read error, or `ctx.Done()`. -/
  | stop
  | order (ids : List ConnId)
  | write (res : WriteResult)

structure Event where
  goroutine : Goroutine
  choice : Choice

structure State where
  sw : Switch
  pc : Goroutine → Pc
  log : List Action

namespace State

def init : State := ⟨Switch.new, fun _ => .idle, []⟩

/-- The panic that ended the process. -/
def panicked (s : State) : Option Panic :=
  match s.log.getLast? with
  | some (.panic p) => some p
  | _ => none

/-- Whether the rx loop of a connection can read this frame. `rxStream`
allocates its buffer and may find the frame in its `bufio.Reader` although the
socket is closed; `rxNonStream` reads into its one buffer from the socket. -/
def canReceive (s : State) (id : ConnId) (impl : ProtocolImpl) (buf : Slice UInt8) : Bool :=
  match impl.streamProtocol? with
  | some sp => decide (buf.cap = buf.len ∧ sp.format.Fits buf.toList)
  | none => decide (buf.cap = bufSize ∧ ¬ (impl = .bessProtocol ∧ buf.len = 0) ∧
      .disconnect id ∉ s.log)

end State

/-! ## Control flow -/

/-- `srcID`, with `-1` for an unknown source. -/
def srcID : Option ConnId → Int
  | some id => id
  | none => -1

/-- The write of `txBuf`, from the branch of `txPkt` that continues at `sent`. -/
def nextWrite (x : Tx) (id : ConnId) (impl : ProtocolImpl) (sent : TxPc) :
    Choice → Option (Pc × Action)
  | .write res =>
      if res.fits (txBufBytes impl x.pkt) then
        match res with
        | .ok => some (.tx x sent, .write x.key id impl x.pkt .ok)
        | .err n => some (.tx x (.camLock id), .write x.key id impl x.pkt (.err n))
      else none
  | _ => none

/-- One step inside `txPkt`. -/
def nextTx (sw : Switch) (x : Tx) : TxPc → Choice → Option (Pc × Action)
  | .writeLock, .go => some (.tx x .connLock, .lockWrite)
  | .connLock, .go => some (.tx x .parse, .lockConn)
  | .parse, .go =>
      match txAddresses x.pkt with
      | .error p => some (.tx x .parse, .panic p)
      | .ok (dst, src) => some (.tx x (.camRLock dst src), .tau)
  | .camRLock dst src, .go => some (.tx x (.lookup dst src), .rlockCam)
  | .lookup dst src, .order ids =>
      if dst = ethernetBroadcastAddress ∧ ids.Perm sw.conns.keys then
        some (.tx x (.range (srcID (sw.cam.lookup src)) ids),
          .lookup x.key sw.conns.keys (sw.cam.lookup src))
      else none
  | .lookup dst _, .go =>
      if dst = ethernetBroadcastAddress then none
      else
        match sw.cam.lookup dst with
        | none => some (.tx x .unlock, .lookup x.key sw.conns.keys none)
        | some id => some (.tx x (.unicast id), .lookup x.key sw.conns.keys (some id))
  | .range _ [], .go => some (.tx x .unlock, .tau)
  | .range srcID (id :: rest), ch =>
      match sw.conns.lookup id, ch with
      -- an entry that is gone is not visited
      | none, .go => some (.tx x (.range srcID rest), .tau)
      | none, _ => none
      | some impl, ch =>
          if (id : Int) = srcID then
            match ch with
            | .go => some (.tx x (.range srcID rest), .tau)
            | _ => none
          else nextWrite x id impl (.sentRange srcID rest) ch
  | .unicast id, ch =>
      match sw.conns.lookup id, ch with
      -- the zero `protocolConn`, whose `protocolImpl` is nil
      | none, .go => some (.tx x (.unicast id), .panic .nilDereference)
      | none, _ => none
      | some impl, ch => nextWrite x id impl .sentUnicast ch
  | .sentRange srcID rest, .go => some (.tx x (.range srcID rest), .addSent x.pkt.length)
  | .sentUnicast, .go => some (.tx x .unlock, .addSent x.pkt.length)
  | .camLock id, .go => some (.tx x (.disconnect id), .lockCam)
  | .disconnect id, .go => some (.tx x .unlock, .disconnect id)
  | .unlock, .go => some (x.ret, .txReturn x.key)
  | _, _ => none

section Step

variable (gateway : LinkAddress)

/-- One step of a goroutine. -/
def next (s : State) : Pc → Choice → Option (Pc × Action)
  | .idle, .accept protocol => some (.connectLock (protocolImplementation protocol), .tau)
  -- the gateway pushes a link header in front of every packet
  | .idle, .send pkt =>
      if ethernetMinimumSize ≤ pkt.length then
        some (.tx (.stack s.log.length pkt) .writeLock, .send pkt)
      else none
  | .idle, .cam => some (.camRLock, .tau)
  | .connectLock impl, .go => some (.connect impl, .lockConn)
  | .connect impl, .go =>
      some (.rxRead s.sw.nextConnID impl, .connect s.sw.nextConnID impl)
  | .rxRead id impl, .recv buf =>
      if s.canReceive id impl buf then
        some (.learnLock ⟨id, impl, s.log.length, buf⟩, .recv id buf.toList)
      else none
  | .rxRead id _, .stop => some (.exitConnLock id, .tau)
  | .learnLock r, .go => some (.learn r, .lockCam)
  | .learn r, .go =>
      match sourceAddress r.buf with
      | .error p => some (.learn r, .panic p)
      | .ok src => some (.forward r, .learn r.id src)
  | .forward r, .go =>
      match isForwarded gateway r.buf with
      | .error p => some (.forward r, .panic p)
      | .ok true => some (.tx (.rxBuf r) .writeLock, .tau)
      | .ok false => some (.handUp r, .tau)
  | .tx x pc, ch => nextTx s.sw x pc ch
  | .handUp r, .go =>
      match handedUp gateway r.buf with
      | .error p => some (.handUp r, .panic p)
      | .ok none => some (.count r, .tau)
      | .ok (some (type, payload)) => some (.inGateway r, .deliver r.key type payload)
  -- the stack may answer on the goroutine that delivers to it
  | .inGateway r, .send pkt =>
      if ethernetMinimumSize ≤ pkt.length then
        some (.tx (.gateway r s.log.length pkt) .writeLock, .send pkt)
      else none
  | .inGateway r, .go => some (.count r, .tau)
  | .count r, .go => some (.rxRead r.id r.impl, .received r.key r.buf.len)
  | .exitConnLock id, .go => some (.exitCamLock id, .lockConn)
  | .exitCamLock id, .go => some (.exitDisconnect id, .lockCam)
  | .exitDisconnect id, .go => some (.exitUnlock id, .disconnect id)
  | .exitUnlock id, .go => some (.idle, .acceptReturn id)
  | .camRLock, .go => some (.camRead, .rlockCam)
  | .camRead, .go => some (.idle, .runlockCam)
  | _, _ => none

/-- The action an event stands for in a state. -/
def State.action (s : State) (e : Event) : Option Action :=
  (next gateway s (s.pc e.goroutine) e.choice).map Prod.snd

/-- The step of the system. -/
def step (s : State) (e : Event) : Option State :=
  match s.panicked, next gateway s (s.pc e.goroutine) e.choice with
  | none, some (pc, a) =>
      (s.sw.apply e.goroutine a).map (fun sw =>
        ⟨sw, Function.update s.pc e.goroutine pc, s.log ++ [a]⟩)
  | _, _ => none

/-- A run whose actions all meet a condition on the state before them. -/
abbrev Runs (ok : State → Action → Prop) (s s' : State) : Prop :=
  Run (step gateway) (fun s e => ∀ a ∈ s.action gateway e, ok s a) s s'

/-- Every state of every run of the switch. -/
abbrev Reachable (s : State) : Prop := Reach (step gateway) State.init s

end Step

/-! ## Scripts of runs -/

/-- `GatewayMacAddress` of gvproxy. -/
def gatewayMacAddress : LinkAddress := [0x5a, 0x94, 0xef, 0xe4, 0x0c, 0xdd]

/-- The address gvforwarder gives its tap device. -/
def tapMacAddress : LinkAddress := [0x5a, 0x94, 0xef, 0xe4, 0x0c, 0xee]

/-- Steps that leave no choice. -/
def goes (t : Goroutine) (n : Nat) : List Event := List.replicate n ⟨t, .go⟩

/-- A goroutine accepts a connection and enters its rx loop. -/
def accepts (t : Goroutine) (protocol : Protocol) : List Event :=
  ⟨t, .accept protocol⟩ :: goes t 2

/-- A goroutine has read a frame from its stream. -/
def receives (t : Goroutine) (frame : List UInt8) : Event := ⟨t, .recv (Slice.exact frame)⟩

/-- A script that was executed is a run of the switch. -/
theorem runs_of_exec (ok : State → Action → Prop) [∀ s a, Decidable (ok s a)]
    (P : State → Prop) [DecidablePred P] (es : List Event)
    (h : (exec (step gatewayMacAddress)
      (fun s e => ∀ a ∈ s.action gatewayMacAddress e, ok s a) State.init es).any
        (fun s => decide (P s)) = true) :
    ∃ s, Runs gatewayMacAddress ok State.init s ∧ P s :=
  run_of_exec es State.init h

theorem reachable_of_exec (P : State → Prop) [DecidablePred P] (es : List Event)
    (h : (exec (step gatewayMacAddress) (fun _ _ => True) State.init es).any
      (fun s => decide (P s)) = true) :
    ∃ s, Reachable gatewayMacAddress s ∧ P s :=
  run_of_exec es State.init h

end GvisorTapVsock.Tap
