/-
GvisorTapVsock.Tap.RxPath — the receive path of one connection
(`rxStream`, `rxNonStream`, `rxBuf` in `pkg/tap/switch.go`).

`rxBuf` is cut at the places where it touches shared state: it learns a
source address, hands the frame to `txPkt`, hands the payload to the
gateway. What each of these is given is computed here, from the frame's
slice alone, so the interleaving model of `Tap.Switch` and the sequential
one below use the same four functions.

The two loops take the receiver of a frame as an argument. `rxStream` gives
every frame a buffer of its own, `rxNonStream` reads all of them into ONE
buffer of 128 KiB and passes `buf[:n]`, whose capacity still reaches over
what earlier datagrams left there.
-/
import GvisorTapVsock.Go.Reader
import GvisorTapVsock.Tap.Protocols
import GvisorTapVsock.Tap.Ethernet

namespace GvisorTapVsock.Tap

open GvisorTapVsock.Go

/-! ## `rxBuf` -/

section RxBuf

variable (gateway : LinkAddress)

/-- `eth.DestinationAddress() != e.gateway.LinkAddress()`. -/
def isForwarded (buf : Slice UInt8) : Except Panic Bool :=
  (destinationAddress buf).map (fun dst => decide (dst ≠ gateway))

/-- The addresses `txPkt` reads from the packet it is given. -/
def txAddresses (pkt : List UInt8) : Except Panic (LinkAddress × LinkAddress) := do
  let dst ← destinationAddress (viewSlice pkt)
  let src ← sourceAddress (viewSlice pkt)
  return (dst, src)

/-- The second half of `rxBuf`: what is delivered to the gateway, if
anything. `TrimFront` stops at the end of a shorter buffer. -/
def handedUp (buf : Slice UInt8) : Except Panic (Option (Nat × List UInt8)) := do
  let dst ← destinationAddress buf
  if dst = gateway ∨ dst = ethernetBroadcastAddress then
    let type ← ethernetType buf
    return some (type, buf.toList.drop ethernetMinimumSize)
  else return none

/-- What one `rxBuf` call does to the rest of the program. -/
inductive RxEffect where
  | learn (src : LinkAddress)
  | tx (pkt : List UInt8) (dst src : LinkAddress)
  | deliver (type : Nat) (payload : List UInt8)
  deriving DecidableEq

/-- The effects of a call and the panic that ended it, if one did. -/
structure RxResult where
  effects : List RxEffect
  panic : Option Panic
  deriving DecidableEq

/-- Put an effect in front. -/
def RxResult.after (r : RxResult) (e : RxEffect) : RxResult := ⟨e :: r.effects, r.panic⟩

def rxHandUp (buf : Slice UInt8) : RxResult :=
  match handedUp gateway buf with
  | .error p => ⟨[], some p⟩
  | .ok none => ⟨[], none⟩
  | .ok (some (type, payload)) => ⟨[.deliver type payload], none⟩

def rxForward (buf : Slice UInt8) : RxResult :=
  match isForwarded gateway buf with
  | .error p => ⟨[], some p⟩
  | .ok false => rxHandUp gateway buf
  | .ok true =>
      match txAddresses buf.toList with
      | .error p => ⟨[], some p⟩
      | .ok (dst, src) => (rxHandUp gateway buf).after (.tx buf.toList dst src)

/-- `rxBuf`, without the writes `txPkt` makes on other connections. -/
def rxBuf (buf : Slice UInt8) : RxResult :=
  match sourceAddress buf with
  | .error p => ⟨[], some p⟩
  | .ok src => (rxForward gateway buf).after (.learn src)

end RxBuf

/-! ## The receive loops -/

/-- Why a receive loop ended. -/
inductive RxEnd where
  /-- "cannot read size from socket" -/
  | readSize
  /-- "cannot read packet from socket" -/
  | readPacket
  | panicked (p : Panic)
  deriving DecidableEq

/-- A loop that has ended: the receiver's state, the bytes of the stream that
no delivered frame holds, and the reason. -/
structure RxRun (σ : Type) where
  state : σ
  rest : List UInt8
  reason : RxEnd

/-- The receiver of a frame: `rxBuf` as the loops see it. -/
abbrev Receiver (σ : Type) := σ → Slice UInt8 → σ × Option Panic

/-- `rxStream`, until the first read error or panic. -/
def rxStream {σ : Type} (p : StreamProtocol) (recv : Receiver σ) (reader : Reader)
    (st : σ) : RxRun σ :=
  match _hsize : reader.readFull p.buf.length with
  | none => ⟨st, reader.content, .readSize⟩
  | some (sizeBuf, afterSize) =>
      -- buf := make([]byte, size)
      match _hbuf : afterSize.readFull (p.read sizeBuf) with
      | none => ⟨st, reader.content, .readPacket⟩
      | some (buf, afterBuf) =>
          match recv st (Slice.exact buf) with
          | (st', some panic) => ⟨st', afterBuf.content, .panicked panic⟩
          | (st', none) => rxStream p recv afterBuf st'
termination_by reader.content.length
decreasing_by
  obtain ⟨hle, -, hrest⟩ := Reader.readFull_eq_some _hsize
  obtain ⟨-, -, hrest'⟩ := Reader.readFull_eq_some _hbuf
  have hpos := p.format.width_pos
  simp only [StreamProtocol.format] at hpos
  rw [hrest', hrest, List.length_drop, List.length_drop]
  omega

/-- The size of the buffer `rxNonStream` allocates. -/
def bufSize : Nat := 1024 * 128

/-- `conn.Read(buf)` on a message: the bytes that fit overwrite the front of
`buf`. On a `SOCK_SEQPACKET` socket, bess, a read of no bytes is the end of
the connection. -/
def readMessage (p : ProtocolImpl) (buf msg : List UInt8) : Option (Slice UInt8) :=
  if p = .bessProtocol ∧ msg = [] then none
  else some (Slice.withSpare (msg.take buf.length) (buf.drop msg.length))

/-- `rxNonStream` from a given content of its buffer. -/
def rxNonStreamFrom {σ : Type} (p : ProtocolImpl) (recv : Receiver σ) (buf : List UInt8) :
    List (List UInt8) → σ → RxRun σ
  | [], st => ⟨st, [], .readSize⟩
  | msg :: msgs, st =>
      match readMessage p buf msg with
      | none => ⟨st, [], .readSize⟩
      | some b =>
          match recv st b with
          | (st', some panic) => ⟨st', [], .panicked panic⟩
          | (st', none) => rxNonStreamFrom p recv b.mem msgs st'

/-- `rxNonStream`: the buffer starts zeroed. -/
def rxNonStream {σ : Type} (p : ProtocolImpl) (recv : Receiver σ)
    (msgs : List (List UInt8)) (st : σ) : RxRun σ :=
  rxNonStreamFrom p recv (List.replicate bufSize 0) msgs st

/-- `rx`. What a peer sends is a list of pieces; a stream socket forgets where
they were cut, a message socket delivers them one by one. -/
def rx {σ : Type} (p : ProtocolImpl) (recv : Receiver σ) (sends : List (List UInt8))
    (st : σ) : RxRun σ :=
  match p.streamProtocol? with
  | some sp => rxStream sp recv (Reader.newReader sends) st
  | none => rxNonStream p recv sends st

/-- The frames the pieces hold under the protocol. -/
def sentFrames (p : ProtocolImpl) (sends : List (List UInt8)) : List (List UInt8) :=
  match p.streamProtocol? with
  | some sp => (sp.format.decodeAll sends.flatten).1
  | none =>
      (sends.takeWhile (fun msg => ¬ (p = .bessProtocol ∧ msg = []))).map (List.take bufSize)

end GvisorTapVsock.Tap
