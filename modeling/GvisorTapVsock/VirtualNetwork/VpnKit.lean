/-
GvisorTapVsock.VirtualNetwork.VpnKit — the handshake with a vpnkit client and
what `AcceptVpnKit` does after it (`pkg/virtualnetwork/vpnkit.go`).

The connection is read without a buffer: `io.ReadFull` takes what it asks for
and the rest stays in the socket. So the `Reader` of a `Client` is the socket
itself, and `Accept` starts to read where the handshake stopped. A write that
fails may have sent a part of its bytes.

The handshake returns its first error, and `AcceptVpnKit` logs it.
-/
import GvisorTapVsock.Go.Map
import GvisorTapVsock.Go.Net
import GvisorTapVsock.VirtualNetwork.Connect

namespace GvisorTapVsock.VirtualNetwork

open GvisorTapVsock.Go
open GvisorTapVsock.Tap

/-! ## The connection -/

/-- How a `conn.Write` ends: nothing on success, otherwise how many bytes were
sent and the error. -/
abbrev WriteOutcome := Option (Nat × String)

/-- The connection of a client: what can still be read, what was written so
far, and how the writes to come will end (well, after the last one given). -/
structure Client where
  reader : Reader
  written : List UInt8
  outcomes : List WriteOutcome
  deriving DecidableEq

namespace Client

/-- A connection on which nothing has happened yet. -/
def new (reads : Conn) (outcomes : List WriteOutcome) : Client :=
  ⟨Reader.newReader reads, [], outcomes⟩

/-- `io.ReadFull(conn, buf)` for a buffer of `n` bytes. A read that falls short
has taken all there was. -/
def readFull (conn : Client) (n : Nat) : Option (List UInt8) × Client :=
  match conn.reader.readFull n with
  | none => (none, { conn with reader := Reader.newReader [] })
  | some (buf, reader) => (some buf, { conn with reader })

/-- `conn.Write(b)`, with its error. -/
def write (conn : Client) (b : List UInt8) : Option String × Client :=
  match conn.outcomes.getD 0 none with
  | none => (none, { conn with written := conn.written ++ b, outcomes := conn.outcomes.drop 1 })
  | some (n, err) =>
      (some err,
        { conn with written := conn.written ++ b.take n, outcomes := conn.outcomes.drop 1 })

/-- The connection as the next reader finds it. -/
def rest (conn : Client) : Conn := conn.reader.buffered :: conn.reader.reads

end Client

/-! ## The handshake -/

/-- The parts of `types.Configuration` the handshake reads. A Go string is its
bytes: the UUID of a client is looked up as it was sent. -/
structure VpnKitConfiguration where
  mtu : Int
  vpnKitUUIDMacAddresses : GoMap (List UInt8) String

/-- Why the handshake failed. -/
inductive HandshakeError where
  /-- an error of `io.ReadFull` -/
  | readFull
  | write (err : String)
  /-- "address …: invalid MAC address" -/
  | parseMAC (mac : String)
  /-- an error of `rand.Read` -/
  | rand (err : String)
  deriving DecidableEq

/-- `copy(dst, src)`, as the new contents of `dst`. -/
def copy (dst src : List UInt8) : List UInt8 := src.take dst.length ++ dst.drop src.length

/-- What `randomMac` makes of the first of its six random bytes. -/
def localUnicast (b : UInt8) : UInt8 :=
  -- set the local bit, clear the multicast bit
  (b ||| 2) &&& 0xFE

/-- `randomMac()`, given what `rand.Read` fills the buffer with. -/
def randomMac (rand : Except String (Vector UInt8 6)) : Except HandshakeError HardwareAddr :=
  match rand with
  | .error err => .error (.rand err)
  | .ok buf => .ok (buf.toList.modify 0 localUnicast)

/-- `macAddr(configuration, vpnkitUUID)`. -/
def macAddr (c : VpnKitConfiguration) (rand : Except String (Vector UInt8 6))
    (vpnkitUUID : List UInt8) : Except HandshakeError HardwareAddr :=
  match c.vpnKitUUIDMacAddresses.lookup vpnkitUUID with
  | none => randomMac rand
  | some macStr =>
      match parseMAC macStr with
      | none => .error (.parseMAC macStr)
      | some mac => .ok mac

/-- `resp`: 258 bytes of which the first eleven are set. -/
def resp (mtu : Int) (mac : HardwareAddr) : List UInt8 :=
  let mtu := (mtu % 65536).toNat
  [0x01] ++ leBytes 2 mtu ++ leBytes 2 ((mtu + ethernetMinimumSize) % 65536) ++
    copy (List.replicate 6 0) mac ++ List.replicate 247 0

/-- The second half of `vpnkitHandshake`: the command of the client and the
reply to it. -/
def vpnkitCommand (c : VpnKitConfiguration) (rand : Except String (Vector UInt8 6))
    (conn : Client) : Option HandshakeError × Client :=
  match conn.readFull 41 with
  | (none, conn) => (some .readFull, conn)
  | (some msgCommand, conn) =>
      match macAddr c rand ((msgCommand.take 37).drop 1) with
      | .error err => (some err, conn)
      | .ok mac =>
          match conn.write (resp c.mtu mac) with
          | (some err, conn) => (some (.write err), conn)
          | (none, conn) => (none, conn)

/-- `vpnkitHandshake(conn, configuration)`: its error, and the connection after
it. -/
def vpnkitHandshake (c : VpnKitConfiguration) (rand : Except String (Vector UInt8 6))
    (conn : Client) : Option HandshakeError × Client :=
  match conn.readFull 49 with
  | (none, conn) => (some .readFull, conn)
  | (some msgInit, conn) =>
      match conn.write msgInit with
      | (some err, conn) => (some (.write err), conn)
      | (none, conn) => vpnkitCommand c rand conn

/-- What `AcceptVpnKit` did: the error it logged, what the client was sent, and
the connection and protocol it called `Accept` with. -/
structure Accepted where
  logged : Option HandshakeError
  written : List UInt8
  accept : Option (Conn × Protocol)
  deriving DecidableEq

/-- `n.AcceptVpnKit(conn)`. `Accept` registers the connection before it reads
the first frame. -/
def acceptVpnKit (c : VpnKitConfiguration) (rand : Except String (Vector UInt8 6))
    (conn : Client) : Accepted :=
  match vpnkitHandshake c rand conn with
  -- an error is logged, and the connection is accepted all the same
  | (err, conn) => ⟨err, conn.written, some (conn.rest, .hyperKitProtocol)⟩

end GvisorTapVsock.VirtualNetwork
