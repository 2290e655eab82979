/-
GvisorTapVsock.Tap.Protocols — the connection protocols of the switch
(`pkg/tap/protocols.go`, `types.Protocol`) and the bytes `txBuf` writes for a
frame.

Two of the four implementations are stream protocols: a frame travels behind
a size header, 16 bits little endian for hyperkit, 32 bits big endian for
qemu. The other two carry one frame a datagram. The Go code learns which it
holds from `Stream()` and asserts the type `streamProtocol` where that is true;
both are `streamProtocol?` here.
-/
import GvisorTapVsock.Go.Binary
import GvisorTapVsock.Go.LengthPrefix

namespace GvisorTapVsock.Tap

open GvisorTapVsock.Go

/-- `types.Protocol`, the constants of `configuration.go`. -/
inductive Protocol where
  | hyperKitProtocol
  | qemuProtocol
  | bessProtocol
  | stdioProtocol
  | vfkitProtocol
  deriving DecidableEq, Repr

/-- The implementations of the `protocol` interface. -/
inductive ProtocolImpl where
  | hyperkitProtocol
  | qemuProtocol
  | bessProtocol
  | vfkitProtocol
  deriving DecidableEq, Repr

/-- The implementations of the `streamProtocol` interface. -/
inductive StreamProtocol where
  | hyperkitProtocol
  | qemuProtocol
  deriving DecidableEq, Repr

/-- `protocolImplementation`: everything but the three named ones, stdio
included, speaks the hyperkit framing. -/
def protocolImplementation : Protocol → ProtocolImpl
  | .qemuProtocol => .qemuProtocol
  | .bessProtocol => .bessProtocol
  | .vfkitProtocol => .vfkitProtocol
  | _ => .hyperkitProtocol

/-- `Stream()`, and `conn.protocolImpl.(streamProtocol)` where it is true. -/
def ProtocolImpl.streamProtocol? : ProtocolImpl → Option StreamProtocol
  | .hyperkitProtocol => some .hyperkitProtocol
  | .qemuProtocol => some .qemuProtocol
  | .bessProtocol => none
  | .vfkitProtocol => none

/-- The conversion `uint16(size)`. -/
def uint16 (size : Nat) : Nat := size % 2 ^ 16

/-- The conversion `uint32(size)`. -/
def uint32 (size : Nat) : Nat := size % 2 ^ 32

namespace StreamProtocol

/-- `Buf()`: a zeroed size header. -/
def buf : StreamProtocol → List UInt8
  | .hyperkitProtocol => List.replicate 2 0
  | .qemuProtocol => List.replicate 4 0

/-- `Write(buf, size)`: `PutUint16` and `PutUint32` overwrite the first bytes
of `buf`. -/
def write : StreamProtocol → List UInt8 → Nat → List UInt8
  | .hyperkitProtocol, buf, size => leBytes 2 (uint16 size) ++ buf.drop 2
  | .qemuProtocol, buf, size => beBytes 4 (uint32 size) ++ buf.drop 4

/-- `Read(buf)`. -/
def read : StreamProtocol → List UInt8 → Nat
  | .hyperkitProtocol, buf => leNat (buf.take 2)
  | .qemuProtocol, buf => beNat (buf.take 4)

end StreamProtocol

/-- The argument of `conn.Write` in `txBuf`. -/
def txBufBytes (p : ProtocolImpl) (buf : List UInt8) : List UInt8 :=
  match p.streamProtocol? with
  | some sp => sp.write sp.buf buf.length ++ buf
  | none => buf

namespace StreamProtocol

@[simp] theorem length_buf (p : StreamProtocol) :
    p.buf.length = match p with | .hyperkitProtocol => 2 | .qemuProtocol => 4 := by
  cases p <;> rfl

theorem write_buf (p : StreamProtocol) (size : Nat) :
    p.write p.buf size =
      match p with
      | .hyperkitProtocol => leBytes 2 (uint16 size)
      | .qemuProtocol => beBytes 4 (uint32 size) := by
  cases p <;> simp [write, buf]

/-- A header that is written decodes to the size it can carry of `size`. -/
theorem read_write (p : StreamProtocol) (size : Nat) :
    p.read (p.write p.buf size) = size % 256 ^ p.buf.length := by
  cases p with
  | hyperkitProtocol =>
    rw [write_buf, read, List.take_of_length_le (by simp), leNat_leBytes, uint16]
    simp
  | qemuProtocol =>
    rw [write_buf, read, List.take_of_length_le (by simp), beNat_beBytes, uint32]
    simp

/-- A header that is read is the header `Write` produces for its size. -/
theorem write_read (p : StreamProtocol) (h : List UInt8) (hl : h.length = p.buf.length) :
    p.write p.buf (p.read h) = h := by
  cases p with
  | hyperkitProtocol =>
    have hlen : h.length = 2 := hl
    have hlt := leNat_lt h
    rw [write_buf, read, List.take_of_length_le (by omega), uint16]
    rw [hlen] at hlt
    rw [Nat.mod_eq_of_lt (by simpa using hlt)]
    have hround := leBytes_leNat h
    rwa [hlen] at hround
  | qemuProtocol =>
    have hlen : h.length = 4 := hl
    have hlt := beNat_lt h
    rw [write_buf, read, List.take_of_length_le (by omega), uint32]
    rw [hlen] at hlt
    rw [Nat.mod_eq_of_lt (by simpa using hlt)]
    have hround := beBytes_beNat h
    rwa [hlen] at hround

theorem read_lt (p : StreamProtocol) (h : List UInt8) (hl : h.length = p.buf.length) :
    p.read h < 256 ^ p.buf.length := by
  cases p with
  | hyperkitProtocol =>
    have hlen : h.length = 2 := hl
    have hlt := leNat_lt h
    rw [hlen] at hlt
    rwa [read, List.take_of_length_le (by omega)]
  | qemuProtocol =>
    have hlen : h.length = 4 := hl
    have hlt := beNat_lt h
    rw [hlen] at hlt
    rwa [read, List.take_of_length_le (by omega)]

/-- The stream protocols are length-prefixed formats: `Write` and `Read` are
inverse on the headers of their width. -/
def format (p : StreamProtocol) : Format where
  width := p.buf.length
  width_pos := by cases p <;> decide
  encodeSize := p.write p.buf
  decodeSize := p.read
  length_encodeSize := by
    intro n
    rw [write_buf]
    cases p <;> simp
  decode_encode := p.read_write
  encode_decode := p.write_read
  decode_lt := p.read_lt

theorem fits_hyperkit {f : List UInt8} :
    (format .hyperkitProtocol).Fits f ↔ f.length < 2 ^ 16 := by
  simp [Format.Fits, format]

/-- The implementation that carries this stream protocol. -/
def impl : StreamProtocol → ProtocolImpl
  | .hyperkitProtocol => .hyperkitProtocol
  | .qemuProtocol => .qemuProtocol

@[simp] theorem streamProtocol?_impl (p : StreamProtocol) :
    p.impl.streamProtocol? = some p := by
  cases p <;> rfl

/-- What `txBuf` writes for a frame is the format's encoding of it. -/
theorem txBufBytes_impl (p : StreamProtocol) (buf : List UInt8) :
    txBufBytes p.impl buf = p.format.encode buf := by
  simp [txBufBytes, Format.encode, format]

end StreamProtocol

end GvisorTapVsock.Tap
