/-
GvisorTapVsock.Vm.Tx — what gvforwarder does with the frames of the host
(`tx` in `cmd/vm/main_linux.go`).

The loop owns one buffer of `mtu+header.EthernetMinimumSize` bytes, sized
from the `-mtu` flag of the guest's program. The size it slices that buffer
with comes from the wire, where the switch put it under an MTU of its own.

A run of the loop is a value: what was written to the tap device and what
ended it. Whether the i-th write of the tap device succeeds is an input, and so
is the largest block the runtime allocates.
-/
import Mathlib.Algebra.Group.Nat.Defs
import GvisorTapVsock.Go.Reader
import GvisorTapVsock.Go.Slice
import GvisorTapVsock.Go.Binary
import GvisorTapVsock.Tap.Ethernet

namespace GvisorTapVsock.Vm

open GvisorTapVsock.Go
open GvisorTapVsock.Tap

/-- Why `tx` ended: the text of the error on `errCh`, or a panic. -/
inductive TxEnd where
  /-- "cannot read size from socket" -/
  | readSize
  /-- "cannot read payload from socket" -/
  | readPayload
  /-- "unexpected size %d != %d" -/
  | unexpectedSize (n size : Nat)
  /-- "cannot write packet to tap" -/
  | writeTap
  | panicked (p : Panic)
  /-- "makeslice: len out of range" -/
  | makeslice
  deriving DecidableEq, Repr

/-- The end was reported on `errCh`. -/
def TxEnd.Reported : TxEnd → Prop
  | .readSize | .readPayload | .unexpectedSize _ _ | .writeTap => True
  | .panicked _ | .makeslice => False

instance : DecidablePred TxEnd.Reported := fun e => by
  cases e <;> unfold TxEnd.Reported <;> infer_instance

/-- A run that has ended. -/
structure TxRun where
  written : List (List UInt8)
  reason : TxEnd
  deriving DecidableEq, Repr

/-- The loop of `tx`. `io.ReadFull` returns an error or fills its slice, so
`n != 2` never holds behind the error check. -/
def txLoop (buf : Slice UInt8) (tapFails : Nat → Bool) (conn : Reader)
    (written : List (List UInt8)) : TxRun :=
  match _hsize : conn.readFull 2 with
  | none => ⟨written, .readSize⟩
  | some (sizeBuf, afterSize) =>
      -- buf[:size]
      match buf.reslice (leNat sizeBuf) with
      | .error p => ⟨written, .panicked p⟩
      | .ok window =>
          match _hpayload : afterSize.readFull window.len with
          | none => ⟨written, .readPayload⟩
          | some (payload, afterPayload) =>
              if payload.length = 0 ∨ payload.length ≠ leNat sizeBuf then
                ⟨written, .unexpectedSize payload.length (leNat sizeBuf)⟩
              else if tapFails written.length then ⟨written, .writeTap⟩
              else txLoop buf tapFails afterPayload (written ++ [payload])
termination_by conn.content.length
decreasing_by
  obtain ⟨hle, -, hrest⟩ := Reader.readFull_eq_some _hsize
  obtain ⟨-, -, hrest'⟩ := Reader.readFull_eq_some _hpayload
  rw [hrest', hrest, List.length_drop, List.length_drop]
  omega

/-- The largest block Go's runtime allocates on amd64 (its `maxAlloc`). -/
def amd64MaxAlloc : Nat := 2 ^ 48

/-- `make([]byte, mtu+header.EthernetMinimumSize)` for a flag value `mtu ≥ 0`:
the sum of two `int`s wraps to a negative one from `2 ^ 63` on, and no block
is larger than `maxAlloc` bytes, the limit of the runtime. -/
def makeBuf (maxAlloc mtu : Nat) : Option (Slice UInt8) :=
  if mtu + ethernetMinimumSize < 2 ^ 63 ∧ mtu + ethernetMinimumSize ≤ maxAlloc then
    some (Slice.exact (List.replicate (mtu + ethernetMinimumSize) 0))
  else none

/-- `tx`, until it returns or panics. -/
def tx (maxAlloc mtu : Nat) (tapFails : Nat → Bool) (reads : List (List UInt8)) : TxRun :=
  match makeBuf maxAlloc mtu with
  | none => ⟨[], .makeslice⟩
  | some buf => txLoop buf tapFails (Reader.newReader reads) []

end GvisorTapVsock.Vm
