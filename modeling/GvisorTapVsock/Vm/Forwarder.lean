/-
GvisorTapVsock.Vm.Forwarder — what gvforwarder sends to the host (`run` and
`rx` in `cmd/vm/main_linux.go`).

`run` writes the request for `path` and starts `rx` without waiting for a
reply, so the frames follow the request directly.

The loop of `rx` keeps one `ethernet.Frame`. Before each read `Resize(mtu)` gives it
room for a header and `mtu` bytes of payload; a frame that was tagged makes
the next buffer four or eight bytes longer, because `Resize` looks at the
bytes the previous read left.
-/
import GvisorTapVsock.Tap.Protocols

namespace GvisorTapVsock.Vm

open GvisorTapVsock.Go
open GvisorTapVsock.Tap

/-- `Frame.Tagging`: the bytes taken by 802.1Q tags. -/
def tagging (frame : List UInt8) : Nat :=
  match (frame.drop 12).take 2 with
  | [0x81, 0x00] => 4
  | [0x88, 0xa8] => 8
  | _ => 0

/-- The length of the frame after `frame.Resize(mtu)`. -/
def resizedLength (frame : List UInt8) (mtu : Nat) : Nat :=
  6 + 6 + (if 6 + 6 + 2 < frame.length then tagging frame else 0) + 2 + mtu

/-- The argument of `conn.Write`: `PutUint16(size, uint16(n))`, then the frame. -/
def rxBytes (frame : List UInt8) : List UInt8 :=
  leBytes 2 (uint16 frame.length) ++ frame

/-- The writes of `rx` for the packets the tap device has: a read returns what
fits the buffer. -/
def rx (mtu : Nat) : List UInt8 → List (List UInt8) → List (List UInt8)
  | _, [] => []
  | frame, packet :: packets =>
      rxBytes (packet.take (resizedLength frame mtu)) ::
        rx mtu (packet.take (resizedLength frame mtu)) packets

/-- `http.NewRequest("POST", path, nil)` as `Write` puts it on the wire. -/
def request (path : String) : List UInt8 :=
  ("POST " ++ path ++ " HTTP/1.1\r\nHost: \r\nUser-Agent: Go-http-client/1.1\r\n" ++
    "Content-Length: 0\r\n\r\n").toList.map (fun c => UInt8.ofNat c.toNat)

/-- The bytes `run` sends: the request, if the endpoint has a path, and what
`rx` writes. -/
def run (path : String) (mtu : Nat) (packets : List (List UInt8)) : List UInt8 :=
  (if path ≠ "" then request path else []) ++ (rx mtu [] packets).flatten

/-! ## The frames on the wire -/

/-- The packets as `rx` reads them. -/
def rxPackets (mtu : Nat) : List UInt8 → List (List UInt8) → List (List UInt8)
  | _, [] => []
  | frame, packet :: packets =>
      packet.take (resizedLength frame mtu) ::
        rxPackets mtu (packet.take (resizedLength frame mtu)) packets

theorem rx_eq_map (mtu : Nat) (frame : List UInt8) (packets : List (List UInt8)) :
    rx mtu frame packets = (rxPackets mtu frame packets).map rxBytes := by
  induction packets generalizing frame with
  | nil => rfl
  | cons packet packets ih => rw [rx, rxPackets, List.map_cons, ih]

theorem tagging_le (frame : List UInt8) : tagging frame ≤ 8 := by
  unfold tagging
  split <;> decide

theorem resizedLength_le (frame : List UInt8) (mtu : Nat) :
    resizedLength frame mtu ≤ mtu + 22 := by
  have htag := tagging_le frame
  unfold resizedLength
  split <;> omega

/-- A frame on the wire is at most a header with two tags longer than the MTU. -/
theorem length_rxPackets_le (mtu : Nat) (frame : List UInt8) (packets : List (List UInt8)) :
    ∀ f ∈ rxPackets mtu frame packets, f.length ≤ mtu + 22 := by
  induction packets generalizing frame with
  | nil => exact nofun
  | cons packet packets ih =>
    intro f hf
    rcases List.mem_cons.mp hf with rfl | hf
    · exact Nat.le_trans (List.length_take_le _ _) (resizedLength_le frame mtu)
    · exact ih _ f hf

/-- The forwarder frames as the switch does for hyperkit. -/
theorem rxBytes_eq (frame : List UInt8) :
    rxBytes frame = txBufBytes .hyperkitProtocol frame := by
  simp [rxBytes, txBufBytes, ProtocolImpl.streamProtocol?, StreamProtocol.write_buf]

theorem request_ne_nil (path : String) : request path ≠ [] := by
  simp [request, String.toList_append]

end GvisorTapVsock.Vm
