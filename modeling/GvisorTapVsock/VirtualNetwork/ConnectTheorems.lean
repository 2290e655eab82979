/-
GvisorTapVsock.VirtualNetwork.ConnectTheorems — what the switch decodes on a
connection that was hijacked.

Whatever the server has read beyond the request stays in the reader that
`Hijack` returns, and the handler drops it. So the switch decodes what follows
the request if and only if the server's reads end where the request ends
(`connect_exact_iff`). A gvforwarder does not wait for a reply: with its first
frame in the read of the request, the frame is lost (`coalesced_frame_lost`).
Otherwise all its frames arrive (`forwarder_frames`).
-/
import GvisorTapVsock.VirtualNetwork.Connect
import GvisorTapVsock.Vm.Forwarder

namespace GvisorTapVsock.VirtualNetwork

open GvisorTapVsock.Go
open GvisorTapVsock.Tap

/-! ## The server -/

/-- The request is read whatever the split, and with it whole reads of the
connection; what follows it is in the buffer or still to come. -/
theorem readRequest_eq_some {request payload : List UInt8} {conn : Conn}
    (hstream : conn.flatten = request ++ payload) (background : Nat) :
    ∃ server, readRequest request.length background conn = some (request, server)
      ∧ server.content = payload ∧ ∃ k, server.reads = conn.drop k := by
  have hcontent : (Reader.newReader conn).content = request ++ payload := hstream
  have hlen : request.length ≤ (Reader.newReader conn).content.length := by
    rw [hcontent, List.length_append]
    exact Nat.le_add_right _ _
  obtain ⟨r, hr, hrest⟩ := (Reader.newReader conn).readFull_of_le hlen
  rw [hcontent, List.take_left] at hr
  rw [hcontent, List.drop_left] at hrest
  refine ⟨Reader.fill^[background] r, ?_, ?_, ?_⟩
  · rw [readRequest, hr]
    rfl
  · rw [Reader.content_iterate_fill, hrest]
  · obtain ⟨k, hk⟩ := Reader.readFullFrom_reads _ _ _ _ hr
    refine ⟨k + background, ?_⟩
    rw [Reader.reads_iterate_fill, hk, List.drop_drop]
    rfl

/-- The reads the server has made are together the request and nothing else. -/
def ReadOnlyRequest (request : List UInt8) (conn : Conn) (server : Reader) : Prop :=
  ∃ k, server.reads = conn.drop k ∧ (conn.take k).flatten = request

/-- What is left on the connection then is what follows the request. -/
theorem readOnlyRequest_iff {request payload : List UInt8} {conn : Conn} {server : Reader}
    (hstream : conn.flatten = request ++ payload) (hreads : ∃ k, server.reads = conn.drop k) :
    ReadOnlyRequest request conn server ↔ server.reads.flatten = payload := by
  have hsplit : ∀ k, (conn.take k).flatten ++ (conn.drop k).flatten = request ++ payload := by
    intro k
    rw [← List.flatten_append, List.take_append_drop, hstream]
  constructor
  · intro h
    obtain ⟨k, hk, hmade⟩ := h
    have hsplit := hsplit k
    rw [hmade, List.append_cancel_left_eq] at hsplit
    rw [hk, hsplit]
  · intro hrest
    obtain ⟨k, hk⟩ := hreads
    have hsplit := hsplit k
    rw [← hk, hrest, List.append_cancel_right_eq] at hsplit
    exact ⟨k, hk, hsplit⟩

/-! ## The handler -/

/-- The handler accepts the connection, and nothing of the buffer. -/
theorem rxFrames_connectHandler {protocol : Protocol} {p : StreamProtocol}
    (hp : (protocolImplementation protocol).streamProtocol? = some p) (server : Reader) :
    (connectHandler protocol (responseWriter server none)).rxFrames
      = some (p.format.decodeAll server.reads.flatten) := by
  show (protocolImplementation protocol).streamProtocol?.map (fun p => Tap.rxFrames p server.reads)
    = _
  rw [hp, Option.map_some, rxFrames_eq]

/-- **Exactly the bytes after the request, if and only if the server read
nothing else.** For every split of the stream into reads, and however far the
server reads ahead; the server itself loses nothing. -/
theorem connect_exact_iff {protocol : Protocol} {p : StreamProtocol}
    (hp : (protocolImplementation protocol).streamProtocol? = some p)
    {request payload : List UInt8} {conn : Conn}
    (hstream : conn.flatten = request ++ payload) (background : Nat) :
    ∃ server, readRequest request.length background conn = some (request, server) ∧
      server.content = payload ∧
      ((connectHandler protocol (responseWriter server none)).rxFrames
          = some (Tap.rxFrames p [payload]) ↔ ReadOnlyRequest request conn server) := by
  obtain ⟨server, hserver, hcontent, hreads⟩ := readRequest_eq_some hstream background
  refine ⟨server, hserver, hcontent, ?_⟩
  rw [rxFrames_connectHandler hp, rxFrames_eq, List.flatten_singleton, Option.some.injEq,
    p.format.decodeAll_injective.eq_iff, readOnlyRequest_iff hstream hreads]

/-- A server whose first read has more than the request. -/
theorem readRequest_first {request : List UInt8} (hne : request ≠ []) (rest : List UInt8)
    (conn : Conn) :
    readRequest request.length 0 ((request ++ rest) :: conn) = some (request, ⟨rest, conn⟩) := by
  have hlen : request.length ≤ (request ++ rest).length := by simp
  rw [readRequest, Reader.readFull_newReader_cons (List.length_pos_iff.mpr hne) hlen]
  simp

/-- The request in a read of its own: the frame after it arrives. -/
theorem connect_exact_separate :
    ∃ server, readRequest (Vm.request "/connect").length 0
        [Vm.request "/connect", Vm.rxBytes [1, 2, 3]] = some (Vm.request "/connect", server) ∧
      (connectHandler .hyperKitProtocol (responseWriter server none)).rxFrames
        = some (Tap.rxFrames .hyperkitProtocol [Vm.rxBytes [1, 2, 3]]) := by
  have hp : (protocolImplementation .hyperKitProtocol).streamProtocol?
      = some .hyperkitProtocol := rfl
  have hstream : [Vm.request "/connect", Vm.rxBytes [1, 2, 3]].flatten
      = Vm.request "/connect" ++ Vm.rxBytes [1, 2, 3] := by simp
  obtain ⟨server, hserver, -, hiff⟩ := connect_exact_iff hp hstream 0
  have hfirst := readRequest_first (Vm.request_ne_nil "/connect") [] [Vm.rxBytes [1, 2, 3]]
  rw [List.append_nil, hserver] at hfirst
  obtain ⟨-, rfl⟩ := Prod.mk.inj (Option.some.inj hfirst)
  exact ⟨_, hserver, hiff.mpr ⟨1, rfl, List.append_nil _⟩⟩

/-! ## gvforwarder -/

/-- `rx` writes the stream of its packets. -/
theorem flatten_rx (mtu : Nat) (packets : List (List UInt8)) :
    (Vm.rx mtu [] packets).flatten = txFrames .hyperkitProtocol (Vm.rxPackets mtu [] packets) := by
  rw [Vm.rx_eq_map, funext Vm.rxBytes_eq]
  rfl

/-- Short enough packets are what a hyperkit connection decodes. -/
theorem rxFrames_rx {mtu : Nat} (hmtu : mtu + 22 < 2 ^ 16) (packets : List (List UInt8)) :
    (StreamProtocol.format .hyperkitProtocol).decodeAll (Vm.rx mtu [] packets).flatten
      = (Vm.rxPackets mtu [] packets, []) := by
  rw [flatten_rx, txFrames_eq]
  refine Format.decodeAll_encodeAll _ _ ?_
  intro f hf
  have hlen := Vm.length_rxPackets_le mtu [] packets f hf
  exact StreamProtocol.fits_hyperkit.mpr (Nat.lt_of_le_of_lt hlen hmtu)

/-- **From the tap device to the switch**: the packets gvforwarder reads are
the frames the switch decodes, when the server read only the request. -/
theorem forwarder_frames {path : String} (hpath : path ≠ "") {mtu : Nat}
    (hmtu : mtu + 22 < 2 ^ 16) {packets : List (List UInt8)} {conn : Conn}
    (hstream : conn.flatten = Vm.run path mtu packets) (background : Nat) :
    ∃ server, readRequest (Vm.request path).length background conn
        = some (Vm.request path, server) ∧
      (ReadOnlyRequest (Vm.request path) conn server →
        (connectHandler .hyperKitProtocol (responseWriter server none)).rxFrames
          = some (Vm.rxPackets mtu [] packets, [])) := by
  rw [Vm.run, if_pos hpath] at hstream
  obtain ⟨server, hserver, -, hreads⟩ := readRequest_eq_some hstream background
  refine ⟨server, hserver, fun honly => ?_⟩
  rw [rxFrames_connectHandler rfl, (readOnlyRequest_iff hstream hreads).mp honly,
    rxFrames_rx hmtu]

/-- The request and the first frame in one read: the frame is lost. -/
theorem coalesced_frame_lost :
    ∃ server, readRequest (Vm.request "/connect").length 0 [Vm.run "/connect" 1500 [[1, 2, 3]]]
        = some (Vm.request "/connect", server) ∧
      Tap.rxFrames .hyperkitProtocol [(Vm.rx 1500 [] [[1, 2, 3]]).flatten] = ([[1, 2, 3]], []) ∧
      (connectHandler .hyperKitProtocol (responseWriter server none)).rxFrames = some ([], []) := by
  refine ⟨⟨(Vm.rx 1500 [] [[1, 2, 3]]).flatten, []⟩, ?_, ?_, ?_⟩
  · rw [Vm.run, if_pos (by decide)]
    exact readRequest_first (Vm.request_ne_nil "/connect") _ []
  · rw [rxFrames_eq, List.flatten_singleton, rxFrames_rx (by decide)]
    rfl
  · rw [rxFrames_connectHandler rfl, List.flatten_nil]
    exact congrArg some (Format.decodeAll_encodeAll _ [] nofun)

end GvisorTapVsock.VirtualNetwork
