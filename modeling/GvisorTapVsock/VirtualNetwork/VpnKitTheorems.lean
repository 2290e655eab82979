/-
GvisorTapVsock.VirtualNetwork.VpnKitTheorems — when a vpnkit client is attached
to the switch after its handshake.

`Handshaken` is what an attached client should have behind it: every step
succeeded, it was sent its own greeting and a reply with its MAC address, and
the frames that are decoded are those from byte 90 of its stream on.

The handshake is followed once, step by step: it ends without an error exactly
when its five steps succeed (`Steps`), and then it has sent and consumed what it
should (`vpnkitHandshake_of_steps`, `vpnkitHandshake_of_not_steps`). Nothing of
that is asked by `AcceptVpnKit`, which calls `Accept` in any case; and a
configured MAC address of 8 or 20 bytes passes all the steps and is sent cut to
six bytes.
-/
import Mathlib.Data.FinEnum
import GvisorTapVsock.VirtualNetwork.VpnKit

namespace GvisorTapVsock.VirtualNetwork

open GvisorTapVsock.Go
open GvisorTapVsock.Tap

/-! ## The connection -/

section Client

variable (conn : Client)

theorem Client.readFull_of_lt {n : Nat} (h : conn.reader.content.length < n) :
    ∃ conn', conn.readFull n = (none, conn') := by
  simp [Client.readFull, conn.reader.readFull_of_lt h]

/-- A read that succeeds takes the next `n` bytes and touches nothing else. -/
theorem Client.readFull_of_le {n : Nat} (h : n ≤ conn.reader.content.length) :
    ∃ reader, conn.readFull n = (some (conn.reader.content.take n), { conn with reader }) ∧
      reader.content = conn.reader.content.drop n := by
  obtain ⟨reader, hread, hcontent⟩ := conn.reader.readFull_of_le h
  exact ⟨reader, by simp [Client.readFull, hread], hcontent⟩

theorem Client.write_of_ok (b : List UInt8) (h : conn.outcomes.getD 0 none = none) :
    conn.write b =
      (none, { conn with written := conn.written ++ b, outcomes := conn.outcomes.drop 1 }) := by
  simp only [Client.write, h]

theorem Client.write_of_err (b : List UInt8) (h : conn.outcomes.getD 0 none ≠ none) :
    ∃ err conn', conn.write b = (some err, conn') := by
  obtain ⟨⟨n, err⟩, hout⟩ := Option.ne_none_iff_exists'.mp h
  simp only [Client.write, hout]
  exact ⟨err, _, rfl⟩

theorem Client.flatten_rest : conn.rest.flatten = conn.reader.content := rfl

end Client

/-! ## The steps -/

/-- The UUID of a command. -/
def uuid (msgCommand : List UInt8) : List UInt8 := (msgCommand.take 37).drop 1

section Handshake

variable (c : VpnKitConfiguration) (rand : Except String (Vector UInt8 6))

/-- The steps of the second half succeed, on what is left of the stream. -/
structure CommandSteps (stream : List UInt8) (outcome : WriteOutcome) (mac : HardwareAddr) :
    Prop where
  read : 41 ≤ stream.length
  macAddr : macAddr c rand (uuid (stream.take 41)) = .ok mac
  write : outcome = none

/-- The five steps of the handshake succeed. -/
structure Steps (stream : List UInt8) (outcomes : List WriteOutcome) (mac : HardwareAddr) :
    Prop where
  read : 49 ≤ stream.length
  write : outcomes.getD 0 none = none
  command : CommandSteps c rand (stream.drop 49) (outcomes.getD 1 none) mac

variable {c rand} (conn : Client)

theorem vpnkitCommand_of_steps {mac : HardwareAddr}
    (h : CommandSteps c rand conn.reader.content (conn.outcomes.getD 0 none) mac) :
    ∃ conn', vpnkitCommand c rand conn = (none, conn') ∧
      conn'.written = conn.written ++ resp c.mtu mac ∧
      conn'.reader.content = conn.reader.content.drop 41 := by
  obtain ⟨reader, hread, hcontent⟩ := conn.readFull_of_le h.read
  have hmac := h.macAddr
  rw [uuid] at hmac
  have hwrite := Client.write_of_ok { conn with reader } (resp c.mtu mac) h.write
  simp only [vpnkitCommand, hread, hmac, hwrite]
  exact ⟨_, rfl, rfl, hcontent⟩

theorem vpnkitCommand_of_not_steps
    (h : ∀ mac, ¬ CommandSteps c rand conn.reader.content (conn.outcomes.getD 0 none) mac) :
    ∃ err conn', vpnkitCommand c rand conn = (some err, conn') := by
  by_cases hle : 41 ≤ conn.reader.content.length
  · obtain ⟨reader, hread, -⟩ := conn.readFull_of_le hle
    simp only [vpnkitCommand, hread]
    cases hmac : macAddr c rand (((conn.reader.content.take 41).take 37).drop 1) with
    | error err => exact ⟨err, _, rfl⟩
    | ok mac =>
      have herr : conn.outcomes.getD 0 none ≠ none := fun hok => h mac ⟨hle, hmac, hok⟩
      obtain ⟨err, conn', hwrite⟩ :=
        Client.write_of_err { conn with reader } (resp c.mtu mac) herr
      simp only [hwrite]
      exact ⟨.write err, conn', rfl⟩
  · obtain ⟨conn', hread⟩ := conn.readFull_of_lt (Nat.lt_of_not_le hle)
    exact ⟨.readFull, conn', by simp only [vpnkitCommand, hread]⟩

/-- After the greeting was echoed, the second half decides. -/
theorem vpnkitHandshake_of_greeted (hread : 49 ≤ conn.reader.content.length)
    (hwrite : conn.outcomes.getD 0 none = none) :
    ∃ reader, reader.content = conn.reader.content.drop 49 ∧
      vpnkitHandshake c rand conn = vpnkitCommand c rand
        ⟨reader, conn.written ++ conn.reader.content.take 49, conn.outcomes.drop 1⟩ := by
  obtain ⟨reader, hfull, hcontent⟩ := conn.readFull_of_le hread
  have hecho := Client.write_of_ok { conn with reader } (conn.reader.content.take 49) hwrite
  exact ⟨reader, hcontent, by simp only [vpnkitHandshake, hfull, hecho]⟩

theorem getD_drop_one (outcomes : List WriteOutcome) :
    (outcomes.drop 1).getD 0 none = outcomes.getD 1 none := by
  simp [List.getD_eq_getElem?_getD]

/-- When its steps succeed the handshake ends without an error; the client was
sent its greeting and the reply, and 90 bytes were consumed. -/
theorem vpnkitHandshake_of_steps {mac : HardwareAddr}
    (h : Steps c rand conn.reader.content conn.outcomes mac) :
    ∃ conn', vpnkitHandshake c rand conn = (none, conn') ∧
      conn'.written = conn.written ++ conn.reader.content.take 49 ++ resp c.mtu mac ∧
      conn'.reader.content = conn.reader.content.drop 90 := by
  obtain ⟨reader, hcontent, hhalf⟩ := vpnkitHandshake_of_greeted conn h.read h.write
  have hcommand := h.command
  rw [← hcontent, ← getD_drop_one] at hcommand
  obtain ⟨conn', hend, hwritten, hleft⟩ := vpnkitCommand_of_steps
    ⟨reader, conn.written ++ conn.reader.content.take 49, conn.outcomes.drop 1⟩ hcommand
  refine ⟨conn', hhalf.trans hend, hwritten, ?_⟩
  rw [hleft, hcontent, List.drop_drop]

/-- Otherwise it ends in an error. -/
theorem vpnkitHandshake_of_not_steps
    (h : ∀ mac, ¬ Steps c rand conn.reader.content conn.outcomes mac) :
    ∃ err conn', vpnkitHandshake c rand conn = (some err, conn') := by
  by_cases hread : 49 ≤ conn.reader.content.length
  · by_cases hwrite : conn.outcomes.getD 0 none = none
    · obtain ⟨reader, hcontent, hhalf⟩ := vpnkitHandshake_of_greeted conn hread hwrite
      rw [hhalf]
      apply vpnkitCommand_of_not_steps
      intro mac hcommand
      rw [hcontent, getD_drop_one] at hcommand
      exact h mac ⟨hread, hwrite, hcommand⟩
    · obtain ⟨reader, hfull, -⟩ := conn.readFull_of_le hread
      obtain ⟨err, conn', herr⟩ :=
        Client.write_of_err { conn with reader } (conn.reader.content.take 49) hwrite
      exact ⟨.write err, conn', by simp only [vpnkitHandshake, hfull, herr]⟩
  · obtain ⟨conn', hfull⟩ := conn.readFull_of_lt (Nat.lt_of_not_le hread)
    exact ⟨.readFull, conn', by simp only [vpnkitHandshake, hfull]⟩

end Handshake

/-! ## The address in the reply -/

/-- A unicast, locally administered address. -/
def IsLocalUnicast (mac : HardwareAddr) : Prop :=
  ∃ b rest, mac = b :: rest ∧ b &&& 1 = 0 ∧ b &&& 2 = 2

/-- The address a client with this UUID may be given. -/
def MacFor (c : VpnKitConfiguration) (id : List UInt8) (mac : HardwareAddr) : Prop :=
  mac.length = 6 ∧
    match c.vpnKitUUIDMacAddresses.lookup id with
    | some text => parseMAC text = some mac
    | none => IsLocalUnicast mac

theorem localUnicast_spec :
    ∀ b : UInt8, localUnicast b &&& 1 = 0 ∧ localUnicast b &&& 2 = 2 := by
  decide +kernel

theorem isLocalUnicast_randomMac {rand : Except String (Vector UInt8 6)} {mac : HardwareAddr}
    (h : randomMac rand = .ok mac) : mac.length = 6 ∧ IsLocalUnicast mac := by
  cases rand with
  | error err => simp [randomMac] at h
  | ok buf =>
    simp only [randomMac, Except.ok.injEq] at h
    subst h
    have hlen : buf.toList.length = 6 := by simp
    cases hbuf : buf.toList with
    | nil => simp [hbuf] at hlen
    | cons b rest =>
      rw [hbuf] at hlen
      exact ⟨by simpa using hlen, localUnicast b, rest, by simp, localUnicast_spec b⟩

/-- The address `macAddr` returns is right when it has six bytes. -/
theorem macFor_of_macAddr {c : VpnKitConfiguration} {rand : Except String (Vector UInt8 6)}
    {id : List UInt8} {mac : HardwareAddr} (h : macAddr c rand id = .ok mac)
    (hlen : mac.length = 6) : MacFor c id mac := by
  refine ⟨hlen, ?_⟩
  cases hid : c.vpnKitUUIDMacAddresses.lookup id with
  | none =>
    simp only [macAddr, hid] at h
    exact (isLocalUnicast_randomMac h).2
  | some text =>
    cases hparse : parseMAC text with
    | none => simp [macAddr, hid, hparse] at h
    | some mac' => simpa [macAddr, hid, hparse] using h

theorem length_resp (mtu : Int) (mac : HardwareAddr) : (resp mtu mac).length = 258 := by
  simp only [resp, copy, List.length_append, List.length_cons, List.length_nil, length_leBytes,
    List.length_replicate, List.length_take, List.length_drop]
  omega

theorem head?_resp (mtu : Int) (mac : HardwareAddr) : (resp mtu mac).head? = some 1 := by
  simp [resp]

theorem length_copy (dst src : List UInt8) : (copy dst src).length = dst.length := by
  simp only [copy, List.length_append, List.length_take, List.length_drop]
  omega

/-- Bytes 5 to 10 of the reply: the address, cut or padded to six bytes. -/
theorem take_drop_resp (mtu : Int) (mac : HardwareAddr) :
    ((resp mtu mac).drop 5).take 6 = copy (List.replicate 6 0) mac := by
  obtain ⟨front, hfront, hresp⟩ : ∃ front : List UInt8, front.length = 5 ∧
      resp mtu mac = front ++ (copy (List.replicate 6 0) mac ++ List.replicate 247 0) :=
    ⟨_, by simp only [List.length_append, length_leBytes]; rfl, List.append_assoc ..⟩
  rw [hresp, List.drop_left' hfront, List.take_left']
  rw [length_copy, List.length_replicate]

theorem copy_of_length {dst src : List UInt8} (h : src.length = dst.length) :
    copy dst src = src := by
  simp [copy, h]

/-! ## Attaching the client -/

/-- What an attached client has behind it. -/
structure Handshaken (c : VpnKitConfiguration) (stream : List UInt8) (a : Accepted) : Prop where
  /-- no step failed -/
  completed : a.logged = none
  /-- it was sent its own 49 bytes and a reply with its address -/
  replied : 90 ≤ stream.length ∧ ∃ reply, a.written = stream.take 49 ++ reply ∧
    reply.length = 258 ∧ reply.head? = some 1 ∧
    MacFor c (uuid ((stream.drop 49).take 41)) ((reply.drop 5).take 6)
  /-- frames are decoded from byte 90 of its stream on -/
  decoded : ∀ conn protocol, a.accept = some (conn, protocol) →
    protocol = .hyperKitProtocol ∧
      rxFrames .hyperkitProtocol conn = rxFrames .hyperkitProtocol [stream.drop 90]

/-- The connection is attached only after a handshake that did all it should. -/
def AttachedAfterHandshake (c : VpnKitConfiguration) (stream : List UInt8) (a : Accepted) : Prop :=
  a.accept ≠ none → Handshaken c stream a

theorem acceptVpnKit_accept_ne_none (c : VpnKitConfiguration)
    (rand : Except String (Vector UInt8 6)) (conn : Client) :
    (acceptVpnKit c rand conn).accept ≠ none := by
  simp [acceptVpnKit]

theorem handshaken_of_steps {c : VpnKitConfiguration} {rand : Except String (Vector UInt8 6)}
    {reads : Conn} {outcomes : List WriteOutcome} {mac : HardwareAddr}
    (h : Steps c rand reads.flatten outcomes mac) (hlen : mac.length = 6) :
    Handshaken c reads.flatten (acceptVpnKit c rand (Client.new reads outcomes)) := by
  obtain ⟨conn, hend, hwritten, hcontent⟩ := vpnkitHandshake_of_steps (Client.new reads outcomes) h
  have hlong := h.command.read
  rw [List.length_drop] at hlong
  have hmac : ((resp c.mtu mac).drop 5).take 6 = mac := by
    rw [take_drop_resp, copy_of_length (by simp [hlen])]
  have haccept : acceptVpnKit c rand (Client.new reads outcomes)
      = ⟨none, conn.written, some (conn.rest, .hyperKitProtocol)⟩ := by
    simp only [acceptVpnKit, hend]
  rw [haccept]
  refine ⟨rfl, ⟨by omega, resp c.mtu mac, hwritten, length_resp _ _, head?_resp _ _, ?_⟩, ?_⟩
  · rw [hmac]
    exact macFor_of_macAddr h.command.macAddr hlen
  · intro conn' protocol hconn
    simp only [Option.some.injEq, Prod.mk.injEq] at hconn
    obtain ⟨rfl, rfl⟩ := hconn
    refine ⟨rfl, ?_⟩
    rw [rxFrames_eq, rxFrames_eq, Client.flatten_rest, hcontent]
    simp [Client.new]

/-- A MAC address is available: six bytes where one is configured for the UUID,
and random bytes otherwise. -/
def MacAvailable (c : VpnKitConfiguration) (rand : Except String (Vector UInt8 6))
    (id : List UInt8) : Prop :=
  match c.vpnKitUUIDMacAddresses.lookup id with
  | some text => ∃ mac, parseMAC text = some mac ∧ mac.length = 6
  | none => ∃ buf, rand = .ok buf

theorem macAvailable_iff (c : VpnKitConfiguration) (rand : Except String (Vector UInt8 6))
    (id : List UInt8) :
    MacAvailable c rand id ↔ ∃ mac, macAddr c rand id = .ok mac ∧ mac.length = 6 := by
  cases hid : c.vpnKitUUIDMacAddresses.lookup id with
  | none =>
    simp only [MacAvailable, macAddr, hid]
    cases rand with
    | error err => simp [randomMac]
    | ok buf => simp [randomMac]
  | some text =>
    simp only [MacAvailable, macAddr, hid]
    cases hparse : parseMAC text with
    | none => simp
    | some mac => simp

theorem length_of_macFor {c : VpnKitConfiguration} {rand : Except String (Vector UInt8 6)}
    {id : List UInt8} {mac sent : HardwareAddr} (h : macAddr c rand id = .ok mac)
    (hsent : MacFor c id sent) : mac.length = 6 := by
  cases hid : c.vpnKitUUIDMacAddresses.lookup id with
  | none =>
    simp only [macAddr, hid] at h
    exact (isLocalUnicast_randomMac h).1
  | some text =>
    have hparse : parseMAC text = some sent := by simpa [hid] using hsent.2
    simp only [macAddr, hid, hparse, Except.ok.injEq] at h
    exact h ▸ hsent.1

/-- Which clients are attached after a complete handshake: those whose 90 bytes
and two writes succeed and for which there is a MAC address of six bytes. All
others are attached as well. -/
theorem attached_after_handshake_iff (c : VpnKitConfiguration)
    (rand : Except String (Vector UInt8 6)) (reads : Conn) (outcomes : List WriteOutcome) :
    AttachedAfterHandshake c reads.flatten (acceptVpnKit c rand (Client.new reads outcomes)) ↔
      90 ≤ reads.flatten.length ∧ outcomes.getD 0 none = none ∧ outcomes.getD 1 none = none ∧
        MacAvailable c rand (uuid ((reads.flatten.drop 49).take 41)) := by
  rw [macAvailable_iff]
  constructor
  · intro h
    obtain ⟨hcompleted, ⟨hlong, reply, -, -, -, hsent⟩, -⟩ :=
      h (acceptVpnKit_accept_ne_none _ _ _)
    by_cases hsteps : ∃ mac, Steps c rand reads.flatten outcomes mac
    · obtain ⟨mac, hsteps⟩ := hsteps
      have hmac := hsteps.command.macAddr
      exact ⟨hlong, hsteps.write, hsteps.command.write, mac, hmac, length_of_macFor hmac hsent⟩
    · obtain ⟨err, conn, hend⟩ := vpnkitHandshake_of_not_steps
        (Client.new reads outcomes) (not_exists.mp hsteps)
      simp [acceptVpnKit, hend] at hcompleted
  · intro ⟨hlong, hinit, hreply, mac, hmac, hlen⟩ _
    have hleft : 41 ≤ (reads.flatten.drop 49).length := by
      rw [List.length_drop]
      omega
    exact handshaken_of_steps ⟨by omega, hinit, hleft, hmac, hreply⟩ hlen

/-- A client that hangs up without a byte is attached, and so is one whose
configured MAC address has eight bytes, after a reply with the first six. -/
theorem attached_without_handshake :
    acceptVpnKit ⟨1500, ∅⟩ (.error "") (Client.new [] [])
      = ⟨some .readFull, [], some ([[]], .hyperKitProtocol)⟩ ∧
    (acceptVpnKit ⟨1500, GoMap.single (List.replicate 36 48) "02:00:5e:10:00:00:00:01"⟩ (.error "")
        (Client.new [List.replicate 90 48] [])).logged = none ∧
    (((acceptVpnKit ⟨1500, GoMap.single (List.replicate 36 48) "02:00:5e:10:00:00:00:01"⟩
        (.error "") (Client.new [List.replicate 90 48] [])).written.drop 54).take 6
      = [0x02, 0x00, 0x5e, 0x10, 0x00, 0x00]) ∧
    (acceptVpnKit ⟨1500, GoMap.single (List.replicate 36 48) "02:00:5e:10:00:00:00:01"⟩ (.error "")
        (Client.new [List.replicate 90 48] [])).accept = some ([[]], .hyperKitProtocol) := by
  decide +kernel

end GvisorTapVsock.VirtualNetwork
