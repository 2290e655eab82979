/-
GvisorTapVsock.Services.Dns — the DNS handler of the gateway (`addAnswers`,
`addZone` in `pkg/services/dns/dns.go`).

A question is served by the first zone its name ends with, `"." + zone.Name`,
or else by the resolver of the host. A zone ends the whole call whatever it
finds; the resolver ends it on an error only, and question types that are not
listed pass through without a lookup.

The resolver is a parameter, one function for each `Lookup…` method; `none`
is its error. `addAnswers` returns the message together with the lookups it
made, so that leaving the resolver alone is a fact about its result. Of a
regular expression the code uses `MatchString` only, so that function stands
for it.
-/
import GvisorTapVsock.Go.Net
import GvisorTapVsock.Go.Strings

namespace GvisorTapVsock.Services.Dns

open GvisorTapVsock.Go

/-- `types.Record`; `regexp` is `Regexp.MatchString`, `none` the nil regexp. -/
structure Record where
  name : String
  ip : IP
  regexp : Option (String → Bool)

/-- `types.Zone`. -/
structure Zone where
  name : String
  records : List Record
  defaultIP : IP

/-! ## Messages -/

def typeA : UInt16 := 1
def typeNS : UInt16 := 2
def typeCNAME : UInt16 := 5
def typeMX : UInt16 := 15
def typeTXT : UInt16 := 16
def typeSRV : UInt16 := 33

/-- `dns.ClassINET`. -/
def classINET : UInt16 := 1

/-- `dns.RcodeSuccess`. -/
def rcodeSuccess : Nat := 0

/-- `dns.RcodeNameError`. -/
def rcodeNameError : Nat := 3

/-- `dns.Question`; the class is not read. -/
structure Question where
  name : String
  qtype : UInt16
  deriving DecidableEq, Repr

/-- `dns.RR_Header`. -/
structure RRHeader where
  name : String
  rrtype : UInt16
  cls : UInt16
  ttl : UInt32
  deriving DecidableEq, Repr

/-- The records the handler makes. -/
inductive RR where
  | a (hdr : RRHeader) (a : IP)
  | cname (hdr : RRHeader) (target : String)
  | mx (hdr : RRHeader) (mx : String) (preference : UInt16)
  | ns (hdr : RRHeader) (ns : String)
  | srv (hdr : RRHeader) (port priority : UInt16) (target : String) (weight : UInt16)
  | txt (hdr : RRHeader) (txt : List String)
  deriving DecidableEq, Repr

/-- `dns.Msg`, the part the handler reads and writes. -/
structure Msg where
  question : List Question
  answer : List RR
  rcode : Nat
  deriving DecidableEq, Repr

/-- The header of every record made for a question. -/
def header (q : Question) (rrtype : UInt16) : RRHeader := ⟨q.name, rrtype, classINET, 0⟩

/-- The A record for a question. -/
def recordA (q : Question) (ip : IP) : RR := .a (header q typeA) ip

/-! ## The resolver -/

/-- `net.MX`. -/
structure MX where
  host : String
  pref : UInt16

/-- `net.SRV`. -/
structure SRV where
  target : String
  port : UInt16
  priority : UInt16
  weight : UInt16

/-- `net.Resolver`: what each lookup returns, `none` for an error. -/
structure Resolver where
  lookupIPAddr : String → Option (List IP)
  lookupCNAME : String → Option String
  lookupMX : String → Option (List MX)
  lookupNS : String → Option (List String)
  lookupSRV : String → Option (List SRV)
  lookupTXT : String → Option (List String)

/-- A resolver every lookup of which fails. -/
def Resolver.failing : Resolver :=
  ⟨fun _ => none, fun _ => none, fun _ => none, fun _ => none, fun _ => none, fun _ => none⟩

/-- The question types that lead to a lookup. -/
def Question.resolved (q : Question) : Bool :=
  q.qtype ∈ [typeA, typeCNAME, typeMX, typeNS, typeSRV, typeTXT]

/-- The `switch q.Qtype`: the answers of the resolver, `none` for its error. -/
def Resolver.answers (r : Resolver) (q : Question) : Option (List RR) :=
  if q.qtype = typeA then
    -- only IPv4 addresses are passed on
    (r.lookupIPAddr q.name).map (fun ips => (ips.filterMap IP.to4).map (recordA q))
  else if q.qtype = typeCNAME then
    (r.lookupCNAME q.name).map (fun cname => [.cname (header q typeCNAME) cname])
  else if q.qtype = typeMX then
    (r.lookupMX q.name).map (fun records =>
      records.map (fun mx => .mx (header q typeMX) mx.host mx.pref))
  else if q.qtype = typeNS then
    (r.lookupNS q.name).map (fun records => records.map (fun ns => .ns (header q typeNS) ns))
  else if q.qtype = typeSRV then
    (r.lookupSRV q.name).map (fun records =>
      records.map (fun srv =>
        .srv (header q typeSRV) srv.port srv.priority srv.target srv.weight))
  else if q.qtype = typeTXT then
    (r.lookupTXT q.name).map (fun records => [.txt (header q typeTXT) records])
  else some []

/-! ## `addAnswers` -/

/-- `fmt.Sprintf(".%s", zone.Name)`. -/
def Zone.suffix (zone : Zone) : String := "." ++ zone.name

/-- `strings.HasSuffix(q.Name, zoneSuffix)`. -/
def Zone.serves (zone : Zone) (name : String) : Bool := hasSuffix name zone.suffix

/-- The condition on a record, given the name without its zone. -/
def Record.answers (record : Record) (withoutZone : String) : Bool :=
  (record.name ≠ "" && record.name = withoutZone) ||
    (match record.regexp with
      | none => false
      | some matchString => matchString withoutZone)

/-- The first zone that serves the name. -/
def zoneOf (zones : List Zone) (name : String) : Option Zone :=
  zones.find? (fun zone => zone.serves name)

/-- The address a zone has for a name it serves: the first record that
answers, or else the default. -/
def Zone.lookup (zone : Zone) (name : String) : Option IP :=
  match zone.records.find? (fun record => record.answers (trimSuffix name zone.suffix)) with
  | some record => some record.ip
  | none => if IP.equal zone.defaultIP [] then none else some zone.defaultIP

/-- What a zone does to the reply before `addAnswers` returns. -/
def Zone.reply (zone : Zone) (q : Question) (m : Msg) : Msg :=
  if q.qtype ≠ typeA then m
  else
    match zone.lookup q.name with
    | some ip => { m with answer := m.answer ++ [recordA q ip] }
    | none => { m with rcode := rcodeNameError }

/-- A reply under construction and the questions the resolver was asked for. -/
structure Reply where
  msg : Msg
  lookups : List Question
  deriving DecidableEq, Repr

/-- The lookup of a question, if its type has one. -/
def Reply.asking (reply : Reply) (q : Question) : Reply :=
  if q.resolved then { reply with lookups := reply.lookups ++ [q] } else reply

/-- The loop over the questions. -/
def addAnswersLoop (zones : List Zone) (resolver : Resolver) : List Question → Reply → Reply
  | [], reply => reply
  | q :: qs, reply =>
      match zoneOf zones q.name with
      | some zone => { reply with msg := zone.reply q reply.msg }
      | none =>
          match resolver.answers q with
          | none =>
              { reply.asking q with msg := { reply.msg with rcode := rcodeNameError } }
          | some rrs =>
              addAnswersLoop zones resolver qs
                { reply.asking q with msg := { reply.msg with answer := reply.msg.answer ++ rrs } }

/-- `addAnswers(m)`. -/
def addAnswers (zones : List Zone) (resolver : Resolver) (m : Msg) : Reply :=
  addAnswersLoop zones resolver m.question ⟨m, []⟩

/-! ## `addZone` -/

/-- `addZone(req)`: the first zone of that name gives way to `req`, which
inherits its records and not its default. -/
def addZone : List Zone → Zone → List Zone
  | [], req => [req]
  | zone :: zones, req =>
      if zone.name = req.name then { req with records := req.records ++ zone.records } :: zones
      else zone :: addZone zones req

end GvisorTapVsock.Services.Dns
