/-
GvisorTapVsock.Transport.Tunnel — the handshake of a tunnel: `Tunnel` of
`pkg/transport/tunnel.go` at one end of a connection, `net/http` and the
handler of `/tunnel` at the other.

The client writes a request, then reads two bytes, and is done if they are
`OK`. The server reads the connection through a `bufio.Reader`, and goes on
reading while the handler runs; once the handler has hijacked the connection,
it writes `OK`, dials, and copies what it reads from the connection ITSELF.
What the reader has taken beyond the request by then is lost.

`Session.step` interleaves the two ends, the bytes under way, and the
destination in every way. The query of the request is made of the arguments
with `Sprintf`, unescaped; `parseQuery` is how the server takes it apart.
-/
import GvisorTapVsock.Go.Strconv
import GvisorTapVsock.Lts.Run
import GvisorTapVsock.VirtualNetwork.Addresses

namespace GvisorTapVsock.Transport

open GvisorTapVsock.Go GvisorTapVsock.VirtualNetwork

/-! ## The query -/

/-- What follows the question mark in
`fmt.Sprintf("/tunnel?ip=%s&port=%d", ip, port)`. -/
def tunnelQuery (ip : String) (port : Int) : List Char :=
  "ip=".toList ++ ip.toList ++ '&' :: "port=".toList ++ (itoa port).toList

/-- `strings.Cut(s, "=")`, without the separator. -/
def cutEq (s : List Char) : List Char × List Char :=
  (s.takeWhile (· ≠ '='), (s.dropWhile (· ≠ '=')).drop 1)

/-- One piece of a query; `unescape` is `url.QueryUnescape`. -/
def parsePiece (unescape : List Char → Option (List Char)) (m : GoMap String (List String))
    (piece : List Char) : GoMap String (List String) :=
  if ';' ∈ piece ∨ piece = [] then m
  else
    match unescape (cutEq piece).1, unescape (cutEq piece).2 with
    | some key, some value =>
        m.insert (String.ofList key)
          ((m.lookup (String.ofList key)).getD [] ++ [String.ofList value])
    | _, _ => m

/-- `r.URL.Query()`, from the raw query; pieces with an error are dropped. -/
def parseQuery (unescape : List Char → Option (List Char)) (raw : List Char) :
    GoMap String (List String) :=
  (raw.splitOn '&').foldl (parsePiece unescape) ∅

/-- What the handler checks before it hijacks the connection. -/
def tunnelTarget (quote : String → String) (query : GoMap String (List String)) :
    Except String (String × Int) :=
  if getQuery query "ip" = "" then .error "ip is mandatory"
  else
    match atoi (getQuery query "port") with
    | .error e => .error (e.error quote)
    | .ok port => .ok (getQuery query "ip", port)

/-! ## The two ends -/

/-- Where the call of `Tunnel` is. -/
inductive ClientPc where
  /-- in `req.Write(conn)` -/
  | writing
  /-- in `io.ReadFull(conn, ok)` -/
  | reading
  /-- with or without an error -/
  | returned (ok : Bool)
  deriving DecidableEq, Repr

/-- Where the server is. -/
inductive ServerPc where
  /-- `net/http` reads the request -/
  | serving
  /-- the handler runs, and `net/http` still reads -/
  | running
  | hijacked
  /-- `OK` is written, and `HandleConn` dials -/
  | dialling
  | copying
  /-- the handler has returned -/
  | gone
  deriving DecidableEq, Repr

/-- What is fixed for a connection. -/
structure Exchange where
  request : List UInt8
  /-- `tunnelTarget` of the query in it -/
  target : Except String (String × Int)
  /-- what follows `HTTP/` in the response to an error -/
  status : List UInt8
  request_ne : request ≠ []

/-- The query passes the checks of the handler. -/
def Exchange.accepted (x : Exchange) : Bool := x.target.isOk

/-- `http.Error(w, err.Error(), http.StatusInternalServerError)` -/
def Exchange.response (x : Exchange) : List UInt8 := [72, 84, 84, 80, 47] ++ x.status

/-- `[]byte("OK")` -/
def okBytes : List UInt8 := [79, 75]

/-- The two ends, and what is under way between them. -/
structure Session where
  client : ClientPc
  /-- what is left of the request -/
  unsent : List UInt8
  /-- what `ReadFull` has read -/
  got : List UInt8
  /-- what the caller of `Tunnel` has written since -/
  sent : List UInt8
  /-- what the caller of `Tunnel` has read since -/
  received : List UInt8
  /-- what is in the connection; nobody reads it any more once the server is
  gone -/
  toServer : List UInt8
  toClient : List UInt8
  server : ServerPc
  /-- what the server's `bufio.Reader` has taken -/
  buffer : List UInt8
  /-- what the handler has written -/
  greeting : List UInt8
  /-- what was copied to the destination -/
  forwarded : List UInt8
  /-- what was copied from the destination -/
  answered : List UInt8
  deriving DecidableEq, Repr

def Session.start (x : Exchange) : Session where
  client := .writing
  unsent := x.request
  got := []
  sent := []
  received := []
  toServer := []
  toClient := []
  server := .serving
  buffer := []
  greeting := []
  forwarded := []
  answered := []

inductive TunnelEvent where
  /-- the client writes bytes of the request -/
  | write (n : Nat)
  /-- the client reads bytes of the answer -/
  | read (n : Nat)
  /-- the client meets the end of the stream -/
  | eof
  /-- a write or a read of the client fails -/
  | fail
  /-- the caller of `Tunnel` writes -/
  | send (bytes : List UInt8)
  /-- the caller of `Tunnel` reads -/
  | receive (n : Nat)
  /-- the server's `bufio.Reader` reads -/
  | fill (n : Nat)
  /-- the request is complete, and the handler starts -/
  | handle
  /-- the handler ends in `http.Error` before it has the connection -/
  | refuse
  | hijack
  | writeOK
  /-- `Flush` or the write of `OK` fails, after some bytes -/
  | writeFails (n : Nat)
  | dialled
  /-- the dial fails, or `AddrFrom4Slice` panics -/
  | dialFails
  /-- bytes are copied from the connection to the destination -/
  | forward (n : Nat)
  /-- bytes are copied from the destination to the connection -/
  | answer (bytes : List UInt8)
  /-- `HandleConn` returns -/
  | close
  deriving DecidableEq, Repr

/-- `ReadFull` after a read: done after two bytes. -/
def afterRead (got : List UInt8) : ClientPc :=
  if got.length = 2 then .returned (decide (got = okBytes)) else .reading

def Session.step (x : Exchange) (s : Session) : TunnelEvent → Option Session
  | .write n =>
      if s.client = .writing ∧ 0 < n ∧ n ≤ s.unsent.length then
        some { s with
          toServer := s.toServer ++ s.unsent.take n
          unsent := s.unsent.drop n
          client := if n = s.unsent.length then .reading else .writing }
      else none
  | .read n =>
      if s.client = .reading ∧ 0 < n ∧ s.got.length + n ≤ 2 ∧ n ≤ s.toClient.length then
        some { s with
          got := s.got ++ s.toClient.take n
          toClient := s.toClient.drop n
          client := afterRead (s.got ++ s.toClient.take n) }
      else none
  | .eof =>
      if s.client = .reading ∧ s.server = .gone ∧ s.toClient = [] then
        some { s with client := .returned false }
      else none
  | .fail =>
      if s.client = .writing ∨ s.client = .reading then
        some { s with client := .returned false }
      else none
  | .send bytes =>
      if s.client = .returned true then
        some { s with sent := s.sent ++ bytes, toServer := s.toServer ++ bytes }
      else none
  | .receive n =>
      if s.client = .returned true ∧ 0 < n ∧ n ≤ s.toClient.length then
        some { s with
          received := s.received ++ s.toClient.take n
          toClient := s.toClient.drop n }
      else none
  | .fill n =>
      if (s.server = .serving ∨ s.server = .running) ∧ 0 < n ∧ n ≤ s.toServer.length then
        some { s with
          buffer := s.buffer ++ s.toServer.take n
          toServer := s.toServer.drop n }
      else none
  | .handle =>
      if s.server = .serving ∧ x.request <+: s.buffer then some { s with server := .running }
      else none
  | .refuse =>
      if s.server = .running then
        some { s with
          server := .gone
          greeting := x.response
          toClient := s.toClient ++ x.response }
      else none
  | .hijack =>
      if s.server = .running ∧ x.accepted = true then some { s with server := .hijacked }
      else none
  | .writeOK =>
      if s.server = .hijacked then
        some { s with
          server := .dialling
          greeting := okBytes
          toClient := s.toClient ++ okBytes }
      else none
  | .writeFails n =>
      if s.server = .hijacked ∧ n < 2 then
        some { s with
          server := .gone
          greeting := okBytes.take n
          toClient := s.toClient ++ okBytes.take n }
      else none
  | .dialled => if s.server = .dialling then some { s with server := .copying } else none
  | .dialFails => if s.server = .dialling then some { s with server := .gone } else none
  | .forward n =>
      if s.server = .copying ∧ 0 < n ∧ n ≤ s.toServer.length then
        some { s with
          forwarded := s.forwarded ++ s.toServer.take n
          toServer := s.toServer.drop n }
      else none
  | .answer bytes =>
      if s.server = .copying then
        some { s with answered := s.answered ++ bytes, toClient := s.toClient ++ bytes }
      else none
  | .close => if s.server = .copying then some { s with server := .gone } else none

end GvisorTapVsock.Transport
