/-
GvisorTapVsock.VirtualNetwork.Connect — the `/connect` handler of `mux.go`,
and the HTTP server in front of it.

The server is `net/http`, of which only this is assumed: it reads the
connection through a `bufio.Reader`, takes the request off it, may read ahead
before the handler runs (it does, for one byte, to notice a closed
connection), and `Hijack` returns the connection together with that reader and
whatever is still buffered in it.

The handler flushes the writer of the `bufio.ReadWriter` and hands the
CONNECTION to `Switch.Accept`, which reads it through a reader of its own.
-/
import GvisorTapVsock.Tap.FramingTheorems

namespace GvisorTapVsock.VirtualNetwork

open GvisorTapVsock.Go
open GvisorTapVsock.Tap

/-! ## The server -/

/-- A `net.Conn` that is read from: the results of the reads still to come. -/
abbrev Conn := List (List UInt8)

/-- The server takes `n` bytes of request off its reader and reads ahead
`background` more times: the request, and the reader when the handler runs. -/
def readRequest (n background : Nat) (conn : Conn) : Option (List UInt8 × Reader) :=
  ((Reader.newReader conn).readFull n).map
    (fun (request, r) => (request, Reader.fill^[background] r))

/-- `bufio.ReadWriter`: the server's reader, and how flushing the writer fails. -/
structure BufReadWriter where
  reader : Reader
  flush : Option String

/-- `http.ResponseWriter`: nothing where it is no `http.Hijacker`, and the
results of `Hijack` otherwise. -/
structure ResponseWriter where
  hijack : Option (Except String (Conn × BufReadWriter))

/-- The writer of a server that can be hijacked. -/
def responseWriter (server : Reader) (flush : Option String) : ResponseWriter :=
  ⟨some (.ok (server.reads, ⟨server, flush⟩))⟩

/-! ## The handler -/

/-- `http.StatusInternalServerError`. -/
def statusInternalServerError : Nat := 500

/-- How the handler ends: in `http.Error`, or in `Accept` on a connection. -/
inductive ConnectResult where
  | httpError (error : String) (code : Nat)
  | accept (conn : Conn) (protocol : Protocol)

/-- The handler of `types.ConnectPath`. -/
def connectHandler (protocol : Protocol) (w : ResponseWriter) : ConnectResult :=
  match w.hijack with
  | none => .httpError "webserver doesn't support hijacking" statusInternalServerError
  | some (.error err) => .httpError err statusInternalServerError
  | some (.ok (conn, bufrw)) =>
      match bufrw.flush with
      | some err => .httpError err statusInternalServerError
      -- `bufrw.Reader` is not looked at
      | none => .accept conn protocol

/-- What `rxStream` decodes on the connection that was accepted: the frames,
and the bytes left at the read error. -/
def ConnectResult.rxFrames : ConnectResult → Option (List (List UInt8) × List UInt8)
  | .httpError _ _ => none
  | .accept conn protocol =>
      (protocolImplementation protocol).streamProtocol?.map (fun p => Tap.rxFrames p conn)

end GvisorTapVsock.VirtualNetwork
