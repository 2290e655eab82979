/-
GvisorTapVsock.Cmd.Main — the life of a gvproxy process (`main`, `run` and
`httpServe` in `cmd/gvproxy/main.go`).

`main` parses its flags, checks its variables, writes the pid file and starts an
errgroup. The first function of the group, `run`, opens the listeners and starts
the others: an accept loop or a server for each listener and, for most of them,
a function that closes the listener when the context is done. `main` waits for
all of them. A run here is one without a panic.

`outcome` is what a function of the group may do next, given whether the
context is done and which listeners are closed; a choice stands for what the
outside does. `Process.step` interleaves them.

`defer os.Exit(exitCode)` evaluates its argument when it is executed, so the
value that `main` gives `exitCode` at its end is not the one it exits with.
-/
import GvisorTapVsock.Cmd.Gvproxy
import GvisorTapVsock.Go.HostPort
import GvisorTapVsock.Lts.Group
import GvisorTapVsock.Lts.Measure
import GvisorTapVsock.Tap.Protocols

namespace GvisorTapVsock.Cmd.Gvproxy

open GvisorTapVsock.Go GvisorTapVsock.Lts GvisorTapVsock.Tap

/-! ## The checks -/

/-- What `exitWithError` reports. -/
inductive MainError where
  /-- "invalid value for listen-…" -/
  | invalidValue (flag err : String)
  /-- "listen-… must be …:// address" -/
  | wrongScheme (flag scheme : String)
  /-- "… already exists" -/
  | alreadyExists (path : String)
  /-- "cannot use … and … protocol at the same time" -/
  | together (protocol protocol' : String)
  /-- "ssh-port value must be between 1024 and 65535" -/
  | sshPort
  /-- "-forward-sock, --forward-dest, --forward-user, and --forward-identity
  must all be specified together, the same number of times, or not at all" -/
  | forwards
  /-- "Identity file … can't be loaded" -/
  | identity (file err : String)
  | pidFile (err : String)
  deriving DecidableEq

/-- What `main` asks the system: `url.Parse`, `os.Stat`, and the two calls for
the pid file; `none` is success. -/
structure Host where
  parse : String → Except String URL
  stat : String → Option String
  create : String → Option String
  writePid : String → Option String

/-- The check of `-listen-qemu`: a path that exists is refused for `unix`
only. -/
def checkQemu (h : Host) (socket : String) : Except MainError Unit :=
  if socket = "" then .ok ()
  else
    match h.parse socket with
    | .error err => .error (.invalidValue "qemu" err)
    | .ok uri =>
        if h.stat uri.path = none ∧ uri.scheme = "unix" then .error (.alreadyExists uri.path)
        else .ok ()

/-- A socket that must have a scheme and a path that does not exist. -/
def checkSocket (h : Host) (flag scheme socket : String) : Except MainError Unit :=
  if socket = "" then .ok ()
  else
    match h.parse socket with
    | .error err => .error (.invalidValue flag err)
    | .ok uri =>
        if uri.scheme ≠ scheme then .error (.wrongScheme flag scheme)
        else if h.stat uri.path = none then .error (.alreadyExists uri.path)
        else .ok ()

def checkBess (h : Host) (socket : String) : Except MainError Unit :=
  checkSocket h "bess" "unixpacket" socket

def checkVfkit (h : Host) (socket : String) : Except MainError Unit :=
  checkSocket h "vfkit" "unixgram" socket

/-- The three pairs of protocols that exclude each other. -/
def checkTogether (g : Globals) : Except MainError Unit :=
  if g.vpnkitSocket ≠ "" ∧ g.qemuSocket ≠ "" then .error (.together "qemu" "vpnkit")
  else if g.vpnkitSocket ≠ "" ∧ g.bessSocket ≠ "" then .error (.together "bess" "vpnkit")
  else if g.qemuSocket ≠ "" ∧ g.bessSocket ≠ "" then .error (.together "qemu" "bess")
  else .ok ()

def checkSshPort (sshPort : Int64) : Except MainError Unit :=
  if sshPort < 1024 ∨ 65535 < sshPort then .error .sshPort else .ok ()

/-- The loop over the identity files. -/
def checkIdentities (h : Host) : List String → Except MainError Unit
  | [] => .ok ()
  | file :: files =>
      match h.stat file with
      | some err => .error (.identity file err)
      | none => checkIdentities h files

def checkForwards (h : Host) (g : Globals) : Except MainError Unit :=
  if g.forwardSocket.length ≠ g.forwardDest.length ∨
      g.forwardSocket.length ≠ g.forwardUser.length ∨
      g.forwardSocket.length ≠ g.forwardIdentify.length then .error .forwards
  else checkIdentities h g.forwardIdentify

/-- Everything `main` checks before it writes the pid file. -/
def check (h : Host) (g : Globals) : Except MainError Unit := do
  checkQemu h g.qemuSocket
  checkBess h g.bessSocket
  checkVfkit h g.vfkitSocket
  checkTogether g
  checkSshPort g.sshPort
  checkForwards h g

/-- The protocol of the configuration; the last assignment wins. -/
def protocol (g : Globals) : Protocol :=
  if g.vfkitSocket ≠ "" then .vfkitProtocol
  else if g.bessSocket ≠ "" then .bessProtocol
  else if g.qemuSocket ≠ "" then .qemuProtocol
  else .hyperKitProtocol

/-! ## The functions of the group -/

/-- The sockets that take one machine. -/
inductive Socket where
  | qemu
  | bess
  | vfkit
  deriving DecidableEq, Repr

/-- What gvproxy listens on. -/
inductive Listener where
  /-- port 53 of the gateway -/
  | dnsUDP
  | dnsTCP
  | dhcp
  /-- a port of the host: number 0 is the ssh port, which `New` exposes, the
  others are exposed through the API -/
  | exposed (n : Nat)
  | endpoint (i : Nat)
  /-- port 80 of the gateway -/
  | services
  | vpnkit
  | socket (s : Socket)
  | forward (i : Nat)
  deriving DecidableEq, Repr

/-- What `run` does next; the first five are `virtualnetwork.New`. -/
inductive Setup where
  /-- the switch and the stack -/
  | network
  | dnsUDP
  | dnsTCP
  | dhcp
  /-- `forwardHostVM` with its one forward, of the ssh port -/
  | sshPort
  | endpoint (i : Nat)
  | services
  | debug
  | vpnkit
  | socket (s : Socket)
  | stdio
  /-- `-forward-sock` number `i`, which may be a URL -/
  | forward (i : Nat) (url : Bool)
  deriving DecidableEq, Repr

/-- Where an rx loop is: before it looks at the context, or in its read. -/
inductive RxPc where
  | check
  | read
  deriving DecidableEq, Repr

/-- Where `CreateSSHForward` is. A connection is dialled with a timeout; if the
context is done before the first attempt, `initialConnection` returns neither a
connection nor an error, and `CreateBastion` dials under a context of its own.
The handshake has no deadline and looks at no context. -/
inductive CreatePc where
  | listen
  | connect
  | handshake
  deriving DecidableEq, Repr

/-- Where the accept loop of a forward is. `connectForward` dials over the ssh
connection there is and, if it is dead, makes another; how often it tries is
left out. -/
inductive ForwardPc where
  | check
  | accept
  /-- `orphaned` if the connection was made after `forward.Close()`, so that
  nobody closes it -/
  | dial (orphaned : Bool)
  | connect
  | handshake
  deriving DecidableEq, Repr

/-- A function of the group that has not returned. -/
inductive Task where
  | run (rest : List Setup)
  /-- the one that waits for a signal -/
  | signal
  /-- waits for the context and closes a listener -/
  | close (l : Listener)
  /-- `s.Serve(ln)` -/
  | serve (l : Listener)
  | debugLog
  /-- the accept loop, before it looks at the context or in `Accept` -/
  | vpnkitLoop (accepting : Bool)
  /-- `vn.AcceptVpnKit(conn)`, whose rx loop has a context of its own -/
  | vpnkitConn
  /-- waits for its one client -/
  | accept (s : Socket)
  /-- the rx loop of a machine, or of stdio -/
  | rx (s : Option Socket) (pc : RxPc)
  /-- in `CreateSSHForward` -/
  | forwardCreate (i : Nat) (pc : CreatePc)
  /-- the accept loop of a forward -/
  | forwardLoop (i : Nat) (pc : ForwardPc)
  deriving DecidableEq, Repr

/-- What the outside does. -/
inductive Choice where
  /-- nothing that matters -/
  | go
  /-- the call at hand fails -/
  | fail (err : String)
  | client
  | frame
  | signal
  deriving DecidableEq, Repr

/-- A step of a function: it goes on or returns, perhaps with an error, and
what it started, opened and closed. `background` are the forwards for which it
started a goroutine that closes them and is not of the group. -/
structure Outcome where
  next : Option Task
  err : Option String := none
  starts : List Task := []
  opens : List Listener := []
  closes : List Listener := []
  background : List Nat := []
  deriving DecidableEq

/-- The functions of `httpServe`, and of a socket. -/
def listening (l : Listener) (t : Task) : List Task := [.close l, t]

/-- What a step of `run` starts. -/
def Setup.starts : Setup → List Task
  | .network | .dnsUDP | .dnsTCP | .dhcp | .sshPort => []
  | .endpoint i => listening (.endpoint i) (.serve (.endpoint i))
  | .services => listening .services (.serve .services)
  | .debug => [.debugLog]
  | .vpnkit => [.vpnkitLoop false]
  | .socket s => listening (.socket s) (.accept s)
  | .stdio => [.rx none .check]
  | .forward i _ => [.forwardCreate i .listen]

def Setup.opens : Setup → List Listener
  | .dnsUDP => [.dnsUDP]
  | .dnsTCP => [.dnsTCP]
  | .dhcp => [.dhcp]
  | .sshPort => [.exposed 0]
  | .endpoint i => [.endpoint i]
  | .services => [.services]
  | .vpnkit => [.vpnkit]
  | .socket s => [.socket s]
  | .network | .debug | .stdio | .forward _ _ => []

/-- Whether `run` may return an error here. -/
def Setup.mayFail : Setup → Bool
  | .network | .dnsUDP | .dnsTCP | .dhcp | .sshPort | .endpoint _ | .services | .vpnkit |
    .socket _ => true
  | .debug | .stdio => false
  | .forward _ url => url

/-- The next step of `run`. -/
def runOutcome : List Setup → Choice → Option Outcome
  | [], .go => some { next := none }
  | s :: rest, .go => some { next := some (.run rest), starts := s.starts, opens := s.opens }
  | s :: _, .fail err => if s.mayFail then some { next := none, err := err } else none
  | _, _ => none

/-- A loop that looks at the context before each round. -/
def checkOutcome (cancelled : Bool) (round : Task) : Choice → Option Outcome
  | .go => if cancelled then some { next := none } else some { next := some round }
  | _ => none

/-- A function that does one thing when the context is done; the error is that
of its last call. -/
def onDone (cancelled : Bool) (closes : List Listener) (mayFail : Bool) : Choice → Option Outcome
  | .go => if cancelled then some { next := none, closes := closes } else none
  | .fail err =>
      if cancelled ∧ mayFail then some { next := none, err := err, closes := closes } else none
  | _ => none

/-- What a function of the group may do next. -/
def outcome (cancelled : Bool) (closed : List Listener) (t : Task) (c : Choice) :
    Option Outcome :=
  match t with
  | .run rest => runOutcome rest c
  | .signal =>
      match c with
      | .signal => some { next := none, err := "signal caught" }
      | _ => onDone cancelled [] false c
  | .close l => onDone cancelled [l] true c
  | .serve _ =>
      match c with
      -- `Serve` never returns without an error
      | .fail err => some { next := none, err := err }
      | _ => none
  | .debugLog => onDone cancelled [] false c
  | .vpnkitLoop false => checkOutcome cancelled (.vpnkitLoop true) c
  | .vpnkitLoop true =>
      match c with
      | .client => some { next := some (.vpnkitLoop false), starts := [.vpnkitConn] }
      | .fail _ => some { next := some (.vpnkitLoop false) }
      | _ => none
  | .vpnkitConn =>
      match c with
      | .frame => some { next := some .vpnkitConn }
      | .fail _ => some { next := none }
      | _ => none
  | .accept s =>
      match c with
      | .client => if .socket s ∈ closed then none else some { next := some (.rx s .check) }
      | .fail err => some { next := none, err := err }
      | _ => none
  | .rx s .check => checkOutcome cancelled (.rx s .read) c
  | .rx s .read =>
      match c with
      | .frame =>
          -- the connection of vfkit is its listening socket
          if s = some .vfkit ∧ .socket .vfkit ∈ closed then none
          else some { next := some (.rx s .check) }
      | .fail err => some { next := none, err := err }
      | _ => none
  | .forwardCreate i .listen =>
      match c with
      | .go => some { next := some (.forwardCreate i .connect), opens := [.forward i] }
      | .fail err => some { next := none, err := err }
      | _ => none
  -- from here on an error leaves the listener open
  | .forwardCreate i .connect =>
      match c with
      | .go => some { next := some (.forwardCreate i .handshake) }
      | .fail err => some { next := none, err := err }
      | _ => none
  | .forwardCreate i .handshake =>
      match c with
      | .go => some { next := some (.forwardLoop i .check), background := [i] }
      | .fail err => some { next := none, err := err }
      | _ => none
  | .forwardLoop i .check => checkOutcome cancelled (.forwardLoop i .accept) c
  | .forwardLoop i .accept =>
      match c with
      | .client =>
          if .forward i ∈ closed then none else some { next := some (.forwardLoop i (.dial false)) }
      | .fail _ => some { next := some (.forwardLoop i .check) }
      | _ => none
  | .forwardLoop i (.dial _) =>
      match c with
      -- the tunnel is there, or it has been given up
      | .go => some { next := some (.forwardLoop i .check) }
      | .fail _ =>
          some { next := some (.forwardLoop i (if cancelled then .check else .connect)) }
      | _ => none
  | .forwardLoop i .connect =>
      match c with
      | .go => some { next := some (.forwardLoop i .handshake) }
      | .fail _ => some { next := some (.forwardLoop i .check) }
      | _ => none
  | .forwardLoop i .handshake =>
      match c with
      | .go => some { next := some (.forwardLoop i (.dial (decide (.forward i ∈ closed)))) }
      | .fail _ =>
          some { next := some (.forwardLoop i (if cancelled then .check else .connect)) }
      | _ => none

/-! ## The process -/

/-- How a process ended, and whether it left its pid file. -/
structure Exit where
  status : Nat
  pidFile : Bool
  deriving DecidableEq, Repr

structure Process where
  group : Group Task String
  opened : List Listener
  /-- what the group, the goroutines of the forwards and the API have closed -/
  closed : List Listener
  /-- the forwards that were created and whose closing goroutine waits for the
  context -/
  background : List Nat
  exitCode : Nat
  /-- the argument of the deferred `os.Exit` -/
  deferredExit : Nat
  pidFile : Bool
  exited : Option Exit
  deriving DecidableEq

inductive ProcessEvent where
  | task (k : Nat) (c : Choice)
  /-- `forward.Close()` in its own goroutine -/
  | closeForward (k : Nat)
  /-- a request of a client of the API, whose connection outlives its server -/
  | expose (n : Nat)
  | unexpose (n : Nat)
  /-- `groupErrs.Wait()` returns and `main` ends; `removed` says whether the pid
  file could be removed -/
  | exit (removed : Bool)
  deriving DecidableEq, Repr

/-- Where the API is served. -/
def Listener.isAPI : Listener → Bool
  | .endpoint _ | .services => true
  | .dnsUDP | .dnsTCP | .dhcp | .exposed _ | .vpnkit | .socket _ | .forward _ => false

def Process.move (p : Process) (k : Nat) (o : Outcome) : Process :=
  { p with
    group := p.group.move k o.next o.starts o.err
    opened := p.opened ++ o.opens
    closed := p.closed ++ o.closes
    background := p.background ++ o.background }

def Process.step (p : Process) (e : ProcessEvent) : Option Process :=
  if p.exited.isSome then none
  else
    match e with
    | .task k c =>
        match p.group.tasks[k]? with
        | none => none
        | some t => (outcome p.group.cancelled p.closed t c).map (p.move k)
    | .closeForward k =>
        match p.background[k]? with
        | none => none
        | some i =>
            if p.group.cancelled then
              some { p with
                background := p.background.eraseIdx k
                closed := p.closed ++ [.forward i] }
            else none
    | .expose n =>
        if p.opened.any Listener.isAPI ∧ .exposed n ∉ p.opened then
          some { p with opened := p.opened ++ [.exposed n] }
        else none
    | .unexpose n =>
        if p.opened.any Listener.isAPI ∧ .exposed n ∈ p.opened then
          some { p with closed := p.closed ++ [.exposed n] }
        else none
    | .exit removed =>
        if p.group.tasks = [] then
          some { p with
            exitCode := if p.group.err.isSome then 1 else p.exitCode
            exited := some ⟨p.deferredExit, p.pidFile && !removed⟩ }
        else none

/-- A step that is made only for a flag that was given. -/
def Setup.when (given : Bool) (s : Setup) : List Setup := if given then [s] else []

/-- The forwards, by number. -/
def forwardSetups (forwardSocket : List String) : List Setup :=
  forwardSocket.zipIdx.map fun p => .forward p.2 (decide ("://".toList <:+: p.1.toList))

/-- The steps of `run`, from the variables. -/
def setups (g : Globals) : List Setup :=
  [.network, .dnsUDP, .dnsTCP, .dhcp, .sshPort] ++
    (List.range g.endpoints.length).map Setup.endpoint ++ .services ::
    List.flatten [Setup.debug.when g.debug, Setup.vpnkit.when (g.vpnkitSocket ≠ ""),
      (Setup.socket .qemu).when (g.qemuSocket ≠ ""),
      (Setup.socket .bess).when (g.bessSocket ≠ ""),
      (Setup.socket .vfkit).when (g.vfkitSocket ≠ ""),
      Setup.stdio.when (g.stdioSocket ≠ ""), forwardSetups g.forwardSocket]

/-- The group with its first two functions. -/
def Process.started (g : Globals) : Process where
  group := ⟨[.run (setups g), .signal], none, false⟩
  opened := []
  closed := []
  background := []
  exitCode := 0
  deferredExit := 0
  pidFile := decide (g.pidFile ≠ "")
  exited := none

/-- `main` behind `flag.Parse`, up to its `Wait`: it has ended, or the group
runs. -/
def start (h : Host) (g : Globals) : Except Exit Process :=
  if g.showVersion then .error ⟨0, false⟩
  else
    match check h g with
    | .error _ => .error ⟨1, false⟩
    | .ok () =>
        if g.pidFile ≠ "" ∧ h.create g.pidFile ≠ none then .error ⟨1, false⟩
        -- `os.Exit` runs no deferred call, so the file stays
        else if g.pidFile ≠ "" ∧ h.writePid g.pidFile ≠ none then .error ⟨1, true⟩
        else .ok (Process.started g)

/-- `main`, up to its `Wait`, on a command line. `flag.Parse` exits with 0 after
the help text and with 2 after any other error; a panic while the flags are
registered would exit with 2 as well. -/
def main (h : Host) (args : List String) : Except Exit Process :=
  match flagParse args with
  | none => .error ⟨2, false⟩
  | some (.error err) => .error ⟨if err = .help then 0 else 2, false⟩
  | some (.ok (s, _)) => start h (globals s)

end GvisorTapVsock.Cmd.Gvproxy
