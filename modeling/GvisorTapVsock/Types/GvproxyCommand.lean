/-
GvisorTapVsock.Types.GvproxyCommand — `pkg/types/gvproxy_command.go`: a gvproxy
command line, put together by calls and printed by `ToCmdline`.

The two maps of a command are printed by ranging over them, so `toCmdline` takes
the orders in which they are visited. A nil map and an empty one print alike
(`checkSocketsInitialized` replaces either before an assignment); both are `∅`.
-/
import GvisorTapVsock.Go.Strconv

namespace GvisorTapVsock.Types

open GvisorTapVsock.Go

/-- `types.GvproxyCommand`. -/
structure GvproxyCommand where
  debug : Bool
  mtu : Int64
  /-- values passed in by `forward-…` flags -/
  forwardInfo : GoMap String (List String)
  endpoints : List String
  /-- the socket of each `listen-…` flag -/
  sockets : GoMap String String
  pidFile : String
  sshPort : Int64

namespace GvproxyCommand

/-- `GvproxyCommand{}`, the zero value. -/
def zero : GvproxyCommand :=
  { debug := false, mtu := 0, forwardInfo := ∅, endpoints := [], sockets := ∅, pidFile := "",
    sshPort := 0 }

/-- `NewGvproxyCommand()`. -/
def newGvproxyCommand : GvproxyCommand := { zero with mtu := 1500, sshPort := 2222 }

/-! ## The calls -/

def checkSocketsInitialized (c : GvproxyCommand) : GvproxyCommand :=
  if c.sockets.keys.length < 1 then { c with sockets := ∅ } else c

def checkForwardInfoInitialized (c : GvproxyCommand) : GvproxyCommand :=
  if c.forwardInfo.keys.length < 1 then { c with forwardInfo := ∅ } else c

def addEndpoint (c : GvproxyCommand) (endpoint : String) : GvproxyCommand :=
  { c with endpoints := (if c.endpoints.length < 1 then [] else c.endpoints) ++ [endpoint] }

/-- The body of the five `Add…Socket`. -/
def addSocket (flag : String) (c : GvproxyCommand) (socket : String) : GvproxyCommand :=
  let c := c.checkSocketsInitialized
  { c with sockets := c.sockets.insert flag socket }

def addVpnkitSocket : GvproxyCommand → String → GvproxyCommand := addSocket "listen-vpnkit"
def addQemuSocket : GvproxyCommand → String → GvproxyCommand := addSocket "listen-qemu"
def addBessSocket : GvproxyCommand → String → GvproxyCommand := addSocket "listen-bess"
def addStdioSocket : GvproxyCommand → String → GvproxyCommand := addSocket "listen-stdio"
def addVfkitSocket : GvproxyCommand → String → GvproxyCommand := addSocket "listen-vfkit"

def addForwardInfo (c : GvproxyCommand) (flag value : String) : GvproxyCommand :=
  { c with
    forwardInfo := c.forwardInfo.insert flag ((c.forwardInfo.lookup flag).getD [] ++ [value]) }

/-- The body of the four `AddForward…`. -/
def addForward (flag : String) (c : GvproxyCommand) (value : String) : GvproxyCommand :=
  c.checkForwardInfoInitialized.addForwardInfo flag value

def addForwardSock : GvproxyCommand → String → GvproxyCommand := addForward "forward-sock"
def addForwardDest : GvproxyCommand → String → GvproxyCommand := addForward "forward-dest"
def addForwardUser : GvproxyCommand → String → GvproxyCommand := addForward "forward-user"
def addForwardIdentity : GvproxyCommand → String → GvproxyCommand := addForward "forward-identity"

/-! ## Printing -/

def socketsToCmdline (c : GvproxyCommand) (order : List String) : List String :=
  order.flatMap (fun socketFlag =>
    match c.sockets.lookup socketFlag with
    | none => []
    | some socket => if socket ≠ "" then ["-" ++ socketFlag, socket] else [])

def forwardInfoToCmdline (c : GvproxyCommand) (order : List String) : List String :=
  order.flatMap (fun forwardInfoFlag =>
    match c.forwardInfo.lookup forwardInfoFlag with
    | none => []
    | some forwardInfo =>
        forwardInfo.flatMap (fun i => if i ≠ "" then ["-" ++ forwardInfoFlag, i] else []))

def endpointsToCmdline (c : GvproxyCommand) : List String :=
  c.endpoints.flatMap (fun endpoint => if endpoint ≠ "" then ["-listen", endpoint] else [])

/-- `c.ToCmdline()`, where `socketOrder` and `forwardOrder` are the orders in
which the two maps are visited. -/
def toCmdline (c : GvproxyCommand) (socketOrder forwardOrder : List String) : List String :=
  c.endpointsToCmdline ++
    (if c.debug then ["-debug"] else []) ++
    ["-mtu", itoa c.mtu.toInt] ++
    ["-ssh-port", itoa c.sshPort.toInt] ++
    c.socketsToCmdline socketOrder ++
    c.forwardInfoToCmdline forwardOrder ++
    (if c.pidFile ≠ "" then ["-pid-file", c.pidFile] else [])

/-! ## Commands that callers build -/

/-- What a caller does to a command: a call, or an assignment to an exported
field. -/
inductive Call where
  | debug (value : Bool)
  | mtu (value : Int64)
  | sshPort (value : Int64)
  | pidFile (value : String)
  | addEndpoint (endpoint : String)
  | addVpnkitSocket (socket : String)
  | addQemuSocket (socket : String)
  | addBessSocket (socket : String)
  | addStdioSocket (socket : String)
  | addVfkitSocket (socket : String)
  | addForwardSock (socket : String)
  | addForwardDest (dest : String)
  | addForwardUser (user : String)
  | addForwardIdentity (identity : String)

def call (c : GvproxyCommand) : Call → GvproxyCommand
  | .debug value => { c with debug := value }
  | .mtu value => { c with mtu := value }
  | .sshPort value => { c with sshPort := value }
  | .pidFile value => { c with pidFile := value }
  | .addEndpoint endpoint => c.addEndpoint endpoint
  | .addVpnkitSocket socket => c.addVpnkitSocket socket
  | .addQemuSocket socket => c.addQemuSocket socket
  | .addBessSocket socket => c.addBessSocket socket
  | .addStdioSocket socket => c.addStdioSocket socket
  | .addVfkitSocket socket => c.addVfkitSocket socket
  | .addForwardSock socket => c.addForwardSock socket
  | .addForwardDest dest => c.addForwardDest dest
  | .addForwardUser user => c.addForwardUser user
  | .addForwardIdentity identity => c.addForwardIdentity identity

/-- A command after some calls. -/
def built (c : GvproxyCommand) (calls : List Call) : GvproxyCommand := calls.foldl call c

end GvproxyCommand

end GvisorTapVsock.Types
