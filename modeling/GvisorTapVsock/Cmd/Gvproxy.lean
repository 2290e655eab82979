/-
GvisorTapVsock.Cmd.Gvproxy — the flags of `cmd/gvproxy/main.go`.

`main` registers each flag with the package variable it sets; a variable of type
`arrayFlags` collects the values of a flag that is given several times.
-/
import GvisorTapVsock.Go.Flag

namespace GvisorTapVsock.Cmd.Gvproxy

open GvisorTapVsock.Go

/-- The variables that flags set. -/
inductive Variable where
  /-- `version.showVersion` -/
  | showVersion
  | endpoints
  | debug
  | mtu
  | sshPort
  | vpnkitSocket
  | qemuSocket
  | bessSocket
  | stdioSocket
  | vfkitSocket
  | forwardSocket
  | forwardDest
  | forwardUser
  | forwardIdentify
  | pidFile
  deriving DecidableEq

/-- The type of a variable. -/
@[reducible] def Variable.type : Variable → Type
  | .showVersion => Bool
  | .endpoints => List String
  | .debug => Bool
  | .mtu => Int64
  | .sshPort => Int64
  | .vpnkitSocket => String
  | .qemuSocket => String
  | .bessSocket => String
  | .stdioSocket => String
  | .vfkitSocket => String
  | .forwardSocket => List String
  | .forwardDest => List String
  | .forwardUser => List String
  | .forwardIdentify => List String
  | .pidFile => String

/-- `arrayFlags.Set`. -/
def arraySet (i : List String) (value : String) : Except Flag.SetError (List String) :=
  .ok (i ++ [value])

/-- The `Set` of each variable's type. -/
def set : (i : Variable) → i.type → String → Except Flag.SetError i.type
  | .showVersion, _, text => Flag.boolSet text
  | .endpoints, values, text => arraySet values text
  | .debug, _, text => Flag.boolSet text
  | .mtu, _, text => Flag.intSet text
  | .sshPort, _, text => Flag.intSet text
  | .vpnkitSocket, _, text => Flag.stringSet text
  | .qemuSocket, _, text => Flag.stringSet text
  | .bessSocket, _, text => Flag.stringSet text
  | .stdioSocket, _, text => Flag.stringSet text
  | .vfkitSocket, _, text => Flag.stringSet text
  | .forwardSocket, values, text => arraySet values text
  | .forwardDest, values, text => arraySet values text
  | .forwardUser, values, text => arraySet values text
  | .forwardIdentify, values, text => arraySet values text
  | .pidFile, _, text => Flag.stringSet text

def isBoolFlag : Variable → Bool
  | .showVersion => true
  | .debug => true
  | _ => false

/-- The calls of the `flag` package in `main`, `version.AddFlag` first. -/
def registrations : List (String × Variable) :=
  [("version", .showVersion), ("listen", .endpoints), ("debug", .debug), ("mtu", .mtu),
    ("ssh-port", .sshPort), ("listen-vpnkit", .vpnkitSocket), ("listen-qemu", .qemuSocket),
    ("listen-bess", .bessSocket), ("listen-stdio", .stdioSocket), ("listen-vfkit", .vfkitSocket),
    ("forward-sock", .forwardSocket), ("forward-dest", .forwardDest),
    ("forward-user", .forwardUser), ("forward-identity", .forwardIdentify),
    ("pid-file", .pidFile)]

/-- The defaults. -/
def defaults : (i : Variable) → i.type
  | .showVersion => false
  | .endpoints => []
  | .debug => false
  | .mtu => 1500
  | .sshPort => 2222
  | .vpnkitSocket => ""
  | .qemuSocket => ""
  | .bessSocket => ""
  | .stdioSocket => ""
  | .vfkitSocket => ""
  | .forwardSocket => []
  | .forwardDest => []
  | .forwardUser => []
  | .forwardIdentify => []
  | .pidFile => ""

/-- The flags of `main`, under the names they have been registered with. -/
def flagSet (formal : GoMap String Variable) : Flag.FlagSet Variable.type :=
  { formal := formal, isBoolFlag := isBoolFlag, set := set }

/-- The flag set when `main` calls `flag.Parse`; nothing is a panic while the
flags are registered. -/
def commandLine : Option (Flag.FlagSet Variable.type) :=
  (Flag.formalOf registrations).map flagSet

/-- `flag.Parse()` on the given arguments. -/
def flagParse (args : List String) :
    Option (Except Flag.ParseError (Flag.State Variable.type × List String)) :=
  commandLine.map (fun f => Flag.parse f { values := defaults, actual := [] } args)

/-- The variables, as `main` reads them after `flag.Parse`. -/
structure Globals where
  showVersion : Bool
  endpoints : List String
  debug : Bool
  mtu : Int64
  sshPort : Int64
  vpnkitSocket : String
  qemuSocket : String
  bessSocket : String
  stdioSocket : String
  vfkitSocket : String
  forwardSocket : List String
  forwardDest : List String
  forwardUser : List String
  forwardIdentify : List String
  pidFile : String
  deriving DecidableEq

def globals (s : Flag.State Variable.type) : Globals :=
  { showVersion := s.values .showVersion
    endpoints := s.values .endpoints
    debug := s.values .debug
    mtu := s.values .mtu
    sshPort := s.values .sshPort
    vpnkitSocket := s.values .vpnkitSocket
    qemuSocket := s.values .qemuSocket
    bessSocket := s.values .bessSocket
    stdioSocket := s.values .stdioSocket
    vfkitSocket := s.values .vfkitSocket
    forwardSocket := s.values .forwardSocket
    forwardDest := s.values .forwardDest
    forwardUser := s.values .forwardUser
    forwardIdentify := s.values .forwardIdentify
    pidFile := s.values .pidFile }

example : (flagParse ["-listen", "-debug", "--mtu=0x10", "vm", "-debug"]).map
    (fun r => r.toOption.map (fun p => (globals p.1, p.2))) =
      some (some ({ globals ⟨defaults, []⟩ with endpoints := ["-debug"], mtu := 16 },
        ["vm", "-debug"])) := by
  decide +kernel

end GvisorTapVsock.Cmd.Gvproxy
