/-
GvisorTapVsock.Sshclient.Bastion — the host key a bastion checks
(`pkg/sshclient/bastion.go`), with `ssh.ParseKnownHosts` of `x/crypto` under it.

`CreateBastion` is modelled up to the `ssh.ClientConfig` that `reconnect`
connects with. What lies outside the repository is an argument: the contents of
`known_hosts`, the parser of base64 public keys, and the text that
`knownhosts.HashHostname` makes of a host and the salt it drew. Of the two
callbacks of `x/crypto`, `FixedHostKey` accepts its key only and
`InsecureIgnoreHostKey` every key.
-/
import GvisorTapVsock.Go.HostPort
import GvisorTapVsock.Go.Strconv
import GvisorTapVsock.Go.Strings

namespace GvisorTapVsock.Sshclient

open GvisorTapVsock.Go

/-! ## Entries of known_hosts -/

/-- An entry; `K` are the public keys. -/
structure KnownHost (K : Type) where
  marker : List Char
  hosts : List String
  pubKey : K
  comment : List Char
  deriving DecidableEq

/-- Why a line holds no entry. -/
inductive KnownHostsError where
  /-- `io.EOF`: a blank line, a comment, or a single word -/
  | eof
  /-- "ssh: invalid entry in known_hosts data" -/
  | invalidEntry
  /-- an error of the public key -/
  | key
  deriving DecidableEq

section Entries

variable {K Salt : Type} (parsePublicKey : List Char → Option K)

/-- A space or a tab. -/
def isBlank (c : Char) : Bool := c = ' ' ∨ c = '\t'

/-- `parseAuthorizedKey(in)`: the key and the comment. -/
def parseAuthorizedKey (input : List Char) : Option (K × List Char) :=
  let input := trimSpace input
  (parsePublicKey (input.takeWhile (fun c => !isBlank c))).map
    (fun key => (key, trimSpace (input.dropWhile (fun c => !isBlank c))))

/-- A marker in front of the fields of an entry. -/
def splitMarker : List (List Char) → List Char × List (List Char)
  | ('@' :: marker) :: keyFields => (marker, keyFields)
  | keyFields => ([], keyFields)

/-- `ssh.ParseKnownHosts(in)` on one line, where its loop runs once. -/
def parseKnownHosts (line : List Char) : Except KnownHostsError (KnownHost K) :=
  let line := trimSpace (line.takeWhile (· ≠ '\r'))
  if line = [] ∨ line.head? = some '#' then .error .eof
  else if ¬ line.any isBlank then .error .eof
  else if (fields line).length < 3 ∨ 5 < (fields line).length then .error .invalidEntry
  else
    match splitMarker (fields line) with
    | (marker, keyFields) =>
        match parseAuthorizedKey parsePublicKey (joinSep ' ' (keyFields.drop 2)) with
        | none => .error .key
        | some (pubKey, comment) =>
            .ok ⟨marker, split (String.ofList (keyFields.headD [])) ',', pubKey, comment⟩

/-! ## Looking up a host -/

variable (hashHostname : String → Salt → String)

/-- The loop of `HostKey`: a line that does not parse is logged and skipped. -/
def hostKeyFrom (host hashhost : String) : List (List Char) → Option K
  | [] => none
  | line :: rest =>
      match parseKnownHosts parsePublicKey line with
      | .error _ => hostKeyFrom host hashhost rest
      | .ok entry =>
          if entry.hosts.any (fun h => decide (h = host ∨ h = hashhost)) then some entry.pubKey
          else hostKeyFrom host hashhost rest

/-- `HostKey(host)`, with the contents of known_hosts (nothing where it cannot
be opened) and the salt that `HashHostname` draws. -/
def hostKey (knownHosts : Option (List Char)) (salt : Salt) (host : String) : Option K :=
  match knownHosts with
  | none => none
  | some content =>
      hostKeyFrom parsePublicKey host (hashHostname host salt) (scanLines content)

/-! ## The bastion -/

/-- `ssh.HostKeyCallback`, of the kinds this package makes. -/
inductive HostKeyCallback (K : Type) where
  | insecureIgnoreHostKey
  | fixedHostKey (key : K)
  deriving DecidableEq

/-- The callback returns nil for the key of a server. -/
def HostKeyCallback.Accepts : HostKeyCallback K → K → Prop
  | .insecureIgnoreHostKey, _ => True
  | .fixedHostKey key, k => k = key

instance [DecidableEq K] (callback : HostKeyCallback K) (k : K) :
    Decidable (callback.Accepts k) := by
  cases callback <;> unfold HostKeyCallback.Accepts <;> infer_instance

/-- `ssh.AuthMethod`, of the kinds this package uses. -/
inductive AuthMethod where
  | publicKeys (identity : String)
  | password (pw : String)
  deriving DecidableEq

/-- `url.Userinfo`; a URL without one has neither. -/
structure Userinfo where
  username : String
  password : Option String

/-- `Bastion`, with the fields of its `Config` that depend on the arguments. -/
structure Bastion (K : Type) where
  user : String
  auth : List AuthMethod
  hostKeyCallback : HostKeyCallback K
  host : String
  port : String
  path : String
  deriving DecidableEq

/-- Why no bastion is created. -/
inductive BastionError where
  /-- "failed to parse identity …" -/
  | identity (identity err : String)
  /-- "No available auth methods" -/
  | noAuthMethods
  deriving DecidableEq

/-- The port of the URL, or the default one. -/
def bastionPort (url : URL) : String := if url.port = "" then "22" else url.port

/-- The name under which `CreateBastion` looks a host up. -/
def knownHostsName (url : URL) : String :=
  if bastionPort url ≠ "22" then "[" ++ url.hostname ++ "]:" ++ bastionPort url else url.hostname

/-- `secure, _ := strconv.ParseBool(_url.Query().Get("secure"))`. -/
def secure (url : URL) : Bool := (parseBool (getQuery url.query "secure")).getD false

/-- The host key callback of `CreateBastion`. -/
def hostKeyCallback (knownHosts : Option (List Char)) (salt : Salt) (url : URL) :
    HostKeyCallback K :=
  if secure url then
    match hostKey parsePublicKey hashHostname knownHosts salt (knownHostsName url) with
    -- the default of the lines above stays
    | none => .insecureIgnoreHostKey
    | some key => .fixedHostKey key
  else .insecureIgnoreHostKey

/-- `authMethods` of `CreateBastion`; `publicKey` is the error of
`PublicKey(identity, passPhrase)`. -/
def authMethods (user : Userinfo) (identity : String) (publicKey : Option String) :
    Except BastionError (List AuthMethod) :=
  let password := user.password.toList.map AuthMethod.password
  if identity = "" then (if password = [] then .error .noAuthMethods else .ok password)
  else
    match publicKey with
    | some err => .error (.identity identity err)
    | none => .ok (.publicKeys identity :: password)

/-- `CreateBastion(_url, passPhrase, identity, …)`. -/
def createBastion (knownHosts : Option (List Char)) (salt : Salt) (url : URL) (user : Userinfo)
    (identity : String) (publicKey : Option String) : Except BastionError (Bastion K) :=
  (authMethods user identity publicKey).map (fun auth =>
    ⟨user.username, auth, hostKeyCallback parsePublicKey hashHostname knownHosts salt url,
      url.hostname, bastionPort url, url.path⟩)

end Entries

end GvisorTapVsock.Sshclient
