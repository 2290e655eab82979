/-
GvisorTapVsock.Go.HostPort — texts of the form `host:port`, as three packages
of Go read them.

`net.SplitHostPort` knows brackets around a host and says which rule a text
breaks. `URL.Hostname` and `URL.Port` never fail: what does not look like a port
belongs to the host. `strings.Split` and `strconv.Atoi` know nothing of hosts;
`Atoi` takes a sign and any number that fits in 64 bits, `strconv.ParseUint`
digits only and a number that fits in the bits it is asked for.
-/
import GvisorTapVsock.Go.Map
import GvisorTapVsock.Go.Net

namespace GvisorTapVsock.Go

/-- `strings.Split(s, sep)`, for a separator of one character. -/
def split (s : String) (sep : Char) : List String := (s.toList.splitOn sep).map String.ofList

/-- `strings.LastIndexByte`. -/
def lastIndex? (c : Char) (s : List Char) : Option Nat :=
  (s.reverse.idxOf? c).map (fun i => s.length - 1 - i)

/-! ## Numbers -/

/-- Why a text is not a number. -/
inductive NumErr where
  /-- `ErrSyntax` -/
  | invalid
  /-- `ErrRange` -/
  | range
  deriving DecidableEq

/-- `strconv.NumError` of `Atoi`. -/
structure NumError where
  num : String
  err : NumErr
  deriving DecidableEq

/-- `e.Error()`, where `quote` is `strconv.Quote`. -/
def NumError.error (quote : String → String) (e : NumError) : String :=
  "strconv.Atoi: parsing " ++ quote e.num ++ ": " ++
    match e.err with
    | .invalid => "invalid syntax"
    | .range => "value out of range"

/-- The loop over the digits, with the value so far. -/
def digitsFrom (n : Nat) : List Char → Except NumErr Nat
  | [] => .ok n
  | c :: s =>
      match decDigit? c with
      | none => .error .invalid
      -- an overflow is reported before the characters after it are looked at
      | some d => if 2 ^ 64 ≤ n * 10 + d then .error .range else digitsFrom (n * 10 + d) s

/-- `strconv.Atoi` after the sign. -/
def atoiSigned (neg : Bool) (digits : List Char) : Except NumErr Int :=
  if digits = [] then .error .invalid
  else
    match digitsFrom 0 digits with
    | .error e => .error e
    | .ok n =>
        if neg then (if 2 ^ 63 < n then .error .range else .ok (-n))
        else if 2 ^ 63 ≤ n then .error .range else .ok n

/-- `strconv.Atoi(s)`. -/
def atoi (s : String) : Except NumError Int :=
  (match s.toList with
    | '-' :: digits => atoiSigned true digits
    | '+' :: digits => atoiSigned false digits
    | digits => atoiSigned false digits).mapError (fun err => ⟨s, err⟩)

/-- The loop of `strconv.ParseUint` in base 10, with the value so far; `limit`
is the first number that does not fit. -/
def uintFrom (limit n : Nat) : List Char → Except NumErr Nat
  | [] => .ok n
  | c :: s =>
      match decDigit? c with
      | none => .error .invalid
      | some d => if limit ≤ n * 10 + d then .error .range else uintFrom limit (n * 10 + d) s

/-- `strconv.ParseUint(s, 10, bitSize)`. -/
def parseUint (s : String) (bitSize : Nat) : Except NumErr Nat :=
  if s.toList = [] then .error .invalid else uintFrom (2 ^ bitSize) 0 s.toList

/-! ## Addresses -/

/-- `net.AddrError`. -/
structure AddrError where
  err : String
  addr : String
  deriving DecidableEq

/-- `e.Error()`. -/
def AddrError.error (e : AddrError) : String :=
  if e.addr = "" then e.err else "address " ++ e.addr ++ ": " ++ e.err

def missingPort : String := "missing port in address"
def tooManyColons : String := "too many colons in address"

/-- `net.SplitHostPort(hostport)`. -/
def splitHostPort (hostport : String) : Except AddrError (String × String) :=
  let s := hostport.toList
  let addrErr (why : String) : Except AddrError (String × String) := .error ⟨why, hostport⟩
  -- no '[' from `j` on, no ']' from `k` on; the port starts after the last colon, `i`
  let rest (host : List Char) (i j k : Nat) : Except AddrError (String × String) :=
    if '[' ∈ s.drop j then addrErr "unexpected '[' in address"
    else if ']' ∈ s.drop k then addrErr "unexpected ']' in address"
    else .ok (String.ofList host, String.ofList (s.drop (i + 1)))
  match lastIndex? ':' s with
  | none => addrErr missingPort
  | some i =>
      if s.head? = some '[' then
        match s.idxOf? ']' with
        | none => addrErr "missing ']' in address"
        | some stop =>
            if stop + 1 = s.length then addrErr missingPort
            else if stop + 1 = i then rest ((s.take stop).drop 1) i 1 (stop + 1)
            else if s[stop + 1]? = some ':' then addrErr tooManyColons
            else addrErr missingPort
      else if ':' ∈ s.take i then addrErr tooManyColons
      else rest (s.take i) i 0 0

example : splitHostPort "[fe80::1%eth0]:80" = .ok ("fe80::1%eth0", "80") := by decide
example : splitHostPort "::1:80" = .error ⟨tooManyColons, "::1:80"⟩ := by decide

/-- The parts of a `url.URL` this development reads. -/
structure URL where
  scheme : String
  /-- host or host:port -/
  host : String
  path : String
  /-- `u.Query()` -/
  query : GoMap String (List String)

namespace URL

/-- Host and port, where a port is a colon and digits, or a colon alone. -/
def hostPort (u : URL) : List Char × List Char :=
  let s := u.host.toList
  match lastIndex? ':' s with
  | none => (s, [])
  | some colon =>
      if (s.drop (colon + 1)).all (fun c => (decDigit? c).isSome) then
        (s.take colon, s.drop (colon + 1))
      else (s, [])

/-- `u.Hostname()`: brackets around the host go. -/
def hostname (u : URL) : String :=
  let host := u.hostPort.1
  String.ofList
    (if host.head? = some '[' ∧ host.getLast? = some ']' then (host.drop 1).dropLast else host)

/-- `u.Port()`. -/
def port (u : URL) : String := String.ofList u.hostPort.2

end URL

/-- `values.Get(key)`, the first value of a key or nothing. -/
def getQuery (query : GoMap String (List String)) (key : String) : String :=
  ((query.lookup key).getD []).headD ""

end GvisorTapVsock.Go
