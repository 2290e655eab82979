/-
GvisorTapVsock.Go.Net — addresses as Go's `net` has them: `IP`,
`HardwareAddr`, `IPNet`, with the texts they print and parse.

An `IP` is a byte slice; the nil address is the empty one. An IPv4 address
has two forms, four bytes or sixteen with the prefix `::ffff:0:0/96`, which
`Equal` does not tell apart and which print alike. `ParseIP` returns the
sixteen-byte form of either family.

Printing and parsing follow the library's loops on the characters of the
text; the two are inverse to each other (`Go.NetTheorems`).
-/
import Mathlib.Algebra.Group.Nat.Defs
import GvisorTapVsock.Go.Binary

namespace GvisorTapVsock.Go

/-- `net.IP`. -/
abbrev IP := List UInt8

/-- `net.HardwareAddr`. -/
abbrev HardwareAddr := List UInt8

namespace IP

/-- The first twelve bytes of an IPv4 address in sixteen-byte form. -/
def v4InV6 : List UInt8 := [0, 0, 0, 0, 0, 0, 0, 0, 0, 0, 0xff, 0xff]

/-- `ip.To4()`; nil is `none`. -/
def to4 (ip : IP) : Option IP :=
  if ip.length = 4 then some ip
  else if ip.length = 16 ∧ ip.take 12 = v4InV6 then some (ip.drop 12)
  else none

/-- `ip.To16()`; nil is `none`. -/
def to16 (ip : IP) : Option IP :=
  if ip.length = 4 then some (v4InV6 ++ ip)
  else if ip.length = 16 then some ip
  else none

/-- `ip.Equal(x)`. -/
def equal (ip x : IP) : Bool :=
  if ip.length = x.length then decide (ip = x)
  else if ip.length = 4 ∧ x.length = 16 then decide (x.take 12 = v4InV6 ∧ ip = x.drop 12)
  else if ip.length = 16 ∧ x.length = 4 then decide (ip.take 12 = v4InV6 ∧ ip.drop 12 = x)
  else false

end IP

/-! ## Digits -/

/-- The digit characters, `"0123456789abcdef"[d]`. -/
def digitChar (d : Nat) : Char := Char.ofNat (if d < 10 then 48 + d else 87 + d)

/-- The value of a decimal digit. -/
def decDigit? (c : Char) : Option Nat :=
  if '0' ≤ c ∧ c ≤ '9' then some (c.toNat - 48) else none

/-- The value of a hexadecimal digit, of either case. -/
def hexDigit? (c : Char) : Option Nat :=
  if '0' ≤ c ∧ c ≤ '9' then some (c.toNat - 48)
  else if 'a' ≤ c ∧ c ≤ 'f' then some (c.toNat - 87)
  else if 'A' ≤ c ∧ c ≤ 'F' then some (c.toNat - 55)
  else none

/-- The bound from which on `dtoi` and `xtoi` give up. -/
def big : Nat := 0xFFFFFF

/-- The loop of `dtoi` and `xtoi`: the value `n` and the count `i` so far. -/
def toiFrom (digit? : Char → Option Nat) (base n i : Nat) : List Char → Option (Nat × Nat)
  | [] => if i = 0 then none else some (n, i)
  | c :: s =>
      match digit? c with
      | none => if i = 0 then none else some (n, i)
      | some d => if big ≤ n * base + d then none else toiFrom digit? base (n * base + d) (i + 1) s

/-- `dtoi(s)`: the value and the number of characters it took; `none` is `!ok`. -/
def dtoi (s : List Char) : Option (Nat × Nat) := toiFrom decDigit? 10 0 0 s

/-- `xtoi(s)`. -/
def xtoi (s : List Char) : Option (Nat × Nat) := toiFrom hexDigit? 16 0 0 s

/-! ## Printing addresses -/

/-- `appendDecimal`. -/
def decimal (x : Nat) : List Char :=
  (if 100 ≤ x then [digitChar (x / 100)] else []) ++
    (if 10 ≤ x then [digitChar (x / 10 % 10)] else []) ++ [digitChar (x % 10)]

/-- `appendHex`. -/
def hex (x : Nat) : List Char :=
  (if 0x1000 ≤ x then [digitChar (x / 0x1000)] else []) ++
    (if 0x100 ≤ x then [digitChar (x / 0x100 % 16)] else []) ++
    (if 0x10 ≤ x then [digitChar (x / 0x10 % 16)] else []) ++ [digitChar (x % 16)]

/-- Two lower-case hexadecimal digits. -/
def hex2 (b : UInt8) : List Char := [digitChar (b.toNat / 16), digitChar (b.toNat % 16)]

/-- Pieces with a separator between them. -/
def joinSep (sep : Char) : List (List Char) → List Char
  | [] => []
  | [p] => p
  | p :: q :: ps => p ++ sep :: joinSep sep (q :: ps)

/-- The eight 16-bit groups of a sixteen-byte address. -/
def groups : List UInt8 → List Nat
  | hi :: lo :: rest => (256 * hi.toNat + lo.toNat) :: groups rest
  | _ => []

/-- How many groups from the front are zero. -/
def zeros : List Nat → Nat
  | 0 :: gs => zeros gs + 1
  | _ => 0

/-- The loop that looks for the run to elide, from group `i` on: the first of
the longest runs of at least two zero groups. -/
def zeroRun : Nat → Nat × Nat → List Nat → Nat × Nat
  | _, best, [] => best
  | i, best, g :: gs =>
      zeroRun (i + 1)
        (if 2 ≤ zeros (g :: gs) ∧ best.2 - best.1 < zeros (g :: gs)
          then (i, i + zeros (g :: gs)) else best) gs

/-- The text of an IPv6 address, from its groups. -/
def text6 (gs : List Nat) : List Char :=
  match zeroRun 0 (0, 0) gs with
  | (start, stop) =>
      if start = stop then joinSep ':' (gs.map hex)
      else joinSep ':' ((gs.take start).map hex) ++ [':', ':'] ++
        joinSep ':' ((gs.drop stop).map hex)

/-- The text of an IPv4 address. -/
def text4 (ip : IP) : List Char := joinSep '.' (ip.map (fun b => decimal b.toNat))

/-- `ip.String()`. -/
def IP.string (ip : IP) : String :=
  if ip.length = 0 then "<nil>"
  else if ip.length ≠ 4 ∧ ip.length ≠ 16 then String.ofList ('?' :: ip.flatMap hex2)
  else
    match ip.to4 with
    | some p4 => String.ofList (text4 p4)
    | none => String.ofList (text6 (groups ip))

/-- `a.String()`. -/
def HardwareAddr.string (a : HardwareAddr) : String := String.ofList (joinSep ':' (a.map hex2))

/-! ## Parsing addresses -/

/-- One component of `parseIPv4`. -/
def parseOctet (s : List Char) : Option (UInt8 × List Char) :=
  match dtoi s with
  | none => none
  | some (n, c) =>
      if 0xFF < n then none
      -- components with leading zeroes are rejected
      else if 1 < c ∧ s.head? = some '0' then none
      else some (UInt8.ofNat n, s.drop c)

/-- The loop of `parseIPv4`, with `k` components to go after the first. -/
def parseOctets : Nat → List Char → Option (List UInt8 × List Char)
  | 0, s => (parseOctet s).map (fun p => ([p.1], p.2))
  | k + 1, s =>
      match parseOctet s with
      | none => none
      | some (b, '.' :: rest) => (parseOctets k rest).map (fun p => (b :: p.1, p.2))
      | some _ => none

/-- `parseIPv4(s)`, as its four bytes. -/
def parseIPv4 (s : List Char) : Option (List UInt8) :=
  match parseOctets 3 s with
  | some (bs, []) => some bs
  | _ => none

/-- `parseIPv6` after its loop: the bytes read, the position of the ellipsis
and the text left over. -/
def finishIPv6 (bs : List UInt8) (ellipsis : Option Nat) (s : List Char) : Option (List UInt8) :=
  if s ≠ [] then none
  else
    match ellipsis with
    | none => if bs.length < 16 then none else some bs
    | some e =>
        if bs.length < 16 then
          some (bs.take e ++ List.replicate (16 - bs.length) 0 ++ bs.drop e)
        else none

/-- The loop of `parseIPv6`. At most eight groups are read: `fuel` counts them
down. -/
def parseGroups : Nat → List UInt8 → Option Nat → List Char → Option (List UInt8)
  | 0, bs, ellipsis, s => finishIPv6 bs ellipsis s
  | fuel + 1, bs, ellipsis, s =>
      match xtoi s with
      | none => none
      | some (n, c) =>
          if 0xFFFF < n then none
          else if (s.drop c).head? = some '.' then
            -- a trailing IPv4 address
            if ellipsis = none ∧ bs.length ≠ 12 then none
            else if 16 < bs.length + 4 then none
            else
              match parseIPv4 s with
              | none => none
              | some ip4 => finishIPv6 (bs ++ ip4) ellipsis []
          else
            match s.drop c with
            | [] => finishIPv6 (bs ++ beBytes 2 n) ellipsis []
            | ':' :: ':' :: rest =>
                if ellipsis ≠ none then none
                else if rest = [] then
                  finishIPv6 (bs ++ beBytes 2 n) (some (bs.length + 2)) []
                else parseGroups fuel (bs ++ beBytes 2 n) (some (bs.length + 2)) rest
            | ':' :: rest =>
                if rest = [] then none
                else parseGroups fuel (bs ++ beBytes 2 n) ellipsis rest
            | _ => none

/-- `parseIPv6(s)`. -/
def parseIPv6 (s : List Char) : Option (List UInt8) :=
  match s with
  | ':' :: ':' :: rest =>
      if rest = [] then some (List.replicate 16 0) else parseGroups 8 [] (some 0) rest
  | _ => parseGroups 8 [] none s

/-- `net.ParseIP(s)`; nil is the empty address. The first dot or colon decides
the family. -/
def parseIP (s : String) : IP :=
  match s.toList.find? (fun c => decide (c = '.' ∨ c = ':')) with
  | some '.' => ((parseIPv4 s.toList).map (IP.v4InV6 ++ ·)).getD []
  | some _ => (parseIPv6 s.toList).getD []
  | none => []

/-! ## Hardware addresses -/

/-- `xtoi2(s, e)`. -/
def xtoi2 (s : List Char) (e : Option Char) : Option UInt8 :=
  if 2 < s.length ∧ (s.drop 2).head? ≠ e then none
  else
    match xtoi (s.take 2) with
    | some (n, 2) => some (UInt8.ofNat n)
    | _ => none

/-- The bytes of a colon or dash form. -/
def parsePairs (sep : Char) : Nat → List Char → Option (List UInt8)
  | 0, _ => some []
  | n + 1, s =>
      match xtoi2 s (some sep) with
      | none => none
      | some b => (parsePairs sep n (s.drop 3)).map (b :: ·)

/-- The bytes of a dot form, two at a time. -/
def parseQuads : Nat → List Char → Option (List UInt8)
  | 0, _ => some []
  | n + 1, s =>
      match xtoi2 (s.take 2) none with
      | none => none
      | some hi =>
          match xtoi2 (s.drop 2) (some '.') with
          | none => none
          | some lo => (parseQuads n (s.drop 5)).map (fun bs => hi :: lo :: bs)

/-- The lengths `net.ParseMAC` accepts. -/
def macLength (n : Nat) : Prop := n = 6 ∨ n = 8 ∨ n = 20

instance (n : Nat) : Decidable (macLength n) := by unfold macLength; infer_instance

/-- `net.ParseMAC(s)`. -/
def parseMAC (text : String) : Option HardwareAddr :=
  let s := text.toList
  if s.length < 14 then none
  else if s[2]? = some ':' ∨ s[2]? = some '-' then
    if (s.length + 1) % 3 ≠ 0 ∨ ¬ macLength ((s.length + 1) / 3) then none
    else parsePairs (s[2]?.getD ':') ((s.length + 1) / 3) s
  else if s[4]? = some '.' then
    if (s.length + 1) % 5 ≠ 0 ∨ ¬ macLength (2 * (s.length + 1) / 5) then none
    else parseQuads (2 * (s.length + 1) / 5 / 2) s
  else none

/-! ## Networks -/

/-- `net.IPNet` as `net.ParseCIDR` makes it: a mask of `ones` leading bits and
the address with all the other bits clear. -/
structure IPNet where
  ip : IP
  ones : Nat
  length_ip : ip.length = 4 ∨ ip.length = 16
  ones_le : ones ≤ 8 * ip.length
  masked : beNat ip % 2 ^ (8 * ip.length - ones) = 0

namespace IPNet

/-- The number of host bits: the second result of `Mask.Size()` less the first. -/
def hostLen (n : IPNet) : Nat := 8 * n.ip.length - n.ones

/-- `ip.Mask(m)` for a mask of `ones` leading bits. -/
def mask (ip : IP) (ones : Nat) : IP :=
  beBytes ip.length (beNat ip / 2 ^ (8 * ip.length - ones) * 2 ^ (8 * ip.length - ones))

theorem beNat_mask (ip : IP) (ones : Nat) :
    beNat (mask ip ones)
      = beNat ip / 2 ^ (8 * ip.length - ones) * 2 ^ (8 * ip.length - ones) := by
  have hle := Nat.div_mul_le_self (beNat ip) (2 ^ (8 * ip.length - ones))
  rw [mask, beNat_beBytes, Nat.mod_eq_of_lt (Nat.lt_of_le_of_lt hle (beNat_lt ip))]

theorem length_mask (ip : IP) (ones : Nat) : (mask ip ones).length = ip.length :=
  length_beBytes _ _

/-- The network of an address. -/
def ofAddress (ip : IP) (ones : Nat) (hlen : ip.length = 4 ∨ ip.length = 16)
    (hones : ones ≤ 8 * ip.length) : IPNet where
  ip := mask ip ones
  ones := ones
  length_ip := by rw [length_mask]; exact hlen
  ones_le := by rw [length_mask]; exact hones
  masked := by rw [length_mask, beNat_mask]; exact Nat.mul_mod_left _ _

/-- `n.Contains(ip)`: an IPv4 address in sixteen-byte form counts as one of
four bytes, and so does the address of the network. -/
def contains (n : IPNet) (ip : IP) : Bool :=
  let x := ip.to4.getD ip
  let nn := n.ip.to4.getD n.ip
  decide (x.length = nn.length ∧ beNat x / 2 ^ n.hostLen = beNat nn / 2 ^ n.hostLen)

end IPNet

/-- `net.ParseCIDR(s)`, the network. -/
def parseCIDR (text : String) : Option IPNet :=
  let addr := text.toList.takeWhile (· ≠ '/')
  match text.toList.dropWhile (· ≠ '/') with
  | [] => none
  | _ :: mask =>
      match (parseIPv4 addr).orElse (fun _ => parseIPv6 addr), dtoi mask with
      | some ip, some (n, c) =>
          if h : (ip.length = 4 ∨ ip.length = 16) ∧ c = mask.length ∧ n ≤ 8 * ip.length then
            some (IPNet.ofAddress ip n h.1 h.2.2)
          else none
      | _, _ => none

end GvisorTapVsock.Go
