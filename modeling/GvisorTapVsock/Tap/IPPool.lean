/-
GvisorTapVsock.Tap.IPPool — the table of DHCP leases (`pkg/tap/ip_pool.go`).

The table maps the TEXT of an address to the MAC that holds it, also a text.
Looking for the lease of a MAC ranges over the table and takes the first hit,
so the order of the range is an argument of `getOrAssign` and `release`.

Every operation runs under the pool's lock, hence one after the other: a
history of the pool is a list of calls, and `poolStep` is the system it runs.
-/
import GvisorTapVsock.Go.Cidr
import GvisorTapVsock.Go.Map
import GvisorTapVsock.Lts.Run

namespace GvisorTapVsock.Tap

open GvisorTapVsock.Go
open GvisorTapVsock.Lts

/-- `IPPool`. -/
structure IPPool where
  base : IPNet
  count : Nat
  leases : GoMap String String

/-- `NewIPPool(base)`. -/
def newIPPool (base : IPNet) : IPPool := ⟨base, addressCount base, ∅⟩

namespace IPPool

/-- The second loop of `GetOrAssign`, for `k` more values of `i`. -/
def firstFree (p : IPPool) : Nat → Nat → Option IP
  | 0, _ => none
  | k + 1, i =>
      match host p.base i with
      | none => firstFree p k (i + 1)
      | some candidate =>
          if candidate.string ∈ p.leases then firstFree p k (i + 1) else some candidate

/-- The lease the range over the table finds for `mac`. -/
def findLease (p : IPPool) (order : List String) (mac : String) : Option String :=
  p.leases.rangeFind (fun _ candidate => decide (candidate = mac)) order

/-- `GetOrAssign(mac)`: the address, or `none` for "cannot find available IP". -/
def getOrAssign (p : IPPool) (order : List String) (mac : String) : Option IP × IPPool :=
  match p.findLease order mac with
  | some ip => (some (parseIP ip), p)
  | none =>
      match p.firstFree (p.count - 1) 1 with
      | some candidate =>
          (some candidate, { p with leases := p.leases.insert candidate.string mac })
      | none => (none, p)

/-- `Reserve(ip, mac)`. -/
def reserve (p : IPPool) (ip : IP) (mac : String) : IPPool :=
  { p with leases := p.leases.insert ip.string mac }

/-- `Release(given)`. -/
def release (p : IPPool) (order : List String) (given : String) : IPPool :=
  match p.findLease order given with
  | some found => if found ≠ "" then { p with leases := p.leases.erase found } else p
  | none => p

/-- The pool after a list of `Reserve` calls. -/
def reserveAll (p : IPPool) (reservations : List (IP × String)) : IPPool :=
  reservations.foldl (fun p r => p.reserve r.1 r.2) p

end IPPool

/-! ## Histories -/

/-- A call, with the order in which it ranges over the table. -/
inductive PoolCall where
  | getOrAssign (mac : String) (order : List String)
  | release (given : String) (order : List String)
  deriving DecidableEq

/-- The pool after a call; `none` if the order is not one of its table. -/
def poolStep (p : IPPool) : PoolCall → Option IPPool
  | .getOrAssign mac order =>
      if p.leases.RangeOrder order then some (p.getOrAssign order mac).2 else none
  | .release given order =>
      if p.leases.RangeOrder order then some (p.release order given) else none

/-- The call releases `mac`. -/
def PoolCall.Releases (mac : String) : PoolCall → Prop
  | .getOrAssign _ _ => False
  | .release given _ => given = mac

instance (mac : String) (c : PoolCall) : Decidable (c.Releases mac) := by
  cases c <;> unfold PoolCall.Releases <;> infer_instance

/-- A call, or a reservation made at any time. -/
inductive PoolOp where
  | call (c : PoolCall)
  | reserve (ip : IP) (mac : String)

/-- The pool after an operation. -/
def opStep (p : IPPool) : PoolOp → Option IPPool
  | .call c => poolStep p c
  | .reserve ip mac => some (p.reserve ip mac)

end GvisorTapVsock.Tap
