/-
GvisorTapVsock.Go.Binary — fixed-width integers as bytes, in both orders
(the part of `encoding/binary` a length-prefixed format needs).

`leBytes w v` writes the `w` low bytes of `v`, least significant first;
`leNat` reads them back. One pair of inverse lemmas serves every width and,
through `List.reverse`, both byte orders: `leNat_leBytes` says that writing
NARROWS (`v % 256 ^ w` comes back), `leBytes_leNat` that reading loses
nothing.
-/
import Mathlib.Algebra.Group.Nat.Defs
import Mathlib.Data.List.Basic

namespace GvisorTapVsock.Go

/-- The `w` low bytes of `v`, least significant first. -/
def leBytes : Nat → Nat → List UInt8
  | 0, _ => []
  | w + 1, v => UInt8.ofNat v :: leBytes w (v / 256)

/-- The number whose bytes are given, least significant first. -/
def leNat : List UInt8 → Nat
  | [] => 0
  | b :: bs => b.toNat + 256 * leNat bs

/-- The `w` low bytes of `v`, most significant first. -/
def beBytes (w v : Nat) : List UInt8 := (leBytes w v).reverse

/-- The number whose bytes are given, most significant first. -/
def beNat (bs : List UInt8) : Nat := leNat bs.reverse

@[simp] theorem length_leBytes : ∀ w v : Nat, (leBytes w v).length = w
  | 0, _ => rfl
  | w + 1, v => by simp [leBytes, length_leBytes w (v / 256)]

@[simp] theorem length_beBytes (w v : Nat) : (beBytes w v).length = w := by
  simp [beBytes]

/-- Writing `w` bytes keeps `v` modulo `256 ^ w`. -/
theorem leNat_leBytes : ∀ w v : Nat, leNat (leBytes w v) = v % 256 ^ w
  | 0, v => by simp [leBytes, leNat, Nat.mod_one]
  | w + 1, v => by
      have hpow : 256 ^ (w + 1) = 256 * 256 ^ w := Nat.pow_succ'
      have hlow : (UInt8.ofNat v).toNat = v % 256 := UInt8.toNat_ofNat'
      rw [leBytes, leNat, leNat_leBytes w (v / 256), hlow, hpow, Nat.mod_mul]

/-- Reading `w` bytes and writing them again gives the same bytes. -/
theorem leBytes_leNat : ∀ bs : List UInt8, leBytes bs.length (leNat bs) = bs
  | [] => rfl
  | b :: bs => by
      have hb : b.toNat < 256 := b.toNat_lt
      have hdiv : (b.toNat + 256 * leNat bs) / 256 = leNat bs := by omega
      have hbyte : UInt8.ofNat (b.toNat + 256 * leNat bs) = b := by
        apply UInt8.toNat_inj.mp
        rw [UInt8.toNat_ofNat']
        omega
      rw [List.length_cons, leNat, leBytes, hdiv, hbyte, leBytes_leNat bs]

theorem leNat_lt : ∀ bs : List UInt8, leNat bs < 256 ^ bs.length
  | [] => by simp [leNat]
  | b :: bs => by
      have hb : b.toNat < 256 := b.toNat_lt
      have ih := leNat_lt bs
      rw [leNat, List.length_cons, Nat.pow_succ]
      omega

theorem leNat_append (bs cs : List UInt8) :
    leNat (bs ++ cs) = leNat bs + 256 ^ bs.length * leNat cs := by
  induction bs with
  | nil => simp [leNat]
  | cons b bs ih =>
    rw [List.cons_append, leNat, leNat, ih, List.length_cons, Nat.pow_succ', Nat.mul_add,
      Nat.mul_assoc, Nat.add_assoc]

/-- The bytes in front weigh more. -/
theorem beNat_append (bs cs : List UInt8) :
    beNat (bs ++ cs) = beNat bs * 256 ^ cs.length + beNat cs := by
  rw [beNat, List.reverse_append, leNat_append, List.length_reverse, ← beNat, ← beNat,
    Nat.add_comm, Nat.mul_comm]

theorem beNat_beBytes (w v : Nat) : beNat (beBytes w v) = v % 256 ^ w := by
  rw [beNat, beBytes, List.reverse_reverse, leNat_leBytes]

theorem beBytes_beNat (bs : List UInt8) : beBytes bs.length (beNat bs) = bs := by
  have h := leBytes_leNat bs.reverse
  rw [List.length_reverse] at h
  rw [beBytes, beNat, h, List.reverse_reverse]

theorem beNat_lt (bs : List UInt8) : beNat bs < 256 ^ bs.length := by
  have h := leNat_lt bs.reverse
  rwa [List.length_reverse] at h

/-- Bytes of one length are determined by their number. -/
theorem beNat_inj {bs cs : List UInt8} (hlen : bs.length = cs.length) :
    beNat bs = beNat cs ↔ bs = cs := by
  constructor
  · intro h
    rw [← beBytes_beNat bs, ← beBytes_beNat cs, h, hlen]
  · intro h
    rw [h]

end GvisorTapVsock.Go
