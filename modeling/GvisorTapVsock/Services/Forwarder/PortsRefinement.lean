/-
GvisorTapVsock.Services.Forwarder.PortsRefinement — the ports forwarder
against the table it stands for.

`Table` is the abstract model: a remote for each pair of a protocol and a
local address, with the outcomes that `Expose` and `Unexpose` may have on it.
`Represents f t` ties it to the map of the code, whose entries carry their
pair. Every state that calls reach represents ONE table (`represents_after`).

The code flattens a pair to the text `protocol/local`. Both functions then miss
the table where a text does not stand for the pair that is meant: `Expose` asks
for the text `local`, and `Unexpose` for the text of a pair whose protocol may
hold a `/` of its own. `refines_table_iff` says that they follow the table
exactly where this makes no difference, and that `/all` always lists it.
-/
import Mathlib.Data.Prod.Lex
import Mathlib.Data.String.Basic
import GvisorTapVsock.Go.Strings
import GvisorTapVsock.Services.Forwarder.PortsTheorems

namespace GvisorTapVsock.Services.Forwarder

open GvisorTapVsock.Go

/-! ## The table -/

/-- The remote of each pair of protocol and local that is exposed. -/
abbrev Table := TransportProtocol × String → Option String

namespace Table

variable (t : Table) (protocol : TransportProtocol) (localAddr remote : String)

/-- A pair that is in the table. -/
def Present : Prop := ∃ remote, t (protocol, localAddr) = some remote

/-- A text that is the key of a pair in the table. -/
def Named (text : String) : Prop :=
  ∃ protocol localAddr, t.Present protocol localAddr ∧ text = key protocol localAddr

/-- What `Expose` may return, and the table after it. -/
inductive Expose : Except Failure Unit → Table → Prop where
  | running (h : t.Present protocol localAddr) : Expose (.error .alreadyRunning) t
  | refused (h : ¬ t.Present protocol localAddr) {e : Failure} (he : e ≠ .alreadyRunning) :
      Expose (.error e) t
  | exposed (h : ¬ t.Present protocol localAddr) :
      Expose (.ok ()) (Function.update t (protocol, localAddr) (some remote))

/-- What `Unexpose` may return, and the table after it. -/
inductive Unexpose : Except Failure Unit → Table → Prop where
  | removed (h : t.Present protocol localAddr) :
      Unexpose (.ok ()) (Function.update t (protocol, localAddr) none)
  | absent (h : ¬ t.Present protocol localAddr) : Unexpose (.error .notFound) t

variable {t protocol localAddr remote} {r : Except Failure Unit} {t' : Table}

/-- On the table, the pair decides whether a proxy is reported to be running. -/
theorem Expose.present_iff (h : t.Expose protocol localAddr remote r t') :
    t.Present protocol localAddr ↔ r = .error .alreadyRunning := by
  cases h with
  | running h => simp [h]
  | refused h he => simp [h, he]
  | exposed h => simp [h]

/-- On the table, the pair decides whether `Unexpose` succeeds. -/
theorem Unexpose.present_iff (h : t.Unexpose protocol localAddr r t') :
    t.Present protocol localAddr ↔ r = .ok () := by
  cases h with
  | removed h => simp [h]
  | absent h => simp [h]

end Table

/-- The entries of the map are the pairs of the table. -/
def Represents (f : PortsForwarder) (t : Table) : Prop :=
  ∀ protocol localAddr remote, t (protocol, localAddr) = some remote ↔
    ∃ k p, f.proxies.lookup k = some p ∧
      p.protocol = protocol ∧ p.localAddr = localAddr ∧ p.remote = remote

/-! ## Entries under their keys -/

variable {f : PortsForwarder} {t : Table} {protocol : TransportProtocol}
  {localAddr remote : String} {c : Calls}

/-- Every entry is stored under the key of its pair, whose protocol has no `/`. -/
def Stored (f : PortsForwarder) : Prop :=
  ∀ k p, f.proxies.lookup k = some p →
    k = key p.protocol p.localAddr ∧ '/' ∉ p.protocol.toList

theorem Accepted.no_slash (h : Accepted protocol remote c) : '/' ∉ protocol.toList := by
  cases h <;> decide

theorem stored_after (calls : List Call) : Stored (after calls) := by
  refine after_induction ?_ ?_ ?_ calls
  · intro k p hp
    simp [newPortsForwarder] at hp
  · intro f protocol localAddr remote dial ih _ haccepted k p hp
    obtain ⟨c, haccepted⟩ := haccepted
    rw [PortsForwarder.store, GoMap.lookup_insert_eq] at hp
    split at hp
    · next hk =>
      rw [← Option.some.inj hp]
      exact ⟨hk, haccepted.no_slash⟩
    · exact ih k p hp
  · intro f protocol localAddr ih k p hp
    cases hlookup : f.proxies.lookup (key protocol localAddr) with
    | none => rw [unexpose_absent hlookup] at hp; exact ih k p hp
    | some q =>
      rw [unexpose_present hlookup] at hp
      dsimp only at hp
      rw [GoMap.lookup_erase_eq] at hp
      split at hp
      · simp at hp
      · exact ih k p hp

/-- Without a `/` in the protocol, the key tells the pair. -/
theorem key_inj {protocol' : TransportProtocol} {localAddr' : String}
    (h : '/' ∉ protocol.toList) (h' : '/' ∉ protocol'.toList)
    (hkey : key protocol localAddr = key protocol' localAddr') :
    protocol = protocol' ∧ localAddr = localAddr' :=
  append_sep_inj h h' hkey

/-- The table of a forwarder. -/
def tableOf (f : PortsForwarder) : Table := fun pair =>
  match f.proxies.lookup (key pair.1 pair.2) with
  | some p => if p.protocol = pair.1 ∧ p.localAddr = pair.2 then some p.remote else none
  | none => none

theorem Stored.represents (h : Stored f) : Represents f (tableOf f) := by
  intro protocol localAddr remote
  unfold tableOf
  constructor
  · intro ht
    split at ht
    · next p hp =>
      split at ht
      · next hpair => exact ⟨_, p, hp, hpair.1, hpair.2, Option.some.inj ht⟩
      · simp at ht
    · simp at ht
  · rintro ⟨k, p, hp, rfl, rfl, rfl⟩
    obtain ⟨rfl, -⟩ := h k p hp
    simp [hp]

theorem represents_after (calls : List Call) : Represents (after calls) (tableOf (after calls)) :=
  (stored_after calls).represents

theorem Represents.present_iff (ht : Represents f t) :
    t.Present protocol localAddr ↔
      ∃ k p, f.proxies.lookup k = some p ∧ p.protocol = protocol ∧ p.localAddr = localAddr := by
  constructor
  · rintro ⟨remote, hr⟩
    obtain ⟨k, p, hp, hprotocol, hlocal, -⟩ := (ht _ _ _).mp hr
    exact ⟨k, p, hp, hprotocol, hlocal⟩
  · rintro ⟨k, p, hp, hprotocol, hlocal⟩
    exact ⟨p.remote, (ht _ _ _).mpr ⟨k, p, hp, hprotocol, hlocal, rfl⟩⟩

/-- The keys of the map are the texts of the pairs. -/
theorem Represents.named_iff (ht : Represents f t) (hf : Stored f) (text : String) :
    t.Named text ↔ text ∈ f.proxies := by
  rw [GoMap.mem_iff_lookup]
  constructor
  · rintro ⟨protocol, localAddr, hpresent, rfl⟩
    obtain ⟨k, p, hp, rfl, rfl⟩ := ht.present_iff.mp hpresent
    obtain ⟨rfl, -⟩ := hf k p hp
    exact ⟨p, hp⟩
  · rintro ⟨p, hp⟩
    exact ⟨p.protocol, p.localAddr, ht.present_iff.mpr ⟨text, p, hp, rfl, rfl⟩, (hf text p hp).1⟩

/-- The entry of a pair is under its key. -/
theorem Represents.lookup_key (ht : Represents f t) (hf : Stored f)
    (hpresent : t.Present protocol localAddr) :
    ∃ p, f.proxies.lookup (key protocol localAddr) = some p ∧
      p.protocol = protocol ∧ p.localAddr = localAddr := by
  obtain ⟨k, p, hp, rfl, rfl⟩ := ht.present_iff.mp hpresent
  obtain ⟨rfl, -⟩ := hf k p hp
  exact ⟨p, hp, rfl, rfl⟩

/-! ## The operations on the table -/

/-- A store under a new key adds its pair. -/
theorem tableOf_store (hkey : key protocol localAddr ∉ f.proxies) (dial : Dial) :
    tableOf (f.store protocol localAddr remote dial) =
      Function.update (tableOf f) (protocol, localAddr) (some remote) := by
  have hnone : f.proxies.lookup (key protocol localAddr) = none := AList.lookup_eq_none.mpr hkey
  funext pair
  by_cases hpair : pair = (protocol, localAddr)
  · subst hpair
    simp [tableOf, PortsForwarder.store]
  · rw [Function.update_of_ne hpair]
    unfold tableOf
    rw [PortsForwarder.store, GoMap.lookup_insert_eq]
    by_cases hk : key pair.1 pair.2 = key protocol localAddr
    · -- the new entry is another pair's
      have hother : ¬ (protocol = pair.1 ∧ localAddr = pair.2) := by
        intro h
        exact hpair (Prod.ext h.1.symm h.2.symm)
      rw [if_pos hk, hk, hnone]
      exact if_neg hother
    · simp [hk]

/-- The removal of the entry of a pair removes the pair. -/
theorem tableOf_unexpose {p : Proxy} (hp : f.proxies.lookup (key protocol localAddr) = some p)
    (hprotocol : p.protocol = protocol) (hlocal : p.localAddr = localAddr) :
    tableOf (f.unexpose protocol localAddr).2 =
      Function.update (tableOf f) (protocol, localAddr) none := by
  rw [unexpose_present hp]
  funext pair
  by_cases hpair : pair = (protocol, localAddr)
  · subst hpair
    simp [tableOf]
  · rw [Function.update_of_ne hpair]
    unfold tableOf
    dsimp only
    rw [GoMap.lookup_erase_eq]
    by_cases hk : key pair.1 pair.2 = key protocol localAddr
    · have hother : ¬ (protocol = pair.1 ∧ localAddr = pair.2) := by
        intro h
        exact hpair (Prod.ext h.1.symm h.2.symm)
      rw [if_pos hk, hk, hp]
      exact (if_neg (by rw [hprotocol, hlocal]; exact hother)).symm
    · simp [hk]

/-- A sequence of two steps fails as its first step or as its second. -/
theorem bind_error {α β : Type} {x : Except Failure α} {g : α → Except Failure β} {e : Failure}
    (h : (x >>= g) = .error e) : x = .error e ∨ ∃ a, g a = .error e := by
  cases x with
  | error e' => exact Or.inl (by simpa [bind, Except.bind] using h)
  | ok a => exact Or.inr ⟨a, h⟩

theorem check_ne_alreadyRunning (err : Option String) : check err ≠ .error .alreadyRunning := by
  cases err <;> simp [check]

theorem tcpipAddress_ne_alreadyRunning (nicID : Nat) (remote : String) :
    tcpipAddress nicID remote ≠ .error .alreadyRunning := by
  unfold tcpipAddress
  repeat' split
  all_goals simp

theorem dialFn_ne_alreadyRunning (u : URL) : dialFn u ≠ .error .alreadyRunning := by
  intro h
  unfold dialFn at h
  dsimp only at h
  split at h
  · repeat' split at h
    all_goals simp at h
  · split at h
    · rcases bind_error h with h | ⟨a, h⟩
      · exact tcpipAddress_ne_alreadyRunning _ _ h
      · simp [pure, Except.pure] at h
    · simp at h

theorem listenFunc_ne_alreadyRunning : listenFunc protocol c ≠ .error .alreadyRunning := by
  intro h
  unfold listenFunc at h
  split at h
  all_goals
    rcases bind_error h with h | ⟨_, h⟩
    · exact check_ne_alreadyRunning _ h
    · exact check_ne_alreadyRunning _ h

/-- The `switch` does not report a running proxy. -/
theorem start_ne_alreadyRunning : start protocol remote c ≠ .error .alreadyRunning := by
  intro h
  unfold start at h
  split at h
  · rcases bind_error h with h | ⟨u, h⟩
    · cases hparse : c.parseRemote <;> simp [hparse, Except.mapError] at h
    · rcases bind_error h with h | ⟨dial, h⟩
      · exact dialFn_ne_alreadyRunning u h
      · rcases bind_error h with h | ⟨_, h⟩
        · exact listenFunc_ne_alreadyRunning h
        · simp [pure, Except.pure] at h
  · split at h
    · rcases bind_error h with h | ⟨address, h⟩
      · exact tcpipAddress_ne_alreadyRunning _ _ h
      · rcases bind_error h with h | ⟨_, h⟩
        · exact check_ne_alreadyRunning _ h
        · rcases bind_error h with h | ⟨_, h⟩
          · exact check_ne_alreadyRunning _ h
          · simp [pure, Except.pure] at h
    · split at h
      · rcases bind_error h with h | ⟨address, h⟩
        · exact tcpipAddress_ne_alreadyRunning _ _ h
        · rcases bind_error h with h | ⟨_, h⟩
          · exact check_ne_alreadyRunning _ h
          · simp [pure, Except.pure] at h
      · simp at h

/-- An `Expose` follows the table exactly if the text `local` names a pair just
when its own pair is there. -/
theorem expose_follows_iff (hf : Stored f) :
    (tableOf f).Expose protocol localAddr remote (f.expose protocol localAddr remote c).1
        (tableOf (f.expose protocol localAddr remote c).2) ↔
      ((tableOf f).Present protocol localAddr ↔ (tableOf f).Named localAddr) := by
  rw [hf.represents.named_iff hf]
  by_cases hlocal : localAddr ∈ f.proxies
  · rw [PortsForwarder.expose, if_pos hlocal, iff_true_right hlocal]
    exact ⟨fun h => h.present_iff.mpr rfl, fun h => .running h⟩
  · rw [iff_false_right hlocal]
    by_cases hpresent : (tableOf f).Present protocol localAddr
    · -- whatever comes after the check, it is not the answer for a pair that is there
      refine ⟨fun h => ?_, fun h => absurd hpresent h⟩
      have hrunning := h.present_iff.mp hpresent
      rw [PortsForwarder.expose, if_neg hlocal] at hrunning
      cases hstart : start protocol remote c with
      | error e =>
        rw [hstart] at hrunning
        exact absurd (hstart.trans (by simpa using hrunning)) start_ne_alreadyRunning
      | ok dial => simp [hstart] at hrunning
    · refine ⟨fun _ => hpresent, fun _ => ?_⟩
      rw [PortsForwarder.expose, if_neg hlocal]
      cases hstart : start protocol remote c with
      | error e =>
        exact .refused hpresent (fun he => start_ne_alreadyRunning (he ▸ hstart))
      | ok dial =>
        have hslash := (start_ok_iff.mp ⟨dial, hstart⟩).no_slash
        have hkey : key protocol localAddr ∉ f.proxies := by
          intro hkey
          obtain ⟨p, hp⟩ := (GoMap.mem_iff_lookup _ _).mp hkey
          obtain ⟨hk, hpslash⟩ := hf _ p hp
          obtain ⟨hprotocol, hlocal⟩ := key_inj hslash hpslash hk
          exact hpresent (hf.represents.present_iff.mpr ⟨_, p, hp, hprotocol.symm, hlocal.symm⟩)
        show Table.Expose _ _ _ _ _ (tableOf (f.store protocol localAddr remote dial))
        rw [tableOf_store hkey]
        exact .exposed hpresent

/-- An `Unexpose` follows the table exactly if its text names no other pair. -/
theorem unexpose_follows_iff (hf : Stored f) :
    (tableOf f).Unexpose protocol localAddr (f.unexpose protocol localAddr).1
        (tableOf (f.unexpose protocol localAddr).2) ↔
      ((tableOf f).Named (key protocol localAddr) → (tableOf f).Present protocol localAddr) := by
  have hrep := hf.represents
  rw [hrep.named_iff hf, GoMap.mem_iff_lookup]
  cases hlookup : f.proxies.lookup (key protocol localAddr) with
  | none =>
    rw [unexpose_absent hlookup]
    refine ⟨fun _ h => absurd h (by simp), fun _ => .absent ?_⟩
    intro hpresent
    obtain ⟨p, hp, -⟩ := hrep.lookup_key hf hpresent
    simp [hlookup] at hp
  | some p =>
    refine ⟨fun h _ => ?_, fun h => ?_⟩
    · exact h.present_iff.mpr (by rw [unexpose_present hlookup])
    · have hpresent := h ⟨p, rfl⟩
      obtain ⟨q, hq, hprotocol, hlocal⟩ := hrep.lookup_key hf hpresent
      rw [tableOf_unexpose hq hprotocol hlocal, unexpose_present hlookup]
      exact .removed hpresent

/-! ## The listing -/

/-- What `/all` sorts by. -/
def listingKey (p : Proxy) : String ×ₗ String := toLex (p.localAddr, p.protocol)

theorem proxyLess_iff (a b : Proxy) : proxyLess a b = true ↔ listingKey a < listingKey b := by
  rw [listingKey, listingKey, Prod.Lex.toLex_lt_toLex, proxyLess]
  by_cases h : a.localAddr = b.localAddr
  · simp [h]
  · simp [h]

/-- No two entries have one pair. -/
theorem Stored.listingKey_ne (hf : Stored f) {order : List String}
    (horder : f.proxies.RangeOrder order) :
    (order.filterMap f.proxies.lookup).Pairwise (fun a b => listingKey a ≠ listingKey b) := by
  rw [List.pairwise_filterMap]
  have hnodup : order.Nodup := horder.nodup_iff.mpr f.proxies.nodupKeys
  refine hnodup.imp ?_
  intro k k' hk a ha b hb heq
  rw [listingKey, listingKey, toLex_inj, Prod.mk.injEq] at heq
  refine hk ?_
  rw [(hf k a ha).1, (hf k' b hb).1, heq.1, heq.2]

/-- The listing is strictly increasing. -/
theorem Stored.all_lt (hf : Stored f) {order : List String}
    (horder : f.proxies.RangeOrder order) :
    (f.all order).Pairwise (fun a b => listingKey a < listingKey b) :=
  sortSlice_lt proxyLess_iff (hf.listingKey_ne horder)

/-- The listing has the entries of the map. -/
theorem mem_all_iff {order : List String} (horder : f.proxies.RangeOrder order) (p : Proxy) :
    p ∈ f.all order ↔ ∃ k, f.proxies.lookup k = some p := by
  rw [PortsForwarder.all, (sortSlice_perm _ _).mem_iff, List.mem_filterMap]
  refine ⟨fun ⟨k, _, hk⟩ => ⟨k, hk⟩, fun ⟨k, hk⟩ => ⟨k, ?_, hk⟩⟩
  exact horder.mem_iff.mpr (AList.mem_keys.mpr ((GoMap.mem_iff_lookup _ _).mpr ⟨p, hk⟩))

/-- **The listing does not depend on the order of the map, nor on the sort.** -/
theorem all_unique (calls : List Call) {order order' : List String} {ret : List Proxy}
    (horder : (after calls).proxies.RangeOrder order)
    (horder' : (after calls).proxies.RangeOrder order')
    (hperm : ret.Perm (order'.filterMap (after calls).proxies.lookup))
    (hsorted : ret.Pairwise (fun a b => proxyLess b a = false)) :
    ret = (after calls).all order :=
  sortSlice_unique proxyLess_iff ((stored_after calls).listingKey_ne horder)
    (hperm.trans ((horder'.trans horder.symm).filterMap _)) hsorted

/-! ## Sequences of calls and of requests -/

/-- A request makes one call or none. -/
theorem handle_calls (quote : String → String) (order : List String) (req : Request) :
    (f.handle quote order c req).2 = f ∨
      ∃ call, (f.handle quote order c req).2 = (f.apply call).2 := by
  cases req with
  | all => exact Or.inl rfl
  | expose method body addr =>
    unfold PortsForwarder.handle
    by_cases hmethod : method = "POST"
    · cases body with
      | error err => simp [hmethod]
      | ok req =>
        cases hremote : remoteAddr req addr with
        | error e => simp [hmethod, hremote]
        | ok remote =>
          simp only [hmethod, hremote, ne_eq, not_true_eq_false, if_false]
          exact Or.inr ⟨.expose (protocolOr req.protocol) req.localAddr remote c, rfl⟩
    · simp [hmethod]
  | unexpose method body =>
    unfold PortsForwarder.handle
    by_cases hmethod : method = "POST"
    · cases body with
      | error err => simp [hmethod]
      | ok req =>
        simp only [hmethod, ne_eq, not_true_eq_false, if_false]
        exact Or.inr ⟨.unexpose (protocolOr req.protocol) req.localAddr, rfl⟩
    · simp [hmethod]

/-- What requests reach, calls reach. -/
theorem afterRequests_calls (quote : String → String)
    (reqs : List (Request × List String × Calls)) :
    ∃ calls, afterRequests quote reqs = after calls := by
  induction reqs using List.reverseRecOn with
  | nil => exact ⟨[], rfl⟩
  | append_singleton reqs r ih =>
    obtain ⟨calls, ih⟩ := ih
    rw [afterRequests, List.foldl_append]
    show ∃ calls, ((afterRequests quote reqs).handle quote r.2.1 r.2.2 r.1).2 = after calls
    rw [ih]
    rcases handle_calls (f := after calls) (c := r.2.2) quote r.2.1 r.1 with h | ⟨call, h⟩
    · exact ⟨calls, h⟩
    · exact ⟨calls ++ [call], by rw [h, after_append]⟩

/-- **After any calls, `Expose` follows the table exactly if the text `local`
names a pair just when its own pair is there, and `Unexpose` exactly if its
text names no other pair; `/all` lists the table in strict order.** -/
theorem refines_table_iff (calls : List Call) :
    Represents (after calls) (tableOf (after calls)) ∧
      (∀ protocol localAddr remote c,
        (tableOf (after calls)).Expose protocol localAddr remote
            ((after calls).expose protocol localAddr remote c).1
            (tableOf ((after calls).expose protocol localAddr remote c).2) ↔
          ((tableOf (after calls)).Present protocol localAddr ↔
            (tableOf (after calls)).Named localAddr)) ∧
      (∀ protocol localAddr,
        (tableOf (after calls)).Unexpose protocol localAddr
            ((after calls).unexpose protocol localAddr).1
            (tableOf ((after calls).unexpose protocol localAddr).2) ↔
          ((tableOf (after calls)).Named (key protocol localAddr) →
            (tableOf (after calls)).Present protocol localAddr)) ∧
      ∀ order, (after calls).proxies.RangeOrder order →
        ((after calls).all order).Pairwise (fun a b => a.localAddr < b.localAddr ∨
          (a.localAddr = b.localAddr ∧ a.protocol < b.protocol)) ∧
        ∀ localAddr remote protocol,
          (∃ p ∈ (after calls).all order,
            p.localAddr = localAddr ∧ p.remote = remote ∧ p.protocol = protocol) ↔
          tableOf (after calls) (protocol, localAddr) = some remote := by
  have hf := stored_after calls
  refine ⟨represents_after calls, fun _ _ _ _ => expose_follows_iff hf,
    fun _ _ => unexpose_follows_iff hf, ?_⟩
  intro order horder
  refine ⟨(hf.all_lt horder).imp (fun h => Prod.Lex.toLex_lt_toLex.mp h), ?_⟩
  intro localAddr remote protocol
  rw [hf.represents]
  refine ⟨fun ⟨p, hp, hlocal, hremote, hprotocol⟩ => ?_,
    fun ⟨k, p, hp, hprotocol, hlocal, hremote⟩ =>
      ⟨p, (mem_all_iff horder p).mpr ⟨k, hp⟩, hlocal, hremote, hprotocol⟩⟩
  obtain ⟨k, hk⟩ := (mem_all_iff horder p).mp hp
  exact ⟨k, p, hk, hprotocol, hlocal, hremote⟩

/-- `Expose` of a TCP port that the host has taken. -/
def exposeTaken : Call :=
  .expose TCP "127.0.0.1:2222" "192.168.127.2:22"
    ⟨.error "", none, none, none, some "address already in use"⟩

/-- `Expose` of a TCP port. -/
def exposePort : Call :=
  .expose TCP "127.0.0.1:2222" "192.168.127.2:22" ⟨.error "", none, none, none, none⟩

/-- A socket and a port, in an order of the map that is not the order of the
listing. -/
theorem listing_of_two :
    ((after [exposePort, exposeSocket]).all
        ["tcp/127.0.0.1:2222", "unix//tmp/podman.sock"]).Pairwise
      (fun a b => a.localAddr < b.localAddr ∨
        (a.localAddr = b.localAddr ∧ a.protocol < b.protocol)) :=
  ((refines_table_iff [exposePort, exposeSocket]).2.2.2 _ (by decide +kernel)).1

/-- A pair that is exposed twice is not reported, a pair whose text is an
address of another is, and a pair that is not there removes one that is. -/
theorem texts_mistaken :
    ((after [exposePort]).apply exposeTaken).1 = .error (.call "address already in use") ∧
      ((after [exposePort]).expose UNIX "tcp/127.0.0.1:2222" ""
        ⟨.error "", none, none, none, none⟩).1
        = .error .alreadyRunning ∧
      tableOf (after [exposeSocket]) ("unix/", "tmp/podman.sock") = none ∧
      tableOf (after [exposeSocket]) (UNIX, "/tmp/podman.sock") = some "tcp://192.168.127.2:8080" ∧
      ((after [exposeSocket]).unexpose "unix/" "tmp/podman.sock").1 = .ok () ∧
      tableOf ((after [exposeSocket]).unexpose "unix/" "tmp/podman.sock").2
        (UNIX, "/tmp/podman.sock") = none := by
  decide +kernel

end GvisorTapVsock.Services.Forwarder
