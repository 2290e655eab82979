/-
GvisorTapVsock.VirtualNetwork.AddressTheorems — for which texts the conversions
to an address of the virtual network are safe.

A text denotes an address when its host is an IPv4 address and its port a
number below 65536 (`Denotes`). A conversion is `Exact` on a text when it does
not panic and what it yields is denoted by the text. None of the conversions is
exact on every text:

  - all of them panic on a host that is no IPv4 address, except that
    `splitIPPort` rejects one that is no address at all;
  - `tcpipAddress` and `/tunnel` read the port with `Atoi` and cut it to 16
    bits, so a sign and any number of 64 bits are accepted;
  - `splitIPPort` takes brackets off the host, `tcpipAddress` does not.

`address_conversions_exact_iff` says of each conversion on which texts it is
exact, and on which texts the two readers of `ip:port` agree.
-/
import GvisorTapVsock.VirtualNetwork.Addresses
import GvisorTapVsock.Go.HostPortTheorems

namespace GvisorTapVsock.VirtualNetwork

open GvisorTapVsock.Go
open GvisorTapVsock.Services.Forwarder

/-! ## What a text denotes -/

/-- The text of an IPv4 address. -/
def DenotesIP (text : String) (addr : IP) : Prop := (parseIP text).to4 = some addr

/-- The text of a port. -/
def DenotesPort (text : String) (port : UInt16) : Prop := parseUint text 16 = .ok port.toNat

/-- The text of an address and a port. -/
def Denotes (text : String) (a : FullAddress) : Prop :=
  ∃ host port, splitHostPort text = .ok (host, port) ∧ DenotesIP host a.addr ∧
    DenotesPort port a.port

/-- The conversion does not panic, and what it yields is what is denoted. -/
def Exact {ε : Type} (panicked : ε) (result : Except ε FullAddress)
    (denotes : FullAddress → Prop) : Prop :=
  result ≠ .error panicked ∧ ∀ a, result = .ok a → denotes a

/-- `uint16` of a number that fits. -/
theorem toNat_ofNat_of_parseUint {text : String} {n : Nat} (h : parseUint text 16 = .ok n) :
    (UInt16.ofNat n).toNat = n := by
  have hlt : n < 65536 := parseUint_lt h
  rw [UInt16.toNat_ofNat']
  exact Nat.mod_eq_of_lt hlt

theorem denotesPort_ofNat {text : String} {n : Nat} (h : parseUint text 16 = .ok n) :
    DenotesPort text (UInt16.ofNat n) := by
  rw [DenotesPort, toNat_ofNat_of_parseUint h, h]

/-- `uint16(port)` of what `Atoi` reads is exact on a text that denotes a port. -/
theorem denotesPort_of_atoi {text : String} {n : Int} (hn : atoi text = .ok n)
    (h : ∃ port, DenotesPort text port) :
    DenotesPort text (UInt16.ofNat (n % 65536).toNat) := by
  obtain ⟨port, hport⟩ := h
  have hsame : Except.ok n = (Except.ok (port.toNat : Int) : Except NumError Int) := by
    rw [← hn, atoi_of_parseUint (by decide) hport]
  have hvalue : n = port.toNat := Except.ok.inj hsame
  have hlt : port.toNat < 65536 := parseUint_lt hport
  have hcut : (n % 65536).toNat = port.toNat := by omega
  rw [hcut, DenotesPort, UInt16.ofNat_toNat]
  exact hport

/-! ## The remote of a proxy -/

section Remote

variable {nicID : Nat} {remote ip port : String} {n : Int}

theorem tcpipAddress_split (hsplit : split remote ':' = [ip, port]) (hn : atoi port = .ok n) :
    tcpipAddress nicID remote = (parseIP ip).to4.elim (.error .panicked)
      (fun addr => .ok ⟨nicID, addr, UInt16.ofNat (n % 65536).toNat⟩) := by
  cases hip : (parseIP ip).to4 with
  | none => simp only [tcpipAddress, hsplit, hn, hip, Option.elim_none]
  | some addr => simp only [tcpipAddress, hsplit, hn, hip, Option.elim_some]

/-- What an answer of `tcpipAddress` that is no error of its own says. -/
theorem tcpipAddress_cases (nicID : Nat) (remote : String) :
    (∃ ip port n, split remote ':' = [ip, port] ∧ atoi port = .ok n) ∨
      ∃ e, tcpipAddress nicID remote = .error e ∧ e ≠ .panicked := by
  unfold tcpipAddress
  split
  · rename_i ip port hsplit
    cases hn : atoi port with
    | error e => exact Or.inr ⟨.port e, rfl, by simp⟩
    | ok n => exact Or.inl ⟨ip, port, n, hsplit, hn⟩
  · exact Or.inr ⟨.invalidRemote, rfl, by simp⟩

/-- A text of two pieces that denote an address and a port has no brackets. -/
theorem splitHostPort_of_split (hsplit : split remote ':' = [ip, port]) {addr : IP} {p : UInt16}
    (hip : DenotesIP ip addr) (hport : DenotesPort port p) :
    splitHostPort remote = .ok (ip, port) := by
  obtain ⟨hs, hcolon, hcolon'⟩ := split_eq_pair_iff.mp hsplit
  have hno : ∀ c, c ≠ '.' → c ≠ ':' → decDigit? c = none → c ∉ remote.toList := by
    intro c hdot hne hdigit
    rw [hs, List.mem_append, List.mem_cons]
    intro hc
    obtain hc | rfl | hc := hc
    · exact not_mem_of_parseIP hcolon hip hdot hdigit hc
    · exact hne rfl
    · exact not_mem_of_parseUint hport hdigit hc
  refine splitHostPort_plain hs hcolon hcolon' ?_ ?_
  · exact hno '[' (by decide) (by decide) (by decide)
  · exact hno ']' (by decide) (by decide) (by decide)

/-- A text whose first piece is an IPv4 address does not begin with a bracket. -/
theorem head?_ne_of_split (hsplit : split remote ':' = [ip, port]) {addr : IP}
    (hip : DenotesIP ip addr) : remote.toList.head? ≠ some '[' := by
  obtain ⟨hs, hcolon, -⟩ := split_eq_pair_iff.mp hsplit
  have hopen : '[' ∉ ip.toList := not_mem_of_parseIP hcolon hip (by decide) (by decide)
  rw [hs]
  cases hl : ip.toList with
  | nil => simp
  | cons c rest =>
    intro hc
    simp only [List.cons_append, List.head?_cons, Option.some.injEq] at hc
    simp [hl, hc] at hopen

/-- The two readers cut a text alike when the host is an IPv4 address. -/
theorem split_eq_of_splitHostPort (hsplit : split remote ':' = [ip, port]) {addr : IP}
    (hip : DenotesIP ip addr) {host port' : String}
    (h : splitHostPort remote = .ok (host, port')) : host = ip ∧ port' = port := by
  have hsplit' : split remote ':' = [host, port'] :=
    split_eq_pair_iff.mpr (plain_of_splitHostPort h (head?_ne_of_split hsplit hip))
  simp only [hsplit, List.cons.injEq, and_true] at hsplit'
  exact ⟨hsplit'.1.symm, hsplit'.2.symm⟩

theorem tcpipAddress_exact_iff (nicID : Nat) (remote : String) :
    Exact .panicked (tcpipAddress nicID remote) (Denotes remote) ↔
      ∀ ip port n, split remote ':' = [ip, port] → atoi port = .ok n →
        (∃ addr, DenotesIP ip addr) ∧ ∃ p, DenotesPort port p := by
  constructor
  · intro ⟨hpanic, hexact⟩ ip port n hsplit hn
    rw [tcpipAddress_split hsplit hn] at hpanic hexact
    cases hip : (parseIP ip).to4 with
    | none => simp [hip] at hpanic
    | some addr =>
      simp only [hip, Option.elim_some, Except.ok.injEq, forall_eq'] at hexact
      obtain ⟨host, port', hhost, -, hport⟩ := hexact
      obtain ⟨-, rfl⟩ := split_eq_of_splitHostPort hsplit hip hhost
      exact ⟨⟨addr, hip⟩, _, hport⟩
  · intro h
    obtain ⟨ip, port, n, hsplit, hn⟩ | ⟨e, he, hne⟩ := tcpipAddress_cases nicID remote
    · obtain ⟨⟨addr, hip⟩, p, hport⟩ := h ip port n hsplit hn
      have hdenotes := denotesPort_of_atoi hn ⟨p, hport⟩
      have hip' : (parseIP ip).to4 = some addr := hip
      rw [tcpipAddress_split hsplit hn, hip']
      refine ⟨by simp, ?_⟩
      intro a ha
      cases ha
      exact ⟨ip, port, splitHostPort_of_split hsplit hip hport, hip, hdenotes⟩
    · rw [he]
      exact ⟨by simpa using hne, by simp⟩

/-- What `tcpipAddress` yields, and for which texts. -/
theorem tcpipAddress_eq_ok_iff {a : FullAddress} :
    tcpipAddress nicID remote = .ok a ↔
      ∃ ip port n, split remote ':' = [ip, port] ∧ atoi port = .ok n ∧ DenotesIP ip a.addr ∧
        a.nic = nicID ∧ a.port = UInt16.ofNat (n % 65536).toNat := by
  constructor
  · intro h
    obtain ⟨ip, port, n, hsplit, hn⟩ | ⟨e, he, -⟩ := tcpipAddress_cases nicID remote
    · rw [tcpipAddress_split hsplit hn] at h
      cases hip : (parseIP ip).to4 with
      | none => simp [hip] at h
      | some addr =>
        simp only [hip, Option.elim_some, Except.ok.injEq] at h
        subst h
        exact ⟨ip, port, n, hsplit, hn, hip, rfl, rfl⟩
    · simp [he] at h
  · intro ⟨ip, port, n, hsplit, hn, hip, hnic, hport⟩
    have hip' : (parseIP ip).to4 = some a.addr := hip
    rw [tcpipAddress_split hsplit hn, hip', ← hnic, ← hport, Option.elim_some]

end Remote

/-! ## Dial and listen -/

section Dial

variable {network addr : String}

/-- What `splitIPPort` yields, and for which texts. -/
theorem splitIPPort_eq_ok_iff {ip : IP} {n : Nat} :
    splitIPPort network addr = .ok (ip, n) ↔
      network = "tcp" ∧ ∃ host port, splitHostPort addr = .ok (host, port) ∧
        parseUint port 16 = .ok n ∧ parseIP host = ip ∧ ip ≠ [] := by
  by_cases htcp : network = "tcp"
  · cases hhost : splitHostPort addr with
    | error e => simp [splitIPPort, htcp, hhost]
    | ok found =>
      obtain ⟨host, port⟩ := found
      cases hport : parseUint port 16 with
      | error e =>
        simp only [splitIPPort, htcp, hhost, hport, ne_eq, not_true, if_false, true_and]
        simp [hport]
      | ok m =>
        by_cases hip : parseIP host = []
        · simp only [splitIPPort, htcp, hhost, hport, hip, ne_eq, not_true, if_false, if_true]
          simp [hport, hip]
        · simp only [splitIPPort, htcp, hhost, hport, hip, ne_eq, not_true, if_false, true_and,
            Except.ok.injEq, Prod.mk.injEq]
          constructor
          · intro ⟨hparse, hm⟩
            exact ⟨host, port, ⟨rfl, rfl⟩, hm ▸ hport, hparse, hparse ▸ hip⟩
          · intro ⟨host', port', ⟨hh, hp⟩, hm, hparse, _⟩
            subst hh hp
            exact ⟨hparse, Except.ok.inj (hport.symm.trans hm)⟩
  · simp [splitIPPort, htcp]

theorem splitIPPort_ne_panicked : splitIPPort network addr ≠ .error .panicked := by
  unfold splitIPPort
  split
  · simp
  · split
    · simp
    · split
      · simp
      · split <;> simp

theorem fullAddress_eq_ok_iff {a : FullAddress} :
    fullAddress network addr = .ok a ↔
      ∃ ip n, splitIPPort network addr = .ok (ip, n) ∧ ip.to4 = some a.addr ∧ a.nic = 1 ∧
        a.port = UInt16.ofNat n := by
  cases hsplit : splitIPPort network addr with
  | error e => simp [fullAddress, hsplit]
  | ok found =>
    obtain ⟨ip, n⟩ := found
    obtain ⟨nic, address, port⟩ := a
    cases hip : ip.to4 with
    | none => simp [fullAddress, hsplit, hip]
    | some v => simp [fullAddress, hsplit, hip, eq_comm, and_left_comm]

theorem fullAddress_eq_panicked_iff :
    fullAddress network addr = .error .panicked ↔
      ∃ ip n, splitIPPort network addr = .ok (ip, n) ∧ ip.to4 = none := by
  cases hsplit : splitIPPort network addr with
  | error e =>
    have hne : e ≠ .panicked := fun he => splitIPPort_ne_panicked (he ▸ hsplit)
    simp [fullAddress, hsplit, hne]
  | ok found =>
    obtain ⟨ip, n⟩ := found
    cases hip : ip.to4 with
    | none => simp [fullAddress, hsplit, hip]
    | some v => simp [fullAddress, hsplit, hip]

/-- An address that was built is the one the text denotes. -/
theorem denotes_of_fullAddress {a : FullAddress} (h : fullAddress network addr = .ok a) :
    Denotes addr a := by
  obtain ⟨ip, n, hsplit, hip, -, hport⟩ := fullAddress_eq_ok_iff.mp h
  obtain ⟨-, host, port, hhost, hn, rfl, -⟩ := splitIPPort_eq_ok_iff.mp hsplit
  exact ⟨host, port, hhost, hip, hport ▸ denotesPort_ofNat hn⟩

/-- A text that denotes an address is accepted for `tcp`. -/
theorem fullAddress_of_denotes {a : FullAddress} (h : Denotes addr a) (hnic : a.nic = 1) :
    fullAddress "tcp" addr = .ok a := by
  obtain ⟨host, port, hhost, hip, hport⟩ := h
  have hne : parseIP host ≠ [] := by
    intro hnil
    simp [DenotesIP, hnil] at hip
  refine fullAddress_eq_ok_iff.mpr ⟨parseIP host, a.port.toNat, ?_, hip, hnic, by simp⟩
  exact splitIPPort_eq_ok_iff.mpr ⟨rfl, host, port, hhost, hport, rfl, hne⟩

theorem fullAddress_exact_iff (network addr : String) :
    Exact .panicked (fullAddress network addr) (Denotes addr) ↔
      ∀ ip n, splitIPPort network addr = .ok (ip, n) → ∃ v, ip.to4 = some v := by
  simp only [Exact, ne_eq, fullAddress_eq_panicked_iff, not_exists, not_and,
    ← Option.ne_none_iff_exists']
  exact and_iff_left fun a => denotes_of_fullAddress

end Dial

/-! ## The two readers of `ip:port` -/

/-- `tcpipAddress` and `splitIPPort` accept a text with the same result, or both
refuse it. The result of `splitIPPort` is taken as the address that `Dial` builds
of it: an IPv6 address, which `splitIPPort` accepts and `Dial` panics on, counts
as refused. -/
def Agree (text : String) : Prop :=
  (tcpipAddress 1 text).toOption = (fullAddress "tcp" text).toOption

theorem agree_iff_forall (text : String) :
    Agree text ↔ ∀ a, tcpipAddress 1 text = .ok a ↔ fullAddress "tcp" text = .ok a := by
  have htoOption : ∀ {ε : Type} (r : Except ε FullAddress) (a : FullAddress),
      r.toOption = some a ↔ r = .ok a := by
    intro ε r a
    cases r <;> simp [Except.toOption]
  simp only [Agree, Option.ext_iff, htoOption]

theorem head?_ne_of_tcpipAddress {text : String} {a : FullAddress}
    (h : tcpipAddress 1 text = .ok a) : text.toList.head? ≠ some '[' := by
  obtain ⟨ip, port, n, hsplit, -, hip, -⟩ := tcpipAddress_eq_ok_iff.mp h
  exact head?_ne_of_split hsplit hip

/-- They agree unless `tcpipAddress` accepts a port that is none, or
`splitIPPort` a host in brackets. -/
theorem agree_iff (text : String) :
    Agree text ↔
      (∀ a, tcpipAddress 1 text = .ok a →
        ∃ ip port p, split text ':' = [ip, port] ∧ DenotesPort port p) ∧
      (∀ a, fullAddress "tcp" text = .ok a → text.toList.head? ≠ some '[') := by
  rw [agree_iff_forall]
  constructor
  · intro h
    refine ⟨?_, fun a ha => head?_ne_of_tcpipAddress ((h a).mpr ha)⟩
    intro a ha
    obtain ⟨host, port, hhost, -, hport⟩ := denotes_of_fullAddress ((h a).mp ha)
    have hplain := plain_of_splitHostPort hhost (head?_ne_of_tcpipAddress ha)
    exact ⟨host, port, a.port, split_eq_pair_iff.mpr hplain, hport⟩
  · intro ⟨hport, hhead⟩ a
    constructor
    · intro ha
      obtain ⟨ip, port, n, hsplit, hn, hip, hnic, hlow⟩ := tcpipAddress_eq_ok_iff.mp ha
      obtain ⟨ip', port', p, hsplit', hp⟩ := hport a ha
      simp only [hsplit, List.cons.injEq, and_true] at hsplit'
      obtain ⟨rfl, rfl⟩ := hsplit'
      have hdenotes : DenotesPort port a.port := hlow ▸ denotesPort_of_atoi hn ⟨p, hp⟩
      refine fullAddress_of_denotes ⟨ip, port, ?_, hip, hdenotes⟩ hnic
      exact splitHostPort_of_split hsplit hip hp
    · intro ha
      obtain ⟨host, port, hhost, hip, hp⟩ := denotes_of_fullAddress ha
      obtain ⟨-, -, -, -, hnic, -⟩ := fullAddress_eq_ok_iff.mp ha
      have hplain := plain_of_splitHostPort hhost (hhead a ha)
      have hn : atoi port = .ok (a.port.toNat : Int) := atoi_of_parseUint (by decide) hp
      have hlt : a.port.toNat < 65536 := parseUint_lt hp
      have hcut : ((a.port.toNat : Int) % 65536).toNat = a.port.toNat := by omega
      refine tcpipAddress_eq_ok_iff.mpr
        ⟨host, port, _, split_eq_pair_iff.mpr hplain, hn, hip, hnic, ?_⟩
      rw [hcut, UInt16.ofNat_toNat]

/-! ## The tunnel -/

/-- What the handler may do for a query: an HTTP error, or a dial to what the
query denotes. -/
def TunnelExact (query : GoMap String (List String)) (result : TunnelResult) : Prop :=
  result ≠ .panicked ∧ ∀ a, result = .dial a →
    DenotesIP (getQuery query "ip") a.addr ∧ DenotesPort (getQuery query "port") a.port

/-- A response writer and a connection on which nothing fails. -/
def noFailure : ResponseWriter := ⟨some (.ok ([], ⟨Reader.newReader [], none⟩))⟩

section Tunnel

variable {quote : String → String} {query : GoMap String (List String)} {w : ResponseWriter}
  {write : Option String} {n : Int}

theorem tunnelHandler_noFailure (hip : getQuery query "ip" ≠ "")
    (hn : atoi (getQuery query "port") = .ok n) :
    tunnelHandler quote query noFailure none = (parseIP (getQuery query "ip")).to4.elim .panicked
      (fun addr => .dial ⟨1, addr, UInt16.ofNat (n % 65536).toNat⟩) := by
  cases haddr : (parseIP (getQuery query "ip")).to4 with
  | none => simp only [tunnelHandler, hip, hn, noFailure, if_false, haddr, Option.elim_none]
  | some addr => simp only [tunnelHandler, hip, hn, noFailure, if_false, haddr, Option.elim_some]

/-- The handler ends in an HTTP error, or it gets to the dial. -/
theorem tunnelHandler_cases (quote : String → String) (query : GoMap String (List String))
    (w : ResponseWriter) (write : Option String) :
    (∃ error code, tunnelHandler quote query w write = .httpError error code) ∨
      getQuery query "ip" ≠ "" ∧ (∃ n, atoi (getQuery query "port") = .ok n) ∧
        tunnelHandler quote query w write = tunnelHandler quote query noFailure none := by
  by_cases hip : getQuery query "ip" = ""
  · simp only [tunnelHandler, hip, if_true]
    exact Or.inl ⟨_, _, rfl⟩
  · cases hn : atoi (getQuery query "port") with
    | error e =>
      simp only [tunnelHandler, hip, hn, if_false]
      exact Or.inl ⟨_, _, rfl⟩
    | ok n =>
      simp only [tunnelHandler, hip, hn, noFailure, if_false]
      cases w.hijack with
      | none => exact Or.inl ⟨_, _, rfl⟩
      | some hijacked =>
        cases hijacked with
        | error err => exact Or.inl ⟨_, _, rfl⟩
        | ok found =>
          cases hflush : found.2.flush with
          | some err => exact Or.inl ⟨err, _, by simp only [hflush]; rfl⟩
          | none =>
            cases write with
            | some err => exact Or.inl ⟨err, _, by simp only [hflush]; rfl⟩
            | none => exact Or.inr ⟨hip, ⟨n, rfl⟩, by simp only [hflush]⟩

theorem tunnelHandler_exact_iff (quote : String → String) (query : GoMap String (List String)) :
    (∀ w write, TunnelExact query (tunnelHandler quote query w write)) ↔
      ∀ n, getQuery query "ip" ≠ "" → atoi (getQuery query "port") = .ok n →
        (∃ addr, DenotesIP (getQuery query "ip") addr) ∧
          ∃ p, DenotesPort (getQuery query "port") p := by
  constructor
  · intro h n hip hn
    obtain ⟨hpanic, hexact⟩ := h noFailure none
    rw [tunnelHandler_noFailure hip hn] at hpanic hexact
    cases haddr : (parseIP (getQuery query "ip")).to4 with
    | none => simp [haddr] at hpanic
    | some addr =>
      simp only [haddr, Option.elim_some, TunnelResult.dial.injEq, forall_eq'] at hexact
      exact ⟨⟨addr, haddr⟩, _, hexact.2⟩
  · intro h w write
    obtain ⟨error, code, he⟩ | ⟨hip, ⟨n, hn⟩, heq⟩ := tunnelHandler_cases quote query w write
    · rw [he]
      exact ⟨by simp, by simp⟩
    · obtain ⟨⟨addr, haddr⟩, hport⟩ := h n hip hn
      have haddr' : (parseIP (getQuery query "ip")).to4 = some addr := haddr
      rw [heq, tunnelHandler_noFailure hip hn, haddr']
      refine ⟨by simp, ?_⟩
      intro a ha
      cases ha
      exact ⟨haddr, denotesPort_of_atoi hn hport⟩

end Tunnel

/-! ## The NAT table -/

/-- Every entry of the table is denoted by one of the configuration, and every
source seen so far has an entry. -/
structure Translates (nat : GoMap String String) (seen : List String)
    (translation : GoMap IP IP) : Prop where
  denoted : ∀ s d, translation.lookup s = some d →
    ∃ source destination, nat.lookup source = some destination ∧ DenotesIP source s ∧
      DenotesIP destination d
  complete : ∀ source ∈ seen, source ∈ nat → ∃ s, DenotesIP source s ∧ s ∈ translation

/-- Both texts of an entry are IPv4 addresses. -/
def NATEntry (nat : GoMap String String) (source : String) : Prop :=
  ∀ destination, nat.lookup source = some destination →
    (∃ s, DenotesIP source s) ∧ ∃ d, DenotesIP destination d

section NAT

variable {nat : GoMap String String} {seen : List String} {translation translation' : GoMap IP IP}
  {source : String}

theorem translate_eq_some (h : translate nat translation source = some translation') :
    (nat.lookup source = none ∧ translation' = translation) ∨
      ∃ destination s d, nat.lookup source = some destination ∧ DenotesIP source s ∧
        DenotesIP destination d ∧ translation' = translation.insert s d := by
  cases hv : nat.lookup source with
  | none => exact Or.inl ⟨rfl, by simpa [translate, hv] using h.symm⟩
  | some destination =>
    cases hs : (parseIP source).to4 with
    | none => simp [translate, hv, hs] at h
    | some s =>
      cases hd : (parseIP destination).to4 with
      | none => simp [translate, hv, hs, hd] at h
      | some d =>
        refine Or.inr ⟨destination, s, d, rfl, hs, hd, ?_⟩
        simpa [translate, hv, hs, hd] using h.symm

/-- An entry is translated exactly when both of its texts are addresses. -/
theorem translate_isSome_iff :
    (∃ translation', translate nat translation source = some translation') ↔
      NATEntry nat source := by
  constructor
  · intro ⟨translation', h⟩ destination hv
    obtain ⟨hnone, -⟩ | ⟨destination', s, d, hv', hs, hd, -⟩ := translate_eq_some h
    · simp [hv] at hnone
    · rw [hv, Option.some.injEq] at hv'
      exact ⟨⟨s, hs⟩, d, hv' ▸ hd⟩
  · intro h
    cases hv : nat.lookup source with
    | none => exact ⟨translation, by simp [translate, hv]⟩
    | some destination =>
      obtain ⟨⟨s, hs⟩, d, hd⟩ := h destination hv
      have hs' : (parseIP source).to4 = some s := hs
      have hd' : (parseIP destination).to4 = some d := hd
      exact ⟨translation.insert s d, by simp [translate, hv, hs', hd']⟩

theorem Translates.translate (h : Translates nat seen translation)
    (hstep : translate nat translation source = some translation') :
    Translates nat (seen ++ [source]) translation' := by
  obtain ⟨hnone, rfl⟩ | ⟨destination, s, d, hv, hs, hd, rfl⟩ := translate_eq_some hstep
  · refine ⟨h.denoted, ?_⟩
    intro k hk hmem
    obtain hk | hk := List.mem_append.mp hk
    · exact h.complete k hk hmem
    · rw [List.mem_singleton.mp hk, GoMap.mem_iff_lookup, hnone] at hmem
      simp at hmem
  · refine ⟨?_, ?_⟩
    · intro s' d' hlookup
      rw [GoMap.lookup_insert_eq] at hlookup
      by_cases heq : s' = s
      · rw [if_pos heq, Option.some.injEq] at hlookup
        exact ⟨source, destination, hv, heq ▸ hs, hlookup ▸ hd⟩
      · rw [if_neg heq] at hlookup
        exact h.denoted s' d' hlookup
    · intro k hk hmem
      obtain hk | hk := List.mem_append.mp hk
      · obtain ⟨s', hs', hin⟩ := h.complete k hk hmem
        exact ⟨s', hs', AList.mem_insert translation |>.mpr (Or.inr hin)⟩
      · rw [List.mem_singleton.mp hk]
        exact ⟨s, hs, AList.mem_insert translation |>.mpr (Or.inl rfl)⟩

/-- The loop: over entries that are translated, the table stays a translation of
what was seen. -/
theorem Translates.foldlM : ∀ (order : List String) {seen : List String}
    {translation : GoMap IP IP}, Translates nat seen translation →
      ((∃ final, order.foldlM (VirtualNetwork.translate nat) translation = some final ∧
        Translates nat (seen ++ order) final) ↔ ∀ source ∈ order, NATEntry nat source)
  | [], seen, translation, h => by
      simpa using h
  | source :: order, seen, translation, h => by
      cases hstep : VirtualNetwork.translate nat translation source with
      | none =>
        have hnot : ¬ NATEntry nat source := by
          intro hentry
          obtain ⟨t, ht⟩ := translate_isSome_iff.mpr hentry
          rw [hstep] at ht
          cases ht
        simp [hstep, hnot]
      | some next =>
        have hentry : NATEntry nat source := translate_isSome_iff.mp ⟨next, hstep⟩
        have ih := Translates.foldlM order (h.translate hstep)
        simpa [hstep, hentry] using ih

theorem parseNATTable_exact_iff (nat : GoMap String String) {order : List String}
    (horder : GoMap.RangeOrder nat order) :
    (∃ translation, parseNATTable nat order = some translation ∧
      Translates nat order translation) ↔ ∀ source, NATEntry nat source := by
  have hempty : Translates nat [] (∅ : GoMap IP IP) := ⟨by simp, by simp⟩
  have hloop := hempty.foldlM order
  rw [List.nil_append] at hloop
  refine hloop.trans ⟨?_, fun h source _ => h source⟩
  intro h source destination hv
  exact h source (GoMap.mem_of_rangeOrder horder hv) destination hv

end NAT

/-! ## All conversions -/

/-- Which texts are converted without a panic and to what they denote, and on
which texts the two readers of `ip:port` agree. -/
theorem address_conversions_exact_iff (quote : String → String) :
    (∀ nicID remote,
      Exact .panicked (tcpipAddress nicID remote) (Denotes remote) ↔
        ∀ ip port n, split remote ':' = [ip, port] → atoi port = .ok n →
          (∃ addr, DenotesIP ip addr) ∧ ∃ p, DenotesPort port p) ∧
    (∀ network addr,
      Exact .panicked (dial network addr) (Denotes addr) ↔
        ∀ ip n, splitIPPort network addr = .ok (ip, n) → ∃ v, ip.to4 = some v) ∧
    (∀ addr,
      Exact .panicked (dialContextTCP addr) (Denotes addr) ↔
        ∀ ip n, splitIPPort "tcp" addr = .ok (ip, n) → ∃ v, ip.to4 = some v) ∧
    (∀ network addr,
      Exact .panicked (listen network addr) (Denotes addr) ↔
        ∀ ip n, splitIPPort network addr = .ok (ip, n) → ∃ v, ip.to4 = some v) ∧
    (∀ query,
      (∀ w write, TunnelExact query (tunnelHandler quote query w write)) ↔
        ∀ n, getQuery query "ip" ≠ "" → atoi (getQuery query "port") = .ok n →
          (∃ addr, DenotesIP (getQuery query "ip") addr) ∧
            ∃ p, DenotesPort (getQuery query "port") p) ∧
    (∀ nat order, GoMap.RangeOrder nat order →
      ((∃ translation, parseNATTable nat order = some translation ∧
        Translates nat order translation) ↔ ∀ source, NATEntry nat source)) ∧
    (∀ text,
      Agree text ↔
        (∀ a, tcpipAddress 1 text = .ok a →
          ∃ ip port p, split text ':' = [ip, port] ∧ DenotesPort port p) ∧
        (∀ a, fullAddress "tcp" text = .ok a → text.toList.head? ≠ some '[')) :=
  ⟨tcpipAddress_exact_iff, fullAddress_exact_iff, fullAddress_exact_iff "tcp",
    fullAddress_exact_iff, tunnelHandler_exact_iff quote,
    fun nat _ horder => parseNATTable_exact_iff nat horder, agree_iff⟩

/-- A host name, an IPv6 address and a name in the NAT table panic; a port above
65535 and a signed one are cut; and brackets tell the two readers apart. -/
theorem address_conversions_diverge :
    tcpipAddress 1 "localhost:80" = .error .panicked ∧
    tcpipAddress 1 "192.168.127.2:65616" = .ok ⟨1, [192, 168, 127, 2], 80⟩ ∧
    tcpipAddress 1 "192.168.127.2:-1" = .ok ⟨1, [192, 168, 127, 2], 65535⟩ ∧
    dial "tcp" "[::1]:80" = .error .panicked ∧
    dial "tcp" "192.168.127.2:65616" = .error (.port "65616" .range) ∧
    dial "tcp" "[192.168.127.2]:80" = .ok ⟨1, [192, 168, 127, 2], 80⟩ ∧
    tcpipAddress 1 "[192.168.127.2]:80" = .error .panicked ∧
    tunnelHandler id ((GoMap.single "ip" ["::1"]).insert "port" ["80"]) noFailure none
      = .panicked ∧
    parseNATTable (GoMap.single "localhost" "127.0.0.1") ["localhost"] = none := by
  decide +kernel

end GvisorTapVsock.VirtualNetwork
