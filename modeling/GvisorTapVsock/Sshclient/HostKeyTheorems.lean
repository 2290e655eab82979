/-
GvisorTapVsock.Sshclient.HostKeyTheorems — which server keys a secure bastion
accepts.

With `secure=true` a bastion should accept a key only if known_hosts has an
entry for the host with that key (`HasEntry`). When `HostKey` returns a key this
is so: it is the key of a line that lists the host (`hasEntry_of_hostKey`). When
it returns none the callback stays the one that accepts every key, so the
guarantee depends on the lookup to succeed; `secure_accepts_known_iff` says when
it does. A hashed entry is found only if it was made with the salt that the
lookup happens to draw.
-/
import GvisorTapVsock.Sshclient.Bastion

namespace GvisorTapVsock.Sshclient

open GvisorTapVsock.Go

section HostKey

variable {K Salt : Type} (parsePublicKey : List Char → Option K)
  (hashHostname : String → Salt → String)

/-- A line of the list parses and lists a host. -/
def Lists (lines : List (List Char)) (host : String) : Prop :=
  ∃ line ∈ lines, ∃ entry, parseKnownHosts parsePublicKey line = .ok entry ∧ host ∈ entry.hosts

/-- Known_hosts has an entry for the host, plain or hashed, with the key. -/
def HasEntry (knownHosts : Option (List Char)) (host : String) (k : K) : Prop :=
  ∃ content, knownHosts = some content ∧ ∃ line ∈ (lines content).map dropCR,
    ∃ entry, parseKnownHosts parsePublicKey line = .ok entry ∧ entry.pubKey = k ∧
      ∃ h ∈ entry.hosts, h = host ∨ ∃ salt, h = hashHostname host salt

/-! ## The lookup -/

variable {parsePublicKey hashHostname} {host hashhost : String} {k : K}

/-- A key that is found stands on a line that lists the host. -/
theorem hostKeyFrom_eq_some : ∀ {lines : List (List Char)},
    hostKeyFrom parsePublicKey host hashhost lines = some k →
      ∃ line ∈ lines, ∃ entry, parseKnownHosts parsePublicKey line = .ok entry ∧
        entry.pubKey = k ∧ ∃ h ∈ entry.hosts, h = host ∨ h = hashhost
  | [], h => by simp [hostKeyFrom] at h
  | line :: rest, h => by
      cases hparse : parseKnownHosts parsePublicKey line with
      | error e =>
        simp only [hostKeyFrom, hparse] at h
        obtain ⟨line', hline, hentry⟩ := hostKeyFrom_eq_some h
        exact ⟨line', List.mem_cons_of_mem _ hline, hentry⟩
      | ok entry =>
        by_cases hlisted : entry.hosts.any (fun h => decide (h = host ∨ h = hashhost))
        · simp only [hostKeyFrom, hparse, hlisted, if_true, Option.some.injEq] at h
          exact ⟨line, by simp, entry, hparse, h, by simpa using hlisted⟩
        · simp only [hostKeyFrom, hparse, hlisted, Bool.false_eq_true, if_false] at h
          obtain ⟨line', hline, hentry⟩ := hostKeyFrom_eq_some h
          exact ⟨line', List.mem_cons_of_mem _ hline, hentry⟩

/-- The lookup fails exactly when no line lists the host or its hash. -/
theorem hostKeyFrom_eq_none_iff : ∀ (lines : List (List Char)),
    hostKeyFrom parsePublicKey host hashhost lines = none ↔
      ¬ Lists parsePublicKey lines host ∧ ¬ Lists parsePublicKey lines hashhost
  | [] => by simp [hostKeyFrom, Lists]
  | line :: rest => by
      have ih := hostKeyFrom_eq_none_iff rest
      cases hparse : parseKnownHosts parsePublicKey line with
      | error e => simpa [hostKeyFrom, Lists, hparse] using ih
      | ok entry =>
        by_cases hlisted : entry.hosts.any (fun h => decide (h = host ∨ h = hashhost))
        · simp only [hostKeyFrom, hparse, hlisted, if_true, reduceCtorEq, false_iff, not_and_or,
            not_not]
          obtain ⟨h, hmem, rfl | rfl⟩ : ∃ h ∈ entry.hosts, h = host ∨ h = hashhost := by
            simpa using hlisted
          · exact Or.inl ⟨line, by simp, entry, hparse, hmem⟩
          · exact Or.inr ⟨line, by simp, entry, hparse, hmem⟩
        · have hnot : host ∉ entry.hosts ∧ hashhost ∉ entry.hosts := by
            simp only [List.any_eq_true, decide_eq_true_eq, not_exists, not_and] at hlisted
            exact ⟨fun h => hlisted host h (Or.inl rfl), fun h => hlisted hashhost h (Or.inr rfl)⟩
          have hskip : hostKeyFrom parsePublicKey host hashhost (line :: rest)
              = hostKeyFrom parsePublicKey host hashhost rest := by
            simp only [hostKeyFrom, hparse, hlisted, Bool.false_eq_true, if_false]
          rw [hskip]
          simpa [Lists, hparse, hnot] using ih

variable {knownHosts : Option (List Char)} {salt : Salt}

theorem hasEntry_of_hostKey
    (h : hostKey parsePublicKey hashHostname knownHosts salt host = some k) :
    HasEntry parsePublicKey hashHostname knownHosts host k := by
  cases knownHosts with
  | none => simp [hostKey] at h
  | some content =>
    obtain ⟨line, hline, entry, hparse, hkey, listed, hmem, hhost⟩ := hostKeyFrom_eq_some h
    refine ⟨content, rfl, line, scanLines_subset hline, entry, hparse, hkey, listed, hmem, ?_⟩
    exact hhost.imp_right fun hsalt => ⟨salt, hsalt⟩

theorem hostKey_ne_none_iff :
    hostKey parsePublicKey hashHostname knownHosts salt host ≠ none ↔
      ∃ content, knownHosts = some content ∧ (Lists parsePublicKey (scanLines content) host ∨
        Lists parsePublicKey (scanLines content) (hashHostname host salt)) := by
  cases knownHosts with
  | none => simp [hostKey]
  | some content => simp [hostKey, hostKeyFrom_eq_none_iff, or_iff_not_imp_left]

/-! ## The bastion -/

variable {url : URL} {user : Userinfo} {identity : String} {publicKey : Option String}
  {b : Bastion K}

theorem createBastion_hostKeyCallback
    (h : createBastion parsePublicKey hashHostname knownHosts salt url user identity publicKey
      = .ok b) :
    b.hostKeyCallback = hostKeyCallback parsePublicKey hashHostname knownHosts salt url := by
  cases hauth : authMethods user identity publicKey with
  | error e => simp [createBastion, hauth, Except.map] at h
  | ok auth =>
    simp only [createBastion, hauth, Except.map, Except.ok.injEq] at h
    rw [← h]

/-- With `secure=true`, only known keys are accepted exactly when the lookup
finds an entry, plain or with the hash for the salt it drew, among the lines it
scans; or when known_hosts has every key. -/
theorem secure_accepts_known_iff
    (hcreate : createBastion parsePublicKey hashHostname knownHosts salt url user identity
      publicKey = .ok b) (hsecure : secure url = true) :
    (∀ k, b.hostKeyCallback.Accepts k →
        HasEntry parsePublicKey hashHostname knownHosts (knownHostsName url) k) ↔
      (∃ content, knownHosts = some content ∧
        (Lists parsePublicKey (scanLines content) (knownHostsName url) ∨
          Lists parsePublicKey (scanLines content) (hashHostname (knownHostsName url) salt))) ∨
      ∀ k, HasEntry parsePublicKey hashHostname knownHosts (knownHostsName url) k := by
  rw [createBastion_hostKeyCallback hcreate, ← hostKey_ne_none_iff]
  cases hkey : hostKey parsePublicKey hashHostname knownHosts salt (knownHostsName url) with
  | none => simp [hostKeyCallback, hsecure, hkey, HostKeyCallback.Accepts]
  | some key =>
    have hentry := hasEntry_of_hostKey hkey
    simp [hostKeyCallback, hsecure, hkey, HostKeyCallback.Accepts, hentry]

end HostKey

/-- A destination that asks for a checked host key. -/
def secureURL : URL :=
  ⟨"ssh", "vm.example:22", "/run/podman.sock", GoMap.single "secure" ["true"]⟩

/-- A hash that is a salt and the host. -/
def plainHash (host salt : String) : String := "|1|" ++ salt ++ "|" ++ host

/-- What `CreateBastion` makes for `secureURL`, with keys that are their own
text. -/
def bastionWith (knownHosts : String) (salt : String) :
    Except BastionError (Bastion (List Char)) :=
  createBastion some plainHash (some knownHosts.toList) salt secureURL ⟨"core", none⟩ "id_ed25519"
    none

/-- The bastion with a given callback. -/
def secureBastion (callback : HostKeyCallback (List Char)) : Bastion (List Char) :=
  ⟨"core", [.publicKeys "id_ed25519"], callback, "vm.example", "22", "/run/podman.sock"⟩

/-- With an entry for the host, only its key is accepted. -/
theorem secure_accepts_entry :
    bastionWith "vm.example ssh-ed25519 KEY1" "s"
      = .ok (secureBastion (.fixedHostKey "KEY1".toList)) ∧
    ∀ k, (secureBastion (.fixedHostKey "KEY1".toList)).hostKeyCallback.Accepts k →
      HasEntry some plainHash (some "vm.example ssh-ed25519 KEY1".toList)
        (knownHostsName secureURL) k := by
  have hcreate : bastionWith "vm.example ssh-ed25519 KEY1" "s"
      = .ok (secureBastion (.fixedHostKey "KEY1".toList)) := by decide +kernel
  refine ⟨hcreate, (secure_accepts_known_iff hcreate (by decide +kernel)).mpr (Or.inl ?_)⟩
  refine ⟨_, rfl, Or.inl ⟨"vm.example ssh-ed25519 KEY1".toList, by decide +kernel, ?_⟩⟩
  exact ⟨⟨[], ["vm.example"], "KEY1".toList, []⟩, by decide +kernel, by decide +kernel⟩

/-- Without an entry, and with an entry that was hashed under another salt, the
key of any server is accepted. -/
theorem secure_accepts_unknown :
    secure secureURL = true ∧
    bastionWith "" "s" = .ok (secureBastion .insecureIgnoreHostKey) ∧
    bastionWith "|1|r|vm.example ssh-ed25519 KEY1" "s"
      = .ok (secureBastion .insecureIgnoreHostKey) ∧
    (secureBastion .insecureIgnoreHostKey).hostKeyCallback.Accepts "KEY2".toList ∧
    ¬ HasEntry some plainHash (some "".toList) (knownHostsName secureURL) "KEY2".toList ∧
    ¬ HasEntry some plainHash (some "|1|r|vm.example ssh-ed25519 KEY1".toList)
      (knownHostsName secureURL) "KEY2".toList := by
  refine ⟨by decide +kernel, by decide +kernel, by decide +kernel, trivial, ?_, ?_⟩
  · intro ⟨content, hcontent, line, hline, _⟩
    rw [← Option.some.inj hcontent] at hline
    have hnone : (lines "".toList).map dropCR = [] := by decide +kernel
    rw [hnone] at hline
    cases hline
  · intro ⟨content, hcontent, line, hline, entry, hparse, hkey, _⟩
    rw [← Option.some.inj hcontent] at hline
    have hone : (lines "|1|r|vm.example ssh-ed25519 KEY1".toList).map dropCR
        = ["|1|r|vm.example ssh-ed25519 KEY1".toList] := by decide +kernel
    rw [hone, List.mem_singleton] at hline
    have hparsed : parseKnownHosts some "|1|r|vm.example ssh-ed25519 KEY1".toList
        = .ok ⟨[], ["|1|r|vm.example"], "KEY1".toList, []⟩ := by decide +kernel
    rw [hline, hparsed] at hparse
    cases hparse
    exact absurd hkey (by decide +kernel)

end GvisorTapVsock.Sshclient
