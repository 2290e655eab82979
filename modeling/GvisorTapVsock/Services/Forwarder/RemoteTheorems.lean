/-
GvisorTapVsock.Services.Forwarder.RemoteTheorems — the remote of a request to
expose a port (`remote` in `pkg/services/forwarder/ports.go`).

A remote without a host stands for the client's. `remote` puts the client's
host in front of the text as it is, and so leaves out two things: the brackets
an IPv6 host needs before a colon, and the brackets `[]` an empty host may
already have. `remote_splits_iff` says for which requests the result is read
back as the endpoint that was meant.
-/
import GvisorTapVsock.Go.HostPortTheorems
import GvisorTapVsock.Services.Forwarder.Ports

namespace GvisorTapVsock.Services.Forwarder

open GvisorTapVsock.Go

variable {req : ExposeRequest} {addr r client port : String}

/-- The endpoint a request means: the host of its remote, or else the host of
the client, and the port of its remote. -/
def endpoint (req : ExposeRequest) (addr : String) : Except AddrError (String × String) := do
  let (host, port) ← splitHostPort req.remote
  if host = "" then
    let (client, _) ← splitHostPort addr
    return (client, port)
  else return (host, port)

/-- The two ways `remote` succeeds. -/
theorem remote_eq_ok (h : remote req addr = .ok r) :
    (∃ host port, splitHostPort req.remote = .ok (host, port) ∧ host ≠ "" ∧ r = req.remote) ∨
      ∃ port client clientPort, splitHostPort req.remote = .ok ("", port) ∧
        splitHostPort addr = .ok (client, clientPort) ∧ r = client ++ req.remote := by
  rw [remote] at h
  cases hreq : splitHostPort req.remote with
  | error e => simp [hreq, bind, Except.bind] at h
  | ok p =>
    obtain ⟨host, port⟩ := p
    rw [hreq] at h
    by_cases hhost : host = ""
    · subst hhost
      cases haddr : splitHostPort addr with
      | error e => simp [haddr, bind, Except.bind] at h
      | ok q =>
        obtain ⟨client, clientPort⟩ := q
        rw [haddr] at h
        exact Or.inr ⟨port, client, clientPort, rfl, rfl, (Except.ok.inj h).symm⟩
    · simp only [bind, Except.bind, hhost, if_false] at h
      exact Or.inl ⟨host, port, rfl, hhost, (Except.ok.inj h).symm⟩

/-- A remote without a host: a colon and the port, or the same after `[]`. -/
theorem remote_without_host (h : splitHostPort req.remote = .ok ("", port)) :
    req.remote.toList = ':' :: port.toList ∨
      req.remote.toList = '[' :: ']' :: ':' :: port.toList := by
  by_cases hhead : req.remote.toList.head? = some '['
  · exact Or.inr (by simpa using (bracketed_of_splitHostPort h hhead).1)
  · exact Or.inl (by simpa using (plain_of_splitHostPort h hhead).1)

/-- A client's host before a colon and a port is read back if it has no colon. -/
theorem splitHostPort_client_iff (hclient : '[' ∉ client.toList ∧ ']' ∉ client.toList)
    (hport : '[' ∉ port.toList ∧ ']' ∉ port.toList ∧ ':' ∉ port.toList)
    (hr : r.toList = client.toList ++ ':' :: port.toList) :
    splitHostPort r = .ok (client, port) ↔ ':' ∉ client.toList := by
  have hopen : '[' ∉ r.toList := by simp [hr, hclient.1, hport.1]
  have hclose : ']' ∉ r.toList := by simp [hr, hclient.2, hport.2.1]
  constructor
  · intro h
    exact (plain_of_splitHostPort h fun hhead => hopen (List.mem_of_head? hhead)).2.1
  · intro hcolon
    exact splitHostPort_plain hr hcolon hport.2.2 hopen hclose

/-- A client's host before an empty host in brackets is never read back. -/
theorem splitHostPort_client_brackets_iff (hclient : '[' ∉ client.toList ∧ ']' ∉ client.toList)
    (hport : '[' ∉ port.toList ∧ ']' ∉ port.toList ∧ ':' ∉ port.toList)
    (hr : r.toList = client.toList ++ '[' :: ']' :: ':' :: port.toList) :
    splitHostPort r = .ok (client, port) ↔ client = "" := by
  constructor
  · intro h
    by_contra hne
    have hhead : r.toList.head? ≠ some '[' := by
      intro hhead
      have hclient' : client.toList ≠ [] := by simpa using hne
      rw [hr, List.head?_append_of_ne_nil _ hclient'] at hhead
      exact hclient.1 (List.mem_of_head? hhead)
    have hplain := (plain_of_splitHostPort h hhead).1
    rw [hr] at hplain
    exact absurd (List.append_cancel_left hplain) (by simp)
  · rintro rfl
    have hr' : r.toList = '[' :: ([] ++ ']' :: ':' :: port.toList) := by simpa using hr
    rw [splitHostPort_bracketed hr' (by simp) hport.2.2]
    simp [hport]

/-- **The remote that is handed to `Expose`** splits into the endpoint that was
meant exactly if the remote has a host, or the client's host has no colon and
is not put before brackets. -/
theorem remote_splits_iff (req : ExposeRequest) (addr r : String) (h : remote req addr = .ok r) :
    splitHostPort r = endpoint req addr ↔
      ∀ port client clientPort, splitHostPort req.remote = .ok ("", port) →
        splitHostPort addr = .ok (client, clientPort) →
          ':' ∉ client.toList ∧ (req.remote.toList.head? = some ':' ∨ client = "") := by
  rcases remote_eq_ok h with
    ⟨host, port, hreq, hhost, rfl⟩ | ⟨port, client, cport, hreq, haddr, rfl⟩
  · -- the remote has a host
    have hend : endpoint req addr = .ok (host, port) := by
      rw [endpoint, hreq]
      exact if_neg hhost
    rw [hend, hreq]
    simp [hhost]
  · have hend : endpoint req addr = .ok (client, port) := by
      rw [endpoint, hreq, haddr]
      rfl
    have hclient := (parts_of_splitHostPort haddr).1
    have hport := (parts_of_splitHostPort hreq).2
    rw [hend]
    rcases remote_without_host hreq with hform | hform
    · rw [splitHostPort_client_iff hclient hport (by simp [hform])]
      simp [hreq, haddr, hform]
    · rw [splitHostPort_client_brackets_iff hclient hport (by simp [hform])]
      constructor
      · intro hempty
        simp [hreq, haddr, hempty]
      · intro hall
        simpa [hform] using (hall port client cport hreq haddr).2

/-- A client over IPv4. -/
theorem remote_splits_ipv4 :
    splitHostPort "192.168.127.2:80" = endpoint ⟨":6443", ":80", "tcp"⟩ "192.168.127.2:51234" :=
  (remote_splits_iff ⟨":6443", ":80", "tcp"⟩ "192.168.127.2:51234" "192.168.127.2:80"
    (by decide)).mpr (by
      intro port client clientPort _ haddr
      obtain ⟨rfl, -⟩ : client = "192.168.127.2" ∧ clientPort = "51234" := by
        have hsplit : splitHostPort "192.168.127.2:51234" = .ok ("192.168.127.2", "51234") := by
          decide
        rw [hsplit, Except.ok.injEq, Prod.mk.injEq] at haddr
        exact ⟨haddr.1.symm, haddr.2.symm⟩
      decide)

/-- A client over IPv6 gets `::1:80`, and one over IPv4 with the remote `[]:80`
gets `192.168.127.2[]:80`: neither is a host and a port. -/
theorem remote_not_an_endpoint :
    remote ⟨":6443", ":80", "tcp"⟩ "[::1]:51234" = .ok "::1:80" ∧
      endpoint ⟨":6443", ":80", "tcp"⟩ "[::1]:51234" = .ok ("::1", "80") ∧
      splitHostPort "::1:80" = .error ⟨tooManyColons, "::1:80"⟩ ∧
      remote ⟨":6443", "[]:80", "tcp"⟩ "192.168.127.2:51234" = .ok "192.168.127.2[]:80" ∧
      splitHostPort "192.168.127.2[]:80"
        = .error ⟨"unexpected '[' in address", "192.168.127.2[]:80"⟩ := by
  decide

end GvisorTapVsock.Services.Forwarder
