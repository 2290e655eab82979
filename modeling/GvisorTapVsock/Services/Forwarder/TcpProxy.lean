/-
GvisorTapVsock.Services.Forwarder.TcpProxy — the two connections of a proxied
TCP flow (`DialProxy.HandleConn` and `proxyCopy` of `inet.af/tcpproxy`, which
the TCP forwarder, the exposed ports and `/tunnel` call).

Once the destination is dialled, two goroutines copy, each with one report on
`errc`, a channel with a buffer of one. `HandleConn` takes one report and
returns; the deferred calls close both connections, each in a goroutine of its
own. The copies and the channel are those of `Lts.Copy` and `Lts.Mailbox`.

`handleConn_ends` — every run ends with both connections closed and no
goroutine left, and the direction that ended first was delivered whole if it
met the end of its stream.

`handleConn_may_drop_answer` — the end of one stream closes the other: a peer that
ends its request may lose the whole answer. The tunnel of `Sshclient` does not
do that.
-/
import GvisorTapVsock.Lts.Copy
import GvisorTapVsock.Lts.Mailbox

namespace GvisorTapVsock.Services.Forwarder

open GvisorTapVsock.Lts

/-- The connections of a flow: the accepted one and the one dialled for it. -/
inductive Peer where
  | src
  | dst
  deriving DecidableEq, Repr

instance : Fintype Peer := ⟨{.src, .dst}, fun p => by cases p <;> decide⟩

/-- The goroutines of a flow. `copies p` is the `proxyCopy` that reads from `p`,
and `errc.worker p` says where it is; `HandleConn` has returned once it took a
report. -/
structure Flow where
  copies : Peer → Copy UInt8
  errc : Mailbox Peer
  /-- the connections that were closed -/
  closed : List Peer

/-- The peers send `sent` before they end their streams. -/
def Flow.start (sent : Peer → List UInt8) : Flow :=
  ⟨fun p => Copy.start (sent p), Mailbox.start Finset.univ, []⟩

/-- `make(chan error, 1)` -/
def errcCap : Nat := 1

inductive FlowEvent where
  /-- a read or a write of `io.Copy` returns -/
  | copy (p : Peer) (call : CopyEvent)
  /-- `io.Copy` returned, and `errc <- err` is next -/
  | report (p : Peer)
  | send (p : Peer)
  /-- `<-errc` of `HandleConn` -/
  | receive
  /-- `c.Close()` of a `goCloseConn` -/
  | close (p : Peer)
  deriving DecidableEq, Repr

def Flow.step (f : Flow) : FlowEvent → Option Flow
  | .copy p call =>
      if f.errc.worker p = .working then
        ((f.copies p).step call).map fun c => { f with copies := Function.update f.copies p c }
      else none
  | .report p =>
      if (f.copies p).Returned then
        (f.errc.step errcCap (.finish p)).map fun errc => { f with errc := errc }
      else none
  | .send p => (f.errc.step errcCap (.send p)).map fun errc => { f with errc := errc }
  | .receive => (f.errc.step errcCap .take).map fun errc => { f with errc := errc }
  | .close p =>
      if f.errc.taken.isSome = true ∧ p ∉ f.closed then
        some { f with closed := f.closed ++ [p] }
      else none

/-- What a step may be: a step of a copy, a step of the channel, or a close. -/
inductive Flow.Steps (f : Flow) : FlowEvent → Flow → Prop where
  | copy {p : Peer} {call : CopyEvent} {c : Copy UInt8} (hpc : f.errc.worker p = .working)
      (hstep : (f.copies p).step call = some c) :
      Steps f (.copy p call) { f with copies := Function.update f.copies p c }
  | report {p : Peer} {errc : Mailbox Peer} (hret : (f.copies p).Returned)
      (hstep : f.errc.step errcCap (.finish p) = some errc) :
      Steps f (.report p) { f with errc := errc }
  | send {p : Peer} {errc : Mailbox Peer} (hstep : f.errc.step errcCap (.send p) = some errc) :
      Steps f (.send p) { f with errc := errc }
  | receive {errc : Mailbox Peer} (hstep : f.errc.step errcCap .take = some errc) :
      Steps f .receive { f with errc := errc }
  | close {p : Peer} (htaken : f.errc.taken.isSome = true) (hopen : p ∉ f.closed) :
      Steps f (.close p) { f with closed := f.closed ++ [p] }

theorem Flow.steps_of_step {f f' : Flow} {e : FlowEvent} (h : f.step e = some f') :
    f.Steps e f' := by
  cases e with
  | copy p call =>
    simp only [Flow.step] at h
    split at h
    · next hpc =>
      obtain ⟨c, hc, rfl⟩ := Option.map_eq_some_iff.mp h
      exact .copy hpc hc
    · cases h
  | report p =>
    simp only [Flow.step] at h
    split at h
    · next hret =>
      obtain ⟨errc, herrc, rfl⟩ := Option.map_eq_some_iff.mp h
      exact .report hret herrc
    · cases h
  | send p =>
    obtain ⟨errc, herrc, rfl⟩ := Option.map_eq_some_iff.mp h
    exact .send herrc
  | receive =>
    obtain ⟨errc, herrc, rfl⟩ := Option.map_eq_some_iff.mp h
    exact .receive herrc
  | close p =>
    simp only [Flow.step, Option.ite_none_right_eq_some, Option.some.injEq] at h
    obtain ⟨⟨htaken, hopen⟩, rfl⟩ := h
    exact .close htaken hopen

/-! ## The invariant -/

structure Flow.Ok (sent : Peer → List UInt8) (f : Flow) : Prop where
  copied : ∀ p, Copy.Copied (sent p) (f.copies p)
  mail : f.errc.Ok errcCap Finset.univ
  returned : ∀ p, f.errc.worker p ≠ .working → (f.copies p).Returned
  /-- a `proxyCopy` does not end without its report -/
  reported : ∀ p, f.errc.worker p = .gone → p ∈ f.errc.reports
  closed : f.closed ≠ [] → f.errc.taken.isSome = true
  nodup : f.closed.Nodup

theorem Flow.ok_start (sent : Peer → List UInt8) : Flow.Ok sent (Flow.start sent) where
  copied := fun p => Copy.copied_start (sent p)
  mail := Mailbox.ok_start errcCap Finset.univ
  returned := fun p h => absurd (if_pos (Finset.mem_univ p)) h
  reported := fun p h => by simp [Flow.start, Mailbox.start] at h
  closed := fun h => absurd rfl h
  nodup := List.nodup_nil

theorem Flow.Ok.step {sent : Peer → List UInt8} {f f' : Flow} {e : FlowEvent} (hok : f.Ok sent)
    (h : f.step e = some f') : f'.Ok sent := by
  cases Flow.steps_of_step h with
  | @copy p call c hpc hstep =>
    refine { hok with copied := ?_, returned := ?_ }
    · intro p'
      by_cases hp : p' = p
      · subst hp
        simpa using (hok.copied p').step hstep
      · simpa [hp] using hok.copied p'
    · intro p' hne
      have hp : p' ≠ p := fun hp => hne (hp ▸ hpc)
      simpa [hp] using hok.returned p' hne
  | @report p errc hret hstep =>
    refine { hok with mail := hok.mail.step hstep, returned := ?_, reported := ?_, closed := ?_ }
    all_goals cases Mailbox.steps_of_step hstep with | finish hpc => ?_
    · intro p' hne
      by_cases hp : p' = p
      · exact hp ▸ hret
      · exact hok.returned p' (by simpa [hp] using hne)
    · intro p' hgone
      have hp : p' ≠ p := fun hp => by simp [hp] at hgone
      exact hok.reported p' (by simpa [hp] using hgone)
    · exact hok.closed
  | @send p errc hstep =>
    refine { hok with mail := hok.mail.step hstep, returned := ?_, reported := ?_, closed := ?_ }
    all_goals cases Mailbox.steps_of_step hstep with | send hpc hroom => ?_
    · intro p' hne
      by_cases hp : p' = p
      · exact hp ▸ hok.returned p (by simp [hpc])
      · exact hok.returned p' (by simpa [hp] using hne)
    · intro p' hgone
      by_cases hp : p' = p
      · simp [Mailbox.reports, hp]
      · have hrep := hok.reported p' (by simpa [hp] using hgone)
        simpa [Mailbox.reports, hp] using hrep
    · exact hok.closed
  | @receive errc hstep =>
    refine { hok with mail := hok.mail.step hstep, returned := ?_, reported := ?_, closed := ?_ }
    all_goals cases Mailbox.steps_of_step hstep with | take hnone hbuf => ?_
    · exact hok.returned
    · intro p hgone
      rw [Mailbox.reports_take hnone hbuf]
      exact hok.reported p hgone
    · exact fun _ => rfl
  | @close p htaken hopen =>
    refine { hok with closed := fun _ => htaken, nodup := ?_ }
    simpa [List.nodup_append] using ⟨hok.nodup, fun q hq hqp => hopen (hqp ▸ hq)⟩

theorem Flow.ok_of_run {sent : Peer → List UInt8} {ok : Flow → FlowEvent → Prop} {f : Flow}
    (hrun : Run Flow.step ok (Flow.start sent) f) : f.Ok sent := by
  induction hrun with
  | refl => exact Flow.ok_start sent
  | step e _ _ next ih => exact ih.step next

/-- The report that `HandleConn` took was sent after the copy had returned. -/
theorem Flow.Ok.taken_returned {sent : Peer → List UInt8} {f : Flow} (hok : f.Ok sent) {p : Peer}
    (htaken : f.errc.taken = some p) : (f.copies p).Returned := by
  refine hok.returned p ?_
  have hmem : p ∈ f.errc.reports := by simp [Mailbox.reports, htaken]
  simp [hok.mail.gone p hmem]

/-! ## Every run ends -/

/-- The most steps a flow may still take. -/
def Flow.toGo (f : Flow) : Nat :=
  ∑ p, (f.copies p).toGo + f.errc.toGo + (2 - f.closed.length)

theorem Flow.toGo_step {sent : Peer → List UInt8} {f f' : Flow} {e : FlowEvent}
    (hok : f.Ok sent) (h : f.step e = some f') : f'.toGo < f.toGo := by
  unfold Flow.toGo
  cases Flow.steps_of_step h with
  | copy hpc hstep =>
    have hlower := sum_update_lt (Copy.toGo_step hstep)
    dsimp only
    omega
  | report hret hstep =>
    have hlower := Mailbox.toGo_step hstep
    dsimp only
    omega
  | send hstep =>
    have hlower := Mailbox.toGo_step hstep
    dsimp only
    omega
  | receive hstep =>
    have hlower := Mailbox.toGo_step hstep
    dsimp only
    omega
  | @close p htaken hopen =>
    have hcard : (p :: f.closed).length ≤ Fintype.card Peer :=
      List.Nodup.length_le_card (List.nodup_cons.mpr ⟨hopen, hok.nodup⟩)
    have htwo : Fintype.card Peer = 2 := rfl
    simp only [List.length_cons, List.length_append, List.length_nil] at hcard ⊢
    omega

/-- A flow without a step has no goroutine left, and its connections are
closed. -/
theorem Flow.Ok.stuck {sent : Peer → List UInt8} {f : Flow} (hok : f.Ok sent)
    (hstuck : ∀ e, f.step e = none) :
    (∀ p, f.errc.worker p = .gone) ∧ f.errc.taken.isSome = true ∧ ∀ p, p ∈ f.closed := by
  have hnotWorking : ∀ p, f.errc.worker p ≠ .working := by
    intro p hpc
    by_cases hret : (f.copies p).Returned
    · have hstep := hstuck (.report p)
      simp [Flow.step, Mailbox.step, hpc, hret] at hstep
    · obtain ⟨call, c, hc⟩ := Copy.exists_step hret
      have hstep := hstuck (.copy p call)
      simp [Flow.step, hpc, hc] at hstep
  -- a full channel is received from, and an empty one has room
  have htaken : f.errc.taken.isSome = true := by
    by_contra hnone
    have hnone : f.errc.taken = none := by simpa using hnone
    cases hbuf : f.errc.buf with
    | cons p buf =>
      have hstep := hstuck .receive
      simp [Flow.step, Mailbox.step, hnone, hbuf] at hstep
    | nil =>
      cases hpc : f.errc.worker .src with
      | working => exact hnotWorking .src hpc
      | sending =>
        have hstep := hstuck (.send .src)
        simp [Flow.step, Mailbox.step, hpc, hbuf, errcCap] at hstep
      | gone =>
        have hrep := hok.reported .src hpc
        simp [Mailbox.reports, hnone, hbuf] at hrep
  refine ⟨fun p => ?_, htaken, fun p => ?_⟩
  · cases hpc : f.errc.worker p with
    | working => exact absurd hpc (hnotWorking p)
    | sending =>
      have hroom := hok.mail.room (Nat.le_refl 2) htaken hpc
      have hstep := hstuck (.send p)
      simp [Flow.step, Mailbox.step, hpc, hroom] at hstep
    | gone => rfl
  · by_contra hopen
    have hstep := hstuck (.close p)
    simp [Flow.step, htaken, hopen] at hstep

/-- **A proxied flow passes on what it reads, and leaves nothing behind.** What
was written to a peer is the beginning of what the other one sent; no
connection is closed before `HandleConn` took a report, and then the direction
that reported was delivered whole if it met the end of its stream. No run is
longer than the bound, and one that can not go on has closed both connections
and has no goroutine left: the report nobody takes fits into the buffer. -/
theorem handleConn_ends (sent : Peer → List UInt8) {es : List FlowEvent} {f : Flow}
    (htrace : Trace Flow.step (fun _ _ => True) (Flow.start sent) es f) :
    (∀ p, (f.copies p).written <+: sent p) ∧
    (∀ p, p ∈ f.closed → ∃ first, f.errc.taken = some first ∧ (f.copies first).Returned ∧
      ((f.copies first).pc = .returned false → (f.copies first).written = sent first)) ∧
    es.length ≤ 2 * ((sent .src).length + (sent .dst).length) + 9 ∧
    ((∀ e, f.step e = none) → (∀ p, p ∈ f.closed) ∧ ∀ p, f.errc.worker p = .gone) := by
  have hok := Flow.ok_of_run htrace.run
  refine ⟨fun p => (hok.copied p).written_sent, ?_, ?_, ?_⟩
  · intro p hp
    obtain ⟨first, hfirst⟩ := Option.isSome_iff_exists.mp (hok.closed (List.ne_nil_of_mem hp))
    exact ⟨first, hfirst, hok.taken_returned hfirst, (hok.copied first).complete⟩
  · have hlen := Trace.length_le
      (fun _ _ _ hrun _ hstep => Flow.toGo_step (Flow.ok_of_run hrun) hstep) htrace
    have hstart : (Flow.start sent).toGo =
        2 * ((sent .src).length + (sent .dst).length) + 9 := by
      have hpeers : (Finset.univ : Finset Peer) = {.src, .dst} := rfl
      simp [Flow.toGo, Flow.start, Copy.start, Copy.toGo, Mailbox.toGo, Mailbox.start,
        Mailbox.toGoOf, hpeers]
      omega
    omega
  · intro hstuck
    obtain ⟨hgone, -, hclosed⟩ := hok.stuck hstuck
    exact ⟨hclosed, hgone⟩

/-- A request and its answer are passed on, and the answer ends first. -/
def answeredFirst : List FlowEvent :=
  [.copy .src (.read 1 none), .copy .src (.write 1 false), .copy .dst (.read 2 (some .eof)),
    .copy .dst (.write 2 false), .report .dst, .send .dst, .receive, .close .dst, .close .src,
    .copy .src (.read 0 (some .failed)), .report .src, .send .src]

/-- A request of one byte, and an answer of two. -/
def requestAnswer : Peer → List UInt8
  | .src => [7]
  | .dst => [8, 9]

theorem handleConn_ends_answered :
    ∃ f, Trace Flow.step (fun _ _ => True) (Flow.start requestAnswer) answeredFirst f ∧
      (∀ p, p ∈ f.closed) ∧ (∀ p, f.errc.worker p = .gone) ∧
      (f.copies .dst).written = [8, 9] := by
  have hexec : ∃ f, Trace Flow.step (fun _ _ => True) (Flow.start requestAnswer) answeredFirst f ∧
      (f.closed = [.dst, .src] ∧ f.errc.worker .src = .gone ∧ f.errc.worker .dst = .gone ∧
        f.errc.taken = some .dst ∧ f.errc.buf = [.src] ∧
        (f.copies .dst).pc = .returned false) :=
    trace_of_exec answeredFirst _ (by decide)
  obtain ⟨f, htrace, hclosed, hsrc, hdst, htaken, hbuf, hpc⟩ := hexec
  have hends := handleConn_ends requestAnswer htrace
  have hgone : ∀ p, f.errc.worker p = .gone := fun p => by cases p <;> assumption
  have hstuck : ∀ e, f.step e = none := by
    intro e
    cases e with
    | close p => cases p <;> simp [Flow.step, hclosed]
    | copy | report | send | receive => simp [Flow.step, Mailbox.step, hgone, htaken]
  obtain ⟨first, hfirst, -, hwhole⟩ := hends.2.1 .dst (by simp [hclosed])
  obtain rfl : first = .dst := Option.some.inj (hfirst.symm.trans htaken)
  exact ⟨f, htrace, (hends.2.2.2 hstuck).1, (hends.2.2.2 hstuck).2, hwhole hpc⟩

/-! ## The end of one stream ends the other -/

/-- Where the bytes of a connection go. -/
def Peer.other : Peer → Peer
  | .src => .dst
  | .dst => .src

/-- A call fails on a closed connection only: the outside does nothing
wrong. -/
def FailsClosed (f : Flow) : FlowEvent → Prop
  | .copy p call => (f.copies p).Succeeds call ∨ p ∈ f.closed ∨ p.other ∈ f.closed
  | .report _ | .send _ | .receive | .close _ => True

/-- A run of one direction is a run of the flow while its goroutine works. -/
theorem Flow.run_copy {f : Flow} {p : Peer} (hpc : f.errc.worker p = .working) {c : Copy UInt8}
    (hrun : Run Copy.step Copy.Succeeds (f.copies p) c) :
    Run Flow.step FailsClosed f { f with copies := Function.update f.copies p c } := by
  induction hrun with
  | refl => simpa using Run.refl
  | step call run meets next ih =>
    refine Run.step (.copy p call) ih (Or.inl (by simpa using meets)) ?_
    simp [Flow.step, hpc, next]

/-- **A peer that ends its request may lose the answer.** Whatever the peers
send, there is a run in which no call fails but those on a connection that
`HandleConn` has closed, the request is delivered whole, and nothing of the
answer is. -/
theorem handleConn_may_drop_answer (sent : Peer → List UInt8) :
    ∃ f, Run Flow.step FailsClosed (Flow.start sent) f ∧ (∀ e, f.step e = none) ∧
      (f.copies .src).written = sent .src ∧ (f.copies .dst).written = [] := by
  obtain ⟨⟨unread, read, written, pc⟩, hcopy, hpc, hwritten⟩ := Copy.exists_run_whole (sent .src)
  obtain rfl : pc = .returned false := hpc
  have hrequest := Flow.run_copy (f := Flow.start sent) (p := .src) rfl hcopy
  -- its report is taken, and `HandleConn` closes both connections
  have hreported := Run.step (FlowEvent.report .src) hrequest trivial rfl
  have hsent := Run.step (FlowEvent.send .src) hreported trivial rfl
  have hreceived := Run.step FlowEvent.receive hsent trivial rfl
  have hclosedSrc := Run.step (FlowEvent.close .src) hreceived trivial rfl
  have hclosedDst := Run.step (FlowEvent.close .dst) hclosedSrc trivial rfl
  -- the other goroutine meets a closed connection
  have hfailed := Run.step (FlowEvent.copy .dst (.read 0 (some .failed))) hclosedDst
    (Or.inr (Or.inl (List.mem_cons_of_mem _ (List.mem_singleton_self _)))) rfl
  have hreportedDst := Run.step (FlowEvent.report .dst) hfailed trivial rfl
  have hended := Run.step (FlowEvent.send .dst) hreportedDst trivial rfl
  refine ⟨_, hended, ?_, hwritten, rfl⟩
  intro e
  cases e with
  | copy p call => cases p <;> rfl
  | report p => cases p <;> rfl
  | send p => cases p <;> rfl
  | receive => rfl
  | close p => cases p <;> rfl

end GvisorTapVsock.Services.Forwarder
