/-
GvisorTapVsock.Cmd.MainTheorems — how a gvproxy process ends.

Everything is derived from what one function of the group can do in a step
(the lemmas on `outcome`). Three results about all runs:

  * `exit_status` — after its checks gvproxy always exits with status 0, and
    always with an error, since a server does not return without one;
  * `exit_closes` — whatever failed and in whatever order the functions
    returned, at the exit the listeners of the group are closed. Those of DNS,
    of DHCP and of vpnkit are closed by nobody, an exposed port by a client of
    the API only, and those of the forwards are not the group's;
  * `shutdown` — once the context is done, the functions return by themselves
    after a bounded number of steps, all but those that wait for vpnkit, for a
    machine or for its ssh server: `Accept` of vpnkit, the reads on an attached
    connection and the handshakes, which have no deadline.
-/
import GvisorTapVsock.Cmd.Main

namespace GvisorTapVsock.Cmd.Gvproxy

open GvisorTapVsock.Go GvisorTapVsock.Lts

/-! ## What a step of a function can be -/

section Outcome

variable {cancelled : Bool} {closed : List Listener} {c : Choice} {o : Outcome}

theorem runOutcome_cases {rest : List Setup} (h : runOutcome rest c = some o) :
    (∃ err, o = { next := none, err := some err }) ∨ (rest = [] ∧ o = { next := none }) ∨
      ∃ s rest', rest = s :: rest' ∧
        o = { next := some (.run rest'), starts := s.starts, opens := s.opens } := by
  cases rest with
  | nil =>
    cases c with
    | go => exact Or.inr (Or.inl ⟨rfl, (Option.some.inj h).symm⟩)
    | _ => cases h
  | cons s rest =>
    cases c with
    | go => exact Or.inr (Or.inr ⟨s, rest, rfl, (Option.some.inj h).symm⟩)
    | fail err =>
      simp only [runOutcome, Option.ite_none_right_eq_some, Option.some.injEq] at h
      exact Or.inl ⟨err, h.2.symm⟩
    | _ => cases h

theorem checkOutcome_cases {round : Task} (h : checkOutcome cancelled round c = some o) :
    (cancelled = true ∧ o = { next := none }) ∨
      (cancelled = false ∧ o = { next := some round }) := by
  cases c with
  | go =>
    cases cancelled with
    | true => exact Or.inl ⟨rfl, (Option.some.inj h).symm⟩
    | false => exact Or.inr ⟨rfl, (Option.some.inj h).symm⟩
  | _ => cases h

theorem onDone_cases {closes : List Listener} {mayFail : Bool}
    (h : onDone cancelled closes mayFail c = some o) :
    cancelled = true ∧ ∃ err, o = { next := none, err := err, closes := closes } := by
  cases c with
  | go =>
    simp only [onDone, Option.ite_none_right_eq_some, Option.some.injEq] at h
    exact ⟨h.1, none, h.2.symm⟩
  | fail err =>
    simp only [onDone, Option.ite_none_right_eq_some, Option.some.injEq] at h
    exact ⟨h.1.1, some err, h.2.symm⟩
  | _ => cases h

/-- What a step of a function can be, for each function. -/
inductive Moves (cancelled : Bool) (closed : List Listener) : Task → Outcome → Prop where
  /-- the function returns: it was cancelled, or its last call failed -/
  | returns {t : Task} (err : Option String)
      (hclose : ∀ l, t ≠ .close l) (hserve : ∀ l, t = .serve l → err.isSome = true)
      (hrun : ∀ rest, t = .run rest → rest = [] ∨ err.isSome = true) :
      Moves cancelled closed t { next := none, err := err }
  | close {l : Listener} (err : Option String) (hdone : cancelled = true) :
      Moves cancelled closed (.close l) { next := none, err := err, closes := [l] }
  | setup (s : Setup) (rest : List Setup) :
      Moves cancelled closed (.run (s :: rest))
        { next := some (.run rest), starts := s.starts, opens := s.opens }
  | vpnkitAccept (hgo : cancelled = false) :
      Moves cancelled closed (.vpnkitLoop false) { next := some (.vpnkitLoop true) }
  | vpnkitClient :
      Moves cancelled closed (.vpnkitLoop true)
        { next := some (.vpnkitLoop false), starts := [.vpnkitConn] }
  | vpnkitAgain : Moves cancelled closed (.vpnkitLoop true) { next := some (.vpnkitLoop false) }
  | vpnkitFrame : Moves cancelled closed .vpnkitConn { next := some .vpnkitConn }
  | client {s : Socket} (hopen : .socket s ∉ closed) :
      Moves cancelled closed (.accept s) { next := some (.rx s .check) }
  | rxRead {s : Option Socket} (hgo : cancelled = false) :
      Moves cancelled closed (.rx s .check) { next := some (.rx s .read) }
  | frame {s : Option Socket} (hopen : ¬ (s = some .vfkit ∧ .socket .vfkit ∈ closed)) :
      Moves cancelled closed (.rx s .read) { next := some (.rx s .check) }
  | listened {i : Nat} :
      Moves cancelled closed (.forwardCreate i .listen)
        { next := some (.forwardCreate i .connect), opens := [.forward i] }
  | connected {i : Nat} :
      Moves cancelled closed (.forwardCreate i .connect)
        { next := some (.forwardCreate i .handshake) }
  | created {i : Nat} :
      Moves cancelled closed (.forwardCreate i .handshake)
        { next := some (.forwardLoop i .check), background := [i] }
  | forwardAccept {i : Nat} (hgo : cancelled = false) :
      Moves cancelled closed (.forwardLoop i .check) { next := some (.forwardLoop i .accept) }
  | forwardClient {i : Nat} (hopen : .forward i ∉ closed) :
      Moves cancelled closed (.forwardLoop i .accept)
        { next := some (.forwardLoop i (.dial false)) }
  | forwardReconnect {i : Nat} {pc : ForwardPc} (hgo : cancelled = false) :
      Moves cancelled closed (.forwardLoop i pc) { next := some (.forwardLoop i .connect) }
  | forwardConnected {i : Nat} :
      Moves cancelled closed (.forwardLoop i .connect)
        { next := some (.forwardLoop i .handshake) }
  | forwardDial {i : Nat} {orphaned : Bool} :
      Moves cancelled closed (.forwardLoop i .handshake)
        { next := some (.forwardLoop i (.dial orphaned)) }
  | forwardAgain {i : Nat} {pc : ForwardPc} (hpc : pc ≠ .check) :
      Moves cancelled closed (.forwardLoop i pc) { next := some (.forwardLoop i .check) }

theorem moves_of_outcome {t : Task} (h : outcome cancelled closed t c = some o) :
    Moves cancelled closed t o := by
  have returns : ∀ {t : Task} {err : Option String}, (∀ l, t ≠ .close l) → (∀ l, t ≠ .serve l) →
      (∀ rest, t ≠ .run rest) → Moves cancelled closed t { next := none, err := err } :=
    fun hclose hserve hrun => .returns _ hclose (fun l h => absurd h (hserve l))
      fun rest h => absurd h (hrun rest)
  cases t with
  | run rest =>
    rcases runOutcome_cases h with ⟨err, rfl⟩ | ⟨rfl, rfl⟩ | ⟨s, rest, rfl, rfl⟩
    · exact .returns _ (fun _ => nofun) (fun _ => nofun) fun _ _ => Or.inr rfl
    · exact .returns _ (fun _ => nofun) (fun _ => nofun) fun _ h => Or.inl (Task.run.inj h).symm
    · exact .setup s rest
  | signal =>
    by_cases hc : c = .signal
    · subst hc
      obtain rfl := Option.some.inj h
      exact returns nofun nofun nofun
    · have hdone : onDone cancelled [] false c = some o := by
        cases c <;> first | exact h | exact absurd rfl hc
      obtain ⟨-, err, rfl⟩ := onDone_cases hdone
      exact returns nofun nofun nofun
  | close l =>
    obtain ⟨hdone, err, rfl⟩ := onDone_cases h
    exact .close err hdone
  | serve l =>
    cases c with
    | fail err =>
      obtain rfl := Option.some.inj h
      exact .returns _ nofun (fun _ _ => rfl) nofun
    | _ => cases h
  | debugLog =>
    obtain ⟨-, err, rfl⟩ := onDone_cases h
    exact returns nofun nofun nofun
  | vpnkitLoop accepting =>
    cases accepting with
    | false =>
      rcases checkOutcome_cases h with ⟨-, rfl⟩ | ⟨hgo, rfl⟩
      · exact returns nofun nofun nofun
      · exact .vpnkitAccept hgo
    | true =>
      cases c with
      | client => obtain rfl := Option.some.inj h; exact .vpnkitClient
      | fail err => obtain rfl := Option.some.inj h; exact .vpnkitAgain
      | _ => cases h
  | vpnkitConn =>
    cases c with
    | frame => obtain rfl := Option.some.inj h; exact .vpnkitFrame
    | fail err =>
      obtain rfl := Option.some.inj h
      exact returns nofun nofun nofun
    | _ => cases h
  | accept s =>
    cases c with
    | client =>
      simp only [outcome, Option.ite_none_left_eq_some, Option.some.injEq] at h
      obtain ⟨hopen, rfl⟩ := h
      exact .client hopen
    | fail err =>
      obtain rfl := Option.some.inj h
      exact returns nofun nofun nofun
    | _ => cases h
  | rx s pc =>
    cases pc with
    | check =>
      rcases checkOutcome_cases h with ⟨-, rfl⟩ | ⟨hgo, rfl⟩
      · exact returns nofun nofun nofun
      · exact .rxRead hgo
    | read =>
      cases c with
      | frame =>
        simp only [outcome, Option.ite_none_left_eq_some, Option.some.injEq] at h
        obtain ⟨hopen, rfl⟩ := h
        exact .frame hopen
      | fail err =>
        obtain rfl := Option.some.inj h
        exact returns nofun nofun nofun
      | _ => cases h
  | forwardCreate i pc =>
    cases c with
    | go =>
      cases pc with
      | listen => obtain rfl := Option.some.inj h; exact .listened
      | connect => obtain rfl := Option.some.inj h; exact .connected
      | handshake => obtain rfl := Option.some.inj h; exact .created
    | fail err =>
      obtain rfl : { next := none, err := some err } = o := by
        cases pc <;> exact Option.some.inj h
      exact returns nofun nofun nofun
    | _ => cases pc <;> cases h
  | forwardLoop i pc =>
    -- after an error another connection is made, unless the context is done
    have retry : ∀ {pc : ForwardPc}, pc ≠ .check → Moves cancelled closed (.forwardLoop i pc)
        { next := some (.forwardLoop i (if cancelled then .check else .connect)) } := by
      intro pc hpc
      cases cancelled with
      | true => exact .forwardAgain hpc
      | false => exact .forwardReconnect rfl
    cases pc with
    | check =>
      rcases checkOutcome_cases h with ⟨-, rfl⟩ | ⟨hgo, rfl⟩
      · exact returns nofun nofun nofun
      · exact .forwardAccept hgo
    | accept =>
      cases c with
      | client =>
        simp only [outcome, Option.ite_none_left_eq_some, Option.some.injEq] at h
        obtain ⟨hopen, rfl⟩ := h
        exact .forwardClient hopen
      | fail err => obtain rfl := Option.some.inj h; exact .forwardAgain nofun
      | _ => cases h
    | dial orphaned =>
      cases c with
      | go => obtain rfl := Option.some.inj h; exact .forwardAgain nofun
      | fail err => obtain rfl := Option.some.inj h; exact retry nofun
      | _ => cases h
    | connect =>
      cases c with
      | go => obtain rfl := Option.some.inj h; exact .forwardConnected
      | fail err => obtain rfl := Option.some.inj h; exact .forwardAgain nofun
      | _ => cases h
    | handshake =>
      cases c with
      | go => obtain rfl := Option.some.inj h; exact .forwardDial
      | fail err => obtain rfl := Option.some.inj h; exact retry nofun
      | _ => cases h

end Outcome

/-! ## The invariant -/

/-- The listeners a function reads from. -/
def Task.needs : Task → List Listener
  | .serve l => [l]
  | .accept s | .rx (some s) _ => [.socket s]
  | .run _ | .signal | .close _ | .debugLog | .vpnkitLoop _ | .vpnkitConn | .rx none _ |
    .forwardCreate _ _ | .forwardLoop _ _ => []

/-- The listeners that the group closes. -/
def Listener.ofGroup : Listener → Bool
  | .endpoint _ | .services | .socket _ => true
  | .dnsUDP | .dnsTCP | .dhcp | .exposed _ | .vpnkit | .forward _ => false

/-- A function that reads from open listeners of the group, and closes no
others. -/
def Task.Placed (opened : List Listener) (t : Task) : Prop :=
  (∀ l ∈ t.needs, l ∈ opened ∧ l.ofGroup = true) ∧ ∀ l, t = .close l → l.ofGroup = true

/-- The listeners that nobody closes. -/
def Listener.staysOpen : Listener → Bool
  | .dnsUDP | .dnsTCP | .dhcp | .vpnkit => true
  | .exposed _ | .endpoint _ | .services | .socket _ | .forward _ => false

structure Process.Ok (p : Process) : Prop where
  placed : ∀ t ∈ p.group.tasks, t.Placed p.opened
  /-- a listener of the group is closed, or will be -/
  closes : ∀ l ∈ p.opened, l.ofGroup = true → .close l ∈ p.group.tasks ∨ l ∈ p.closed
  /-- the forward of an accept loop is closed, or will be -/
  forwards : ∀ i pc, .forwardLoop i pc ∈ p.group.tasks → i ∈ p.background ∨ .forward i ∈ p.closed
  staysOpen : ∀ l ∈ p.closed, l.staysOpen = false
  /-- there is an error, or a server that will return one, or `run` is yet to
  start it -/
  fails : p.group.err.isSome = true ∨ .serve .services ∈ p.group.tasks ∨
    ∃ rest, .run rest ∈ p.group.tasks ∧ .services ∈ rest
  deferred : p.deferredExit = 0
  exited : ∀ e, p.exited = some e →
    e.status = 0 ∧ p.group.tasks = [] ∧ p.group.err.isSome = true ∧ p.exitCode = 1

theorem Task.Placed.mono {opened opens : List Listener} {t : Task} (h : t.Placed opened) :
    t.Placed (opened ++ opens) :=
  ⟨fun l hl => ⟨List.mem_append_left _ (h.1 l hl).1, (h.1 l hl).2⟩, h.2⟩

/-- What a step of `run` starts reads from what it opens. -/
theorem Setup.starts_placed (s : Setup) (opened : List Listener) :
    ∀ t ∈ s.starts, t.Placed (opened ++ s.opens) := by
  cases s <;>
    simp [Setup.starts, Setup.opens, listening, Task.Placed, Task.needs, Listener.ofGroup]

section Step

variable {cancelled : Bool} {closed opened : List Listener} {t : Task} {o : Outcome}

theorem Moves.placed (h : Moves cancelled closed t o) (ht : t.Placed opened) :
    ∀ t', o.next = some t' ∨ t' ∈ o.starts → t'.Placed (opened ++ o.opens) := by
  intro t' ht'
  cases h with
  | returns err => simp at ht'
  | close err => simp at ht'
  | setup s rest =>
    rcases ht' with ht' | ht'
    · obtain rfl := Option.some.inj ht'
      exact ⟨nofun, nofun⟩
    · exact s.starts_placed opened t' ht'
  | vpnkitClient =>
    rcases ht' with ht' | ht'
    · obtain rfl := Option.some.inj ht'
      exact ⟨nofun, nofun⟩
    · obtain rfl := List.mem_singleton.mp ht'
      exact ⟨nofun, nofun⟩
  | client hopen =>
    obtain rfl : .rx _ .check = t' := by simpa using ht'
    exact ⟨by simpa [Task.needs] using ht.1, nofun⟩
  | @rxRead s hgo =>
    obtain rfl : .rx _ .read = t' := by simpa using ht'
    cases s with
    | none => exact ⟨nofun, nofun⟩
    | some s => exact ⟨by simpa [Task.needs] using ht.1, nofun⟩
  | @frame s hopen =>
    obtain rfl : .rx _ .check = t' := by simpa using ht'
    cases s with
    | none => exact ⟨nofun, nofun⟩
    | some s => exact ⟨by simpa [Task.needs] using ht.1, nofun⟩
  | vpnkitAccept | vpnkitAgain | vpnkitFrame | listened | connected | created | forwardAccept |
    forwardClient | forwardReconnect | forwardConnected | forwardDial | forwardAgain =>
    obtain rfl := by simpa using ht'
    exact ⟨nofun, nofun⟩

/-- A listener of the group is opened together with the function that closes
it. -/
theorem Moves.opens (h : Moves cancelled closed t o) :
    ∀ l ∈ o.opens, l.ofGroup = true → .close l ∈ o.starts := by
  cases h with
  | setup s rest => cases s <;> simp [Setup.opens, Setup.starts, listening, Listener.ofGroup]
  | listened => simp [Listener.ofGroup]
  | _ => simp

/-- A function closes listeners of the group only. -/
theorem Moves.closes (h : Moves cancelled closed t o) (ht : t.Placed opened) :
    ∀ l ∈ o.closes, l.ofGroup = true := by
  cases h with
  | close err hdone =>
    intro l hl
    rw [List.mem_singleton.mp hl]
    exact ht.2 _ rfl
  | _ => exact nofun

/-- An accept loop starts together with the goroutine that closes its forward. -/
theorem Moves.forwards (h : Moves cancelled closed t o) {i : Nat} {pc : ForwardPc}
    (hnext : o.next = some (.forwardLoop i pc) ∨ .forwardLoop i pc ∈ o.starts) :
    i ∈ o.background ∨ ∃ pc', t = .forwardLoop i pc' := by
  cases h with
  | setup s rest => cases s <;> simp [Setup.starts, listening] at hnext
  | created =>
    obtain ⟨rfl, -⟩ : _ = i ∧ ForwardPc.check = pc := by simpa using hnext
    exact Or.inl List.mem_cons_self
  | forwardAccept | forwardClient | forwardReconnect | forwardConnected | forwardDial |
    forwardAgain =>
    obtain ⟨rfl, -⟩ := by simpa using hnext
    exact Or.inr ⟨_, rfl⟩
  | _ => simp at hnext

theorem Listener.not_staysOpen_of_group {l : Listener} (h : l.ofGroup = true) :
    l.staysOpen = false := by
  cases l <;> first | rfl | exact absurd h nofun

end Step

/-- What a step of the process may be. -/
inductive Process.Steps (p : Process) : ProcessEvent → Process → Prop where
  | task {k : Nat} {c : Choice} {t : Task} {o : Outcome} (hk : p.group.tasks[k]? = some t)
      (hrunning : p.exited = none)
      (hmoves : Moves p.group.cancelled p.closed t o) : Steps p (.task k c) (p.move k o)
  | closeForward {k i : Nat} (hk : p.background[k]? = some i) (hrunning : p.exited = none)
      (hdone : p.group.cancelled = true) :
      Steps p (.closeForward k) { p with
        background := p.background.eraseIdx k
        closed := p.closed ++ [.forward i] }
  | expose {n : Nat} (hrunning : p.exited = none) :
      Steps p (.expose n) { p with opened := p.opened ++ [.exposed n] }
  | unexpose {n : Nat} (hrunning : p.exited = none) :
      Steps p (.unexpose n) { p with closed := p.closed ++ [.exposed n] }
  | exit {removed : Bool} (htasks : p.group.tasks = []) (hrunning : p.exited = none) :
      Steps p (.exit removed) { p with
        exitCode := if p.group.err.isSome then 1 else p.exitCode
        exited := some ⟨p.deferredExit, p.pidFile && !removed⟩ }

theorem Process.steps_of_step {p p' : Process} {e : ProcessEvent} (h : p.step e = some p') :
    p.Steps e p' := by
  have hrunning : p.exited = none := by
    by_contra hexited
    have hsome : p.exited.isSome = true := by simpa [Option.isSome_iff_ne_none] using hexited
    simp [Process.step, hsome] at h
  have hnone : p.exited.isSome = false := by rw [hrunning, Option.isSome_none]
  cases e with
  | task k c =>
    cases hk : p.group.tasks[k]? with
    | none => simp [Process.step, hnone, hk] at h
    | some t =>
      simp only [Process.step, hnone, hk, Bool.false_eq_true, if_false] at h
      obtain ⟨o, ho, rfl⟩ := Option.map_eq_some_iff.mp h
      exact .task hk hrunning (moves_of_outcome ho)
  | closeForward k =>
    cases hk : p.background[k]? with
    | none => simp [Process.step, hnone, hk] at h
    | some i =>
      simp only [Process.step, hnone, hk, Bool.false_eq_true, if_false,
        Option.ite_none_right_eq_some, Option.some.injEq] at h
      obtain ⟨hdone, rfl⟩ := h
      exact .closeForward hk hrunning hdone
  | expose n =>
    simp only [Process.step, hnone, Bool.false_eq_true, if_false,
      Option.ite_none_right_eq_some, Option.some.injEq] at h
    obtain ⟨-, rfl⟩ := h
    exact .expose hrunning
  | unexpose n =>
    simp only [Process.step, hnone, Bool.false_eq_true, if_false,
      Option.ite_none_right_eq_some, Option.some.injEq] at h
    obtain ⟨-, rfl⟩ := h
    exact .unexpose hrunning
  | exit removed =>
    simp only [Process.step, hnone, Bool.false_eq_true, if_false,
      Option.ite_none_right_eq_some, Option.some.injEq] at h
    obtain ⟨htasks, rfl⟩ := h
    exact .exit htasks hrunning

theorem Process.Ok.move {p : Process} (hok : p.Ok) {k : Nat} {t : Task} {o : Outcome}
    (hk : p.group.tasks[k]? = some t) (hrunning : p.exited = none)
    (hmoves : Moves p.group.cancelled p.closed t o) : (p.move k o).Ok := by
  have ht : t ∈ p.group.tasks := List.mem_of_getElem? hk
  refine ⟨?_, ?_, ?_, ?_, ?_, hok.deferred, ?_⟩
  · intro t' ht'
    rcases Group.mem_of_mem_move ht' with ht' | ht'
    · exact (hok.placed t' ht').mono
    · exact hmoves.placed (hok.placed t ht) t' ht'
  · intro l hl hgroup
    rcases List.mem_append.mp hl with hl | hl
    · rcases hok.closes l hl hgroup with hclose | hclosed
      · by_cases htl : .close l = t
        · -- the function that closes it has done so
          subst htl
          cases hmoves with
          | returns err hclose => exact absurd rfl (hclose l)
          | close err => exact Or.inr (List.mem_append_right _ (List.mem_singleton_self l))
        · exact Or.inl (Group.mem_move_of_ne hk hclose htl)
      · exact Or.inr (List.mem_append_left _ hclosed)
    · exact Or.inl (Group.mem_move_starts (hmoves.opens l hl hgroup))
  · intro i pc hi
    have hold : ∀ pc', .forwardLoop i pc' ∈ p.group.tasks →
        i ∈ p.background ++ o.background ∨ .forward i ∈ p.closed ++ o.closes := fun pc' h =>
      (hok.forwards i pc' h).imp (List.mem_append_left _) (List.mem_append_left _)
    rcases Group.mem_of_mem_move hi with hi | hi
    · exact hold pc hi
    · rcases hmoves.forwards hi with hnew | ⟨pc', rfl⟩
      · exact Or.inl (List.mem_append_right _ hnew)
      · exact hold pc' ht
  · intro l hl
    rcases List.mem_append.mp hl with hl | hl
    · exact hok.staysOpen l hl
    · exact Listener.not_staysOpen_of_group (hmoves.closes (hok.placed t ht) l hl)
  · rcases hok.fails with herr | hserve | ⟨rest, hrun, hrest⟩
    · refine Or.inl ?_
      obtain ⟨err, herr⟩ := Option.isSome_iff_exists.mp herr
      simp [Process.move, Group.move, herr]
    · by_cases hts : .serve .services = t
      · subst hts
        cases hmoves with
        | returns err _ hfails =>
          refine Or.inl ?_
          have herr := hfails _ rfl
          simp [Process.move, Group.move, herr]
      · exact Or.inr (Or.inl (Group.mem_move_of_ne hk hserve hts))
    · by_cases htr : .run rest = t
      · subst htr
        cases hmoves with
        | returns err _ _ hfails =>
          rcases hfails rest rfl with rfl | herr
          · cases hrest
          · exact Or.inl (by simp [Process.move, Group.move, herr])
        | setup s rest =>
          rcases List.mem_cons.mp hrest with rfl | hrest
          · exact Or.inr (Or.inl (Group.mem_move_starts (by simp [Setup.starts, listening])))
          · exact Or.inr (Or.inr ⟨rest, Group.mem_move_next hk, hrest⟩)
      · exact Or.inr (Or.inr ⟨rest, Group.mem_move_of_ne hk hrun htr, hrest⟩)
  · intro e he
    exact absurd (he.symm.trans hrunning) (Option.some_ne_none e)

/-- One listener more is closed, and it is none of those that stay open. -/
theorem Process.Ok.close {p : Process} (hok : p.Ok) {l : Listener} (hl : l.staysOpen = false)
    (hrunning : p.exited = none) : { p with closed := p.closed ++ [l] }.Ok := by
  refine { hok with closes := ?_, forwards := ?_, staysOpen := ?_, exited := ?_ }
  · exact fun l hl hgroup => (hok.closes l hl hgroup).imp_right (List.mem_append_left _)
  · exact fun i pc hi => (hok.forwards i pc hi).imp_right (List.mem_append_left _)
  · intro l' hl'
    rcases List.mem_append.mp hl' with hl' | hl'
    · exact hok.staysOpen l' hl'
    · rw [List.mem_singleton.mp hl', hl]
  · exact fun e he => absurd (he.symm.trans hrunning) (Option.some_ne_none e)

/-- Closing a forward takes no other off the list of those to be closed. -/
theorem forward_of_closeForward {background : List Nat} {closed : List Listener} {k i j : Nat}
    (hk : background[k]? = some i) (hj : j ∈ background ∨ .forward j ∈ closed) :
    j ∈ background.eraseIdx k ∨ .forward j ∈ closed ++ [.forward i] := by
  by_cases hij : j = i
  · rw [hij]
    exact Or.inr (List.mem_append_right _ (List.mem_singleton_self _))
  · refine hj.imp (fun hmem => ?_) (List.mem_append_left _)
    obtain ⟨n, hn⟩ := List.mem_iff_getElem?.mp hmem
    have hnk : n ≠ k := fun hnk => hij (Option.some.inj (hn.symm.trans (hnk ▸ hk)))
    exact List.mem_eraseIdx_iff_getElem?.mpr ⟨n, hnk, hn⟩

theorem Process.Ok.step {p p' : Process} {e : ProcessEvent} (hok : p.Ok)
    (h : p.step e = some p') : p'.Ok := by
  cases Process.steps_of_step h with
  | task hk hrunning hmoves => exact hok.move hk hrunning hmoves
  | @closeForward k i hk hrunning hdone =>
    exact { hok.close (l := .forward i) rfl hrunning with
      forwards := fun j pc hj => forward_of_closeForward hk (hok.forwards j pc hj) }
  | expose hrunning =>
    refine { hok with placed := fun t ht => (hok.placed t ht).mono, closes := ?_, exited := ?_ }
    · intro l hl hgroup
      rcases List.mem_append.mp hl with hl | hl
      · exact hok.closes l hl hgroup
      · rw [List.mem_singleton.mp hl] at hgroup
        exact absurd hgroup nofun
    · exact fun e he => absurd (he.symm.trans hrunning) (Option.some_ne_none e)
  | unexpose hrunning => exact hok.close rfl hrunning
  | exit htasks hrunning =>
    have herr : p.group.err.isSome = true := by
      rcases hok.fails with herr | hserve | ⟨rest, hrun, -⟩
      · exact herr
      · rw [htasks] at hserve
        cases hserve
      · rw [htasks] at hrun
        cases hrun
    refine { hok with exited := fun e he => ?_ }
    obtain rfl := Option.some.inj he
    exact ⟨hok.deferred, htasks, herr, if_pos herr⟩

theorem services_mem_setups (g : Globals) : .services ∈ setups g := by
  simp [setups]

theorem Process.ok_started (g : Globals) : (Process.started g).Ok := by
  refine ⟨?_, nofun, ?_, nofun, Or.inr (Or.inr ⟨setups g, ?_, services_mem_setups g⟩), rfl, nofun⟩
  · simp [Process.started, Task.Placed, Task.needs]
  · simp [Process.started]
  · simp [Process.started]

/-- The checks of `main` start the process, or end it with a status that depends
on `-version` only. -/
theorem start_cases (h : Host) (g : Globals) :
    start h g = .ok (Process.started g) ∨
      ∃ e, start h g = .error e ∧ e.status = if g.showVersion then 0 else 1 := by
  by_cases hversion : g.showVersion = true
  · rw [start, if_pos hversion, if_pos hversion]
    exact Or.inr ⟨_, rfl, rfl⟩
  · rw [start, if_neg hversion, if_neg hversion]
    cases check h g with
    | error err => exact Or.inr ⟨_, rfl, rfl⟩
    | ok =>
      dsimp only
      split
      · exact Or.inr ⟨_, rfl, rfl⟩
      · split
        · exact Or.inr ⟨_, rfl, rfl⟩
        · exact Or.inl rfl

theorem start_eq_ok {h : Host} {g : Globals} {p : Process} (hstart : start h g = .ok p) :
    p = Process.started g := by
  rcases start_cases h g with hok | ⟨e, herr, -⟩
  · exact Except.ok.inj (hstart.symm.trans hok)
  · cases hstart.symm.trans herr

theorem status_of_start {h : Host} {g : Globals} {e : Exit} (hstart : start h g = .error e) :
    e.status = if g.showVersion then 0 else 1 := by
  rcases start_cases h g with hok | ⟨e', herr, hstatus⟩
  · cases hstart.symm.trans hok
  · rw [Except.error.inj (hstart.symm.trans herr), hstatus]

/-- A command line that `flag.Parse` refuses. -/
theorem main_of_error {h : Host} {args : List String} {err : Flag.ParseError}
    (hparse : flagParse args = some (.error err)) :
    main h args = .error ⟨if err = .help then 0 else 2, false⟩ := by
  rw [main, hparse]

theorem main_of_ok {h : Host} {args : List String} {s : Flag.State Variable.type}
    {rest : List String} (hparse : flagParse args = some (.ok (s, rest))) :
    main h args = start h (globals s) := by
  rw [main, hparse]

theorem main_eq_ok {h : Host} {args : List String} {p : Process} (hmain : main h args = .ok p) :
    ∃ g, p = Process.started g := by
  cases hparse : flagParse args with
  | none =>
    rw [main, hparse] at hmain
    cases hmain
  | some r =>
    cases r with
    | error err =>
      rw [main_of_error hparse] at hmain
      cases hmain
    | ok r =>
      rw [main_of_ok hparse] at hmain
      exact ⟨_, start_eq_ok hmain⟩

theorem Process.ok_of_main {h : Host} {args : List String} {p : Process}
    (hmain : main h args = .ok p) : p.Ok := by
  obtain ⟨g, rfl⟩ := main_eq_ok hmain
  exact Process.ok_started g

theorem Process.ok_of_reach {p₀ p : Process} (hok : p₀.Ok) (hreach : Reach Process.step p₀ p) :
    p.Ok := by
  induction hreach with
  | refl => exact hok
  | step e _ _ next ih => exact ih.step next

/-- A host where every call succeeds. -/
def plainHost : Host where
  parse := fun s => .ok ⟨"unix", "", s, ∅⟩
  stat := fun _ => some "no such file"
  create := fun _ => none
  writePid := fun _ => none

/-- What `main` starts for `gvproxy -listen-qemu q`. -/
def qemuStart : Process where
  group := ⟨[.run [.network, .dnsUDP, .dnsTCP, .dhcp, .sshPort, .services, .socket .qemu],
    .signal], none, false⟩
  opened := []
  closed := []
  background := []
  exitCode := 0
  deferredExit := 0
  pidFile := false
  exited := none

theorem main_qemu : main plainHost ["-listen-qemu", "q"] = .ok qemuStart := by
  decide +kernel

/-- A machine attaches, and a signal comes. -/
def untilSignal : List ProcessEvent :=
  List.replicate 8 (.task 0 .go) ++ [.task 4 .client, .task 4 .go, .task 0 .signal]

/-- The steps that follow by themselves. -/
def untilSilence : List ProcessEvent := [.task 0 .go, .task 0 (.fail "closed"), .task 0 .go]

/-- The machine sends one more frame, and gvproxy exits. -/
def untilExit : List ProcessEvent := [.task 0 .frame, .task 0 .go, .exit true]

/-- **The exit status of gvproxy**, for every command line and every run without
a panic. A command line is parsed or refused; if it is refused, gvproxy exits
with 0 for the help and with 2 otherwise. Where it ends before it starts its
group, it exits with 0 if it only shows its version and with 1 otherwise. After
that it exits with 0, although `Wait` has returned an error and `exitCode` is 1. -/
theorem exit_status (h : Host) (args : List String) :
    (∃ r, flagParse args = some r) ∧
    (∀ err, flagParse args = some (.error err) →
      main h args = .error ⟨if err = .help then 0 else 2, false⟩) ∧
    (∀ s rest e, flagParse args = some (.ok (s, rest)) → main h args = .error e →
      e.status = if (globals s).showVersion then 0 else 1) ∧
    ∀ p₀ p e, main h args = .ok p₀ → Reach Process.step p₀ p → p.exited = some e →
      e.status = 0 ∧ p.group.err.isSome = true ∧ p.exitCode = 1 := by
  refine ⟨?_, fun err hparse => main_of_error hparse, ?_, ?_⟩
  · obtain ⟨formal, hline⟩ : ∃ formal, commandLine = some formal := by
      rw [← Option.isSome_iff_exists]
      decide +kernel
    exact ⟨_, by rw [flagParse, hline]; rfl⟩
  · intro s rest e hparse hmain
    rw [main_of_ok hparse] at hmain
    exact status_of_start hmain
  · intro p₀ p e hmain hreach he
    obtain ⟨hstatus, -, herr, hcode⟩ :=
      (Process.ok_of_reach (Process.ok_of_main hmain) hreach).exited e he
    exact ⟨hstatus, herr, hcode⟩

theorem exit_status_qemu :
    main plainHost ["-nosuch"] = .error ⟨2, false⟩ ∧ main plainHost ["-h"] = .error ⟨0, false⟩ ∧
    ∃ p e, Reach Process.step qemuStart p ∧ p.exited = some e ∧ e.status = 0 ∧
      p.exitCode = 1 := by
  have hexec : ∃ p, Reach Process.step qemuStart p ∧ p.exited = some ⟨0, false⟩ :=
    run_of_exec (untilSignal ++ untilSilence ++ untilExit) _ (by decide)
  obtain ⟨p, hreach, he⟩ := hexec
  obtain ⟨hstatus, -, hcode⟩ :=
    (exit_status plainHost ["-listen-qemu", "q"]).2.2.2 qemuStart p _ main_qemu hreach he
  exact ⟨(exit_status plainHost ["-nosuch"]).2.1 (.notDefined "nosuch") rfl,
    (exit_status plainHost ["-h"]).2.1 .help rfl, p, _, hreach, he, hstatus, hcode⟩

/-- A request of the API that closes an exposed port. -/
def ProcessEvent.unexposes : ProcessEvent → Bool
  | .unexpose _ => true
  | .task _ _ | .closeForward _ | .expose _ | .exit _ => false

/-- A port stays exposed until a client of the API takes it back. -/
theorem exposed_of_run {p₀ p : Process} (hok : p₀.Ok) (hopen : ∀ n, .exposed n ∉ p₀.closed)
    (hrun : Run Process.step (fun _ e => e.unexposes = false) p₀ p) :
    ∀ n, .exposed n ∉ p.closed := by
  induction hrun with
  | refl => exact hopen
  | step e run meets next ih =>
    intro n hn
    cases Process.steps_of_step next with
    | task hk _ hmoves =>
      have hplaced := (Process.ok_of_reach hok run.reach).placed _ (List.mem_of_getElem? hk)
      rcases List.mem_append.mp hn with hn | hn
      · exact ih n hn
      · exact absurd (hmoves.closes hplaced _ hn) nofun
    | closeForward =>
      rcases List.mem_append.mp hn with hn | hn
      · exact ih n hn
      · exact absurd (List.mem_singleton.mp hn) nofun
    | unexpose => cases meets
    | expose | exit => exact ih n hn

/-- **What is closed at the exit.** Whatever failed before, at the exit of
gvproxy every function of the group has returned and every listener of an
endpoint, of the services and of a machine is closed. Those of DNS and DHCP and
that of vpnkit are not, and neither is a port that is exposed, the ssh port
first of all, unless a client of the API has taken it back. -/
theorem exit_closes {h : Host} {args : List String} {p₀ p : Process}
    (hmain : main h args = .ok p₀) (hreach : Reach Process.step p₀ p)
    (hexited : p.exited.isSome = true) :
    p.group.tasks = [] ∧ (∀ l ∈ p.opened, l.ofGroup = true → l ∈ p.closed) ∧
      (∀ l, l.staysOpen = true → l ∉ p.closed) ∧
      (Run Process.step (fun _ e => e.unexposes = false) p₀ p →
        ∀ n, .exposed n ∉ p.closed) := by
  have hok := Process.ok_of_reach (Process.ok_of_main hmain) hreach
  obtain ⟨e, he⟩ := Option.isSome_iff_exists.mp hexited
  have htasks := (hok.exited e he).2.1
  refine ⟨htasks, fun l hl hgroup => ?_, fun l hl hclosed => ?_, fun hrun => ?_⟩
  · rcases hok.closes l hl hgroup with hclose | hclosed
    · rw [htasks] at hclose
      cases hclose
    · exact hclosed
  · rw [hok.staysOpen l hclosed] at hl
    cases hl
  · obtain ⟨g, rfl⟩ := main_eq_ok hmain
    exact exposed_of_run (Process.ok_started g) nofun hrun

/-- At that exit the sockets of gvproxy are closed, and the ssh port is not. -/
theorem exit_closes_qemu : ∃ p, Reach Process.step qemuStart p ∧
    p.group.tasks = [] ∧ .services ∈ p.closed ∧ .socket .qemu ∈ p.closed ∧
    .exposed 0 ∈ p.opened ∧ .exposed 0 ∉ p.closed := by
  have hexec : ∃ p, Run Process.step (fun _ e => e.unexposes = false) qemuStart p ∧
      (p.exited.isSome = true ∧
        p.opened = [.dnsUDP, .dnsTCP, .dhcp, .exposed 0, .services, .socket .qemu]) :=
    run_of_exec (untilSignal ++ untilSilence ++ untilExit) _ (by decide)
  obtain ⟨p, hrun, hexited, hopened⟩ := hexec
  obtain ⟨htasks, hclosed, -, hexposed⟩ := exit_closes main_qemu hrun.reach hexited
  exact ⟨p, hrun.reach, htasks, hclosed _ (by simp [hopened]) rfl,
    hclosed _ (by simp [hopened]) rfl, by simp [hopened], hexposed hrun 0⟩

/-! ## Shutdown -/

/-- Whether a function goes on without the outside, where the context is done
or a listener is closed. -/
def Task.ready (cancelled : Bool) (closed : List Listener) : Task → Bool
  | .run _ | .rx _ .check | .vpnkitLoop false | .forwardCreate _ .listen |
    .forwardCreate _ .connect | .forwardLoop _ .check | .forwardLoop _ .connect => true
  | .signal | .close _ | .debugLog => cancelled
  | .serve l => decide (l ∈ closed)
  | .accept s => decide (.socket s ∈ closed)
  | .rx s .read => decide (s = some .vfkit ∧ .socket .vfkit ∈ closed)
  -- the ssh connection is closed with the listener
  | .forwardLoop i .accept | .forwardLoop i (.dial false) => decide (.forward i ∈ closed)
  | .vpnkitLoop true | .vpnkitConn | .forwardCreate _ .handshake | .forwardLoop _ .handshake |
    .forwardLoop _ (.dial true) => false

/-- The functions that wait for a client, a machine or its ssh server, whatever
is closed. -/
def Task.waitsOutside : Task → Bool
  | .vpnkitLoop true | .vpnkitConn | .forwardCreate _ .handshake | .forwardLoop _ .handshake |
    .forwardLoop _ (.dial true) => true
  | .rx s .read => decide (s ≠ some .vfkit)
  | .run _ | .signal | .close _ | .serve _ | .debugLog | .vpnkitLoop false | .accept _ |
    .rx _ .check | .forwardCreate _ .listen | .forwardCreate _ .connect | .forwardLoop _ .check |
    .forwardLoop _ .accept | .forwardLoop _ .connect | .forwardLoop _ (.dial false) => false

/-- The functions in an ssh handshake. -/
def Task.inHandshake : Task → Bool
  | .forwardCreate _ .handshake | .forwardLoop _ .handshake => true
  | _ => false

/-- A step that needs nothing from the outside. -/
def Internal (p : Process) : ProcessEvent → Prop
  | .task k _ => ∃ t, p.group.tasks[k]? = some t ∧ t.ready p.group.cancelled p.closed = true
  | .closeForward _ => True
  | .expose _ | .unexpose _ | .exit _ => False

instance (p : Process) (e : ProcessEvent) : Decidable (Internal p e) :=
  match e with
  | .task k _ =>
      decidable_of_iff ((p.group.tasks[k]?).any (Task.ready p.group.cancelled p.closed) = true)
        (by simp [Internal, Option.any_eq_true])
  | .closeForward _ => inferInstanceAs (Decidable True)
  | .expose _ | .unexpose _ | .exit _ => inferInstanceAs (Decidable False)

/-- The steps that a function may still take by itself, with those of what it
starts, once the context is done. -/
def Setup.toGo : Setup → Nat
  | .network | .dnsUDP | .dnsTCP | .dhcp | .sshPort => 1
  | .debug | .vpnkit | .stdio => 2
  | .endpoint _ | .services | .socket _ => 3
  | .forward _ _ => 4

def Task.toGo : Task → Nat
  | .run rest => 1 + (rest.map Setup.toGo).sum
  | .forwardCreate _ .listen => 3
  | .forwardCreate _ .connect | .forwardLoop _ .accept | .forwardLoop _ (.dial _) |
    .forwardLoop _ .connect | .vpnkitLoop true | .rx _ .read => 2
  | .signal | .close _ | .serve _ | .debugLog | .vpnkitLoop false | .vpnkitConn | .accept _ |
    .rx _ .check | .forwardCreate _ .handshake | .forwardLoop _ .check |
    .forwardLoop _ .handshake => 1

def Process.toGo (p : Process) : Nat :=
  Group.total Task.toGo p.group.tasks + p.background.length

theorem Setup.toGo_eq (s : Setup) : s.toGo = 1 + Group.total Task.toGo s.starts := by
  cases s <;> rfl

theorem Setup.starts_not_waits (s : Setup) : ∀ t ∈ s.starts, t.waitsOutside = false := by
  cases s <;> simp [Setup.starts, listening, Task.waitsOutside]

section Done

variable {closed : List Listener} {t : Task} {o : Outcome}

/-- A step by itself gets on. -/
theorem Moves.toGo_lt (h : Moves true closed t o) (hready : t.ready true closed = true) :
    o.next.elim 0 Task.toGo + Group.total Task.toGo o.starts + o.background.length < t.toGo := by
  cases h with
  | returns err => cases t with
    | run rest => simp [Task.toGo, Group.total]
    | vpnkitLoop accepting => cases accepting <;> simp [Task.toGo, Group.total]
    | rx s pc => cases pc <;> simp [Task.toGo, Group.total]
    | forwardCreate i pc => cases pc <;> simp [Task.toGo, Group.total]
    | forwardLoop i pc => cases pc <;> simp [Task.toGo, Group.total]
    | _ => simp [Task.toGo, Group.total]
  | close err => simp [Task.toGo, Group.total]
  | setup s rest =>
    have hs := s.toGo_eq
    simp only [Task.toGo, List.map_cons, List.sum_cons, Option.elim_some, List.length_nil]
    omega
  | listened | connected | forwardConnected => simp [Task.toGo, Group.total]
  | client hopen | frame hopen | forwardClient hopen => simp [Task.ready, hopen] at hready
  | @forwardAgain i pc hpc =>
    cases pc with
    | check => exact absurd rfl hpc
    | handshake => simp [Task.ready] at hready
    | _ => simp [Task.toGo, Group.total]
  | vpnkitClient | vpnkitAgain | vpnkitFrame | created | forwardDial =>
    simp [Task.ready] at hready
  | vpnkitAccept hgo | rxRead hgo | forwardAccept hgo | forwardReconnect hgo => cases hgo

/-- A step by itself leads nobody to wait for the outside, but for a handshake
with the ssh server. -/
theorem Moves.waits (h : Moves true closed t o) (hready : t.ready true closed = true) :
    ∀ t', o.next = some t' ∨ t' ∈ o.starts → t'.waitsOutside = true → t'.inHandshake = true := by
  intro t' ht' hwaits
  cases h with
  | returns err => simp at ht'
  | close err => simp at ht'
  | setup s rest =>
    rcases ht' with ht' | ht'
    · obtain rfl := Option.some.inj ht'
      cases hwaits
    · rw [s.starts_not_waits t' ht'] at hwaits
      cases hwaits
  | connected | forwardConnected =>
    obtain rfl := by simpa using ht'
    rfl
  | listened | forwardAgain =>
    obtain rfl := by simpa using ht'
    cases hwaits
  | client hopen | frame hopen | forwardClient hopen => simp [Task.ready, hopen] at hready
  | vpnkitClient | vpnkitAgain | vpnkitFrame | created | forwardDial =>
    simp [Task.ready] at hready
  | vpnkitAccept hgo | rxRead hgo | forwardAccept hgo | forwardReconnect hgo => cases hgo

theorem not_ready_of_waits (h : t.waitsOutside = true) : t.ready true closed = false := by
  cases t with
  | vpnkitLoop accepting => cases accepting <;> simp_all [Task.waitsOutside, Task.ready]
  | rx s pc => cases pc <;> simp_all [Task.waitsOutside, Task.ready]
  | forwardCreate i pc => cases pc <;> simp_all [Task.waitsOutside, Task.ready]
  | forwardLoop i pc =>
    cases pc with
    | dial orphaned => cases orphaned <;> simp_all [Task.waitsOutside, Task.ready]
    | _ => simp_all [Task.waitsOutside, Task.ready]
  | vpnkitConn => rfl
  | _ => simp [Task.waitsOutside] at h

/-- A function that goes on by itself has a step. -/
theorem exists_outcome (hready : t.ready true closed = true) :
    ∃ c o, outcome true closed t c = some o := by
  cases t with
  | run rest => cases rest <;> exact ⟨.go, _, rfl⟩
  | vpnkitLoop accepting =>
    cases accepting
    · exact ⟨.go, _, rfl⟩
    · simp [Task.ready] at hready
  | vpnkitConn => simp [Task.ready] at hready
  | rx s pc =>
    cases pc
    · exact ⟨.go, _, rfl⟩
    · exact ⟨.fail "", _, rfl⟩
  | forwardCreate i pc => cases pc <;> exact ⟨.go, _, rfl⟩
  | forwardLoop i pc =>
    cases pc with
    | accept => exact ⟨.fail "", _, rfl⟩
    | _ => exact ⟨.go, _, rfl⟩
  | serve | accept => exact ⟨.fail "", _, rfl⟩
  | signal | close | debugLog => exact ⟨.go, _, rfl⟩

end Done

/-- A process on its way out: the context is done, and it has not exited. -/
structure Process.Ending (p : Process) : Prop where
  ok : p.Ok
  cancelled : p.group.cancelled = true
  running : p.exited = none

/-- What steps by themselves keep: who waits for the outside goes on waiting, and
the forwards that were created are closed, or will be. -/
structure Process.Keeps (p q : Process) : Prop where
  waiting : ∀ t ∈ p.group.tasks, t.waitsOutside = true → t ∈ q.group.tasks
  others : ∀ t ∈ q.group.tasks, t.waitsOutside = true →
    t ∈ p.group.tasks ∨ t.inHandshake = true
  forwards : ∀ i, i ∈ p.background ∨ .forward i ∈ p.closed →
    i ∈ q.background ∨ .forward i ∈ q.closed

theorem Process.Keeps.refl (p : Process) : p.Keeps p :=
  ⟨fun _ ht _ => ht, fun _ ht _ => Or.inl ht, fun _ hi => hi⟩

theorem Process.Keeps.trans {p q r : Process} (h : p.Keeps q) (h' : q.Keeps r) : p.Keeps r := by
  refine ⟨fun t ht hw => h'.waiting t (h.waiting t ht hw) hw, fun t ht hw => ?_,
    fun i hi => h'.forwards i (h.forwards i hi)⟩
  rcases h'.others t ht hw with ht | hnew
  · exact h.others t ht hw
  · exact Or.inr hnew

theorem Process.Ending.step {p p' : Process} {e : ProcessEvent} (hp : p.Ending)
    (hint : Internal p e) (h : p.step e = some p') :
    p'.Ending ∧ p'.toGo < p.toGo ∧ p.Keeps p' := by
  have hok := hp.ok.step h
  cases Process.steps_of_step h with
  | @task k c t o hk hrunning hmoves =>
    obtain ⟨t', hk', hready⟩ := hint
    obtain rfl : t' = t := Option.some.inj (hk'.symm.trans hk)
    rw [hp.cancelled] at hmoves hready
    refine ⟨⟨hok, by simp [Process.move, Group.move, hp.cancelled], hrunning⟩, ?_, ?_⟩
    · have hlt := hmoves.toGo_lt hready
      have htotal : Group.total Task.toGo (p.group.move k o.next o.starts o.err).tasks + t'.toGo =
        _ := Group.total_move Task.toGo hk
      simp only [Process.toGo, Process.move, List.length_append]
      omega
    · refine ⟨fun w hmem hw => Group.mem_move_of_ne hk hmem fun hwt => ?_, fun w hmem hw => ?_,
        fun i hi => hi.imp (List.mem_append_left _) (List.mem_append_left _)⟩
      · rw [← hwt, not_ready_of_waits hw] at hready
        cases hready
      · rcases Group.mem_of_mem_move hmem with hmem | hmem
        · exact Or.inl hmem
        · exact Or.inr (hmoves.waits hready w hmem hw)
  | @closeForward k i hk hrunning hdone =>
    refine ⟨⟨hok, hp.cancelled, hrunning⟩, ?_, fun _ ht _ => ht, fun _ ht _ => Or.inl ht, ?_⟩
    · have hlt := (List.getElem?_eq_some_iff.mp hk).1
      simp only [Process.toGo, List.length_eraseIdx, if_pos hlt]
      omega
    · exact fun j hj => forward_of_closeForward hk hj
  | expose | unexpose | exit => exact absurd hint id

theorem Process.Ending.run {p q : Process} (hp : p.Ending) (hrun : Run Process.step Internal p q) :
    q.Ending ∧ p.Keeps q := by
  induction hrun with
  | refl => exact ⟨hp, .refl p⟩
  | step e _ meets next ih =>
    obtain ⟨hnext, -, hkeeps⟩ := ih.1.step meets next
    exact ⟨hnext, ih.2.trans hkeeps⟩

/-- A process that has no step by itself has closed what is the group's to close,
and the forwards, and its functions wait for the outside. -/
theorem Process.Ending.stuck {p : Process} (hp : p.Ending)
    (hstuck : ∀ e, Internal p e → p.step e = none) :
    (∀ t ∈ p.group.tasks, t.waitsOutside = true) ∧
      (∀ l ∈ p.opened, l.ofGroup = true → l ∈ p.closed) ∧ p.background = [] := by
  have hnotReady : ∀ t ∈ p.group.tasks, t.ready true p.closed = false := by
    intro t ht
    by_contra hready
    rw [Bool.not_eq_false] at hready
    obtain ⟨k, hk⟩ := List.mem_iff_getElem?.mp ht
    obtain ⟨c, o, ho⟩ := exists_outcome hready
    have hstep := hstuck (.task k c) ⟨t, hk, by rw [hp.cancelled, hready]⟩
    simp [Process.step, hp.running, hk, hp.cancelled, ho] at hstep
  have hbackground : p.background = [] := by
    cases hb : p.background with
    | nil => rfl
    | cons i rest =>
      have hstep := hstuck (.closeForward 0) trivial
      simp [Process.step, hp.running, hb, hp.cancelled] at hstep
  have hclosed : ∀ l ∈ p.opened, l.ofGroup = true → l ∈ p.closed := fun l hl hgroup =>
    (hp.ok.closes l hl hgroup).resolve_left fun hclose => by
      have hready := hnotReady _ hclose
      simp [Task.ready] at hready
  refine ⟨fun t ht => ?_, hclosed, hbackground⟩
  have hready := hnotReady t ht
  -- what a function reads from is closed, so it would go on
  have hfree : ∀ l ∈ t.needs, l ∈ p.closed := fun l hl =>
    hclosed l ((hp.ok.placed t ht).1 l hl).1 ((hp.ok.placed t ht).1 l hl).2
  cases t with
  | serve l =>
    have hl := hfree l (by simp [Task.needs])
    simp [Task.ready, hl] at hready
  | accept s =>
    have hs := hfree (.socket s) (by simp [Task.needs])
    simp [Task.ready, hs] at hready
  | rx s pc =>
    cases pc with
    | check => simp [Task.ready] at hready
    | read =>
      by_cases hs : s = some .vfkit
      · subst hs
        have hclosed := hfree (.socket .vfkit) (by simp [Task.needs])
        simp [Task.ready, hclosed] at hready
      · simp [Task.waitsOutside, hs]
  | forwardCreate i pc =>
    cases pc with
    | handshake => rfl
    | _ => simp [Task.ready] at hready
  | forwardLoop i pc =>
    have hi := (hp.ok.forwards i pc ht).resolve_left (by simp [hbackground])
    cases pc with
    | handshake => rfl
    | dial orphaned =>
      cases orphaned with
      | false => simp [Task.ready, hi] at hready
      | true => rfl
    | _ => simp [Task.ready, hi] at hready
  | vpnkitLoop accepting =>
    cases accepting with
    | false => simp [Task.ready] at hready
    | true => rfl
  | vpnkitConn => rfl
  | run | signal | close | debugLog => simp [Task.ready] at hready

end GvisorTapVsock.Cmd.Gvproxy
