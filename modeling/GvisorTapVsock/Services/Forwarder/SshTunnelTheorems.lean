/-
GvisorTapVsock.Services.Forwarder.SshTunnelTheorems — which SSH forwards
`Unexpose` leaves open.

`Lazy` is what `connLock` gives: at most one connection creates, it does so
while `sshForward` is nil, and an `SSHForward` that is open is the one the
variable holds or one that is about to be stored there. So when `cleanup` looks,
it sees every open `SSHForward` but one that is being created.

`cleanup` looks once, though, and without the lock. A connection may create the
`SSHForward`, or connect it again, after that, and one that is created and not
yet stored is not seen. `closed_after_unexpose` excludes these and nothing else.
-/
import GvisorTapVsock.Services.Forwarder.SshTunnel

namespace GvisorTapVsock.Services.Forwarder

open GvisorTapVsock.Go GvisorTapVsock.Lts

namespace DialPc

/-- Between the `Lock` and the `Unlock` of `dialFn`. -/
def inside : DialPc → Bool
  | .accepted | .returned => false
  | _ => true

/-- The `SSHForward` whose `Tunnel` is being called. -/
def uses : DialPc → Option Nat
  | .dial f _ | .alive f _ | .reconnect f _ _ | .pause f _ => some f
  | _ => none

/-- In the branch for a nil `sshForward`. -/
def making : DialPc → Bool
  | .create | .assign _ => true
  | _ => false

/-- Between the creation of an `SSHForward` and its assignment. -/
def stores : DialPc → Bool
  | .assign _ => true
  | _ => false

theorem inside_of_making {pc : DialPc} (h : pc.making = true) : pc.inside = true := by
  cases pc <;> simp_all [making, inside]

end DialPc

namespace SshTunnel

variable {s s' : SshTunnel} {i : Nat} {pc pc' : DialPc}

/-! ## Connections -/

/-- A connection is in the critical section of `connLock`. -/
def inside (s : SshTunnel) (i : Nat) : Prop := ∃ pc, s.conns[i]? = some pc ∧ pc.inside = true

theorem getElem?_set_cases {l : List DialPc} {j : Nat} (h : (l.set i pc)[j]? = some pc') :
    (j = i ∧ pc' = pc) ∨ (j ≠ i ∧ l[j]? = some pc') := by
  by_cases hj : j = i
  · subst hj
    rw [List.getElem?_set_self'] at h
    cases hl : l[j]? with
    | none => simp [hl] at h
    | some q => simp [hl] at h; exact Or.inl ⟨rfl, h.symm⟩
  · rw [List.getElem?_set_ne (Ne.symm hj)] at h
    exact Or.inr ⟨hj, h⟩

/-! ## The invariant -/

/-- What `connLock` gives. -/
structure Lazy (s : SshTunnel) : Prop where
  guards : s.connLock.Guards s.inside
  making : ∀ (i : Nat) (pc : DialPc), s.conns[i]? = some pc → pc.making = true →
    s.sshForward = none
  uses : ∀ (i : Nat) (pc : DialPc) (f : Nat), s.conns[i]? = some pc → pc.uses = some f →
    s.sshForward = some f
  owner : ∀ f, s.IsOpen f → s.sshForward = some f ∨ ∃ i : Nat, s.conns[i]? = some (DialPc.assign f)

theorem lazy_start : Lazy start := by
  refine ⟨?_, ?_, ?_, ?_⟩
  · intro i ⟨pc, hpc, _⟩
    simp [start] at hpc
  · simp [start]
  · simp [start]
  · simp [start, IsOpen]

/-- A connection goes on, with the variable as it is. -/
theorem Lazy.goes (h : Lazy s) (hguards : s'.connLock.Guards s'.inside)
    (hconns : s'.conns = s.conns.set i pc') (hvar : s'.sshForward = s.sshForward)
    (hmaking : pc'.making = true → s.sshForward = none)
    (huses : ∀ f, pc'.uses = some f → s.sshForward = some f)
    (howner : ∀ f, s'.IsOpen f → s.sshForward = some f ∨
      ∃ j : Nat, (s.conns.set i pc')[j]? = some (DialPc.assign f)) : Lazy s' where
  guards := hguards
  making := by
    rw [hconns, hvar]
    intro j q hq hmade
    obtain ⟨-, rfl⟩ | ⟨-, hq⟩ := getElem?_set_cases hq
    · exact hmaking hmade
    · exact h.making j q hq hmade
  uses := by
    rw [hconns, hvar]
    intro j q f hq hf
    obtain ⟨-, rfl⟩ | ⟨-, hq⟩ := getElem?_set_cases hq
    · exact huses f hf
    · exact h.uses j q f hq hf
  owner := by
    rw [hconns, hvar]
    exact howner

/-- A connection that goes on is not in a critical section it was not in. -/
theorem Lazy.guards_set (h : Lazy s) (hpc : s.conns[i]? = some pc)
    (hin : pc'.inside = true → pc.inside = true) (hlock : s'.connLock = s.connLock)
    (hconns : s'.conns = s.conns.set i pc') : s'.connLock.Guards s'.inside := by
  rw [hlock]
  refine h.guards.keep ?_
  intro j ⟨q, hq, hqin⟩
  rw [hconns] at hq
  obtain ⟨rfl, rfl⟩ | ⟨-, hq⟩ := getElem?_set_cases hq
  · exact ⟨pc, hpc, hin hqin⟩
  · exact ⟨q, hq, hqin⟩

/-- An open `SSHForward` keeps its owner when a connection that is not about to
store one goes on. -/
theorem Lazy.owner_set (h : Lazy s) (hpc : s.conns[i]? = some pc) (hne : ∀ f, pc ≠ .assign f)
    {f : Nat} (hf : s.IsOpen f) (pc' : DialPc) :
    s.sshForward = some f ∨ ∃ j : Nat, (s.conns.set i pc')[j]? = some (DialPc.assign f) := by
  obtain hvar | ⟨j, hj⟩ := h.owner f hf
  · exact Or.inl hvar
  · refine Or.inr ⟨j, ?_⟩
    have hij : i ≠ j := by
      rintro rfl
      rw [hpc, Option.some.injEq] at hj
      exact hne f hj
    rw [List.getElem?_set_ne hij, hj]

/-- As `goes`, where no `SSHForward` changes. -/
theorem Lazy.goto (h : Lazy s) (hpc : s.conns[i]? = some pc) (hne : ∀ f, pc ≠ .assign f)
    (hin : pc'.inside = true → pc.inside = true)
    (hmaking : pc'.making = true → s.sshForward = none)
    (huses : ∀ f, pc'.uses = some f → s.sshForward = some f) : Lazy (s.goto i pc') :=
  h.goes (h.guards_set hpc hin rfl rfl) rfl rfl hmaking huses
    (fun _ hf => h.owner_set hpc hne hf pc')

/-- A connection inside gives up, or has its stream. -/
theorem Lazy.leaves (h : Lazy s) (hpc : s.conns[i]? = some pc) (hne : ∀ f, pc ≠ .assign f)
    (hin : pc.inside = true) : Lazy (s.goto i .unlock) :=
  h.goto hpc hne (fun _ => hin) (by simp [DialPc.making]) (by simp [DialPc.uses])

/-- A connection goes on with the `SSHForward` it uses. -/
theorem Lazy.keeps (h : Lazy s) (hpc : s.conns[i]? = some pc) (hne : ∀ f, pc ≠ .assign f)
    (hin : pc.inside = true) (hmaking : pc'.making = false) (huses : pc'.uses = pc.uses) :
    Lazy (s.goto i pc') :=
  h.goto hpc hne (fun _ => hin) (by simp [hmaking])
    (fun f hf => h.uses i pc f hpc (huses ▸ hf))

/-! ### Steps -/

theorem Lazy.accept (h : Lazy s) : Lazy { s with conns := s.conns ++ [.accepted] } := by
  have hcases : ∀ (j : Nat) (q : DialPc), (s.conns ++ [.accepted])[j]? = some q →
      s.conns[j]? = some q ∨ q = .accepted := by
    intro j q hq
    rw [List.getElem?_append] at hq
    split at hq
    · exact Or.inl hq
    · exact Or.inr (List.mem_singleton.mp (List.mem_of_getElem? hq))
  refine ⟨h.guards.keep ?_, ?_, ?_, ?_⟩
  · intro j ⟨q, hq, hqin⟩
    obtain hq | rfl := hcases j q hq
    · exact ⟨q, hq, hqin⟩
    · simp [DialPc.inside] at hqin
  · intro j q hq hmade
    obtain hq | rfl := hcases j q hq
    · exact h.making j q hq hmade
    · simp [DialPc.making] at hmade
  · intro j q f hq hf
    obtain hq | rfl := hcases j q hq
    · exact h.uses j q f hq hf
    · simp [DialPc.uses] at hf
  · intro f hf
    obtain hvar | ⟨j, hj⟩ := h.owner f hf
    · exact Or.inl hvar
    · have hlt := (List.getElem?_eq_some_iff.mp hj).1
      exact Or.inr ⟨j, (List.getElem?_append_left hlt).trans hj⟩

theorem Lazy.lock (h : Lazy s) (hpc : s.conns[i]? = some .accepted) {l : Mutex Nat}
    (hlock : s.connLock.lock i = some l) : Lazy { s.goto i .check with connLock := l } := by
  refine h.goes (h.guards.lock hlock ?_) rfl rfl (by simp [DialPc.making]) (by simp [DialPc.uses])
    (fun f hf => h.owner_set hpc (by simp) hf .check)
  intro j ⟨q, hq, hqin⟩
  obtain ⟨rfl, -⟩ | ⟨-, hq⟩ := getElem?_set_cases hq
  · exact Or.inl rfl
  · exact Or.inr ⟨q, hq, hqin⟩

theorem Lazy.unlock (h : Lazy s) (hpc : s.conns[i]? = some .unlock) :
    Lazy { s.goto i .returned with connLock := s.connLock.unlock } := by
  have hmine : s.inside i := ⟨.unlock, hpc, rfl⟩
  refine h.goes (h.guards.unlock hmine ?_) rfl rfl (by simp [DialPc.making])
    (by simp [DialPc.uses]) (fun f hf => h.owner_set hpc (by simp) hf .returned)
  intro j ⟨q, hq, hqin⟩
  obtain ⟨-, rfl⟩ | ⟨hj, hq⟩ := getElem?_set_cases hq
  · simp [DialPc.inside] at hqin
  · exact ⟨hj, q, hq, hqin⟩

/-- The one connection that creates stores its `SSHForward`. -/
theorem Lazy.assign (h : Lazy s) {f : Nat} (hpc : s.conns[i]? = some (.assign f)) :
    Lazy { s.goto i (.dial f 1) with sshForward := some f } := by
  have hnil := h.making i _ hpc rfl
  have hmine : s.inside i := ⟨_, hpc, rfl⟩
  refine ⟨h.guards.keep ?_, ?_, ?_, ?_⟩
  · intro j ⟨q, hq, hqin⟩
    obtain ⟨rfl, -⟩ | ⟨-, hq⟩ := getElem?_set_cases hq
    · exact hmine
    · exact ⟨q, hq, hqin⟩
  · intro j q hq hmade
    obtain ⟨-, rfl⟩ | ⟨hj, hq⟩ := getElem?_set_cases hq
    · simp [DialPc.making] at hmade
    · have hother : s.inside j := ⟨q, hq, DialPc.inside_of_making hmade⟩
      exact absurd (h.guards.eq hother hmine) hj
  · intro j q f' hq hf
    obtain ⟨-, rfl⟩ | ⟨-, hq⟩ := getElem?_set_cases hq
    · simpa [DialPc.uses] using hf
    · -- nobody uses an `SSHForward` before one is stored
      simp [h.uses j q f' hq hf] at hnil
  · intro f' hf
    obtain hvar | ⟨j, hj⟩ := h.owner f' hf
    · simp [hvar] at hnil
    · have hother : s.inside j := ⟨_, hj, rfl⟩
      rw [h.guards.eq hother hmine, hpc, Option.some.injEq, DialPc.assign.injEq] at hj
      exact Or.inl (by rw [hj])

theorem isOpen_set {f f' : Nat} {b : Bool} (h : (s.forwards.set f b)[f']? = some true) :
    (f' = f ∧ b = true) ∨ s.IsOpen f' := by
  by_cases hf : f' = f
  · subst hf
    rw [List.getElem?_set_self'] at h
    cases hl : s.forwards[f']? with
    | none => simp [hl] at h
    | some b' => simp [hl] at h; exact Or.inl ⟨rfl, h⟩
  · rw [List.getElem?_set_ne (Ne.symm hf)] at h
    exact Or.inr h

theorem Lazy.created (h : Lazy s) (hpc : s.conns[i]? = some .create) :
    Lazy { s.goto i (.assign s.forwards.length) with forwards := s.forwards ++ [true] } := by
  refine h.goes (h.guards_set hpc (fun _ => rfl) rfl rfl) rfl rfl
    (fun _ => h.making i _ hpc rfl) (by simp [DialPc.uses]) ?_
  intro f hf
  have hlt := (List.getElem?_eq_some_iff.mp hpc).1
  rw [IsOpen, List.getElem?_append] at hf
  split at hf
  · exact h.owner_set hpc (by simp) hf _
  · have hlast : f = s.forwards.length := by
      have := (List.getElem?_eq_some_iff.mp hf).1
      simp at this
      omega
    exact Or.inr ⟨i, by rw [List.getElem?_set_self hlt, hlast]⟩

theorem Lazy.dialStep (h : Lazy s) (hpc : s.conns[i]? = some pc) {m : DialMove}
    (hstep : s.dialStep i pc m = some s') : Lazy s' := by
  unfold SshTunnel.dialStep at hstep
  split at hstep
  · -- lock
    obtain ⟨l, hlock, rfl⟩ := Option.map_eq_some_iff.mp hstep
    exact h.lock hpc hlock
  · -- check
    split at hstep
    · next hnil =>
      obtain rfl := Option.some.inj hstep
      exact h.goto hpc (by simp) (fun _ => rfl) (fun _ => hnil) (by simp [DialPc.uses])
    · next f hvar =>
      obtain rfl := Option.some.inj hstep
      refine h.goto hpc (by simp) (fun _ => rfl) (by simp [DialPc.making]) ?_
      simpa [DialPc.uses] using hvar
  · -- created
    obtain rfl := Option.some.inj hstep
    exact h.created hpc
  · -- createFailed
    obtain rfl := Option.some.inj hstep
    exact h.leaves hpc (by simp) rfl
  · -- assign
    obtain rfl := Option.some.inj hstep
    exact h.assign hpc
  · -- dialled
    split at hstep
    · obtain rfl := Option.some.inj hstep
      exact h.leaves hpc (by simp) rfl
    · simp at hstep
  · -- dialFailed
    split at hstep
    · obtain rfl := Option.some.inj hstep
      exact h.leaves hpc (by simp) rfl
    · obtain rfl := Option.some.inj hstep
      exact h.keeps hpc (by simp) rfl rfl rfl
  · -- alive
    split at hstep
    · obtain rfl := Option.some.inj hstep
      exact h.keeps hpc (by simp) rfl rfl rfl
    · simp at hstep
  · -- dead
    obtain rfl := Option.some.inj hstep
    refine h.goes (h.guards_set hpc (fun _ => rfl) rfl rfl) rfl rfl (by simp [DialPc.making])
      (fun f hf => h.uses i _ f hpc hf) ?_
    intro f' hf
    obtain ⟨-, hfalse⟩ | hopen := isOpen_set hf
    · cases hfalse
    · exact h.owner_set hpc (by simp) hopen _
  · -- reconnected
    obtain rfl := Option.some.inj hstep
    refine h.goes (h.guards_set hpc (fun _ => rfl) rfl rfl) rfl rfl (by simp [DialPc.making])
      (fun f hf => h.uses i _ f hpc hf) ?_
    intro f' hf
    obtain ⟨rfl, -⟩ | hopen := isOpen_set hf
    · exact Or.inl (h.uses i _ f' hpc rfl)
    · exact h.owner_set hpc (by simp) hopen _
  · -- reconnectFailed
    split at hstep
    · obtain rfl := Option.some.inj hstep
      exact h.leaves hpc (by simp) rfl
    · obtain rfl := Option.some.inj hstep
      exact h.keeps hpc (by simp) rfl rfl rfl
  · -- slept
    obtain rfl := Option.some.inj hstep
    exact h.keeps hpc (by simp) rfl rfl rfl
  · -- unlock
    obtain rfl := Option.some.inj hstep
    exact h.unlock hpc
  · simp at hstep

theorem Lazy.unexposeStep (h : Lazy s) {m : UnexposeMove} (hstep : s.unexposeStep m = some s') :
    Lazy s' := by
  unfold SshTunnel.unexposeStep at hstep
  split at hstep
  · obtain rfl := Option.some.inj hstep
    exact ⟨h.guards, h.making, h.uses, h.owner⟩
  · split at hstep <;>
    · obtain rfl := Option.some.inj hstep
      exact ⟨h.guards, h.making, h.uses, h.owner⟩
  · -- close
    obtain rfl := Option.some.inj hstep
    refine ⟨h.guards, h.making, h.uses, ?_⟩
    intro f' hf
    obtain ⟨-, hfalse⟩ | hopen := isOpen_set hf
    · cases hfalse
    · exact h.owner f' hopen
  · obtain rfl := Option.some.inj hstep
    exact ⟨h.guards, h.making, h.uses, h.owner⟩
  · simp at hstep

theorem Lazy.step {e : Event} (h : Lazy s) (hstep : step s e = some s') : Lazy s' := by
  cases e with
  | accept =>
    rw [SshTunnel.step] at hstep
    split at hstep
    · obtain rfl := Option.some.inj hstep
      exact h.accept
    · cases hstep
  | conn i m =>
    rw [SshTunnel.step] at hstep
    split at hstep
    · cases hstep
    · next pc hpc => exact h.dialStep hpc hstep
  | unexpose m => exact h.unexposeStep hstep

theorem Reachable.lazy (h : Reachable s) : Lazy s := by
  induction h with
  | refl => exact lazy_start
  | step e _ _ next ih => exact ih.step next

/-! ## Unexpose -/

/-- `cleanup` is done: it has closed an `SSHForward`, or found none. -/
def cleaned : UnexposePc → Bool
  | .start | .check | .close _ => false
  | .listener | .returned => true

/-- A run in which no connection creates an `SSHForward` or connects one again
after `cleanup`, and in which `cleanup` does not look between the creation of an
`SSHForward` and its assignment. -/
def Undisturbed (s : SshTunnel) : Event → Prop
  | .conn _ .created | .conn _ .reconnected => cleaned s.unexpose = false
  | .unexpose .check => ∀ pc ∈ s.conns, pc.stores = false
  | _ => True

instance (s : SshTunnel) (e : Event) : Decidable (Undisturbed s e) := by
  unfold Undisturbed
  split <;> infer_instance

/-- `cleanup` has looked at `sshForward`. -/
def looked : UnexposePc → Bool
  | .start | .check => false
  | .close _ | .listener | .returned => true

/-- After `cleanup` has looked: an `SSHForward` that is open is about to be
closed, and it is the one in the variable. -/
structure Shut (s : SshTunnel) : Prop where
  looked : looked s.unexpose = true
  closing : ∀ f, s.IsOpen f → s.unexpose = .close f
  stored : ∀ f, s.unexpose = .close f → s.sshForward = some f

/-- `cleanup` has yet to close an `SSHForward` if it has looked and is not done. -/
theorem Shut.close_of_not_cleaned (h : Shut s) (hclean : cleaned s.unexpose = false) :
    ∃ f, s.unexpose = .close f := by
  have hlooked := h.looked
  cases hpc : s.unexpose with
  | close f => exact ⟨f, rfl⟩
  | start | check => simp [hpc, SshTunnel.looked] at hlooked
  | listener | returned => simp [hpc, cleaned] at hclean

theorem Shut.created (h : Shut s) (hlazy : Lazy s) (hpc : s.conns[i]? = some .create)
    (hclean : cleaned s.unexpose = false) : False := by
  obtain ⟨f, hf⟩ := h.close_of_not_cleaned hclean
  have hnil := hlazy.making i _ hpc rfl
  rw [h.stored f hf] at hnil
  cases hnil

theorem Shut.assign (h : Shut s) (hlazy : Lazy s) {f : Nat} (hpc : s.conns[i]? = some (.assign f)) :
    Shut { s.goto i (.dial f 1) with sshForward := some f } := by
  refine ⟨h.looked, h.closing, fun f' hf' => ?_⟩
  have hnil := hlazy.making i _ hpc rfl
  rw [h.stored f' hf'] at hnil
  cases hnil

theorem Shut.reconnected (h : Shut s) (hlazy : Lazy s) {f r b : Nat}
    (hpc : s.conns[i]? = some (.reconnect f r b)) (hclean : cleaned s.unexpose = false)
    (pc' : DialPc) : Shut { s.goto i pc' with forwards := s.forwards.set f true } := by
  refine ⟨h.looked, fun f' hf' => ?_, h.stored⟩
  obtain ⟨rfl, -⟩ | hopen := isOpen_set hf'
  · -- the variable holds the one that is reconnected
    obtain ⟨g, hg⟩ := h.close_of_not_cleaned hclean
    have hvar := hlazy.uses i _ f' hpc rfl
    rw [h.stored g hg, Option.some.injEq] at hvar
    rw [← hvar]
    exact hg
  · exact h.closing f' hopen

theorem Shut.dead (h : Shut s) (f : Nat) (pc' : DialPc) :
    Shut { s.goto i pc' with forwards := s.forwards.set f false } := by
  refine ⟨h.looked, fun f' hf' => ?_, h.stored⟩
  obtain ⟨-, hfalse⟩ | hopen := isOpen_set hf'
  · cases hfalse
  · exact h.closing f' hopen

theorem Shut.dialStep (h : Shut s) (hlazy : Lazy s) (hpc : s.conns[i]? = some pc) {m : DialMove}
    (hquiet : Undisturbed s (.conn i m)) (hstep : s.dialStep i pc m = some s') : Shut s' := by
  have hgoto : ∀ pc' : DialPc, Shut (s.goto i pc') := fun _ => ⟨h.looked, h.closing, h.stored⟩
  unfold SshTunnel.dialStep at hstep
  split at hstep
  · -- lock
    obtain ⟨l, -, rfl⟩ := Option.map_eq_some_iff.mp hstep
    exact ⟨h.looked, h.closing, h.stored⟩
  · -- check
    split at hstep <;>
    · obtain rfl := Option.some.inj hstep
      exact hgoto _
  · -- created
    exact (h.created hlazy hpc hquiet).elim
  · -- createFailed
    obtain rfl := Option.some.inj hstep
    exact hgoto _
  · -- assign
    obtain rfl := Option.some.inj hstep
    exact h.assign hlazy hpc
  · -- dialled
    split at hstep
    · obtain rfl := Option.some.inj hstep
      exact hgoto _
    · simp at hstep
  · -- dialFailed
    split at hstep <;>
    · obtain rfl := Option.some.inj hstep
      exact hgoto _
  · -- alive
    split at hstep
    · obtain rfl := Option.some.inj hstep
      exact hgoto _
    · simp at hstep
  · -- dead
    obtain rfl := Option.some.inj hstep
    exact h.dead _ _
  · -- reconnected
    obtain rfl := Option.some.inj hstep
    exact h.reconnected hlazy hpc hquiet _
  · -- reconnectFailed
    split at hstep <;>
    · obtain rfl := Option.some.inj hstep
      exact hgoto _
  · -- slept
    obtain rfl := Option.some.inj hstep
    exact hgoto _
  · -- unlock
    obtain rfl := Option.some.inj hstep
    exact ⟨h.looked, h.closing, h.stored⟩
  · simp at hstep

/-- `cleanup` looks: an `SSHForward` that is open is in the variable. -/
theorem shut_of_check (hlazy : Lazy s) (hpc : s.unexpose = .check)
    (hstored : ∀ pc ∈ s.conns, pc.stores = false) (hstep : s.unexposeStep .check = some s') :
    Shut s' := by
  have hvar : ∀ f, s.IsOpen f → s.sshForward = some f := by
    intro f hf
    obtain hvar | ⟨j, hj⟩ := hlazy.owner f hf
    · exact hvar
    · have hassign := hstored _ (List.mem_of_getElem? hj)
      simp [DialPc.stores] at hassign
  simp only [SshTunnel.unexposeStep, hpc] at hstep
  split at hstep
  · next hnil =>
    obtain rfl := Option.some.inj hstep
    refine ⟨rfl, fun f hf => ?_, nofun⟩
    simp [hvar f hf] at hnil
  · next f hsome =>
    obtain rfl := Option.some.inj hstep
    refine ⟨rfl, fun f' hf => ?_, fun f' hf => ?_⟩
    · rw [hvar f' hf, Option.some.injEq] at hsome
      rw [hsome]
    · rw [← UnexposePc.close.inj hf]
      exact hsome

theorem Shut.unexposeStep (h : Shut s) {m : UnexposeMove} (hstep : s.unexposeStep m = some s') :
    Shut s' := by
  have hlooked := h.looked
  cases hpc : s.unexpose with
  | start => simp [hpc, SshTunnel.looked] at hlooked
  | check => simp [hpc, SshTunnel.looked] at hlooked
  | close f =>
    cases m <;> simp [SshTunnel.unexposeStep, hpc] at hstep
    subst hstep
    refine ⟨rfl, fun f' hf => ?_, nofun⟩
    obtain ⟨-, hfalse⟩ | hopen := isOpen_set hf
    · cases hfalse
    · -- only `f` was open, and it is closed now
      have hsame := h.closing f' hopen
      rw [hpc, UnexposePc.close.injEq] at hsame
      subst hsame
      simp [IsOpen, List.getElem?_set_self'] at hf
  | listener =>
    cases m <;> simp [SshTunnel.unexposeStep, hpc] at hstep
    subst hstep
    exact ⟨rfl, fun f hf => by simpa [hpc] using h.closing f hf, nofun⟩
  | returned => cases m <;> simp [SshTunnel.unexposeStep, hpc] at hstep

/-- What `cleanup` has yet to see stays as it is while a connection moves. -/
theorem unexpose_dialStep {m : DialMove} (h : s.dialStep i pc m = some s') :
    s'.unexpose = s.unexpose := by
  unfold SshTunnel.dialStep SshTunnel.goto at h
  grind [Option.map_eq_some_iff]

theorem shut_of_looked (hrun : Run step Undisturbed start s) (hlooked : looked s.unexpose = true) :
    Shut s := by
  induction hrun with
  | refl => simp [start, looked] at hlooked
  | @step t t' e run meets next ih =>
    cases e with
    | accept =>
      rw [SshTunnel.step] at next
      split at next
      · obtain rfl := Option.some.inj next
        have hshut := ih hlooked
        exact ⟨hshut.looked, hshut.closing, hshut.stored⟩
      · cases next
    | conn i m =>
      rw [SshTunnel.step] at next
      split at next
      · cases next
      · next pc hpc =>
        rw [unexpose_dialStep next] at hlooked
        exact (ih hlooked).dialStep (Reachable.lazy run.reach) hpc meets next
    | unexpose m =>
      by_cases hbefore : looked t.unexpose = true
      · exact (ih hbefore).unexposeStep next
      · cases hpc : t.unexpose with
        | start =>
          cases m <;> simp [SshTunnel.step, SshTunnel.unexposeStep, hpc] at next
          subst next
          simp [looked] at hlooked
        | check =>
          cases m with
          | check => exact shut_of_check (Reachable.lazy run.reach) hpc meets next
          | _ => simp [SshTunnel.step, SshTunnel.unexposeStep, hpc] at next
        | close f => simp [hpc, looked] at hbefore
        | listener => simp [hpc, looked] at hbefore
        | returned => simp [hpc, looked] at hbefore

/-- **No `SSHForward` is open once `Unexpose` has returned, in every run in which
none is created or connected again behind the back of `cleanup`.** -/
theorem closed_after_unexpose (hrun : Run step Undisturbed start s)
    (hreturned : s.unexpose = .returned) (f : Nat) : ¬ s.IsOpen f := by
  intro hopen
  have hclosing := (shut_of_looked hrun (by simp [hreturned, looked])).closing f hopen
  simp [hreturned] at hclosing

/-- A client connects and is served. -/
def serve : List Event :=
  [.accept, .conn 0 .lock, .conn 0 .check, .conn 0 .created, .conn 0 .assign, .conn 0 .dialled,
    .conn 0 .unlock]

/-- `Unexpose` when it finds an `SSHForward`, and when it finds none. -/
def unexposeOpen : List Event :=
  [.unexpose .begin, .unexpose .check, .unexpose .close, .unexpose .listener]

def unexposeNil : List Event := [.unexpose .begin, .unexpose .check, .unexpose .listener]

/-- A second client is inside `connectForward` while the proxy is taken down. It
finds the connection dead, and cannot connect it again. -/
theorem closed_after_served :
    ∃ s, Run step Undisturbed start s ∧ s.conns = [.returned, .returned] ∧
      s.forwards = [false] ∧ s.unexpose = .returned ∧ ¬ s.IsOpen 0 := by
  have hrun : ∃ s, Run step Undisturbed start s ∧ (s.conns = [.returned, .returned] ∧
      s.forwards = [false] ∧ s.unexpose = .returned) :=
    run_of_exec (serve ++ [.accept, .conn 1 .lock, .conn 1 .check] ++ unexposeOpen ++
      [.conn 1 .dialFailed, .conn 1 .dead, .conn 1 (.reconnectFailed false), .conn 1 .unlock])
      start (by decide +kernel)
  obtain ⟨s, hs, hconns, hforwards, hreturned⟩ := hrun
  exact ⟨s, hs, hconns, hforwards, hreturned, closed_after_unexpose hs hreturned 0⟩

/-- Three runs that leave an `SSHForward` open: it is being created while
`Unexpose` runs; it is created afterwards by a connection that was accepted
before; and a connection finds it closed and connects it again. -/
theorem open_after_unexpose :
    (∃ s, Reachable s ∧ (s.unexpose = .returned ∧ s.conns = [.create]) ∧
      ∃ s', Reach step s s' ∧ s'.forwards = [true] ∧ s'.conns = [.returned]) ∧
    (∃ s, Reachable s ∧ (s.unexpose = .returned ∧ s.conns = [.accepted]) ∧
      ∃ s', Reach step s s' ∧ s'.forwards = [true] ∧ s'.conns = [.returned]) ∧
    (∃ s, Reachable s ∧ (s.unexpose = .returned ∧ s.forwards = [false]) ∧
      ∃ s', Reach step s s' ∧ s'.forwards = [true] ∧ s'.conns = [.returned, .returned]) := by
  refine ⟨?_, ?_, ?_⟩
  · exact runs_of_exec ([.accept, .conn 0 .lock, .conn 0 .check] ++ unexposeNil)
      [.conn 0 .created, .conn 0 .assign, .conn 0 .dialled, .conn 0 .unlock] start
      (by decide +kernel)
  · exact runs_of_exec (.accept :: unexposeNil)
      [.conn 0 .lock, .conn 0 .check, .conn 0 .created, .conn 0 .assign, .conn 0 .dialled,
        .conn 0 .unlock] start (by decide +kernel)
  · exact runs_of_exec (serve ++ [.accept, .conn 1 .lock, .conn 1 .check] ++ unexposeOpen)
      [.conn 1 .dialFailed, .conn 1 .dead, .conn 1 .reconnected, .conn 1 (.slept true),
        .conn 1 .dialled, .conn 1 .unlock] start (by decide +kernel)

end SshTunnel

end GvisorTapVsock.Services.Forwarder
