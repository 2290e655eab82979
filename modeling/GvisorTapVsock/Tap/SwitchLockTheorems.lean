/-
GvisorTapVsock.Tap.SwitchLockTheorems — the locks of the switch are taken in an
order, except by a goroutine that panics while it learns an address.

`writeLock` comes before `connLock`, both before `camLock`; a writer that has
announced itself waits for readers, and readers wait for nothing. `Held` says
that a goroutine owns no more than its place in the program shows, so the order
can be read off program counters (`Pc.order`), and the library's rule for
ordered resources applies.

`rxBuf` unlocks `camLock` without `defer`. A frame too short for a source
address makes it panic in between, and the deferred closure of `Accept` then
waits for a lock that its own goroutine holds.
-/
import GvisorTapVsock.Tap.SwitchLocks

namespace GvisorTapVsock.Tap

open GvisorTapVsock.Go GvisorTapVsock.Lts

variable {gateway : LinkAddress}

/-! ## Inversion -/

/-- What a step can be. -/
inductive LockSteps (gateway : LinkAddress) (s : LockState) : LockEvent → LockState → Prop where
  | announce {e : Event} {pc : Pc}
      (row : next gateway s.base (s.base.pc e.goroutine) e.choice = some (pc, .lockCam))
      (free : s.base.sw.camLock.writer = none) (alone : s.waitingWriter = none) :
      LockSteps gateway s (.run e) { s with waitingWriter := some e.goroutine }
  | acquire {e : Event} {pc : Pc} {sw : Switch}
      (row : next gateway s.base (s.base.pc e.goroutine) e.choice = some (pc, .lockCam))
      (announced : s.waitingWriter = some e.goroutine)
      (applies : s.base.sw.apply e.goroutine .lockCam = some sw) :
      LockSteps gateway s (.run e)
        { s.move e.goroutine pc .lockCam sw with waitingWriter := none }
  | plain {e : Event} {pc : Pc} {a : Action} {sw : Switch}
      (row : next gateway s.base (s.base.pc e.goroutine) e.choice = some (pc, a))
      (notCam : a ≠ .lockCam) (notPanic : ∀ p, a ≠ .panic p)
      (noWriter : a = .rlockCam → s.waitingWriter = none)
      (applies : s.base.sw.apply e.goroutine a = some sw) :
      LockSteps gateway s (.run e) (s.move e.goroutine pc a sw)
  | panic {e : Event} {pc : Pc} {p : Panic}
      (row : next gateway s.base (s.base.pc e.goroutine) e.choice = some (pc, .panic p)) :
      LockSteps gateway s (.run e) (s.unwind e.goroutine p)
  | recovered {t : Goroutine} :
      LockSteps gateway s (.recovered t)
        { s with panicking := Function.update s.panicking t false }
  | exit {t : Goroutine} : LockSteps gateway s (.exit t) { s with exited := true }

theorem lockStep_run {s s' : LockState} {e : Event}
    (h : lockStep gateway s (.run e) = some s') :
    ∃ pc a, next gateway s.base (s.base.pc e.goroutine) e.choice = some (pc, a) ∧
      s.act e.goroutine pc a = some s' := by
  rw [lockStep] at h
  split at h
  · cases h
  · split at h
    · cases h
    · exact ⟨_, _, ‹_›, h⟩

theorem lockStep_eq {s : LockState} {e : Event} {pc : Pc} {a : Action}
    (hexited : s.exited = false) (hunwound : s.unwound e.goroutine = false)
    (hnext : next gateway s.base (s.base.pc e.goroutine) e.choice = some (pc, a)) :
    lockStep gateway s (.run e) = s.act e.goroutine pc a := by
  simp only [lockStep, hexited, hunwound, Bool.or_self, Bool.false_eq_true, if_false, hnext]

/-- **Inversion.** Nothing else is a step. -/
theorem lockStep_steps {s s' : LockState} {e : LockEvent} (h : lockStep gateway s e = some s') :
    LockSteps gateway s e s' := by
  cases e with
  | run e =>
    obtain ⟨pc, a, hnext, hact⟩ := lockStep_run h
    cases a with
    | panic p =>
      obtain rfl := Option.some.inj hact
      exact .panic hnext
    | lockCam =>
      rw [LockState.act] at hact
      split at hact
      · split at hact
        · obtain rfl := Option.some.inj hact
          exact .announce hnext ‹_› ‹_›
        · cases hact
      · split at hact
        · subst_vars
          obtain ⟨sw, hsw, rfl⟩ := Option.map_eq_some_iff.mp hact
          exact .acquire hnext ‹_› hsw
        · cases hact
    | rlockCam =>
      rw [LockState.act] at hact
      split at hact
      · obtain ⟨sw, hsw, rfl⟩ := Option.map_eq_some_iff.mp hact
        exact .plain hnext (by simp) (by simp) (fun _ => ‹_›) hsw
      · cases hact
    | _ =>
      simp only [LockState.act, Option.map_eq_some_iff] at hact
      obtain ⟨sw, hsw, rfl⟩ := hact
      exact .plain hnext (by simp) (by simp) (by simp) hsw
  | recovered t =>
    rw [lockStep] at h
    split at h
    · obtain rfl := Option.some.inj h
      exact .recovered
    · cases h
  | exit t =>
    rw [lockStep] at h
    split at h
    · obtain rfl := Option.some.inj h
      exact .exit
    · cases h

/-! ## What actions do to the locks -/

/-- The resource an action takes. -/
def Action.takes : Action → Resource → Bool
  | .lockWrite, r => r = .writeLock
  | .lockConn, r => r = .connLock
  | .lockCam, r => r = .camLock
  | .rlockCam, r => r = .camReaders
  | _, _ => false

/-- The resources an action releases. -/
def Action.releases : Action → Resource → Bool
  | .runlockCam, r => r = .camReaders
  | .lookup _ _ _, r => r = .camReaders
  | .learn _ _, r => r = .camLock
  | .disconnect _, r => r = .camLock
  | .connect _ _, r => r = .connLock
  | .acceptReturn _, r => r = .connLock
  | .txReturn _, r => r = .writeLock ∨ r = .connLock
  | _, _ => false

/-- What is held after an action was taken by it, or was held before and not
released. -/
theorem Switch.locked_apply {sw sw' : Switch} {t t' : Goroutine} {a : Action} {r : Resource}
    (h : sw.apply t a = some sw') (hnodup : sw.camLock.readers.Nodup) (hheld : sw'.Locked t' r) :
    (t' = t ∧ a.takes r = true) ∨ (sw.Locked t' r ∧ (t' = t → a.releases r = false)) := by
  cases a with
  | lockWrite =>
    obtain ⟨l, hl, rfl⟩ := Option.map_eq_some_iff.mp h
    obtain ⟨-, hholder⟩ := Mutex.lock_eq_some hl
    cases r with
    | writeLock =>
      have : t' = t := by simpa [Switch.Locked, hholder, eq_comm] using hheld
      exact .inl ⟨this, rfl⟩
    | _ => exact .inr ⟨hheld, fun _ => rfl⟩
  | lockConn =>
    obtain ⟨l, hl, rfl⟩ := Option.map_eq_some_iff.mp h
    obtain ⟨-, hholder⟩ := Mutex.lock_eq_some hl
    cases r with
    | connLock =>
      have : t' = t := by simpa [Switch.Locked, hholder, eq_comm] using hheld
      exact .inl ⟨this, rfl⟩
    | _ => exact .inr ⟨hheld, fun _ => rfl⟩
  | lockCam =>
    obtain ⟨l, hl, rfl⟩ := Option.map_eq_some_iff.mp h
    obtain ⟨_, hreaders, rfl⟩ := RWMutex.lock_eq_some hl
    cases r with
    | camLock =>
      have : t' = t := by simpa [Switch.Locked, eq_comm] using hheld
      exact .inl ⟨this, rfl⟩
    | camReaders => simp [Switch.Locked] at hheld
    | _ => exact .inr ⟨hheld, fun _ => rfl⟩
  | rlockCam =>
    obtain ⟨l, hl, rfl⟩ := Option.map_eq_some_iff.mp h
    obtain ⟨hwriter, rfl⟩ := RWMutex.rlock_eq_some hl
    cases r with
    | camReaders =>
      obtain rfl | hmem := List.mem_cons.mp hheld
      · exact .inl ⟨rfl, rfl⟩
      · exact .inr ⟨hmem, fun _ => rfl⟩
    | _ => exact .inr ⟨hheld, fun _ => rfl⟩
  | runlockCam =>
    obtain rfl := Option.some.inj h
    cases r with
    | camReaders =>
      obtain ⟨hne, hmem⟩ := (List.Nodup.mem_erase_iff hnodup).mp hheld
      exact .inr ⟨hmem, fun heq => absurd heq hne⟩
    | _ => exact .inr ⟨hheld, fun _ => rfl⟩
  | lookup key conns hit =>
    obtain rfl := Option.some.inj h
    cases r with
    | camReaders =>
      obtain ⟨hne, hmem⟩ := (List.Nodup.mem_erase_iff hnodup).mp hheld
      exact .inr ⟨hmem, fun heq => absurd heq hne⟩
    | _ => exact .inr ⟨hheld, fun _ => rfl⟩
  | _ =>
    obtain rfl := Option.some.inj h
    cases r <;>
      first
        | exact .inr ⟨hheld, fun _ => rfl⟩
        | simp [Switch.Locked, Mutex.unlock, Mutex.unlocked, RWMutex.unlock] at hheld

theorem Switch.readers_apply {sw sw' : Switch} {t : Goroutine} {a : Action}
    (h : sw.apply t a = some sw') :
    sw'.camLock.readers = sw.camLock.readers ∨
      (a = .rlockCam ∧ sw'.camLock.readers = t :: sw.camLock.readers) ∨
      sw'.camLock.readers = sw.camLock.readers.erase t := by
  cases a with
  | lockWrite =>
    obtain ⟨l, _, rfl⟩ := Option.map_eq_some_iff.mp h
    exact .inl rfl
  | lockConn =>
    obtain ⟨l, _, rfl⟩ := Option.map_eq_some_iff.mp h
    exact .inl rfl
  | lockCam =>
    obtain ⟨l, hl, rfl⟩ := Option.map_eq_some_iff.mp h
    obtain ⟨_, hreaders, rfl⟩ := RWMutex.lock_eq_some hl
    exact .inl hreaders.symm
  | rlockCam =>
    obtain ⟨l, hl, rfl⟩ := Option.map_eq_some_iff.mp h
    obtain ⟨_, rfl⟩ := RWMutex.rlock_eq_some hl
    exact .inr (.inl ⟨rfl, rfl⟩)
  | runlockCam =>
    obtain rfl := Option.some.inj h
    exact .inr (.inr rfl)
  | lookup key conns hit =>
    obtain rfl := Option.some.inj h
    exact .inr (.inr rfl)
  | _ =>
    obtain rfl := Option.some.inj h
    exact .inl rfl

/-! ## What a place in the program holds -/

def TxPc.holds : TxPc → Resource → Bool
  | .writeLock, _ => false
  | .connLock, r => r = .writeLock
  | .lookup _ _, r => r ≠ .camLock
  | .disconnect _, r => r ≠ .camReaders
  | _, r => r = .writeLock ∨ r = .connLock

/-- What a goroutine holds, by its place in the program. -/
def Pc.holds : Pc → Resource → Bool
  | .connect _, r => r = .connLock
  | .exitCamLock _, r => r = .connLock
  | .exitUnlock _, r => r = .connLock
  | .exitDisconnect _, r => r = .connLock ∨ r = .camLock
  | .learn _, r => r = .camLock
  | .camRead, r => r = .camReaders
  | .tx _ pc, r => pc.holds r
  | _, _ => false

/-- Places change as the locks do. -/
theorem Moves.holds {s : State} {pc pc' : Pc} {a : Action} (h : Moves gateway s pc pc' a)
    (r : Resource) : pc'.holds r = (a.takes r || pc.holds r && !a.releases r) := by
  cases h with
  | @tx x _ _ _ moves =>
    cases moves with
    | unlock => cases x <;> cases r <;> rfl
    | _ => cases r <;> rfl
  | _ => cases r <;> rfl

/-- A lock operation is taken at the places that wait for it, and at no other. -/
theorem Moves.locks {s : State} {pc pc' : Pc} {a : Action} (h : Moves gateway s pc pc' a) :
    pc.locks = if a.wants.isSome then some a else none := by
  cases h with
  | tx moves => cases moves <;> rfl
  | _ => rfl

/-- At a lock operation nothing else can happen. -/
theorem next_of_locks (gateway : LinkAddress) {pc : Pc} {a : Action} (h : pc.locks = some a)
    (s : State) : ∃ pc', next gateway s pc .go = some (pc', a) := by
  cases pc with
  | tx x pc => cases pc <;> first | (cases h; exact ⟨_, rfl⟩) | cases h
  | _ => first | (cases h; exact ⟨_, rfl⟩) | cases h

/-- The order of the locks. -/
def Resource.level : Resource → Nat
  | .writeLock => 0
  | .connLock => 1
  | .camLock => 2
  | .camReaders => 3

/-- **A goroutine at a lock operation holds lower locks only.** -/
theorem Pc.order {pc : Pc} {r r' : Resource} (hwants : pc.locks.bind Action.wants = some r)
    (hholds : pc.holds r' = true) : r'.level < r.level := by
  cases pc with
  | tx x pc => cases pc <;> cases hwants <;> cases r' <;> first | decide | cases hholds
  | _ => cases hwants <;> cases r' <;> first | decide | cases hholds

/-! ## The invariant -/

/-- Nobody owns more than its place in the program shows, and no goroutine is
about to panic while it holds `camLock`. -/
structure Held (s : LockState) : Prop where
  locked : ∀ t r, s.base.sw.Locked t r → (s.base.pc t).holds r = true
  nodup : s.base.sw.camLock.readers.Nodup
  waiting : ∀ t, s.waitingWriter = some t →
    (s.base.pc t).locks = some .lockCam ∧ s.base.sw.camLock.writer = none
  readable : ∀ t r, s.base.pc t = .learnLock r ∨ s.base.pc t = .learn r →
    (sourceAddress r.buf).isOk = true

theorem held_init : Held LockState.init where
  locked := by
    intro t r h
    cases r <;> simp [LockState.init, State.init, Switch.new, Switch.Locked, Mutex.unlocked,
      RWMutex.unlocked] at h
  nodup := List.nodup_nil
  waiting := by
    intro t h
    cases h
  readable := by
    intro t r h
    obtain h | h := h <;> cases h

section Step

variable {s : LockState} {t : Goroutine} {pc : Pc} {a : Action} {sw : Switch}

theorem Held.locked_move (h : Held s) (hmoves : Moves gateway s.base (s.base.pc t) pc a)
    (happly : s.base.sw.apply t a = some sw) (t' : Goroutine) (r : Resource)
    (hheld : sw.Locked t' r) : (Function.update s.base.pc t pc t').holds r = true := by
  obtain ⟨rfl, htakes⟩ | ⟨hbefore, hkept⟩ := Switch.locked_apply happly h.nodup hheld
  · rw [Function.update_self, hmoves.holds, htakes]
    rfl
  · by_cases ht : t' = t
    · subst ht
      rw [Function.update_self, hmoves.holds, h.locked t' r hbefore, hkept rfl]
      simp
    · rw [Function.update_of_ne ht]
      exact h.locked t' r hbefore

theorem Held.nodup_move (h : Held s) (hmoves : Moves gateway s.base (s.base.pc t) pc a)
    (happly : s.base.sw.apply t a = some sw) : sw.camLock.readers.Nodup := by
  obtain heq | ⟨rfl, heq⟩ | heq := Switch.readers_apply happly
  · exact heq ▸ h.nodup
  · -- a goroutine at an `RLock` is not a reader yet
    have hnot : t ∉ s.base.sw.camLock.readers := by
      intro hmem
      have hwants : (s.base.pc t).locks.bind Action.wants = some .camLock := by
        rw [hmoves.locks]
        rfl
      exact absurd (Pc.order hwants (h.locked t .camReaders hmem)) (by decide)
    rw [heq]
    exact List.nodup_cons.mpr ⟨hnot, h.nodup⟩
  · rw [heq]
    exact h.nodup.erase t

/-- Only a frame that was just read is about to be learned from. -/
theorem Moves.learns {s : State} {pc pc' : Pc} {a : Action} {r : RxCall}
    (h : Moves gateway s pc pc' a) (hpc : pc' = .learn r) : pc = .learnLock r ∨ pc = .learn r := by
  cases h with
  | @tx x _ _ _ moves =>
    cases moves with
    | unlock => cases x <;> cases hpc
    | _ => cases hpc
  | learnLock => exact .inl (by cases hpc; rfl)
  | learnPanic => exact .inr (by cases hpc; rfl)
  | _ => cases hpc

theorem Moves.reads {s : State} {pc pc' : Pc} {a : Action} {r : RxCall}
    (h : Moves gateway s pc pc' a) (hpc : pc' = .learnLock r) :
    ∃ id impl, pc = .rxRead id impl := by
  cases h with
  | @tx x _ _ _ moves =>
    cases moves with
    | unlock => cases x <;> cases hpc
    | _ => cases hpc
  | recv => exact ⟨_, _, rfl⟩
  | _ => cases hpc

theorem next_learnLock {s : State} {pc : Pc} {ch : Choice} {a : Action} {r : RxCall}
    (h : next gateway s pc ch = some (.learnLock r, a)) : ch = .recv r.buf := by
  obtain ⟨id, impl, rfl⟩ := (next_moves h).reads rfl
  cases ch with
  | recv buf =>
    simp only [next, Option.ite_none_right_eq_some, Option.some.injEq, Prod.mk.injEq,
      Pc.learnLock.injEq] at h
    obtain ⟨_, rfl, _⟩ := h
    rfl
  | _ => simp [next] at h

theorem Held.readable_move (h : Held s) {e : Event}
    (hok : (LockEvent.run e).readable = true)
    (hnext : next gateway s.base (s.base.pc e.goroutine) e.choice = some (pc, a))
    (t : Goroutine) (r : RxCall)
    (hpc : Function.update s.base.pc e.goroutine pc t = .learnLock r ∨
      Function.update s.base.pc e.goroutine pc t = .learn r) :
    (sourceAddress r.buf).isOk = true := by
  by_cases ht : t = e.goroutine
  · rw [ht, Function.update_self] at hpc
    obtain rfl | hlearn := hpc
    · obtain ⟨g, ch⟩ := e
      have hch : ch = .recv r.buf := next_learnLock hnext
      subst hch
      exact hok
    · exact h.readable e.goroutine r ((next_moves hnext).learns hlearn)
  · rw [Function.update_of_ne ht] at hpc
    exact h.readable t r hpc

end Step

/-! ## A panic -/

theorem unwindSwitch_camLock (sw : Switch) (pc : Pc) :
    (unwindSwitch sw pc).camLock = sw.camLock := by
  cases pc <;> rfl

theorem Switch.locked_unwind {sw : Switch} {pc : Pc} {t : Goroutine} {r : Resource}
    (h : (unwindSwitch sw pc).Locked t r) : sw.Locked t r := by
  cases pc with
  | tx x pc =>
    cases r with
    | writeLock => cases h
    | connLock => cases h
    | _ => exact h
  | _ => exact h

/-- The deferred calls release what a panicking goroutine holds, unless it was
learning an address. -/
theorem Moves.released {s : State} {pc pc' : Pc} {p : Panic}
    (h : Moves gateway s pc pc' (.panic p))
    (hlearn : ∀ r, pc = .learn r → (sourceAddress r.buf).isOk = true) {sw : Switch}
    {t : Goroutine} {r : Resource} (hholds : pc.holds r = true) :
    ¬ (unwindSwitch sw pc).Locked t r := by
  intro hlocked
  cases h with
  | learnPanic source =>
    have hok := hlearn _ rfl
    rw [source] at hok
    cases hok
  | forwardPanic => cases hholds
  | handUpPanic => cases hholds
  | tx moves =>
    have htx : r = .writeLock ∨ r = .connLock := by
      cases moves <;> simpa [Pc.holds, TxPc.holds] using hholds
    obtain rfl | rfl := htx
    · cases hlocked
    · cases hlocked

theorem unwindPc_ne (pc : Pc) (r : RxCall) :
    unwindPc pc ≠ .learnLock r ∧ unwindPc pc ≠ .learn r := by
  unfold unwindPc
  split <;> simp

theorem Held.unwind {s : LockState} (h : Held s) {t : Goroutine} {pc : Pc} {p : Panic}
    (hmoves : Moves gateway s.base (s.base.pc t) pc (.panic p)) : Held (s.unwind t p) where
  locked := by
    intro t' r hheld
    have hbefore := Switch.locked_unwind hheld
    by_cases ht : t' = t
    · subst ht
      have hlearn : ∀ r, s.base.pc t' = .learn r → (sourceAddress r.buf).isOk = true :=
        fun r hr => h.readable t' r (.inr hr)
      exact absurd hheld (hmoves.released hlearn (h.locked t' r hbefore))
    · show (Function.update s.base.pc t _ t').holds r = true
      rw [Function.update_of_ne ht]
      exact h.locked t' r hbefore
  nodup := by
    show (unwindSwitch s.base.sw (s.base.pc t)).camLock.readers.Nodup
    rw [unwindSwitch_camLock]
    exact h.nodup
  waiting := by
    intro t' ht'
    obtain ⟨hlocks, hfree⟩ := h.waiting t' ht'
    have hne : t' ≠ t := by
      intro heq
      rw [heq, hmoves.locks] at hlocks
      cases hlocks
    refine ⟨?_, ?_⟩
    · show (Function.update s.base.pc t _ t').locks = _
      rw [Function.update_of_ne hne]
      exact hlocks
    · show (unwindSwitch s.base.sw (s.base.pc t)).camLock.writer = none
      rw [unwindSwitch_camLock]
      exact hfree
  readable := by
    intro t' r hpc
    by_cases ht : t' = t
    · have hself : (s.unwind t p).base.pc t' = unwindPc (s.base.pc t) := by
        rw [ht]
        exact Function.update_self ..
      rw [hself] at hpc
      obtain hpc | hpc := hpc
      · exact absurd hpc (unwindPc_ne _ r).1
      · exact absurd hpc (unwindPc_ne _ r).2
    · have hother : (s.unwind t p).base.pc t' = s.base.pc t' := Function.update_of_ne ht ..
      rw [hother] at hpc
      exact h.readable t' r hpc

/-! ## Whole runs -/

theorem Action.takes_camLock {a : Action} (h : a.takes .camLock = true) : a = .lockCam := by
  cases a <;> first | rfl | cases h

theorem Held.step {s s' : LockState} {e : LockEvent} (h : Held s) (hok : ReadableSource s e)
    (hs : LockSteps gateway s e s') : Held s' := by
  cases hs with
  | announce row free alone =>
    refine ⟨h.locked, h.nodup, ?_, h.readable⟩
    intro t ht
    obtain rfl := Option.some.inj ht
    exact ⟨(next_moves row).locks, free⟩
  | acquire row announced applies =>
    have hmoves := next_moves row
    refine ⟨h.locked_move hmoves applies, h.nodup_move hmoves applies, ?_,
      h.readable_move hok row⟩
    intro t ht
    cases ht
  | @plain e pc a sw row notCam notPanic noWriter applies =>
    have hmoves := next_moves row
    refine ⟨h.locked_move hmoves applies, h.nodup_move hmoves applies, ?_,
      h.readable_move hok row⟩
    intro t ht
    obtain ⟨hlocks, hfree⟩ := h.waiting t ht
    -- the announced writer is at its lock operation, so it is not the one that moves
    have hne : t ≠ e.goroutine := by
      intro heq
      rw [heq, hmoves.locks] at hlocks
      split at hlocks
      · exact notCam (Option.some.inj hlocks)
      · cases hlocks
    refine ⟨?_, ?_⟩
    · show (Function.update s.base.pc e.goroutine pc t).locks = _
      rw [Function.update_of_ne hne]
      exact hlocks
    · cases hwriter : sw.camLock.writer with
      | none => exact hwriter
      | some t' =>
        have hlocked : sw.Locked t' .camLock := hwriter
        obtain ⟨_, htakes⟩ | ⟨hbefore, _⟩ := Switch.locked_apply applies h.nodup hlocked
        · exact absurd (Action.takes_camLock htakes) notCam
        · rw [Switch.Locked, hfree] at hbefore
          cases hbefore
  | panic row => exact h.unwind (next_moves row)
  | recovered => exact ⟨h.locked, h.nodup, h.waiting, h.readable⟩
  | exit => exact ⟨h.locked, h.nodup, h.waiting, h.readable⟩

theorem held {s : LockState} (hrun : ReadableRun gateway s) : Held s := by
  induction hrun with
  | refl => exact held_init
  | step e run meets next ih => exact ih.step meets (lockStep_steps next)

/-- A goroutine wants what is above all it owns. -/
theorem Held.order {s : LockState} (h : Held s) (t : Goroutine) (r r' : Resource)
    (hwants : s.wants t = some r) (howns : s.Owns t r') : r'.level < r.level := by
  rw [LockState.wants] at hwants
  split at hwants
  · rename_i hwaiting
    obtain rfl := Option.some.inj hwants
    have hcam : (s.base.pc t).locks.bind Action.wants = some .camLock := by
      rw [(h.waiting t hwaiting).1]
      rfl
    obtain hlocked | ⟨rfl, _⟩ := howns
    · have := Pc.order hcam (h.locked t r' hlocked)
      simp only [Resource.level] at this ⊢
      omega
    · decide
  · obtain hlocked | ⟨_, hwaiting⟩ := howns
    · exact Pc.order hwants (h.locked t r' hlocked)
    · contradiction

/-! ## The switch without the waiting writer -/

theorem State.panicked_eq_none {s : State} (h : ∀ p, .panic p ∉ s.log) : s.panicked = none := by
  unfold State.panicked
  split
  · rename_i p hlast
    exact absurd (List.mem_of_getLast? hlast) (h p)
  · rfl

/-- Up to a panic, a run of this system is a run of the switch. -/
theorem reachable_of_lockReachable {s : LockState} (hreach : LockReachable gateway s)
    (hno : ∀ p, .panic p ∉ s.base.log) : Reachable gateway s.base := by
  induction hreach with
  | refl => exact Run.refl
  | @step s' s'' e run meets next ih =>
    have hmove : ∀ {e : Event} {pc : Pc} {a : Action} {sw : Switch},
        Tap.next gateway s'.base (s'.base.pc e.goroutine) e.choice = some (pc, a) →
        s'.base.sw.apply e.goroutine a = some sw →
        (∀ p, .panic p ∉ s'.base.log ++ [a]) →
        Reachable gateway (s'.move e.goroutine pc a sw).base := by
      intro e pc a sw row applies hlog
      have hlog' : ∀ p, .panic p ∉ s'.base.log :=
        fun p hp => hlog p (List.mem_append_left _ hp)
      refine Run.step e (ih hlog') trivial ?_
      simp only [Tap.step, State.panicked_eq_none hlog', row, applies, Option.map_some]
      rfl
    cases lockStep_steps next with
    | announce => exact ih hno
    | acquire row _ applies => exact hmove row applies hno
    | plain row _ _ _ applies => exact hmove row applies hno
    | panic => exact absurd (List.mem_append_right _ (List.mem_singleton.mpr rfl)) (hno _)
    | recovered => exact ih hno
    | exit => exact ih hno

/-- Every run of the switch up to a panic is one of this system, in which each
writer announces itself right before it gets the lock. -/
theorem lockReachable_of_reachable {s : State} (hreach : Reachable gateway s)
    (hno : s.panicked = none) :
    LockReachable gateway
      { base := s, waitingWriter := none, panicking := fun _ => false, exited := false } := by
  induction hreach with
  | refl => exact Run.refl
  | @step s' s'' e run meets next ih =>
    unfold Tap.step at next
    split at next
    · rename_i pc a hpanicked hnext
      obtain ⟨sw, applies, rfl⟩ := Option.map_eq_some_iff.mp next
      have hrun := ih hpanicked
      cases a with
      | panic p => simp [State.panicked] at hno
      | lockCam =>
        obtain ⟨l, hl, rfl⟩ := Option.map_eq_some_iff.mp applies
        obtain ⟨hwriter, _, _⟩ := RWMutex.lock_eq_some hl
        -- the writer announces itself, then there is no reader to wait for
        have hannounced : LockReachable gateway
            { base := s', waitingWriter := some e.goroutine, panicking := fun _ => false,
              exited := false } := by
          refine Run.step (.run e) hrun trivial ((lockStep_eq rfl rfl hnext).trans ?_)
          simp [LockState.act, hwriter]
        refine Run.step (.run e) hannounced trivial ((lockStep_eq rfl rfl hnext).trans ?_)
        simp [LockState.act, applies, LockState.move]
      | _ =>
        refine Run.step (.run e) hrun trivial ((lockStep_eq rfl rfl hnext).trans ?_)
        simp [LockState.act, applies, LockState.move]
    · cases next

/-! ## Waiting is being blocked -/

theorem Pc.isIdle_of_locks {pc : Pc} {a : Action} (h : pc.locks = some a) : pc.isIdle = false := by
  cases pc <;> first | rfl | cases h

theorem LockState.locks_of_wants {s : LockState} (h : Held s) {t : Goroutine} {r : Resource}
    (hwants : s.wants t = some r) : ∃ a, (s.base.pc t).locks = some a := by
  rw [LockState.wants] at hwants
  split at hwants
  · exact ⟨.lockCam, (h.waiting t ‹_›).1⟩
  · obtain ⟨a, ha, _⟩ := Option.bind_eq_some_iff.mp hwants
    exact ⟨a, ha⟩

/-- A lock operation whose goroutine waits for nobody goes through. -/
theorem Held.act_of_free {s : LockState} (h : Held s) {t : Goroutine} {a : Action}
    (hlocks : (s.base.pc t).locks = some a) (hwants : a.wants.isSome)
    (hfree : ∀ t', ¬ s.Waits t t') (pc : Pc) : (s.act t pc a).isSome := by
  by_cases hwaiting : s.waitingWriter = some t
  · -- announced: the readers are gone
    have hreader : ∀ t', t' ∉ s.base.sw.camLock.readers := by
      intro t' hmem
      exact hfree t' ⟨.camReaders, by rw [LockState.wants, if_pos hwaiting], .inl hmem⟩
    obtain ⟨hcam, hwriter⟩ := h.waiting t hwaiting
    obtain rfl : a = .lockCam := Option.some.inj (hlocks.symm.trans hcam)
    have hreaders := List.eq_nil_iff_forall_not_mem.mpr hreader
    simp [LockState.act, hwaiting, Switch.apply, RWMutex.lock, hwriter, hreaders]
  · have howner : ∀ r, a.wants = some r → ∀ t', ¬ s.Owns t' r := by
      intro r hr t' howns
      refine hfree t' ⟨r, ?_, howns⟩
      rw [LockState.wants, if_neg hwaiting, hlocks]
      exact hr
    have hcam : a.wants = some .camLock →
        s.waitingWriter = none ∧ s.base.sw.camLock.writer = none := by
      intro hr
      refine ⟨?_, ?_⟩
      · exact Option.eq_none_iff_forall_ne_some.mpr
          (fun t' ht' => howner _ hr t' (.inr ⟨rfl, ht'⟩))
      · exact Option.eq_none_iff_forall_ne_some.mpr (fun t' ht' => howner _ hr t' (.inl ht'))
    cases a with
    | lockWrite =>
      have hholder : s.base.sw.writeLock.holder = none :=
        Option.eq_none_iff_forall_ne_some.mpr (fun t' ht' => howner _ rfl t' (.inl ht'))
      simp [LockState.act, Switch.apply, Mutex.lock, hholder]
    | lockConn =>
      have hholder : s.base.sw.connLock.holder = none :=
        Option.eq_none_iff_forall_ne_some.mpr (fun t' ht' => howner _ rfl t' (.inl ht'))
      simp [LockState.act, Switch.apply, Mutex.lock, hholder]
    | lockCam =>
      obtain ⟨hnone, hwriter⟩ := hcam rfl
      simp [LockState.act, hnone, hwriter]
    | rlockCam =>
      obtain ⟨hnone, hwriter⟩ := hcam rfl
      simp [LockState.act, Switch.apply, RWMutex.rlock, hnone, hwriter]
    | _ => cases hwants

/-- A goroutine at a lock operation can go on, or waits for somebody. -/
theorem Held.lockStep_of_free {s : LockState} (h : Held s) (hexited : s.exited = false)
    {t : Goroutine} {r : Resource} (hwants : s.wants t = some r)
    (hfree : ∀ t', ¬ s.Waits t t') : (lockStep gateway s (.run ⟨t, .go⟩)).isSome := by
  obtain ⟨a, hlocks⟩ := LockState.locks_of_wants h hwants
  obtain ⟨pc, hnext⟩ := next_of_locks gateway hlocks s.base
  have hunwound : s.unwound t = false := by
    rw [LockState.unwound, Pc.isIdle_of_locks hlocks, Bool.and_false]
  have hwants' : a.wants.isSome := by
    have := (next_moves hnext).locks
    rw [hlocks] at this
    split at this
    · assumption
    · cases this
  rw [lockStep_eq hexited hunwound hnext]
  exact h.act_of_free hlocks hwants' hfree pc

/-- **Locks of the switch are never waited for in a circle** when no frame is
too short for its source address: whatever panics else, with any number of
goroutines in any interleaving, no set of goroutines waits for each other. Whoever
is blocked waits in the end for a goroutine that is at no lock operation, or whose
lock operation goes through now. -/
theorem no_deadlock {s : LockState} (hrun : ReadableRun gateway s) :
    ¬ s.Deadlock ∧
      (s.exited = false → ∀ t, ∃ t', Relation.ReflTransGen s.Waits t t' ∧
        (s.wants t' = none ∨ (lockStep gateway s (.run ⟨t', .go⟩)).isSome)) := by
  have hheld := held hrun
  have hnone : ¬ s.Deadlock :=
    Lts.not_deadlock Resource.level 3 (fun r => by cases r <;> decide) hheld.order
  refine ⟨hnone, ?_⟩
  intro hexited t
  obtain ⟨t', hchain, hfree⟩ := Lts.exists_free hnone t
  refine ⟨t', hchain, ?_⟩
  cases hwants : s.wants t' with
  | none => exact .inl rfl
  | some r => exact .inr (hheld.lockStep_of_free hexited hwants hfree)

/-- An ARP request, as far as the switch reads it. -/
def arpRequest : List UInt8 :=
  ethernetBroadcastAddress ++ tapMacAddress ++ [0x08, 0x06]

/-- A reader holds `camLock`, a writer has announced itself and a second reader
comes: the readers wait for the writer, the writer for the first reader. -/
theorem no_deadlock_announced :
    ∃ s, ReadableRun gatewayMacAddress s ∧ s.Waits 2 0 ∧ s.Waits 0 1 ∧ ¬ s.Deadlock := by
  have hexec : ∃ s, ReadableRun gatewayMacAddress s ∧ (s.wants 2 = some .camLock ∧
      s.waitingWriter = some 0 ∧ s.wants 0 = some .camReaders ∧
      1 ∈ s.base.sw.camLock.readers) :=
    run_of_exec (List.map LockEvent.run
      (accepts 0 .qemuProtocol ++ [receives 0 arpRequest, ⟨1, .cam⟩, ⟨1, .go⟩, ⟨0, .go⟩,
        ⟨2, .cam⟩])) LockState.init (by decide +kernel)
  obtain ⟨s, hrun, hreader, hwaiting, hwriter, hmem⟩ := hexec
  exact ⟨s, hrun, ⟨.camLock, hreader, .inr ⟨rfl, hwaiting⟩⟩, ⟨.camReaders, hwriter, .inl hmem⟩,
    (no_deadlock hrun).1⟩

/-- A frame of five bytes: `SourceAddress` panics while `rxBuf` holds `camLock`, the deferred
closure of `Accept` takes `connLock` and waits for `camLock`, and a packet of
the gateway waits for `connLock`. -/
theorem deadlock_after_short_frame :
    ∃ s, LockReachable gatewayMacAddress s ∧ s.exited = false ∧ s.Waits 0 0 ∧ s.Waits 1 0 ∧
      s.Deadlock := by
  have hexec : ∃ s, LockReachable gatewayMacAddress s ∧ (s.exited = false ∧
      s.wants 0 = some .camLock ∧ s.base.sw.camLock.writer = some 0 ∧
      s.wants 1 = some .connLock ∧ s.base.sw.connLock.holder = some 0) :=
    run_of_exec (List.map LockEvent.run
      (accepts 0 .qemuProtocol ++ [receives 0 [1, 2, 3, 4, 5]] ++ goes 0 4 ++
        [⟨1, .send arpRequest⟩, ⟨1, .go⟩])) LockState.init (by decide +kernel)
  obtain ⟨s, hreach, hexited, hwants, hwriter, hwants', hholder⟩ := hexec
  have hself : s.Waits 0 0 := ⟨.camLock, hwants, .inl hwriter⟩
  exact ⟨s, hreach, hexited, hself, ⟨.connLock, hwants', .inl hholder⟩, deadlock_of_self hself⟩

end GvisorTapVsock.Tap
