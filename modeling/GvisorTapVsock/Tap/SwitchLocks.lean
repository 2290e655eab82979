/-
GvisorTapVsock.Tap.SwitchLocks — the switch with Go's rules for a waiting
writer and for a panic.

`Tap.Switch` takes `camLock` in one step and stops at a panic. Here

  * `camLock.Lock()` takes two steps: the writer announces itself, which no
    other writer and no new reader gets past, and goes on when the readers are
    gone;
  * a goroutine that panics runs its deferred calls before anything else: the
    unlocks of `txPkt`, then the closure of `Accept`. Only then the panic is
    recovered from by a caller (as `net/http` does) or ends the process. The
    other goroutines run on until it does.

The rest is `next` and `Switch.apply`. What a goroutine wants and owns is read
off the state, and with it who waits for whom.
-/
import GvisorTapVsock.Lts.LockOrder
import GvisorTapVsock.Tap.SwitchMoves

namespace GvisorTapVsock.Tap

open GvisorTapVsock.Go GvisorTapVsock.Lts

/-! ## States and steps -/

/-- A state of the switch, seen with its waiting writer and its panics. -/
structure LockState where
  base : State
  /-- inside `camLock.Lock()`, announced, with readers still there -/
  waitingWriter : Option Goroutine
  /-- panicking, and not recovered -/
  panicking : Goroutine → Bool
  /-- the process is gone -/
  exited : Bool

inductive LockEvent where
  | run (e : Event)
  /-- A caller recovers from the panic of a goroutine. -/
  | recovered (t : Goroutine)
  /-- The panic of a goroutine ends the process. -/
  | exit (t : Goroutine)

/-- The deferred unlocks of `txPkt`. -/
def unwindSwitch (sw : Switch) : Pc → Switch
  | .tx _ _ => { sw with connLock := sw.connLock.unlock, writeLock := sw.writeLock.unlock }
  | _ => sw

/-- The deferred closure of `Accept`, if the goroutine runs inside `Accept`. -/
def unwindPc (pc : Pc) : Pc :=
  match pc.rx? with
  | some r => .exitConnLock r.id
  | none => .idle

def Pc.isIdle : Pc → Bool
  | .idle => true
  | _ => false

namespace LockState

def init : LockState :=
  { base := State.init, waitingWriter := none, panicking := fun _ => false, exited := false }

/-- All deferred calls of a panicking goroutine have run. -/
def unwound (s : LockState) (t : Goroutine) : Bool := s.panicking t && (s.base.pc t).isIdle

/-- A step of the switch itself. -/
def move (s : LockState) (t : Goroutine) (pc : Pc) (a : Action) (sw : Switch) : LockState :=
  { s with base := ⟨sw, Function.update s.base.pc t pc, s.base.log ++ [a]⟩ }

/-- A panic of goroutine `t`. -/
def unwind (s : LockState) (t : Goroutine) (p : Panic) : LockState :=
  { s.move t (unwindPc (s.base.pc t)) (.panic p) (unwindSwitch s.base.sw (s.base.pc t)) with
    panicking := Function.update s.panicking t true }

/-- The effect of an action with which goroutine `t` goes to `pc`. -/
def act (s : LockState) (t : Goroutine) (pc : Pc) : Action → Option LockState
  | .panic p => some (s.unwind t p)
  | .lockCam =>
      match s.waitingWriter with
      | none =>
          if s.base.sw.camLock.writer = none then some { s with waitingWriter := some t } else none
      | some t' =>
          if t' = t then
            (s.base.sw.apply t .lockCam).map
              (fun sw => { s.move t pc .lockCam sw with waitingWriter := none })
          else none
  | .rlockCam =>
      -- a waiting writer blocks new readers
      if s.waitingWriter = none then (s.base.sw.apply t .rlockCam).map (s.move t pc .rlockCam)
      else none
  | a => (s.base.sw.apply t a).map (s.move t pc a)

end LockState

/-- The step of the system. -/
def lockStep (gateway : LinkAddress) (s : LockState) : LockEvent → Option LockState
  | .run e =>
      if s.exited || s.unwound e.goroutine then none
      else
        match next gateway s.base (s.base.pc e.goroutine) e.choice with
        | none => none
        | some (pc, a) => s.act e.goroutine pc a
  | .recovered t =>
      if !s.exited && s.unwound t then
        some { s with panicking := Function.update s.panicking t false }
      else none
  | .exit t => if !s.exited && s.unwound t then some { s with exited := true } else none

/-! ## Who waits for whom -/

/-- What goroutines own: the three locks, where a writer that has announced
itself owns `camLock` already, and the read side of `camLock`. -/
inductive Resource where
  | writeLock
  | connLock
  | camLock
  | camReaders
  deriving DecidableEq

/-- The resource a lock operation has to wait for. -/
def Action.wants : Action → Option Resource
  | .lockWrite => some .writeLock
  | .lockConn => some .connLock
  | .lockCam | .rlockCam => some .camLock
  | _ => none

/-- The lock operation of `txPkt` a goroutine is at. -/
def TxPc.locks : TxPc → Option Action
  | .writeLock => some .lockWrite
  | .connLock => some .lockConn
  | .camRLock _ _ => some .rlockCam
  | .camLock _ => some .lockCam
  | _ => none

/-- The lock operation a goroutine is at. -/
def Pc.locks : Pc → Option Action
  | .connectLock _ | .exitConnLock _ => some .lockConn
  | .learnLock _ | .exitCamLock _ => some .lockCam
  | .camRLock => some .rlockCam
  | .tx _ pc => pc.locks
  | _ => none

/-- A goroutine holds a lock. -/
def Switch.Locked (sw : Switch) (t : Goroutine) : Resource → Prop
  | .writeLock => sw.writeLock.holder = some t
  | .connLock => sw.connLock.holder = some t
  | .camLock => sw.camLock.writer = some t
  | .camReaders => t ∈ sw.camLock.readers

namespace LockState

/-- What a goroutine wants; an announced writer wants the readers gone. -/
def wants (s : LockState) (t : Goroutine) : Option Resource :=
  if s.waitingWriter = some t then some .camReaders
  else (s.base.pc t).locks.bind Action.wants

/-- What a goroutine owns. -/
def Owns (s : LockState) (t : Goroutine) (r : Resource) : Prop :=
  s.base.sw.Locked t r ∨ (r = .camLock ∧ s.waitingWriter = some t)

/-- Goroutine `t` cannot go on before `t'` has. -/
abbrev Waits (s : LockState) (t t' : Goroutine) : Prop := Lts.Waits s.wants s.Owns t t'

/-- Goroutines that wait for each other over the three locks. -/
abbrev Deadlock (s : LockState) : Prop := Lts.Deadlock s.wants s.Owns

end LockState

/-- A frame that arrives has a source address that can be read. -/
def LockEvent.readable : LockEvent → Bool
  | .run ⟨_, .recv buf⟩ => (sourceAddress buf).isOk
  | _ => true

/-- The condition on steps that no frame is too short for its source address. -/
def ReadableSource (_ : LockState) (e : LockEvent) : Prop := e.readable = true

instance (s : LockState) (e : LockEvent) : Decidable (ReadableSource s e) :=
  inferInstanceAs (Decidable (e.readable = true))

/-- Every state of every run. -/
abbrev LockReachable (gateway : LinkAddress) (s : LockState) : Prop :=
  Reach (lockStep gateway) LockState.init s

/-- Every state of every run in which no frame is too short. -/
abbrev ReadableRun (gateway : LinkAddress) (s : LockState) : Prop :=
  Run (lockStep gateway) ReadableSource LockState.init s

end GvisorTapVsock.Tap
