/-
GvisorTapVsock.Lts.Bridge — a learning bridge as one sequential machine.

A bridge has ports, and a table of the port each address was last seen at. It
does one thing at a time: a port comes or goes, an address is learned, a frame
is transmitted as a whole.

  * `Bridge.targets` — where a frame is to go: a broadcast to every port but
    the one its source was seen at, another frame to the port its destination
    was seen at;
  * `Bridge.Transmits` — what a transmission may do: each target at most once,
    nothing after a write that failed, and if none did every target;
  * `Bridge.Allows` — every operation of a list is one the bridge may do where
    it stands.

A concurrent bridge has the writes of many frames in one log. `blocks` says
when such a log is that of one frame after the other: the keys of the frames
come before their writes, and no key comes between.
-/
import Mathlib.Data.List.Basic
import Mathlib.Data.List.Induction
import Mathlib.Data.List.Nodup
import Mathlib.Data.Set.Insert

namespace GvisorTapVsock.Lts

/-- What a frame says about its way. -/
inductive Dest (α : Type) where
  | broadcast (src : α)
  | unicast (dst : α)

structure Bridge (α π : Type) where
  ports : Set π
  /-- The port an address was last seen at. -/
  table : α → Option π

/-- An operation. The writes of a transmission are given with their results. -/
inductive BridgeOp (α π ρ φ : Type) where
  | attach (p : π)
  | detach (p : π)
  | learn (p : π) (a : α)
  | transmit (frame : φ) (dest : Dest α) (writes : List (π × ρ)) (returned : Bool)

/-- The writes of an operation, each with its frame. -/
def BridgeOp.sent {α π ρ φ : Type} : BridgeOp α π ρ φ → List (φ × π × ρ)
  | .transmit frame _ writes _ => writes.map fun w => (frame, w)
  | .attach _ | .detach _ | .learn _ _ => []

namespace Bridge

variable {α π ρ φ : Type} {b : Bridge α π}

def empty : Bridge α π := ⟨∅, fun _ => none⟩

/-- Where a frame is to go. -/
def targets (b : Bridge α π) : Dest α → Set π
  | .broadcast src => {p | p ∈ b.ports ∧ b.table src ≠ some p}
  | .unicast dst => {p | b.table dst = some p}

/-- A transmission, so far. -/
structure Transmits (failed : ρ → Bool) (b : Bridge α π) (dest : Dest α)
    (writes : List (π × ρ)) (returned : Bool) : Prop where
  once : (writes.map Prod.fst).Nodup
  target : ∀ w ∈ writes, w.1 ∈ b.targets dest
  stops : ∀ before w after, writes = before ++ w :: after → failed w.2 = true → after = []
  whole : returned = true → (∀ w ∈ writes, failed w.2 = false) →
    ∀ p ∈ b.targets dest, p ∈ writes.map Prod.fst

/-- What the bridge may do next. -/
def Legal (failed : ρ → Bool) (b : Bridge α π) : BridgeOp α π ρ φ → Prop
  | .attach p => p ∉ b.ports
  | .detach _ | .learn _ _ => True
  | .transmit _ dest writes returned => b.Transmits failed dest writes returned

variable [DecidableEq α] [DecidableEq π]

/-- The bridge after an operation. -/
def step (b : Bridge α π) : BridgeOp α π ρ φ → Bridge α π
  | .attach p => { b with ports := insert p b.ports }
  | .detach p =>
      { ports := b.ports \ {p}, table := fun a => (b.table a).filter fun q => decide (q ≠ p) }
  | .learn p a => { b with table := Function.update b.table a (some p) }
  | .transmit _ _ _ _ => b

/-- The bridge after some operations. -/
def after (b : Bridge α π) (ops : List (BridgeOp α π ρ φ)) : Bridge α π := ops.foldl step b

/-- Every operation is one the bridge may do where it stands. -/
def Allows (failed : ρ → Bool) (b : Bridge α π) (ops : List (BridgeOp α π ρ φ)) : Prop :=
  ∀ before op rest, ops = before ++ op :: rest → (b.after before).Legal failed op

@[simp] theorem after_nil : b.after ([] : List (BridgeOp α π ρ φ)) = b := rfl

theorem after_append (ops more : List (BridgeOp α π ρ φ)) :
    b.after (ops ++ more) = (b.after ops).after more :=
  List.foldl_append

end Bridge

/-! ## One frame after the other -/

section Blocks

variable {γ κ β : Type} [DecidableEq κ]

/-- One more item, under the key that was opened last. -/
theorem flatMap_filter_append {keys : List κ} {k : κ} (hk : k ∉ keys) (items : List (κ × β))
    (x : β) :
    ((keys ++ [k]).flatMap fun k' => (items ++ [(k, x)]).filter fun i => decide (i.1 = k')) =
      ((keys ++ [k]).flatMap fun k' => items.filter fun i => decide (i.1 = k')) ++ [(k, x)] := by
  have hkeys : (keys.flatMap fun k' => (items ++ [(k, x)]).filter fun i => decide (i.1 = k')) =
      keys.flatMap fun k' => items.filter fun i => decide (i.1 = k') := by
    refine List.flatMap_congr fun k' hk' => ?_
    have hne : k ≠ k' := fun heq => hk (heq ▸ hk')
    simp [hne]
  rw [List.flatMap_append, hkeys, List.flatMap_append]
  simp

/-- **Blocks.** If every item of a log carries the key that was opened last
before it, and no key is opened twice, then the items are those of the first
key, those of the second, and so on. -/
theorem blocks (opens : γ → Option κ) (item : γ → Option (κ × β)) (log : List γ)
    (hlast : ∀ before a rest k x, log = before ++ a :: rest → item a = some (k, x) →
      (before.filterMap opens).getLast? = some k)
    (hnodup : (log.filterMap opens).Nodup) :
    log.filterMap item =
      (log.filterMap opens).flatMap fun k =>
        (log.filterMap item).filter fun i => decide (i.1 = k) := by
  induction log using List.reverseRecOn with
  | nil => rfl
  | append_singleton log a ih =>
    have hopened : ∀ i ∈ (log ++ [a]).filterMap item, i.1 ∈ log.filterMap opens := by
      intro i hi
      obtain ⟨a', ha', hitem⟩ := List.mem_filterMap.mp hi
      obtain ⟨before, rest, hlog⟩ := List.append_of_mem ha'
      have hmem := List.mem_of_getLast? (hlast before a' rest i.1 i.2 hlog hitem)
      have hbefore : before <+: log := by
        have hcut : before <+: log ++ [a] := ⟨_, hlog.symm⟩
        refine List.prefix_of_prefix_length_le hcut (List.prefix_append _ _) ?_
        have hlen := congrArg List.length hlog
        simp only [List.length_append, List.length_cons, List.length_nil] at hlen
        omega
      exact (hbefore.filterMap opens).subset hmem
    rw [List.filterMap_append] at hnodup
    obtain ⟨hnodup, -, hnew⟩ := List.nodup_append.mp hnodup
    have ih := ih (fun before a' rest k x hlog => hlast before a' (rest ++ [a]) k x (by simp [hlog]))
      hnodup
    -- a key that has just been opened has no items
    have hnone : (([a].filterMap opens).flatMap fun k =>
        ((log ++ [a]).filterMap item).filter fun i => decide (i.1 = k)) = [] := by
      refine List.flatMap_eq_nil_iff.mpr fun k hk => List.filter_eq_nil_iff.mpr fun i hi => ?_
      simpa using hnew i.1 (hopened i hi) k hk
    rw [List.filterMap_append (f := opens), List.flatMap_append, hnone, List.append_nil]
    cases hitem : item a with
    | none => simpa [hitem] using ih
    | some i =>
      obtain ⟨k, x⟩ := i
      obtain ⟨keys, hkeys⟩ := List.getLast?_eq_some_iff.mp (hlast log a [] k x rfl hitem)
      rw [hkeys] at ih hnodup ⊢
      have hk : k ∉ keys := fun hmem =>
        (List.nodup_append.mp hnodup).2.2 k hmem k (List.mem_singleton_self k) rfl
      have hitems : (log ++ [a]).filterMap item = log.filterMap item ++ [(k, x)] := by
        simp [hitem]
      rw [hitems, flatMap_filter_append hk, ← ih]

end Blocks

end GvisorTapVsock.Lts
