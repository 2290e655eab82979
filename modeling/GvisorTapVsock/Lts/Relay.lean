/-
GvisorTapVsock.Lts.Relay — a relay that holds one item at a time.

A relay takes an item, passes it on or drops it, and takes the next. What it
keeps is given by a test on items. `RelayStep` is what one step of the system
may do to the item at hand; `Relayed` is the invariant: of the items taken, all
but the one at hand have been dealt with, and those that pass the test, and no
others, have been passed on in order.
-/
import Mathlib.Data.List.Basic

namespace GvisorTapVsock.Lts

variable {α : Type} {keep : α → Bool}

/-- A step of a relay: the item at hand before, the item taken in the step, the
item at hand after, and what was passed on. -/
inductive RelayStep (keep : α → Bool) : Option α → Option α → Option α → List α → Prop where
  | idle (hand : Option α) : RelayStep keep hand none hand []
  | take (x : α) : RelayStep keep none (some x) (some x) []
  | send {x : α} (h : keep x = true) : RelayStep keep (some x) none none [x]
  | drop {x : α} (h : keep x = false) : RelayStep keep (some x) none none []
  /-- taken and dropped in one step -/
  | skip {x : α} (h : keep x = false) : RelayStep keep none (some x) none []

/-- The items taken are those dealt with and the one at hand; of the former
those that pass the test were passed on. -/
def Relayed (keep : α → Bool) (taken : List α) (hand : Option α) (sent : List α) : Prop :=
  ∃ done, taken = done ++ hand.toList ∧ sent = done.filter keep

theorem relayed_nil : Relayed keep [] none [] := ⟨[], rfl, rfl⟩

theorem Relayed.step {taken sent new : List α} {hand hand' item : Option α}
    (h : Relayed keep taken hand sent) (hstep : RelayStep keep hand item hand' new) :
    Relayed keep (taken ++ item.toList) hand' (sent ++ new) := by
  obtain ⟨done, rfl, rfl⟩ := h
  cases hstep with
  | idle => exact ⟨done, by simp, by simp⟩
  | take x => exact ⟨done, by simp, by simp⟩
  | @send x hx => exact ⟨done ++ [x], by simp, by simp [hx]⟩
  | @drop x hx => exact ⟨done ++ [x], by simp, by simp [hx]⟩
  | @skip x hx => exact ⟨done ++ [x], by simp, by simp [hx]⟩

end GvisorTapVsock.Lts
