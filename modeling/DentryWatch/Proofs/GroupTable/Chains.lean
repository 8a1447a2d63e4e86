import Mathlib.Data.List.Basic
import Mathlib.Data.Nat.Find
import Mathlib.Logic.Function.Iterate
import DentryWatch.GroupTable
import DentryWatch.Proofs.Sizing

/-!
# Probe chains of the group table

A search walks the chain of a group: its home slot and the slots after it. It
stops at the first slot that holds the group or is free. In a sound table every
keyed slot is live and linked to the home slot of its key by keyed slots, at
least half of the slots are free, and so counting and looking up a group stop
at the same slot.
-/

namespace DentryWatch.GroupTable

/-- The slot that many steps after the home slot of a group. -/
def chain (table : GroupTable) (group : GroupId) (steps : Nat) : UInt64 :=
  table.next^[steps] (table.home group)

/-- The slots at which the first steps of a search look. -/
def trail (table : GroupTable) (group : GroupId) (steps : Nat) : List UInt64 :=
  (List.range steps).map (table.chain group)

/-- A search for a group walks past that many slots of its chain. -/
def Passes (table : GroupTable) (group : GroupId) (steps : Nat) : Prop :=
  ∀ s < steps, table.key (table.chain group s) ≠ group ∧ table.key (table.chain group s) ≠ 0

/-- A search for a group ends after that many steps. -/
def Stops (table : GroupTable) (group : GroupId) (steps : Nat) : Prop :=
  table.Passes group steps ∧
    (table.key (table.chain group steps) = group ∨ table.key (table.chain group steps) = 0)

theorem passes_or_stops (table : GroupTable) (group : GroupId) (bound : Nat) :
    table.Passes group bound ∨ ∃ steps < bound, table.Stops group steps := by
  by_cases hstop : ∃ steps < bound,
      table.key (table.chain group steps) = group ∨ table.key (table.chain group steps) = 0
  · right
    have hmin := Nat.find_spec hstop
    refine ⟨Nat.find hstop, hmin.1, fun s hs => ?_, hmin.2⟩
    have hnot := Nat.find_min hstop hs
    have hbound : s < bound := Nat.lt_trans hs hmin.1
    exact ⟨fun h => hnot ⟨hbound, .inl h⟩, fun h => hnot ⟨hbound, .inr h⟩⟩
  · left
    intro s hs
    exact ⟨fun h => hstop ⟨s, hs, .inl h⟩, fun h => hstop ⟨s, hs, .inr h⟩⟩

theorem chain_succ (table : GroupTable) (group : GroupId) (steps : Nat) :
    table.chain group (steps + 1) = table.next (table.chain group steps) :=
  Function.iterate_succ_apply' table.next steps (table.home group)

theorem trail_succ (table : GroupTable) (group : GroupId) (steps : Nat) :
    table.trail group (steps + 1) = table.trail group steps ++ [table.chain group steps] := by
  rw [trail, List.range_succ, List.map_append]
  rfl

@[simp] theorem length_trail (table : GroupTable) (group : GroupId) (steps : Nat) :
    (table.trail group steps).length = steps := by
  simp [trail]

/-! ## What the two searches answer -/

/-- A walk that goes on to the next slot from each that it passes has passed a trail. -/
theorem walk_of_passes {β : Type} {table : GroupTable} {group : GroupId} {walk : Nat → UInt64 → β}
    (pass : UInt64 → β → β)
    (hwalk : ∀ steps index, table.key index ≠ group → table.key index ≠ 0 →
      walk (steps + 1) index = pass index (walk steps (table.next index)))
    {steps : Nat} (hpass : table.Passes group steps) (more : Nat) :
    walk (steps + more) (table.home group) =
      (table.trail group steps).foldr pass (walk more (table.chain group steps)) := by
  induction steps generalizing more with
  | zero =>
      rw [Nat.zero_add, chain, Function.iterate_zero, id]
      rfl
  | succ steps ih =>
      obtain ⟨hgroup, hzero⟩ := hpass steps (Nat.lt_succ_self steps)
      have hbefore : table.Passes group steps := fun s hs => hpass s (Nat.lt_succ_of_lt hs)
      rw [Nat.add_right_comm, Nat.add_assoc, ih hbefore, hwalk _ _ hgroup hzero, chain_succ,
        trail_succ, List.foldr_concat]

/-- The walk answers where the group is or a slot is free, and goes on from any other slot. -/
def Probes {β : Type} (table : GroupTable) (group : GroupId) (walk : Nat → UInt64 → β)
    (taken free : UInt64 → β) : Prop :=
  ∀ steps index, walk (steps + 1) index =
    if table.key index = group then taken index
    else if table.key index = 0 then free index
    else walk steps (table.next index)

section Probing

variable {table : GroupTable} {group : GroupId} {steps bound : Nat}

theorem Probes.of_passes {β : Type} {walk : Nat → UInt64 → β} {taken free : UInt64 → β}
    (h : table.Probes group walk taken free) (hpass : table.Passes group steps) (more : Nat) :
    walk (steps + more) (table.home group) = walk more (table.chain group steps) := by
  have hwalk : ∀ steps index, table.key index ≠ group → table.key index ≠ 0 →
      walk (steps + 1) index = walk steps (table.next index) := by
    intro steps index hgroup hzero
    rw [h, if_neg hgroup, if_neg hzero]
  exact (walk_of_passes (fun _ rest => rest) hwalk hpass more).trans (List.foldr_fixed _)

theorem Probes.of_stops {β : Type} {walk : Nat → UInt64 → β} {taken free : UInt64 → β}
    (h : table.Probes group walk taken free) (hbound : steps < bound)
    (hstop : table.Stops group steps) :
    walk bound (table.home group) =
      if table.key (table.chain group steps) = group then taken (table.chain group steps)
      else free (table.chain group steps) := by
  obtain ⟨more, rfl⟩ : ∃ more, bound = steps + (more + 1) := ⟨bound - steps - 1, by omega⟩
  rw [h.of_passes hstop.1, h]
  by_cases hgroup : table.key (table.chain group steps) = group
  · rw [if_pos hgroup, if_pos hgroup]
  · rw [if_neg hgroup, if_neg hgroup, if_pos (hstop.2.resolve_left hgroup)]

theorem probes_rowFrom (table : GroupTable) (group : GroupId) :
    table.Probes group (table.rowFrom group)
      (fun index => (table.accept (.slot index), table))
      (fun index =>
        if table.isFull then (.error .tableExhausted, table)
        else (table.modifyRow (.slot index) ({ · with group })).settle (.slot index)) :=
  fun _ _ => rfl

theorem probes_findFrom (table : GroupTable) (group : GroupId) :
    table.Probes group (table.findFrom group) (fun index => some (.slot index)) fun _ => none :=
  fun _ _ => rfl

theorem rowFrom_of_stops (hbound : steps < bound) (hstop : table.Stops group steps) :
    table.rowFrom group bound (table.home group) =
      let place := RowPlace.slot (table.chain group steps)
      if table.key (table.chain group steps) = group then (table.accept place, table)
      else if table.isFull then (.error .tableExhausted, table)
      else (table.modifyRow place ({ · with group })).settle place :=
  (table.probes_rowFrom group).of_stops hbound hstop

theorem findFrom_of_stops (hbound : steps < bound) (hstop : table.Stops group steps) :
    table.findFrom group bound (table.home group) =
      if table.key (table.chain group steps) = group then some (.slot (table.chain group steps))
      else none :=
  (table.probes_findFrom group).of_stops hbound hstop

theorem rowFrom_exhausted (hpass : table.Passes group bound) :
    table.rowFrom group bound (table.home group) = (.error .tableExhausted, table) := by
  have h := (table.probes_rowFrom group).of_passes hpass 0
  rwa [Nat.add_zero, rowFrom] at h

end Probing

end DentryWatch.GroupTable
