import Mathlib.Data.Nat.Find
import DentryWatch.Lineage

/-!
# Chains of parents

From any node of any parent graph one can go up from parent to parent. The chain
ends with the first node that has no parent or is its own; in a cycle it never
ends. A walk is the new entry's name and the names at the beginning of the chain.
-/

namespace DentryWatch

namespace Lineage

variable {ν : Type} [DecidableEq ν]

/-- The parent of a node, unless the node is its own. -/
def above (lineage : Lineage ν) (node : ν) : Option ν :=
  (lineage.parent node).filter (· ≠ node)

/-- The node so many places up the chain from a start. -/
def ancestor (lineage : Lineage ν) (start : Option ν) : Nat → Option ν
  | 0 => start
  | steps + 1 => (lineage.ancestor start steps).bind lineage.above

/-- The nodes at the beginning of the chain, as long as there is room. -/
def ancestors (lineage : Lineage ν) (room : Nat) (start : Option ν) : List ν :=
  (List.range room).filterMap (lineage.ancestor start)

/-- The chain from a start has that many nodes. -/
def Chained (lineage : Lineage ν) (start : Option ν) (length : Nat) : Prop :=
  ∀ steps, (lineage.ancestor start steps).isSome ↔ steps < length

/-- The chain from a start never ends. -/
def Endless (lineage : Lineage ν) (start : Option ν) : Prop :=
  ∀ steps, (lineage.ancestor start steps).isSome

variable (lineage : Lineage ν)

theorem isTop_iff (node : ν) :
    lineage.isTop node = true ↔
      lineage.parent node = none ∨ lineage.parent node = some node := by
  unfold isTop
  cases lineage.parent node with
  | none => simp
  | some parent => simp

theorem above_of_isTop {node : ν} (h : lineage.isTop node = true) : lineage.above node = none := by
  rcases (lineage.isTop_iff node).1 h with hnone | hself
  · rw [above, hnone]
    rfl
  · rw [above, hself]
    simp

theorem above_of_not_isTop {node : ν} (h : ¬ lineage.isTop node = true) :
    lineage.above node = lineage.parent node := by
  rw [isTop_iff, not_or] at h
  unfold above
  cases hparent : lineage.parent node with
  | none => exact absurd hparent h.1
  | some parent =>
      have hother : parent ≠ node := by
        rintro rfl
        exact h.2 hparent
      rw [Option.filter_some, if_pos (decide_eq_true hother)]

/-! ## Going up -/

theorem ancestor_none (steps : Nat) : lineage.ancestor none steps = none := by
  induction steps with
  | zero => rfl
  | succ steps ih => rw [ancestor, ih, Option.bind_none]

/-- One place up first, and then the rest of the way. -/
theorem ancestor_succ (node : ν) (steps : Nat) :
    lineage.ancestor (some node) (steps + 1) = lineage.ancestor (lineage.above node) steps := by
  induction steps with
  | zero => rfl
  | succ steps ih => rw [ancestor, ih, ancestor]

theorem isSome_ancestor_of_le {start : Option ν} {steps more : Nat} (hle : steps ≤ more)
    (h : (lineage.ancestor start more).isSome) : (lineage.ancestor start steps).isSome := by
  induction more, hle using Nat.le_induction with
  | base => exact h
  | succ more hle ih =>
      apply ih
      rw [ancestor] at h
      exact Option.isSome_of_isSome_bind h

/-- A chain ends somewhere or goes on for ever. -/
theorem chained_or_endless (start : Option ν) :
    (∃ length, lineage.Chained start length) ∨ lineage.Endless start := by
  by_cases hends : ∃ steps, ¬ (lineage.ancestor start steps).isSome
  · refine .inl ⟨Nat.find hends, fun steps => ⟨fun hsome => ?_, fun hlt => ?_⟩⟩
    · by_contra hle
      exact Nat.find_spec hends (lineage.isSome_ancestor_of_le (Nat.not_lt.1 hle) hsome)
    · exact Decidable.not_not.1 (Nat.find_min hends hlt)
  · exact .inr fun steps => Decidable.not_not.1 fun hnone => hends ⟨steps, hnone⟩

/-! ## Climbing -/

/-- A climb collects the names at the beginning of the chain. -/
theorem getElem?_names_climb (room : Nat) (start : Option ν) (i : Nat) :
    (lineage.climb room start).names[i]? =
      if i < room then (lineage.ancestor start i).map lineage.name else none := by
  induction room generalizing start i with
  | zero => simp [climb]
  | succ room ih =>
      cases start with
      | none => simp [climb, ancestor_none]
      | some node =>
          rw [climb]
          split
          · next htop =>
              cases i with
              | zero => rfl
              | succ i =>
                  rw [ancestor_succ, lineage.above_of_isTop htop, ancestor_none]
                  simp
          · next htop =>
              cases i with
              | zero => rfl
              | succ i =>
                  rw [ancestor_succ, lineage.above_of_not_isTop htop]
                  simpa using ih (lineage.parent node) i

/-- A climb reaches the root if there is a top node at the beginning of the chain. -/
theorem rootReached_climb_iff (room : Nat) (start : Option ν) :
    (lineage.climb room start).rootReached = true ↔
      ∃ steps < room, ∃ top, lineage.ancestor start steps = some top ∧
        lineage.isTop top = true := by
  induction room generalizing start with
  | zero => simp [climb]
  | succ room ih =>
      cases start with
      | none => simp [climb, ancestor_none]
      | some node =>
          rw [climb]
          split
          · next htop => exact iff_of_true rfl ⟨0, Nat.succ_pos _, node, rfl, htop⟩
          · next htop =>
              refine (ih (lineage.parent node)).trans ?_
              constructor
              · rintro ⟨steps, hlt, top, hfind, hreached⟩
                refine ⟨steps + 1, Nat.succ_lt_succ hlt, top, ?_, hreached⟩
                rw [ancestor_succ, lineage.above_of_not_isTop htop, hfind]
              · rintro ⟨steps, hlt, top, hfind, hreached⟩
                cases steps with
                | zero =>
                    obtain rfl := Option.some.inj hfind
                    exact absurd hreached htop
                | succ steps =>
                    rw [ancestor_succ, lineage.above_of_not_isTop htop] at hfind
                    exact ⟨steps, Nat.lt_of_succ_lt_succ hlt, top, hfind, hreached⟩

theorem names_climb (room : Nat) (start : Option ν) :
    (lineage.climb room start).names = (lineage.ancestors room start).map lineage.name := by
  induction room generalizing start with
  | zero => rfl
  | succ room ih =>
      rw [ancestors, List.range_succ_eq_map, List.filterMap_cons, List.filterMap_map]
      cases start with
      | none => simp [climb, ancestor_none, Function.comp_def, ancestor]
      | some node =>
          have hnext : (lineage.ancestor (some node) ∘ Nat.succ) =
              lineage.ancestor (lineage.above node) :=
            funext fun steps => lineage.ancestor_succ node steps
          rw [hnext, climb]
          split
          · next htop => simp [lineage.above_of_isTop htop, ancestor_none, ancestor]
          · next htop =>
              rw [lineage.above_of_not_isTop htop]
              simp [ih, ancestors, ancestor]

theorem mem_ancestors_iff (room : Nat) (start : Option ν) (node : ν) :
    node ∈ lineage.ancestors room start ↔
      ∃ steps < room, lineage.ancestor start steps = some node := by
  simp [ancestors]

theorem lt_length_names_climb_iff (room : Nat) (start : Option ν) (i : Nat) :
    i < (lineage.climb room start).names.length ↔
      i < room ∧ (lineage.ancestor start i).isSome := by
  rw [← isSome_getElem? (lineage.climb room start).names i, getElem?_names_climb]
  split
  · next hlt => simp [hlt]
  · next hle => simp [hle]

theorem length_names_climb_eq {start : Option ν} {room count : Nat}
    (h : ∀ i, i < room ∧ (lineage.ancestor start i).isSome ↔ i < count) :
    (lineage.climb room start).names.length = count := by
  have hlt : ∀ i, i < (lineage.climb room start).names.length ↔ i < count :=
    fun i => (lineage.lt_length_names_climb_iff room start i).trans (h i)
  have hlength := hlt (lineage.climb room start).names.length
  have hcount := hlt count
  omega

theorem Chained.length_climb {lineage : Lineage ν} {start : Option ν} {length : Nat}
    (h : lineage.Chained start length) (room : Nat) :
    (lineage.climb room start).names.length = min room length := by
  apply length_names_climb_eq
  intro i
  rw [h i, Nat.lt_min]

theorem Endless.length_climb {lineage : Lineage ν} {start : Option ν}
    (h : lineage.Endless start) (room : Nat) :
    (lineage.climb room start).names.length = room :=
  lineage.length_names_climb_eq fun i => and_iff_left (h i)

theorem names_walk (self : Bytes) (start : Option ν) :
    (lineage.walk self start).names =
      self :: (lineage.ancestors (maxDepth - 1) start).map lineage.name :=
  congrArg (List.cons self) (lineage.names_climb _ start)

theorem rootReached_walk_iff (self : Bytes) (start : Option ν) :
    (lineage.walk self start).rootReached = true ↔
      ∃ top ∈ lineage.ancestors (maxDepth - 1) start,
        lineage.parent top = none ∨ lineage.parent top = some top := by
  refine (lineage.rootReached_climb_iff _ start).trans ?_
  simp only [mem_ancestors_iff, isTop_iff]
  constructor
  · rintro ⟨steps, hlt, top, hfind, htop⟩
    exact ⟨top, ⟨steps, hlt, hfind⟩, htop⟩
  · rintro ⟨top, ⟨steps, hlt, hfind⟩, htop⟩
    exact ⟨steps, hlt, top, hfind, htop⟩

end Lineage

/-! ## Slots -/

/--
The slots hold the names of a walk, each cut to what a slot can hold and followed by
zeros. The first slots are those of the walk itself, and the others are all zero.
-/
structure Walk.Fills (walk : Walk) (slots : Vector NameSlot maxDepth) : Prop where
  used : ∀ i (hi : i < maxDepth) name, walk.names[i]? = some name →
    slots[i].raw =
      name.take maxNameBytes ++ List.replicate (slotWidth - min name.length maxNameBytes) 0
  unused : ∀ i (hi : i < maxDepth), walk.names.length ≤ i →
    slots[i].raw = List.replicate slotWidth 0
  same : slots.toList.take walk.names.length = walk.slots

theorem Walk.writeInto_fills {walk : Walk} (h : walk.names.length ≤ maxDepth)
    (before : Vector NameSlot maxDepth) : walk.Fills (walk.writeInto before) := by
  have hslots : walk.slots.length = walk.names.length := by simp [Walk.slots]
  refine ⟨?_, ?_, ?_⟩
  · intro i hi name hname
    rw [getElem_writeInto, Walk.slots, List.getElem?_map, hname, Option.map_some, Option.getD_some,
      NameSlot.ofName, NameSlot.fill_raw, NameSlot.stored]
  · intro i hi hle
    rw [getElem_writeInto, List.getElem?_eq_none (by omega), Option.getD_none]
    rfl
  · apply List.ext_getElem
    · simp only [List.length_take, Vector.length_toList, hslots]
      omega
    · intro i hi hwalk
      have hdeep : i < maxDepth := by omega
      have hslot := walk.getElem_writeInto before i hdeep
      rw [List.getElem?_eq_getElem hwalk, Option.getD_some] at hslot
      simpa using hslot

/-! ## The headline -/

namespace Lineage

variable {ν : Type} [DecidableEq ν]

/--
On every parent graph a walk ends with the new entry's name and the names of the first
seven nodes of the chain, or of all if there are fewer. It has reached the root exactly
if one of these is a top node, which ends the chain. It leaves the same in the slots
whatever they held before.
-/
theorem walk_follows_chain (lineage : Lineage ν) (self : Bytes) (start : Option ν) :
    let walk := lineage.walk self start
    ((∃ length, lineage.Chained start length) ∨ lineage.Endless start) ∧
      (∀ length, lineage.Chained start length →
        walk.names.length = 1 + min (maxDepth - 1) length) ∧
      (lineage.Endless start → walk.names.length = maxDepth) ∧
      walk.names[0]? = some self ∧
      (∀ i < maxDepth - 1, walk.names[i + 1]? = (lineage.ancestor start i).map lineage.name) ∧
      1 ≤ walk.names.length ∧ walk.names.length ≤ maxDepth ∧
      (walk.rootReached = true ↔
        ∃ i < maxDepth - 1, ∃ top, lineage.ancestor start i = some top ∧
          (lineage.parent top = none ∨ lineage.parent top = some top)) ∧
      (start = none → walk = ⟨[self], false⟩) ∧
      ∀ before : Vector NameSlot maxDepth, walk.Fills (walk.writeInto before) ∧
        walk.writeInto before = walk.writeInto (Vector.replicate maxDepth NameSlot.empty) := by
  intro walk
  have hnames : walk.names = self :: (lineage.climb (maxDepth - 1) start).names := rfl
  have hdeep : walk.names.length ≤ maxDepth := lineage.walk_names_length_le self start
  refine ⟨lineage.chained_or_endless start, ?_, ?_, rfl, ?_, ?_, hdeep, ?_, ?_, ?_⟩
  · intro length h
    rw [hnames, List.length_cons, h.length_climb, Nat.add_comm]
  · intro h
    rw [hnames, List.length_cons, h.length_climb]
    rfl
  · intro i hi
    rw [hnames, List.getElem?_cons_succ, getElem?_names_climb, if_pos hi]
  · rw [hnames]
    exact Nat.succ_pos _
  · have hroot := lineage.rootReached_climb_iff (maxDepth - 1) start
    simp only [isTop_iff] at hroot
    exact hroot
  · rintro rfl
    rfl
  · intro before
    refine ⟨Walk.writeInto_fills hdeep before, Vector.ext fun i hi => ?_⟩
    rw [Walk.getElem_writeInto, Walk.getElem_writeInto]

/-- Numbered directories, each in the one before. The first is its own parent. -/
def ladder : Lineage Nat where
  name _ := [0x64]
  parent node := some (node - 1)

/-- Two nodes, each the parent of the other. -/
def loop : Lineage Bool where
  name _ := [0x64]
  parent node := some !node

theorem chained_ladder (node : Nat) : ladder.Chained (some node) (node + 1) := by
  intro steps
  induction steps generalizing node with
  | zero => exact iff_of_true rfl (Nat.succ_pos _)
  | succ steps ih =>
      rw [ancestor_succ]
      cases node with
      | zero =>
          have htop : ladder.above 0 = none := ladder.above_of_isTop rfl
          rw [htop, ancestor_none]
          simp
      | succ node =>
          have hbelow : ladder.above (node + 1) = some node :=
            ladder.above_of_not_isTop (by simp [isTop, ladder])
          rw [hbelow, ih]
          omega

theorem endless_loop (node : Bool) : loop.Endless (some node) := by
  intro steps
  induction steps generalizing node with
  | zero => rfl
  | succ steps ih =>
      have hother : loop.above node = some !node := by cases node <;> rfl
      rw [ancestor_succ, hother]
      exact ih !node

/-- The root is met as the eighth name, and in a cycle it is never met. -/
theorem walk_follows_chain_eighth :
    ladder.Chained (some 6) 7 ∧ loop.Endless (some true) ∧
      (ladder.walk [0x66] (some 6)).names.length = 8 ∧
      (ladder.walk [0x66] (some 6)).rootReached = true ∧
      (loop.walk [0x66] (some true)).names.length = 8 ∧
      (loop.walk [0x66] (some true)).names[7]? = some [0x64] ∧
      (loop.walk [0x66] (some true)).rootReached = false ∧
      loop.walk [0x66] none = ⟨[[0x66]], false⟩ := by
  obtain ⟨-, hladder, -, -, -, -, -, hroot, -⟩ := walk_follows_chain ladder [0x66] (some 6)
  obtain ⟨-, -, hloop, -, hname, -, -, hnever, -⟩ := walk_follows_chain loop [0x66] (some true)
  have hnone := (walk_follows_chain loop [0x66] none).2.2.2.2.2.2.2.2.1
  refine ⟨chained_ladder 6, endless_loop true, hladder 7 (chained_ladder 6),
    hroot.2 ⟨6, by decide, 0, by decide, .inr rfl⟩, hloop (endless_loop true),
    hname 6 (by decide), ?_, hnone rfl⟩
  rw [← Bool.not_eq_true, hnever]
  rintro ⟨steps, -, top, -, hparent⟩
  revert hparent
  cases top <;> decide

end Lineage

end DentryWatch
