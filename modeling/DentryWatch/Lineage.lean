import DentryWatch.Record.Basic

/-!
# Ancestor walks

A directory tree is given by the name and the parent of each node. A walk
collects the new entry's own name and those of at most seven ancestors. It stops
at a top node: one without a parent, or one that is its own parent.

Each step uses up room, so a walk ends on every parent graph, cycles included.
-/

namespace DentryWatch

/-- Names and parent links of the nodes of a tree. -/
structure Lineage (ν : Type) where
  name : ν → Bytes
  parent : ν → Option ν

/-- The components a walk collected, leaf first. -/
structure Walk where
  /-- The names, before any cut. -/
  names : List Bytes
  /-- Whether the last name is that of a top node. -/
  rootReached : Bool
deriving DecidableEq, Repr

namespace Lineage

variable {ν : Type} [DecidableEq ν]

def isTop (lineage : Lineage ν) (node : ν) : Bool :=
  match lineage.parent node with
  | none => true
  | some parent => parent = node

/-- The names from a node upward, as long as there is room. -/
def climb (lineage : Lineage ν) : Nat → Option ν → Walk
  | 0, _ => ⟨[], false⟩
  | _ + 1, none => ⟨[], false⟩
  | room + 1, some node =>
      if lineage.isTop node then ⟨[lineage.name node], true⟩
      else
        let above := lineage.climb room (lineage.parent node)
        ⟨lineage.name node :: above.names, above.rootReached⟩

/-- The walk for a new entry with the given name below `start`. -/
def walk (lineage : Lineage ν) (self : Bytes) (start : Option ν) : Walk :=
  let above := lineage.climb (maxDepth - 1) start
  ⟨self :: above.names, above.rootReached⟩

/-- The lineage of numbered nodes, each listed with its name and parent. -/
def ofNodes (nodes : Array (Bytes × Option Nat)) : Lineage Nat where
  name node := (nodes[node]?.map Prod.fst).getD []
  parent node := nodes[node]?.bind Prod.snd

theorem climb_names_length_le (lineage : Lineage ν) (room : Nat) (start : Option ν) :
    (lineage.climb room start).names.length ≤ room := by
  induction room generalizing start with
  | zero => simp [climb]
  | succ room ih =>
      cases start with
      | none => simp [climb]
      | some node =>
          unfold climb
          split
          · simp
          · simpa using ih (lineage.parent node)

theorem walk_names_length_le (lineage : Lineage ν) (self : Bytes) (start : Option ν) :
    (lineage.walk self start).names.length ≤ maxDepth := by
  have := lineage.climb_names_length_le (maxDepth - 1) start
  simp only [walk, List.length_cons, maxDepth] at *
  omega

end Lineage

namespace Walk

def depth (walk : Walk) : Depth := Depth.pack walk.names.length walk.rootReached

/-- Writes a walk into the slots of a record, clearing those it does not use. -/
def writeInto (walk : Walk) (slots : Vector NameSlot maxDepth) : Vector NameSlot maxDepth :=
  slots.mapIdx fun i slot =>
    match walk.names[i]? with
    | some name => slot.fill name
    | none => slot.clear

def slots (walk : Walk) : List NameSlot := walk.names.map NameSlot.ofName

def describe (walk : Walk) : String :=
  let names := String.ofList
    ([',', ' '].intercalate (walk.slots.map fun slot => slot.quoted.toList))
  s!"WalkedPath \x7b names: [{names}], root_reached: {walk.rootReached} \x7d"

/-- What a walk leaves in the slots does not depend on what they held. -/
theorem getElem_writeInto (walk : Walk) (before : Vector NameSlot maxDepth) (i : Nat)
    (hi : i < maxDepth) :
    (walk.writeInto before)[i] = (walk.slots[i]?).getD NameSlot.empty := by
  rw [writeInto, Vector.getElem_mapIdx, slots, List.getElem?_map]
  cases walk.names[i]? with
  | none => exact NameSlot.clear_eq_empty _
  | some name => exact NameSlot.fill_eq_ofName _ _

end Walk

end DentryWatch
