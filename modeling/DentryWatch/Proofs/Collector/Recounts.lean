import DentryWatch.Proofs.Collector.Steps
import DentryWatch.Proofs.Lineage
import DentryWatch.Proofs.Record.Layout

/-!
# What the record of an allocation says

The record of a traced allocation says all there is to say of the call: its time and
group, the names from its own upward, how many there are, and whether the last is
that of a top node. Two records that say the same are the same.
-/

namespace DentryWatch

/--
The record is that of an allocation with these names, its own first. A slot holds
what fits of a name and zeros behind it; the slots left over hold zeros.
-/
structure Record.Recounts (record : Record) (now : UInt64) (owner : GroupId) (names : List Bytes)
    (rooted : Prop) : Prop where
  timestamp : record.timestamp = now
  group : record.group = owner
  operation : record.operation = .alloc
  count : record.depth.toNat % 2 ^ 31 = names.length
  root : 2 ^ 31 ≤ record.depth.toNat ↔ rooted
  used : ∀ i (hi : i < maxDepth) name, names[i]? = some name →
    record.slots[i].raw = name.take 63 ++ List.replicate (64 - min name.length 63) 0
  unused : ∀ i (hi : i < maxDepth), names.length ≤ i →
    record.slots[i].raw = List.replicate 64 0

namespace Record

variable {record other : Record} {now later : UInt64} {group : GroupId} {names : List Bytes}
  {rooted : Prop}

/-- But for its time, a record is settled by what it recounts. -/
theorem Recounts.eq (h : record.Recounts now group names rooted)
    (hother : other.Recounts later group names rooted) :
    { other with timestamp := now } = record := by
  have hgroup : other.group = record.group := hother.group.trans h.group.symm
  have hoperation : other.operation = record.operation := hother.operation.trans h.operation.symm
  have hdepth : other.depth = record.depth := by
    have hcount := hother.count.trans h.count.symm
    have hroot := hother.root.trans h.root.symm
    have hsmall := record.depth.toNat_lt
    have hless := other.depth.toNat_lt
    apply UInt32.toNat_inj.1
    omega
  have hslots : other.slots = record.slots := by
    refine Vector.ext fun i hi => NameSlot.ext_raw ?_
    cases hname : names[i]? with
    | some name => rw [h.used i hi name hname, hother.used i hi name hname]
    | none =>
        have hle := List.getElem?_eq_none_iff.1 hname
        rw [h.unused i hi hle, hother.unused i hi hle]
  rw [hgroup, hoperation, hdepth, hslots, ← h.timestamp]

theorem Recounts.drop_encode (h : record.Recounts now group names rooted)
    (hother : other.Recounts later group names rooted) :
    record.encode.drop 8 = other.encode.drop 8 := by
  rw [← h.eq hother, Record.drop_encode]

end Record

/-! ## Calls -/

/-- The record says of an allocation what the call said. -/
def CollectorStep.RecordedAs : CollectorStep → Record → Prop
  | @alloc _ _ now lineage group name parent, record =>
      let above := lineage.ancestors (maxDepth - 1) parent
      record.Recounts now group (name :: above.map lineage.name)
        (∃ node ∈ above, lineage.parent node = none ∨ lineage.parent node = some node)
  | _, _ => False

namespace Collector

/-- A walk is recounted as it is. -/
theorem recounts_traced {walk : Walk} (h : walk.names.length ≤ maxDepth) (now : UInt64)
    (group : GroupId) (before : Record) :
    (traced now group walk before).Recounts now group walk.names (walk.rootReached = true) := by
  have hfills := Walk.writeInto_fills h before.slots
  have hdepth : (traced now group walk before).depth.toNat =
      walk.names.length + if walk.rootReached then 2 ^ 31 else 0 := by
    rw [traced, Walk.depth, Depth.toNat_pack h]
  have hsmall : walk.names.length < 2 ^ 31 := Nat.lt_of_le_of_lt h (by decide)
  refine ⟨rfl, rfl, rfl, ?_, ?_, hfills.used, hfills.unused⟩ <;> rw [hdepth] <;>
    cases walk.rootReached <;> simp <;> omega

theorem recordedAs_traced {ν : Type} [DecidableEq ν] (now : UInt64) (lineage : Lineage ν)
    (group : GroupId) (name : Bytes) (parent : Option ν) (before : Record) :
    (CollectorStep.alloc now lineage group name parent).RecordedAs
      (traced now group (lineage.walk name parent) before) := by
  have hrecounts := recounts_traced (lineage.walk_names_length_le name parent) now group before
  rw [lineage.names_walk] at hrecounts
  have hroot := lineage.rootReached_walk_iff name parent
  exact { hrecounts with root := hrecounts.root.trans hroot }

end Collector

/-- Below a node that has nothing above it. -/
theorem CollectorStep.RecordedAs.below_top {now : UInt64} {group : GroupId} {name top : Bytes}
    {record : Record}
    (h : (alloc now (Lineage.ofNodes #[(top, none)]) group name (some 0)).RecordedAs record) :
    record.Recounts now group [name, top] True :=
  { h with root := h.root.trans (iff_of_true ⟨0, .head _, .inl rfl⟩ trivial) }

theorem CollectorStep.forall₂_records {actions : List CollectorStep}
    (h : ∀ action ∈ actions, action.isAlloc = true) :
    List.Forall₂ RecordedAs actions (actions.flatMap records) := by
  induction actions with
  | nil => exact .nil
  | cons action rest ih =>
      have hrest := ih fun other hmem => h other (List.mem_cons_of_mem _ hmem)
      cases action with
      | alloc now lineage group name parent =>
          exact .cons (Collector.recordedAs_traced now lineage group name parent .zero) hrest
      | _ => exact absurd (h _ List.mem_cons_self) Bool.false_ne_true

end DentryWatch
