import DentryWatch.Proofs.Disk.Trees

/-!
# Listing what is below a directory

What is below a directory is listed depth first: a directory right before what it
holds, and siblings by the bytes of their names. On a disk that keeps one node for
each location every entry is listed once.
-/

namespace DentryWatch

/-- The order of a depth-first walk. -/
inductive Location.Before : Location → Location → Prop where
  /-- A directory comes before what it holds. -/
  | above (top : Location) (name : FileName) (rest : Location) : Before top (top ++ name :: rest)
  /-- A name comes, with all that is below it, before a larger one in the same directory. -/
  | beside (top : Location) {small large : FileName} (less : small < large)
      (rest other : Location) : Before (top ++ small :: rest) (top ++ large :: other)

namespace Location

theorem not_before_dropLast (top : Location) (name : FileName) : ¬ Before (top ++ [name]) top := by
  intro h
  generalize hfirst : top ++ [name] = first at h
  cases h with
  | above _ other rest => simpa using congrArg List.length hfirst
  | beside start less rest other =>
      simp only [List.append_assoc, List.append_cancel_left_eq, List.cons_append,
        List.cons.injEq] at hfirst
      exact absurd less (hfirst.1 ▸ List.lt_irrefl _)

theorem before_cons_self (name : FileName) {a b : Location} :
    Before (name :: a) (name :: b) ↔ Before a b := by
  constructor
  · intro h
    generalize hfirst : name :: a = first at h
    generalize hsecond : name :: b = second at h
    cases h with
    | above top other rest =>
        subst hfirst
        obtain rfl : b = a ++ other :: rest := by simpa using hsecond
        exact .above a other rest
    | beside top less rest other =>
        cases top with
        | nil =>
            obtain ⟨rfl, -⟩ := List.cons.inj hfirst
            obtain ⟨rfl, -⟩ := List.cons.inj hsecond
            exact absurd less (List.lt_irrefl _)
        | cons head top =>
            obtain ⟨-, rfl⟩ := List.cons.inj hfirst
            obtain ⟨-, rfl⟩ := List.cons.inj hsecond
            exact .beside top less rest other
  · intro h
    cases h with
    | above top other rest => exact .above (name :: a) other rest
    | beside top less rest other => exact .beside (name :: top) less rest other

theorem before_cons_of_ne {name other : FileName} (hne : name ≠ other) {a b : Location} :
    Before (name :: a) (other :: b) ↔ name < other := by
  constructor
  · intro h
    generalize hfirst : name :: a = first at h
    generalize hsecond : other :: b = second at h
    cases h with
    | above top last rest =>
        subst hfirst
        exact absurd (List.cons.inj hsecond).1.symm hne
    | beside top less rest tail =>
        cases top with
        | nil =>
            obtain ⟨rfl, -⟩ := List.cons.inj hfirst
            obtain ⟨rfl, -⟩ := List.cons.inj hsecond
            exact less
        | cons head top =>
            obtain ⟨rfl, -⟩ := List.cons.inj hfirst
            exact absurd (List.cons.inj hsecond).1.symm hne
  · exact fun less => .beside [] less a b

end Location

namespace Disk

/-! ## The order of names and of locations -/

theorem nameLE_iff (a b : FileName) : nameLE a b = true ↔ a ≤ b := by
  induction a generalizing b with
  | nil => simp [nameLE]
  | cons byte rest ih =>
      cases b with
      | nil => simp [nameLE]
      | cons other more => simp [nameLE, List.cons_le_cons_iff, ih]

theorem locationLE_iff (a b : Location) : locationLE a b = true ↔ a = b ∨ a.Before b := by
  induction a generalizing b with
  | nil =>
      cases b with
      | nil => simp [locationLE]
      | cons name rest => simpa [locationLE] using Location.Before.above [] name rest
  | cons name rest ih =>
      cases b with
      | nil =>
          have hnot : ¬ Location.Before (name :: rest) [] := by
            intro h
            generalize hfirst : name :: rest = first at h
            generalize hsecond : ([] : Location) = second at h
            cases h <;> simp at hsecond
          simp [locationLE, hnot]
      | cons other more =>
          by_cases hname : name = other
          · subst hname
            simp [locationLE, ih, Location.before_cons_self]
          · have hle : name ≤ other ↔ name < other :=
              ⟨fun h => Std.lt_of_le_of_ne h hname, Std.le_of_lt⟩
            simp [locationLE, hname, nameLE_iff, hle, Location.before_cons_of_ne hname]

theorem locationLE_trans (a b c : Location) (hab : locationLE a b = true)
    (hbc : locationLE b c = true) : locationLE a c = true := by
  induction a generalizing b c with
  | nil => simp [locationLE]
  | cons x as ih =>
      cases b with
      | nil => simp [locationLE] at hab
      | cons y bs =>
          cases c with
          | nil => simp [locationLE] at hbc
          | cons z cs =>
              simp only [locationLE] at hab hbc ⊢
              by_cases hxy : x = y
              · subst hxy
                by_cases hxz : x = z
                · subst hxz
                  rw [if_pos rfl] at hab hbc ⊢
                  exact ih bs cs hab hbc
                · rwa [if_neg hxz] at hbc ⊢
              · rw [if_neg hxy, nameLE_iff] at hab
                by_cases hyz : y = z
                · subst hyz
                  rwa [if_neg hxy, nameLE_iff]
                · rw [if_neg hyz, nameLE_iff] at hbc
                  have hxz : x ≠ z := by
                    rintro rfl
                    exact hxy (List.le_antisymm hab hbc)
                  rw [if_neg hxz, nameLE_iff]
                  exact List.le_trans hab hbc

theorem locationLE_total (a b : Location) : (locationLE a b || locationLE b a) = true := by
  induction a generalizing b with
  | nil => simp [locationLE]
  | cons x as ih =>
      cases b with
      | nil => simp [locationLE]
      | cons y bs =>
          by_cases hxy : x = y
          · subst hxy
            simpa [locationLE] using ih bs
          · simpa [locationLE, hxy, Ne.symm hxy, nameLE_iff] using List.le_total x y

/-! ## What is below a directory -/

/-- The disk keeps one node for each location. -/
def Distinct (disk : Disk) : Prop := (disk.nodes.map Prod.fst).Nodup

theorem lookup_eq_some_iff {α β : Type} [BEq α] [LawfulBEq α] {l : List (α × β)}
    (h : (l.map Prod.fst).Nodup) (key : α) (value : β) :
    l.lookup key = some value ↔ (key, value) ∈ l := by
  induction l with
  | nil => simp
  | cons entry rest ih =>
      obtain ⟨first, node⟩ := entry
      obtain ⟨hnew, hrest⟩ := List.nodup_cons.1 h
      by_cases hkey : key = first
      · subst hkey
        have hnot : (key, value) ∉ rest := fun hmem => hnew (List.mem_map.2 ⟨_, hmem, rfl⟩)
        simp [hnot, eq_comm]
      · simp [List.lookup_cons, beq_false_of_ne hkey, hkey, ih hrest]

variable {disk : Disk} {top : Location}

theorem Distinct.mem_nodes_iff (h : disk.Distinct) (location : Location) (node : Node) :
    (location, node) ∈ disk.nodes ↔ disk.find? location = some node :=
  (lookup_eq_some_iff h location node).symm

theorem isBelow_iff (top location : Location) :
    isBelow top location = true ↔ top <+: location ∧ location ≠ top := by
  rw [isBelow, Bool.and_eq_true, List.isPrefixOf_iff_prefix, decide_eq_true_iff]
  refine and_congr_right fun ⟨tail, htail⟩ => ?_
  subst htail
  cases tail <;> simp

/-- The list has what is below a directory, each entry once and in the order of a walk. -/
structure DepthFirst (disk : Disk) (top : Location) (walk : List (Location × Node)) : Prop where
  mem_iff : ∀ location node, (location, node) ∈ walk ↔
    (top <+: location ∧ location ≠ top) ∧ disk.find? location = some node
  ordered : walk.Pairwise fun first later => first.1.Before later.1

theorem Distinct.depthFirst_below (h : disk.Distinct) (top : Location) :
    disk.DepthFirst top (disk.below top) := by
  have hperm := List.mergeSort_perm (disk.nodes.filter fun entry => isBelow top entry.1)
    fun a b => locationLE a.1 b.1
  have hsorted : (disk.below top).Pairwise fun a b => locationLE a.1 b.1 :=
    List.pairwise_mergeSort (fun a b c => locationLE_trans a.1 b.1 c.1)
      (fun a b => locationLE_total a.1 b.1) _
  refine ⟨fun location node => ?_, ?_⟩
  · rw [below, hperm.mem_iff, List.mem_filter, h.mem_nodes_iff, isBelow_iff, and_comm]
  · have hkeys : ((disk.below top).map Prod.fst).Nodup := by
      refine (hperm.map Prod.fst).nodup_iff.2 ?_
      exact List.Nodup.sublist (List.filter_sublist.map Prod.fst) h
    have hne : (disk.below top).Pairwise fun a b => a.1 ≠ b.1 := List.pairwise_map.1 hkeys
    refine (hsorted.and hne).imp fun {a b} hboth => ?_
    exact ((locationLE_iff a.1 b.1).1 hboth.1).resolve_left hboth.2

/-- When an entry is met, so was its directory. -/
theorem DepthFirst.parent_met {done rest : List (Location × Node)} {entry : Location × Node}
    (h : disk.DepthFirst top (done ++ entry :: rest)) (hsound : disk.Sound) :
    entry.1 ≠ [] ∧ (entry.1.dropLast = top ∨
      ∃ inode, (entry.1.dropLast, .directory inode) ∈ done) := by
  obtain ⟨location, node⟩ := entry
  obtain ⟨⟨⟨tail, rfl⟩, hne⟩, hfind⟩ := (h.mem_iff location node).1 (by simp)
  have htail : tail ≠ [] := by
    rintro rfl
    exact hne (List.append_nil top)
  refine ⟨by simp [htail], ?_⟩
  obtain ⟨before, last, rfl⟩ := (List.eq_nil_or_concat' tail).resolve_left htail
  rw [← List.append_assoc] at hfind
  dsimp only
  rw [← List.append_assoc, List.dropLast_concat]
  by_cases hbefore : before = []
  · exact .inl (by rw [hbefore, List.append_nil])
  obtain ⟨inode, hdir⟩ := hsound.parents _ _ _ hfind
  have hmem := (h.mem_iff (top ++ before) (.directory inode)).2
    ⟨⟨List.prefix_append _ _, by simpa using hbefore⟩, hdir⟩
  refine .inr ⟨inode, ?_⟩
  -- the directory comes before its entry, so it is not among what follows
  rcases List.mem_append.1 hmem with hdone | hlater
  · exact hdone
  rcases List.mem_cons.1 hlater with hsame | hrest
  · simpa using congrArg (fun entry => entry.1.length) hsame
  · have hordered := (List.pairwise_append.1 h.ordered).2.1
    have hafter := (List.pairwise_cons.1 hordered).1 _ hrest
    rw [← List.append_assoc] at hafter
    exact absurd hafter (Location.not_before_dropLast _ _)

end Disk

end DentryWatch
