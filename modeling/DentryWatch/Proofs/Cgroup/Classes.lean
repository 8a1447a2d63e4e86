import DentryWatch.Proofs.Cgroup.Components

/-!
# Lost beginnings

In an absolute path of proper components a service class with slashes around it
is a component that is not the last. So the lost beginning is put in front of the
first component that names the first class found, and it is put there once.
-/

namespace DentryWatch

/-- A pattern does not begin within what lacks its first item. -/
theorem Text.fromFirst?_append {α : Type} [BEq α] [LawfulBEq α] {first : α} {skipped : List α}
    (h : first ∉ skipped) (pattern rest : List α) :
    fromFirst? (first :: pattern) (skipped ++ rest) = fromFirst? (first :: pattern) rest := by
  induction skipped with
  | nil => rfl
  | cons item skipped ih =>
      have hne : (first == item) = false := beq_false_of_ne fun heq => h (heq ▸ List.mem_cons_self)
      rw [List.cons_append, fromFirst?, List.isPrefixOf_cons_cons, hne, Bool.false_and,
        if_neg Bool.false_ne_true]
      exact ih fun hmem => h (List.mem_cons_of_mem _ hmem)

namespace Cgroup

variable {parts : List (List Char)} {name : List Char}

/-! ## Classes as components -/

def classNames : List (List Char) :=
  ["burstable".toList, "besteffort".toList, "guaranteed".toList]

def slashed (name : List Char) : List Char := '/' :: (name ++ ['/'])

theorem serviceClasses_eq : serviceClasses = classNames.map slashed := by decide

theorem proper_className (h : name ∈ classNames) : Proper name := by
  simp only [classNames, List.mem_cons, List.not_mem_nil, or_false] at h
  rcases h with rfl | rfl | rfl <;> exact ⟨by decide, by decide, by decide, by decide⟩

/-- The components from the first on that has the name and is not the last. -/
def fromClass? (name : List Char) : List (List Char) → Option (List (List Char))
  | component :: next :: rest =>
      if component = name then some (component :: next :: rest) else fromClass? name (next :: rest)
  | _ => none

theorem fromClass?_eq_some {found : List (List Char)} (h : fromClass? name parts = some found) :
    ∃ front rest, parts = front ++ name :: rest ∧ name ∉ front ∧ rest ≠ [] ∧
      found = name :: rest := by
  fun_induction fromClass? name parts with
  | case1 next rest =>
      cases h
      exact ⟨[], next :: rest, rfl, List.not_mem_nil, List.cons_ne_nil _ _, rfl⟩
  | case2 component next rest hne ih =>
      obtain ⟨front, tail, hparts, hfront, htail, hfound⟩ := ih h
      refine ⟨component :: front, tail, congrArg (component :: ·) hparts, ?_, htail, hfound⟩
      rw [List.mem_cons, not_or]
      exact ⟨fun heq => hne heq.symm, hfront⟩
  | case3 => cases h

theorem fromClass?_eq_none (h : fromClass? name parts = none) : name ∉ parts.dropLast := by
  fun_induction fromClass? name parts with
  | case1 next rest => cases h
  | case2 component next rest hne ih =>
      rw [List.dropLast_cons_cons, List.mem_cons, not_or]
      exact ⟨fun heq => hne heq.symm, ih h⟩
  | case3 parts hshort =>
      rcases parts with _ | ⟨component, _ | ⟨next, rest⟩⟩
      · exact List.not_mem_nil
      · exact List.not_mem_nil
      · exact (hshort component next rest rfl).elim

/-- Where a class with slashes around it first occurs in an absolute path. -/
theorem fromFirst?_absolute (hname : Proper name) (hparts : ∀ part ∈ parts, Proper part) :
    Text.fromFirst? (slashed name) (absolute parts) = (fromClass? name parts).map absolute := by
  -- a component has no slash, so the search goes on behind it
  have hskip : ∀ {part rest}, '/' ∉ part → ¬ name ++ ['/'] <+: part ++ rest →
      Text.fromFirst? (slashed name) ('/' :: (part ++ rest)) =
        Text.fromFirst? (slashed name) rest := by
    intro part rest hslash hnot
    have hprefix : (slashed name).isPrefixOf ('/' :: (part ++ rest)) = false := by
      rw [slashed, List.isPrefixOf_cons_cons, beq_self_eq_true, Bool.true_and, ← Bool.not_eq_true,
        List.isPrefixOf_iff_prefix]
      exact hnot
    rw [Text.fromFirst?, hprefix, if_neg Bool.false_ne_true]
    exact Text.fromFirst?_append hslash _ rest
  fun_induction fromClass? name parts with
  | case1 next rest =>
      have hprefix : (slashed name).isPrefixOf (absolute (name :: next :: rest)) = true := by
        rw [List.isPrefixOf_iff_prefix, absolute_cons_cons]
        exact ⟨['/'].intercalate (next :: rest), by simp [slashed, absolute]⟩
      rw [Option.map_some]
      exact if_pos hprefix
  | case2 component next rest hne ih =>
      have hcomponent := hparts component List.mem_cons_self
      have hnot : ¬ name ++ ['/'] <+: component ++ absolute (next :: rest) := by
        rintro ⟨tail, htail⟩
        rw [List.append_assoc] at htail
        exact hne (cut_unique hcomponent.slash hname.slash htail.symm)
      rw [absolute_cons_cons, List.cons_append, hskip hcomponent.slash hnot]
      exact ih fun part hmem => hparts part (List.mem_cons_of_mem _ hmem)
  | case3 parts hshort =>
      rcases parts with _ | ⟨part, _ | ⟨next, rest⟩⟩
      · have hnot : ¬ name ++ ['/'] <+: [] ++ [] := by simp
        exact hskip List.not_mem_nil hnot
      · have hslash := (hparts part List.mem_cons_self).slash
        have hnot : ¬ name ++ ['/'] <+: part ++ [] := fun hprefix =>
          hslash (List.append_nil part ▸ hprefix.subset (by simp))
        rw [absolute_singleton, ← List.append_nil part, hskip hslash hnot]
        rfl
      · exact (hshort part next rest rfl).elim

/-! ## Restoring -/

/-- What becomes of the components of a cleaned path. -/
inductive Restores (parts : List (List Char)) : List Char → Prop
  /-- The beginning is still there, or no class is followed by a component. -/
  | kept (h : podMark <:+: absolute parts ∨ ∀ name ∈ classNames, name ∉ parts.dropLast) :
      Restores parts (absolute parts)
  /-- The beginning comes before the first place of the first class that is followed by one. -/
  | regained {earlier later front rest : List (List Char)} {name : List Char}
      (hlost : ¬ podMark <:+: absolute parts) (horder : classNames = earlier ++ name :: later)
      (hearlier : ∀ other ∈ earlier, other ∉ parts.dropLast)
      (hparts : parts = front ++ name :: rest) (hfront : name ∉ front) (hrest : rest ≠ []) :
      Restores parts ('/' :: podMark ++ absolute (name :: rest))

theorem restores (h : ∀ part ∈ parts, Proper part) : Restores parts (restore (absolute parts)) := by
  have hfind : ∀ name ∈ classNames, Text.fromFirst? (slashed name) (absolute parts) =
      (fromClass? name parts).map absolute :=
    fun name hmem => fromFirst?_absolute (proper_className hmem) h
  rw [restore]
  split
  next hmark => exact .kept (.inl (Text.occursIn_iff.1 hmark))
  next hlost =>
    rw [serviceClasses_eq, List.findSome?_map]
    split
    next tail hfound =>
      obtain ⟨earlier, name, later, horder, hname, hearlier⟩ :=
        List.findSome?_eq_some_iff.1 hfound
      have hmem : ∀ other ∈ earlier ++ name :: later, other ∈ classNames :=
        fun other hother => horder ▸ hother
      rw [Function.comp_apply, hfind name (hmem name (by simp))] at hname
      obtain ⟨found, hclass, rfl⟩ := Option.map_eq_some_iff.1 hname
      obtain ⟨front, rest, hparts, hfront, hrest, rfl⟩ := fromClass?_eq_some hclass
      refine .regained (mt Text.occursIn_iff.2 hlost) horder (fun other hother => ?_) hparts
        hfront hrest
      have hnone := hearlier other hother
      rw [Function.comp_apply, hfind other (hmem other (List.mem_append_left _ hother))] at hnone
      exact fromClass?_eq_none (Option.map_eq_none_iff.1 hnone)
    next hnone =>
      refine .kept (.inr fun name hmem => ?_)
      have hname := List.findSome?_eq_none_iff.1 hnone name hmem
      rw [Function.comp_apply, hfind name hmem] at hname
      exact fromClass?_eq_none (Option.map_eq_none_iff.1 hname)

/-- A path that is restored has only components of before and the lost beginning. -/
theorem Restores.exists_parts {path : List Char} (h : Restores parts path) :
    ∃ found, path = absolute found ∧ ∀ part ∈ found, part = podMark ∨ part ∈ parts := by
  cases h with
  | kept => exact ⟨parts, rfl, fun part hmem => .inr hmem⟩
  | @regained earlier later front rest name hlost horder hearlier hparts =>
      refine ⟨podMark :: name :: rest, (absolute_cons_cons _ _ _).symm, fun part hmem => ?_⟩
      rcases List.mem_cons.1 hmem with rfl | hmem
      · exact .inl rfl
      · exact .inr (hparts ▸ List.mem_append_right _ hmem)

theorem proper_podMark : Proper podMark := ⟨by decide, by decide, by decide, by decide⟩

/-- What is restored stays as it is. -/
theorem restore_restore (path : List Char) : restore (restore path) = restore path := by
  have hmark : ∀ {path}, Text.occursIn podMark path = true → restore path = path :=
    fun hmem => if_pos hmem
  by_cases hlost : Text.occursIn podMark path = true
  · rw [hmark hlost, hmark hlost]
  · cases hfound : serviceClasses.findSome? (Text.fromFirst? · path) with
    | some tail =>
        have hnext : restore path = '/' :: podMark ++ tail := by
          rw [restore, if_neg hlost, hfound]
        rw [hnext]
        exact hmark (Text.occursIn_iff.2 ⟨['/'], tail, rfl⟩)
    | none =>
        have hsame : restore path = path := by rw [restore, if_neg hlost, hfound]
        rw [hsame, hsame]

end Cgroup

end DentryWatch
