/-!
# Searching in sequences

Occurrence of a pattern as a contiguous part, and what follows its first or its
last occurrence.
-/

namespace DentryWatch.Text

variable {α : Type} [BEq α]

def occursIn (pattern : List α) : List α → Bool
  | [] => pattern.isEmpty
  | a :: rest => pattern.isPrefixOf (a :: rest) || occursIn pattern rest

/-- The rest of a sequence from the first occurrence of a pattern on. -/
def fromFirst? (pattern : List α) : List α → Option (List α)
  | [] => if pattern.isEmpty then some [] else none
  | a :: rest =>
      if pattern.isPrefixOf (a :: rest) then some (a :: rest) else fromFirst? pattern rest

def afterLast? (pattern : List α) : List α → Option (List α)
  | [] => if pattern.isEmpty then some [] else none
  | a :: rest =>
      match afterLast? pattern rest with
      | some found => some found
      | none => pattern.isPrefixOf? (a :: rest)

theorem occursIn_iff [LawfulBEq α] {pattern s : List α} :
    occursIn pattern s = true ↔ pattern <:+: s := by
  induction s with
  | nil => simp [occursIn]
  | cons a rest ih =>
      simp only [occursIn, Bool.or_eq_true, ih, List.isPrefixOf_iff_prefix]
      exact List.infix_cons_iff.symm

end DentryWatch.Text
