import Mathlib.Data.List.Basic
import Mathlib.Data.List.TakeWhile
import DentryWatch.Text.Blank

/-!
# Words and trimmed texts

A text is made of words in exactly one way: blanks may stand around them, and what
follows a word begins with a blank. Trimming leaves the one part of a text that has
only blanks around it and no blank at its ends.
-/

namespace DentryWatch.Text

/-! ## Words -/

structure IsWord (word : List Char) : Prop where
  ne_nil : word ≠ []
  solid : ∀ c ∈ word, isBlank c = false

/-- A text that is made of these words, with blanks around and between them. -/
inductive Spaced : List (List Char) → List Char → Prop where
  | nil : Spaced [] []
  | blank {words : List (List Char)} {text : List Char} (c : Char) (hblank : isBlank c = true)
      (hrest : Spaced words text) : Spaced words (c :: text)
  | word {words : List (List Char)} {text : List Char} (word : List Char) (hword : IsWord word)
      (hnext : ∀ c ∈ text.head?, isBlank c = true) (hrest : Spaced words text) :
      Spaced (word :: words) (word ++ text)

theorem words_append_cons {c : Char} (h : isBlank c = true) (before rest : List Char) :
    words (before ++ c :: rest) = words before ++ words rest := by
  rw [words, List.splitOnP_append_cons _ _ h, List.filter_append]
  rfl

theorem words_cons {c : Char} (h : isBlank c = true) (rest : List Char) :
    words (c :: rest) = words rest :=
  words_append_cons h [] rest

theorem words_concat {c : Char} (h : isBlank c = true) (before : List Char) :
    words (before ++ [c]) = words before := by
  rw [words_append_cons h, words_nil, List.append_nil]

theorem IsWord.words_eq {word : List Char} (h : IsWord word) : words word = [word] := by
  have hne : word.isEmpty = false := by simpa using h.ne_nil
  rw [words, List.splitOnP_eq_singleton h.solid]
  simp [hne]

/-- A word stands before the words of what follows it. -/
theorem IsWord.words_append {word text : List Char} (h : IsWord word)
    (hnext : ∀ c ∈ text.head?, isBlank c = true) : words (word ++ text) = word :: words text := by
  cases text with
  | nil => rw [List.append_nil, h.words_eq, words_nil]
  | cons c rest =>
      have hblank : isBlank c = true := hnext c rfl
      rw [words_append_cons hblank, h.words_eq, words_cons hblank]
      rfl

theorem Spaced.words_eq {text : List Char} {found : List (List Char)} (h : Spaced found text) :
    words text = found := by
  induction h with
  | nil => exact words_nil
  | blank c hblank hrest ih => rw [words_cons hblank, ih]
  | word word hword hnext hrest ih => rw [hword.words_append hnext, ih]

theorem spaced_words (text : List Char) : Spaced (words text) text := by
  induction hlen : text.length using Nat.strongRecOn generalizing text with
  | _ length ih =>
      subst hlen
      cases text with
      | nil => exact .nil
      | cons c rest =>
          by_cases hblank : isBlank c = true
          · rw [words_cons hblank]
            exact .blank c hblank (ih _ (Nat.lt_succ_self _) rest rfl)
          · -- the first word reaches as far as there is no blank
            let word := (c :: rest).takeWhile fun c => !isBlank c
            let tail := (c :: rest).dropWhile fun c => !isBlank c
            have hsplit : word ++ tail = c :: rest := List.takeWhile_append_dropWhile
            have hword : IsWord word := by
              refine ⟨by simp [word, hblank], fun d hd => ?_⟩
              simpa using List.mem_takeWhile_imp hd
            have hnext : ∀ d ∈ tail.head?, isBlank d = true := by
              intro d hd
              have hstop := List.head?_dropWhile_not (fun c => !isBlank c) (c :: rest)
              rw [show List.head? _ = some d from hd] at hstop
              simpa using hstop
            have hlt : tail.length < (c :: rest).length := by
              have hlength := congrArg List.length hsplit
              rw [List.length_append] at hlength
              have := List.length_pos_iff.2 hword.ne_nil
              omega
            rw [← hsplit, hword.words_append hnext]
            exact .word word hword hnext (ih _ hlt tail rfl)

/-- There is one way to read the words of a text. -/
theorem spaced_iff {text : List Char} {found : List (List Char)} :
    Spaced found text ↔ words text = found :=
  ⟨Spaced.words_eq, fun h => h ▸ spaced_words text⟩

theorem Spaced.isWord {text : List Char} {found : List (List Char)} (h : Spaced found text) :
    ∀ word ∈ found, IsWord word := by
  induction h with
  | nil => exact fun _ hmem => absurd hmem List.not_mem_nil
  | blank c hblank hrest ih => exact ih
  | word word hword hnext hrest ih => exact List.forall_mem_cons.2 ⟨hword, ih⟩

/-- A character that is no blank stands in one of the words. -/
theorem Spaced.exists_word {text : List Char} {found : List (List Char)} (h : Spaced found text)
    {before after : List Char} {c : Char} (hsplit : text = before ++ c :: after)
    (hc : isBlank c = false) :
    ∃ start front back rest, before = start ++ front ∧ after = back ++ rest ∧
      front ++ c :: back ∈ found ∧ ∀ b ∈ start.getLast?, isBlank b = true := by
  induction h generalizing before with
  | nil => simp at hsplit
  | @blank words text b hblank hrest ih =>
      cases before with
      | nil =>
          obtain rfl : b = c := (List.cons.inj hsplit).1
          rw [hblank] at hc
          cases hc
      | cons b' before =>
          obtain ⟨rfl, htext⟩ := List.cons.inj hsplit
          obtain ⟨start, front, back, rest, rfl, rfl, hmem, hstart⟩ := ih htext
          refine ⟨b :: start, front, back, rest, rfl, rfl, hmem, ?_⟩
          rw [List.getLast?_cons]
          cases hlast : start.getLast? with
          | none => simpa using hblank
          | some last => simpa [hlast] using hstart
  | @word words text word hword hnext hrest ih =>
      rcases List.append_eq_append_iff.1 hsplit with
        ⟨between, rfl, htext⟩ | ⟨tail, rfl, htail⟩
      · obtain ⟨start, front, back, rest, rfl, rfl, hmem, hstart⟩ := ih htext
        refine ⟨word ++ start, front, back, rest, (List.append_assoc ..).symm, rfl,
          List.mem_cons_of_mem word hmem, ?_⟩
        -- a word that follows another one does not follow it at once
        have hne : start ≠ [] := by
          rintro rfl
          obtain ⟨first, hfirst⟩ : ∃ first, (front ++ c :: back).head? = some first :=
            Option.isSome_iff_exists.1 (by simp)
          have hhead : text.head? = some first := by
            rw [htext, List.nil_append, ← List.cons_append, ← List.append_assoc,
              List.head?_append, hfirst, Option.some_or]
          have hsolid := (hrest.isWord _ hmem).solid first (List.mem_of_mem_head? hfirst)
          rw [hnext first hhead] at hsolid
          cases hsolid
        rwa [List.getLast?_append_of_ne_nil _ hne]
      · cases tail with
        | nil =>
            have hblank := hnext c (by rw [← htail.trans (List.nil_append _)]; rfl)
            rw [hblank] at hc
            cases hc
        | cons d back =>
            obtain ⟨rfl, rfl⟩ := List.cons.inj htail
            exact ⟨[], before, back, text, rfl, rfl, List.mem_cons_self, by simp⟩

/-! ## Trimmed texts -/

def AllBlank (text : List Char) : Prop := ∀ c ∈ text, isBlank c = true

instance (text : List Char) : Decidable (AllBlank text) := List.decidableBAll _ _

/-- What is left of a text without the blanks at its ends. -/
structure Trims (text core : List Char) : Prop where
  around : ∃ before after, text = before ++ core ++ after ∧ AllBlank before ∧ AllBlank after
  first : ∀ c ∈ core.head?, isBlank c = false
  last : ∀ c ∈ core.getLast?, isBlank c = false

theorem dropWhile_of_head {text : List Char} (h : ∀ c ∈ text.head?, isBlank c = false) :
    text.dropWhile isBlank = text := by
  cases text with
  | nil => rfl
  | cons c rest => rw [List.dropWhile_cons_of_neg (by simp [h c rfl])]

theorem head_dropWhile (text : List Char) :
    ∀ c ∈ (text.dropWhile isBlank).head?, isBlank c = false := by
  intro c hc
  have hstop := List.head?_dropWhile_not isBlank text
  rwa [show List.head? _ = some c from hc] at hstop

theorem trims_trim (text : List Char) : Trims text (trim text) where
  around := by
    let rest := text.dropWhile isBlank
    refine ⟨text.takeWhile isBlank, (rest.reverse.takeWhile isBlank).reverse, ?_,
      fun c hc => List.mem_takeWhile_imp hc,
      fun c hc => List.mem_takeWhile_imp (List.mem_reverse.1 hc)⟩
    rw [trim, List.append_assoc, ← List.reverse_append, List.takeWhile_append_dropWhile,
      List.reverse_reverse, List.takeWhile_append_dropWhile]
  first := by
    intro c hc
    -- the core is the beginning of what the first run of blanks leaves
    have hbegin : trim text <+: text.dropWhile isBlank := by
      rw [trim, ← List.reverse_suffix, List.reverse_reverse]
      exact List.dropWhile_suffix isBlank
    obtain ⟨tail, htail⟩ := hbegin
    refine head_dropWhile text c ?_
    rw [← htail, List.head?_append, show List.head? _ = some c from hc, Option.some_or]
    rfl
  last := by
    intro c hc
    rw [trim, List.getLast?_reverse] at hc
    exact head_dropWhile _ c hc

theorem Trims.trim_eq {text core : List Char} (h : Trims text core) : trim text = core := by
  obtain ⟨before, after, rfl, hbefore, hafter⟩ := h.around
  rw [trim, List.append_assoc, List.dropWhile_append_of_pos hbefore]
  cases core with
  | nil =>
      rw [List.nil_append, List.dropWhile_eq_nil_iff.2 hafter]
      rfl
  | cons c rest =>
      have hreverse : AllBlank after.reverse := fun b hb => hafter b (List.mem_reverse.1 hb)
      have hhead : ∀ b ∈ (c :: rest).reverse.head?, isBlank b = false := by
        rw [List.head?_reverse]
        exact h.last
      have hfront : (c :: rest ++ after).dropWhile isBlank = c :: rest ++ after :=
        dropWhile_of_head h.first
      rw [hfront, List.reverse_append, List.dropWhile_append_of_pos hreverse,
        dropWhile_of_head hhead, List.reverse_reverse]

/-- There is one way to trim a text. -/
theorem trims_iff {text core : List Char} : Trims text core ↔ trim text = core :=
  ⟨Trims.trim_eq, fun h => h ▸ trims_trim text⟩

theorem trim_trim (text : List Char) : trim (trim text) = trim text :=
  trims_iff.1
    { around := ⟨[], [], by simp, nofun, nofun⟩
      first := (trims_trim text).first
      last := (trims_trim text).last }

theorem trim_subset (text : List Char) : trim text ⊆ text := by
  obtain ⟨before, after, hsplit, -, -⟩ := (trims_trim text).around
  intro c hc
  rw [hsplit]
  exact List.mem_append_left _ (List.mem_append_right _ hc)

theorem trim_eq_nil_iff {text : List Char} : trim text = [] ↔ AllBlank text := by
  constructor
  · intro h
    obtain ⟨before, after, hsplit, hbefore, hafter⟩ := (trims_trim text).around
    rw [h, List.append_nil] at hsplit
    rw [hsplit]
    exact List.forall_mem_append.2 ⟨hbefore, hafter⟩
  · intro h
    exact trims_iff.1 ⟨⟨text, [], by simp, h, nofun⟩, nofun, nofun⟩

end DentryWatch.Text
