import Mathlib.Data.List.Forall2
import DentryWatch.NodeState
import DentryWatch.Proofs.Text.Lines
import DentryWatch.Proofs.Text.Numerals
import DentryWatch.Proofs.Text.Words

/-!
# The line of node-wide counts

A text gives counts exactly if its first line is made of at least five numerals that
fit signed words, with blanks around and between them. One word that is no such numeral
is enough to refuse the line, wherever it stands.
-/

namespace DentryWatch

theorem mapM_eq_some_iff {α β : Type} {f : α → Option β} {items : List α} {values : List β} :
    items.mapM f = some values ↔ List.Forall₂ (fun a b => f a = some b) items values := by
  induction items generalizing values with
  | nil => simp [eq_comm]
  | cons a rest ih =>
      rw [List.mapM_cons, List.forall₂_cons_left_iff]
      simp only [Option.bind_eq_bind, Option.bind_eq_some_iff, Option.pure_def, Option.some_inj, ih]
      constructor
      · rintro ⟨b, hb, others, hothers, rfl⟩
        exact ⟨b, others, hb, hothers, rfl⟩
      · rintro ⟨b, others, hb, hothers, rfl⟩
        exact ⟨b, hb, others, hothers, rfl⟩

/-! ## The first line -/

namespace Text

def firstLine (text : List Char) : List Char := text.takeWhile (· != '\n')

theorem firstLine_append {line : List Char} (h : '\n' ∉ line) (later : List Char) :
    firstLine (line ++ '\n' :: later) = line := by
  have hline : ∀ c ∈ line, (c != '\n') = true := by
    rintro c hmem
    exact bne_iff_ne.2 fun heq => h (heq ▸ hmem)
  rw [firstLine, List.takeWhile_append_of_pos hline]
  simp

theorem firstLine_of_not_mem {line : List Char} (h : '\n' ∉ line) : firstLine line = line := by
  rw [firstLine, List.takeWhile_eq_self_iff]
  intro c hmem
  exact bne_iff_ne.2 fun heq => h (heq ▸ hmem)

theorem words_dropReturn (line : List Char) : words (dropReturn line) = words line := by
  rw [dropReturn]
  split
  · next hlast =>
      obtain ⟨front, rfl⟩ := List.getLast?_eq_some_iff.1 hlast
      rw [List.dropLast_concat, words_concat (by decide)]
  · rfl

/-- The words of the first line, if there is a line at all. -/
theorem map_words_head?_lines (text : List Char) :
    (lines text).head?.map words = if text = [] then none else some (words (firstLine text)) := by
  by_cases hfeed : '\n' ∈ text
  · obtain ⟨line, later, rfl, hline⟩ := List.eq_append_cons_of_mem hfeed
    rw [lines_append_cons, List.splitOn_eq_singleton hline, firstLine_append hline]
    simp [words_dropReturn]
  · rw [firstLine_of_not_mem hfeed]
    split
    · next hnil => simp [hnil]
    · next hne => simp [lines_of_not_mem hfeed hne]

end Text

namespace NodeState

/-! ## Lines of numbers -/

/-- A line that is made of numerals for these words, and of blanks. -/
def Lists (line : List Char) (values : List Int64) : Prop :=
  ∃ tokens, Text.Spaced tokens line ∧
    List.Forall₂ (fun token (value : Int64) => Text.Numeral token value.toInt) tokens values

theorem readInt64?_of_numeral {token : List Char} {value : Int64}
    (h : Text.Numeral token value.toInt) : Text.readInt64? token = some value.toInt :=
  Text.readInt64?_eq_some_iff.2 ⟨h, value.le_toInt, Int.le_sub_one_of_lt value.toInt_lt⟩

theorem exists_values {tokens : List (List Char)} {fields : List Int}
    (h : List.Forall₂ (fun token n => Text.readInt64? token = some n) tokens fields) :
    ∃ values : List Int64, fields = values.map Int64.toInt ∧
      List.Forall₂ (fun token (value : Int64) => Text.Numeral token value.toInt) tokens values := by
  induction h with
  | nil => exact ⟨[], rfl, .nil⟩
  | @cons token n tokens fields hread hrest ih =>
      obtain ⟨values, rfl, hvalues⟩ := ih
      obtain ⟨hnumeral, hge, hle⟩ := Text.readInt64?_eq_some_iff.1 hread
      have hexact : (Int64.ofInt n).toInt = n :=
        Int64.toInt_ofInt_of_le hge (Int.lt_of_le_sub_one hle)
      exact ⟨Int64.ofInt n :: values, by rw [List.map_cons, hexact],
        .cons (hexact.symm ▸ hnumeral) hvalues⟩

theorem mapM_words_eq_some_iff {line : List Char} {fields : List Int} :
    (Text.words line).mapM Text.readInt64? = some fields ↔
      ∃ values, Lists line values ∧ fields = values.map Int64.toInt := by
  rw [mapM_eq_some_iff]
  constructor
  · intro h
    obtain ⟨values, hfields, hvalues⟩ := exists_values h
    exact ⟨values, ⟨_, Text.spaced_words line, hvalues⟩, hfields⟩
  · rintro ⟨values, ⟨tokens, hspaced, hvalues⟩, rfl⟩
    rw [hspaced.words_eq, List.forall₂_map_right_iff]
    exact hvalues.imp fun _ _ => readInt64?_of_numeral

/-! ## Texts -/

theorem parse?_eq (text : List Char) :
    parse? text =
      ((Text.words (Text.firstLine text)).mapM Text.readInt64?).bind ofFields? := by
  have hhead := Text.map_words_head?_lines text
  by_cases hnil : text = []
  · subst hnil
    rfl
  · rw [if_neg hnil] at hhead
    obtain ⟨line, hline, hwords⟩ := Option.map_eq_some_iff.1 hhead
    rw [← hwords, parse?, hline]
    rfl

theorem parse?_eq_some_iff {text : List Char} {state : NodeState} :
    parse? text = some state ↔
      ∃ (total unused age pages negative : Int64) (more : List Int64),
        Lists (Text.firstLine text) (total :: unused :: age :: pages :: negative :: more) ∧
          state =
            { total := total.toInt, unused := unused.toInt, negative := negative.toInt } := by
  rw [parse?_eq]
  simp only [Option.bind_eq_some_iff, mapM_words_eq_some_iff]
  constructor
  · rintro ⟨_, ⟨values, hlists, rfl⟩, hstate⟩
    -- fewer than five values give no counts
    match values, hlists, hstate with
    | total :: unused :: age :: pages :: negative :: more, hlists, hstate =>
        exact ⟨total, unused, age, pages, negative, more, hlists, (Option.some.inj hstate).symm⟩
  · rintro ⟨total, unused, age, pages, negative, more, hlists, rfl⟩
    exact ⟨_, ⟨_, hlists, rfl⟩, rfl⟩

/-! ## Refused lines -/

/-- One word that is no numeral for a signed word is enough. -/
theorem parse?_eq_none_of_word {text token : List Char} {tokens : List (List Char)}
    (hspaced : Text.Spaced tokens (Text.firstLine text)) (hmem : token ∈ tokens)
    (h : ∀ value : Int64, ¬ Text.Numeral token value.toInt) : parse? text = none := by
  rw [Option.eq_none_iff_forall_ne_some]
  intro state hparse
  obtain ⟨total, unused, age, pages, negative, more, ⟨others, hothers, hvalues⟩, -⟩ :=
    parse?_eq_some_iff.1 hparse
  rw [← hothers.words_eq, hspaced.words_eq] at hvalues
  obtain ⟨i, hi, rfl⟩ := List.getElem_of_mem hmem
  exact h _ (hvalues.get hi (hvalues.length_eq ▸ hi))

theorem parse?_eq_none_of_outside {text token : List Char} {tokens : List (List Char)}
    (hspaced : Text.Spaced tokens (Text.firstLine text)) (hmem : token ∈ tokens) {n : Int}
    (hnumeral : Text.Numeral token n)
    (hout : n < Int64.minValue.toInt ∨ Int64.maxValue.toInt < n) : parse? text = none := by
  refine parse?_eq_none_of_word hspaced hmem fun value hvalue => ?_
  obtain ⟨-, hge, hle⟩ := Text.readInt64?_eq_some_iff.1 (readInt64?_of_numeral hvalue)
  rw [← hnumeral.unique hvalue] at hge hle
  omega

theorem parse?_eq_none_of_short {text : List Char} {tokens : List (List Char)}
    (hspaced : Text.Spaced tokens (Text.firstLine text)) (hshort : tokens.length < 5) :
    parse? text = none := by
  rw [Option.eq_none_iff_forall_ne_some]
  intro state hparse
  obtain ⟨total, unused, age, pages, negative, more, ⟨others, hothers, hvalues⟩, -⟩ :=
    parse?_eq_some_iff.1 hparse
  rw [← hothers.words_eq, hspaced.words_eq] at hvalues
  have hlength := hvalues.length_eq
  simp only [List.length_cons] at hlength
  omega

/--
A character that a line of numerals does not have there: it is no blank and no digit, and
it is no sign that begins a word and has a digit behind it.
-/
def Stray (before : List Char) (c : Char) (after : List Char) : Prop :=
  Text.isBlank c = false ∧ c.isDigit = false ∧
    ¬ ((c = '+' ∨ c = '-') ∧ (∀ b ∈ before.getLast?, Text.isBlank b = true) ∧
      ∃ d ∈ after.head?, d.isDigit = true)

theorem parse?_eq_none_of_stray {text before after : List Char} {c : Char}
    (hsplit : Text.firstLine text = before ++ c :: after) (hstray : Stray before c after) :
    parse? text = none := by
  obtain ⟨hblank, hdigit, hsign⟩ := hstray
  have hspaced := Text.spaced_words (Text.firstLine text)
  obtain ⟨start, front, back, rest, rfl, rfl, hmem, hstart⟩ := hspaced.exists_word hsplit hblank
  refine parse?_eq_none_of_word hspaced hmem fun value hvalue => ?_
  obtain ⟨rfl, hc, d, hd, hdigit⟩ := hvalue.sign hdigit
  refine hsign ⟨hc, by rwa [List.append_nil], d, ?_, hdigit⟩
  rw [List.head?_append, show back.head? = some d from hd, Option.some_or]
  rfl

/-! ## The grammar -/

/-- Numbers written one after another, with blanks around and between them, are read back. -/
theorem parse?_written {text : List Char} {total unused age pages negative : Int64}
    {more : List Int64}
    (h : Text.Spaced ((total :: unused :: age :: pages :: negative :: more).map fun value =>
      JsonDoc.writeInt value.toInt) (Text.firstLine text)) :
    parse? text = some
      { total := total.toInt, unused := unused.toInt, negative := negative.toInt } := by
  refine parse?_eq_some_iff.2
    ⟨total, unused, age, pages, negative, more, ⟨_, h, ?_⟩, rfl⟩
  rw [List.forall₂_map_left_iff, List.forall₂_same]
  exact fun value _ => Text.numeral_writeInt value.toInt

/--
A text gives counts exactly if its first line is made of five numerals or more, all of
which fit signed words; they are the first, the second and the fifth. Lines after the
first do not matter. So numbers are read back however they are spaced, while a value
outside the range, a word too few or a stray character has the line refused as a whole.
-/
theorem parse?_accepts_grammar (text : List Char) :
    (∀ state, parse? text = some state ↔
      ∃ (total unused age pages negative : Int64) (more : List Int64),
        Lists (Text.firstLine text) (total :: unused :: age :: pages :: negative :: more) ∧
          state =
            { total := total.toInt, unused := unused.toInt, negative := negative.toInt }) ∧
      (∀ other, Text.firstLine other = Text.firstLine text → parse? other = parse? text) ∧
      (∀ (total unused age pages negative : Int64) (more : List Int64),
        Text.Spaced ((total :: unused :: age :: pages :: negative :: more).map fun value =>
          JsonDoc.writeInt value.toInt) (Text.firstLine text) →
        parse? text = some
          { total := total.toInt, unused := unused.toInt, negative := negative.toInt }) ∧
      (∀ tokens, Text.Spaced tokens (Text.firstLine text) →
        (tokens.length < 5 → parse? text = none) ∧
          ∀ token ∈ tokens, ∀ n, Text.Numeral token n →
            n < Int64.minValue.toInt ∨ Int64.maxValue.toInt < n → parse? text = none) ∧
      ∀ before c after, Text.firstLine text = before ++ c :: after → Stray before c after →
        parse? text = none := by
  refine ⟨fun state => parse?_eq_some_iff, fun other hsame => ?_, ?_, fun tokens hspaced => ?_, ?_⟩
  · rw [parse?_eq, parse?_eq, hsame]
  · exact fun total unused age pages negative more h => parse?_written h
  · exact ⟨parse?_eq_none_of_short hspaced,
      fun token hmem n hnumeral hout => parse?_eq_none_of_outside hspaced hmem hnumeral hout⟩
  · exact fun before c after hsplit hstray => parse?_eq_none_of_stray hsplit hstray

/-- Both extreme values between blanks, a value that is one too large, and a lone sign. -/
theorem parse?_accepts_grammar_extremes :
    let text := " 9223372036854775807\t-9223372036854775808  0 7 -1\t\nx".toList
    let large := "1 2 3 4 5 9223372036854775808".toList
    let signed := "1 2 - 4 5 6".toList
    Text.Spaced ([Int64.maxValue, Int64.minValue, 0, 7, -1].map fun value =>
        JsonDoc.writeInt value.toInt) (Text.firstLine text) ∧
      parse? text =
        some { total := 9223372036854775807, unused := -9223372036854775808, negative := -1 } ∧
      Text.Spaced ["1".toList, "2".toList, "3".toList, "4".toList, "5".toList,
        Text.decimal 9223372036854775808] (Text.firstLine large) ∧
      parse? large = none ∧
      Stray "1 2 ".toList '-' " 4 5 6".toList ∧ parse? signed = none := by
  intro text large signed
  have htext : Text.Spaced ([Int64.maxValue, Int64.minValue, 0, 7, -1].map fun value =>
      JsonDoc.writeInt value.toInt) (Text.firstLine text) :=
    Text.spaced_iff.2 (by decide +kernel)
  have hlarge : Text.Spaced ["1".toList, "2".toList, "3".toList, "4".toList, "5".toList,
      Text.decimal 9223372036854775808] (Text.firstLine large) :=
    Text.spaced_iff.2 (by decide +kernel)
  have hstray : Stray "1 2 ".toList '-' " 4 5 6".toList := by
    refine ⟨by decide, by decide, ?_⟩
    rintro ⟨-, -, d, hd, hdigit⟩
    obtain rfl : ' ' = d := Option.some.inj hd
    cases hdigit
  refine ⟨htext, (parse?_accepts_grammar text).2.2.1 _ _ _ _ _ _ htext, hlarge, ?_, hstray, ?_⟩
  · exact ((parse?_accepts_grammar large).2.2.2.1 _ hlarge).2 _ (by simp) _
      (.plain (Text.digits_decimal 9223372036854775808)) (.inr (by decide))
  · exact (parse?_accepts_grammar signed).2.2.2.2 _ _ _ (by decide +kernel) hstray

end NodeState

end DentryWatch
