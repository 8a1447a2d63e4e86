import Mathlib.Data.List.Basic
import DentryWatch.Report.Json
import DentryWatch.Text.Numeral

/-!
# Signed numerals

A numeral is a run of digits with at most one sign in front. Readers take exactly the
numerals whose value is in their range, and what is written of a number is a numeral
with its value.
-/

namespace DentryWatch.Text

structure Digits (digits : List Char) (n : Nat) : Prop where
  ne_nil : digits ≠ []
  digit : ∀ c ∈ digits, c.isDigit = true
  value : Nat.ofDigitChars 10 digits 0 = n

/-- A decimal numeral: digits with at most one sign in front. -/
inductive Numeral : List Char → Int → Prop where
  | plain {digits : List Char} {n : Nat} (h : Digits digits n) : Numeral digits n
  | plus {digits : List Char} {n : Nat} (h : Digits digits n) : Numeral ('+' :: digits) n
  | minus {digits : List Char} {n : Nat} (h : Digits digits n) : Numeral ('-' :: digits) (-n)

/-! ## Digits -/

theorem Digits.not_mem {digits : List Char} {n : Nat} (h : Digits digits n) {c : Char}
    (hc : c.isDigit = false) : c ∉ digits := by
  intro hmem
  rw [h.digit c hmem] at hc
  cases hc

theorem Digits.head {digits : List Char} {n : Nat} (h : Digits digits n) :
    ∃ d ∈ digits.head?, d.isDigit = true := by
  obtain ⟨d, rest, rfl⟩ := List.exists_cons_of_ne_nil h.ne_nil
  exact ⟨d, rfl, h.digit d List.mem_cons_self⟩

theorem digits_decimal (n : Nat) : Digits (decimal n) n where
  ne_nil := decimal_ne_nil n
  digit _ := isDigit_of_mem_decimal
  value := Nat.ofDigitChars_ten_toDigits

theorem readDigits?_eq_some_iff {digits : List Char} {n : Nat} :
    readDigits? digits = some n ↔ Digits digits n := by
  rw [readDigits?, Option.ite_none_left_eq_some, Option.some_inj]
  simp only [Bool.or_eq_true, Bool.not_eq_true', List.isEmpty_iff, List.all_eq_false, not_or,
    not_exists, not_and, Bool.not_eq_true, Bool.not_eq_false]
  constructor
  · rintro ⟨⟨hne, hdigit⟩, hvalue⟩
    exact ⟨hne, hdigit, hvalue⟩
  · exact fun h => ⟨⟨h.ne_nil, h.digit⟩, h.value⟩

/-- Unsigned readers admit a plus in front. -/
theorem readBelow?_eq_some_iff {bound n : Nat} {s : List Char} :
    readBelow? bound s = some n ↔
      (Digits s n ∨ ∃ digits, s = '+' :: digits ∧ Digits digits n) ∧ n < bound := by
  unfold readBelow?
  rw [Option.filter_eq_some_iff, readDigits?_eq_some_iff, decide_eq_true_iff]
  refine and_congr_left fun _ => ?_
  split
  · next digits =>
      constructor
      · exact fun h => .inr ⟨digits, rfl, h⟩
      · rintro (h | ⟨_, heq, h⟩)
        · exact absurd List.mem_cons_self (h.not_mem (c := '+') rfl)
        · exact (List.cons.inj heq).2 ▸ h
  · next hplus =>
      constructor
      · exact .inl
      · rintro (h | ⟨digits, rfl, -⟩)
        · exact h
        · exact absurd rfl (hplus digits)

theorem readWord64?_decimal (word : UInt64) :
    readWord64? (decimal word.toNat) = some word := by
  have hread : readBelow? UInt64.size (decimal word.toNat) = some word.toNat :=
    readBelow?_eq_some_iff.2 ⟨.inl (digits_decimal _), word.toNat_lt⟩
  rw [readWord64?, hread, Option.map_some, UInt64.ofNat_toNat]

/-! ## Signed numerals -/

/-- A numeral has one value. -/
theorem Numeral.unique {s : List Char} {n m : Int} (h : Numeral s n) (h' : Numeral s m) :
    n = m := by
  cases h with
  | plain h =>
      cases h' with
      | plain h' => rw [← h.value, h'.value]
      | plus _ => exact absurd List.mem_cons_self (h.not_mem (c := '+') rfl)
      | minus _ => exact absurd List.mem_cons_self (h.not_mem (c := '-') rfl)
  | plus h =>
      cases h' with
      | plain h' => exact absurd List.mem_cons_self (h'.not_mem (c := '+') rfl)
      | plus h' => rw [← h.value, h'.value]
  | minus h =>
      cases h' with
      | plain h' => exact absurd List.mem_cons_self (h'.not_mem (c := '-') rfl)
      | minus h' => rw [← h.value, h'.value]

/-- In a numeral only a sign at its beginning is no digit, and a digit follows it. -/
theorem Numeral.sign {front back : List Char} {c : Char} {n : Int}
    (h : Numeral (front ++ c :: back) n) (hc : c.isDigit = false) :
    front = [] ∧ (c = '+' ∨ c = '-') ∧ ∃ d ∈ back.head?, d.isDigit = true := by
  generalize hs : front ++ c :: back = s at h
  have hbehind : ∀ {sign : Char} {digits : List Char} {n : Nat}, Digits digits n →
      front ++ c :: back = sign :: digits →
        front = [] ∧ c = sign ∧ ∃ d ∈ back.head?, d.isDigit = true := by
    intro sign digits n h heq
    cases front with
    | nil =>
        obtain ⟨rfl, rfl⟩ := List.cons.inj heq
        exact ⟨rfl, rfl, h.head⟩
    | cons first front =>
        have hmem : c ∈ digits := by
          rw [← (List.cons.inj heq).2]
          exact List.mem_append_right _ List.mem_cons_self
        exact absurd hmem (h.not_mem hc)
  cases h with
  | plain h =>
      rw [← hs] at h
      exact absurd (List.mem_append_right _ List.mem_cons_self) (h.not_mem hc)
  | plus h => exact (hbehind h hs).imp_right fun h => h.imp_left .inl
  | minus h => exact (hbehind h hs).imp_right fun h => h.imp_left .inr

theorem readInt64?_minus (digits : List Char) :
    readInt64? ('-' :: digits) =
      ((readDigits? digits).filter (· ≤ int64Bound)).map fun n : Nat => -(n : Int) := by
  rw [readInt64?]
  cases (readDigits? digits).filter (· ≤ int64Bound) <;> rfl

/-- The reader takes the numerals whose value fits a signed word. -/
theorem readInt64?_eq_some_iff {s : List Char} {n : Int} :
    readInt64? s = some n ↔
      Numeral s n ∧ Int64.minValue.toInt ≤ n ∧ n ≤ Int64.maxValue.toInt := by
  have hmin : Int64.minValue.toInt = -(int64Bound : Int) := rfl
  have hmax : Int64.maxValue.toInt = (int64Bound : Int) - 1 := rfl
  have hpos : 0 < int64Bound := by decide
  rw [hmin, hmax]
  by_cases hsign : ∃ digits, s = '-' :: digits
  · obtain ⟨digits, rfl⟩ := hsign
    simp only [readInt64?_minus, Option.map_eq_some_iff, Option.filter_eq_some_iff,
      readDigits?_eq_some_iff, decide_eq_true_iff]
    constructor
    · rintro ⟨m, ⟨h, hle⟩, rfl⟩
      exact ⟨.minus h, by omega, by omega⟩
    · rintro ⟨h, hge, -⟩
      cases h with
      | plain h => exact absurd List.mem_cons_self (h.not_mem (c := '-') rfl)
      | @minus _ m h => exact ⟨m, ⟨h, by omega⟩, rfl⟩
  · have hread : readInt64? s = (readBelow? int64Bound s).map Int.ofNat := by
      unfold readInt64?
      split
      · next digits => exact absurd ⟨digits, rfl⟩ hsign
      · rfl
    simp only [hread, Option.map_eq_some_iff, readBelow?_eq_some_iff]
    constructor
    · rintro ⟨m, ⟨h | ⟨digits, rfl, h⟩, hlt⟩, rfl⟩
      · exact ⟨.plain h, by simp only [Int.ofNat_eq_natCast]; omega⟩
      · exact ⟨.plus h, by simp only [Int.ofNat_eq_natCast]; omega⟩
    · rintro ⟨h, -, hle⟩
      cases h with
      | @plain _ m h => exact ⟨m, ⟨.inl h, by omega⟩, rfl⟩
      | @plus digits m h => exact ⟨m, ⟨.inr ⟨digits, rfl, h⟩, by omega⟩, rfl⟩
      | @minus digits m h => exact absurd ⟨digits, rfl⟩ hsign

theorem numeral_writeInt (n : Int) : Numeral (JsonDoc.writeInt n) n := by
  rw [JsonDoc.writeInt]
  split
  · have hminus := Numeral.minus (digits_decimal n.natAbs)
    rwa [show -(n.natAbs : Int) = n by omega] at hminus
  · have hplain := Numeral.plain (digits_decimal n.natAbs)
    rwa [show (n.natAbs : Int) = n by omega] at hplain

end DentryWatch.Text
