import Mathlib

/-!
# Decimal numerals for the standard library

The numeral of a number, numerals one behind the other, and the numbers they stand for.

## Key results

- `toDigits_append`: digits behind a numeral make the numeral of a number
- `exists_append_toDigits_eq_iff`: when two numerals can be continued by numerals to the same
  text
- `ofDigitChars_append_toDigits_inj`: behind a fixed numeral, different numerals make
  different numbers
-/

namespace Nat

theorem toDigits_inj {a b : Nat} : toDigits 10 a = toDigits 10 b ↔ a = b := by
  rw [← toList_repr, ← toList_repr, String.toList_inj, Nat.repr_inj]

/-- The numeral of a number other than zero does not begin with a zero. -/
theorem head_toDigits_ne {n : Nat} (hn : n ≠ 0) : (toDigits 10 n).head? ≠ some '0' := by
  induction n using Nat.strong_induction_on with
  | _ n ih =>
    rw [toDigits_eq_if (by decide)]
    split
    · simpa using hn
    · rw [List.head?_append_of_ne_nil _ toDigits_ne_nil]
      exact ih _ (by omega) (by omega)

/-- The code of a digit. -/
theorem toNat_of_isDigit {c : Char} (hc : c.isDigit = true) :
    c.toNat - '0'.toNat < 10 ∧ 48 + (c.toNat - '0'.toNat) = c.toNat := by
  obtain ⟨hle, hge⟩ := Char.isDigit_iff_toNat.mp hc
  have hzero : '0'.toNat = 48 := rfl
  have hnine : '9'.toNat = 57 := rfl
  omega

/-- A digit is the numeral of its number. -/
theorem toDigits_digit {c : Char} (hc : c.isDigit = true) :
    toDigits 10 (c.toNat - '0'.toNat) = [c] := by
  obtain ⟨hlt, hcode⟩ := toNat_of_isDigit hc
  have hchar : (c.toNat - '0'.toNat).digitChar = c := by
    rw [← Char.toNat_inj, toNat_digitChar_of_lt_ten hlt, hcode]
  rw [toDigits_of_lt_base hlt, hchar]

/-- Digits behind the numeral of a number other than zero make the numeral of a number. -/
theorem toDigits_append {n : Nat} (hn : n ≠ 0) {l : List Char}
    (hl : ∀ c ∈ l, c.isDigit = true) :
    toDigits 10 n ++ l = toDigits 10 (ofDigitChars 10 l n) := by
  induction l generalizing n with
  | nil => simp
  | cons c l ih =>
    rw [List.forall_mem_cons] at hl
    have hlt := (toNat_of_isDigit hl.1).1
    -- one digit at a time: it is the last one of ten times the number and itself
    calc toDigits 10 n ++ c :: l
        = (toDigits 10 n ++ toDigits 10 (c.toNat - '0'.toNat)) ++ l := by
          rw [toDigits_digit hl.1, List.append_assoc, List.singleton_append]
      _ = toDigits 10 (10 * n + (c.toNat - '0'.toNat)) ++ l := by
          rw [toDigits_append_toDigits (by decide) (Nat.pos_of_ne_zero hn) hlt]
      _ = toDigits 10 (ofDigitChars 10 (c :: l) n) := by
          rw [ih (by omega) hl.2, ofDigitChars_cons]

theorem isDigit_toDigits {n : Nat} : ∀ c ∈ toDigits 10 n, c.isDigit = true :=
  fun _ hc => isDigit_of_mem_toDigits (by decide) (by decide) hc

/-- Digits that do not begin with a zero are a numeral. -/
theorem exists_toDigits_eq_cons {x : Char} {t : List Char} (hx : x ≠ '0')
    (hdigit : ∀ c ∈ x :: t, c.isDigit = true) : ∃ n, toDigits 10 n = x :: t := by
  rw [List.forall_mem_cons] at hdigit
  -- the first digit is not zero, so nothing is lost when the number is written again
  have hne : x.toNat - '0'.toNat ≠ 0 := by
    intro hzero
    have hnum := toDigits_digit hdigit.1
    rw [hzero, toDigits_zero] at hnum
    exact hx (List.cons.inj hnum).1.symm
  exact ⟨_, by rw [← toDigits_append hne hdigit.2, toDigits_digit hdigit.1]; rfl⟩

/-! ## Two numerals continued by numerals -/

/-- The numeral of `b` is that of `a`, continued by a digit other than zero. -/
def ExtendsDigits (a b : Nat) : Prop :=
  ∃ x t, x ≠ '0' ∧ toDigits 10 b = toDigits 10 a ++ x :: t

/-- The longer numeral is continued by a zero, the shorter one by what it lacks. -/
theorem ExtendsDigits.exists_append_eq {a b : Nat} (h : ExtendsDigits a b) :
    ∃ c, toDigits 10 a ++ toDigits 10 c = toDigits 10 b ++ toDigits 10 0 := by
  obtain ⟨x, t, hx, hb⟩ := h
  -- what the longer one has more, and the zero, are digits
  have hdigit : ∀ c ∈ x :: (t ++ toDigits 10 0), c.isDigit = true := by
    intro c hc
    rw [← List.cons_append, List.mem_append] at hc
    rcases hc with hc | hc
    · exact isDigit_toDigits (n := b) c (by rw [hb]; exact List.mem_append_right _ hc)
    · exact isDigit_toDigits c hc
  obtain ⟨c, hc⟩ := exists_toDigits_eq_cons hx hdigit
  exact ⟨c, by rw [hc, hb, List.append_assoc, List.cons_append]⟩

/-- What a numeral lacks of a longer one begins with a digit other than zero, if the rest is
    the beginning of a numeral. -/
theorem ExtendsDigits.of_append_eq {a b c d : Nat} {t : List Char} (hab : a ≠ b)
    (hb : toDigits 10 b = toDigits 10 a ++ t) (hc : toDigits 10 c = t ++ toDigits 10 d) :
    ExtendsDigits a b := by
  cases t with
  | nil =>
    rw [List.append_nil] at hb
    exact absurd (toDigits_inj.mp hb).symm hab
  | cons x t =>
    refine ⟨x, t, ?_, hb⟩
    rintro rfl
    -- the only numeral that begins with a zero is that of zero
    have hzero : c = 0 := by
      by_contra hne
      exact head_toDigits_ne hne (by rw [hc]; rfl)
    rw [hzero, toDigits_zero, List.cons_append] at hc
    exact toDigits_ne_nil (List.append_eq_nil_iff.mp (List.cons.inj hc).2.symm).2

/-- Two numerals can be continued by numerals to the same text exactly when one of them is
    the other continued by a digit other than zero. -/
theorem exists_append_toDigits_eq_iff {a b : Nat} (hab : a ≠ b) :
    (∃ c d, toDigits 10 a ++ toDigits 10 c = toDigits 10 b ++ toDigits 10 d) ↔
      ExtendsDigits a b ∨ ExtendsDigits b a := by
  constructor
  · rintro ⟨c, d, h⟩
    -- one of the two first numerals is the beginning of the other
    rcases List.append_eq_append_iff.mp h with ⟨t, hb, hc⟩ | ⟨t, ha, hd⟩
    · exact .inl (.of_append_eq hab hb hc)
    · exact .inr (.of_append_eq (Ne.symm hab) ha hd)
  · rintro (h | h)
    · obtain ⟨c, hc⟩ := h.exists_append_eq
      exact ⟨c, 0, hc⟩
    · obtain ⟨d, hd⟩ := h.exists_append_eq
      exact ⟨0, d, hd.symm⟩

/-! ## Their numbers -/

/-- The number of two numerals in a row. -/
theorem ofDigitChars_append_toDigits (a c : Nat) :
    ofDigitChars 10 (toDigits 10 a ++ toDigits 10 c) 0 = 10 ^ (toDigits 10 c).length * a + c := by
  rw [ofDigitChars_append, ofDigitChars_ten_toDigits, ofDigitChars_eq_ofDigitChars_zero,
    ofDigitChars_ten_toDigits]

/-- Unless it begins with that of zero, a numeral with another behind it is the numeral of
    its number. -/
theorem toDigits_ofDigitChars_append {a : Nat} (ha : a ≠ 0) (c : Nat) :
    toDigits 10 (ofDigitChars 10 (toDigits 10 a ++ toDigits 10 c) 0) =
      toDigits 10 a ++ toDigits 10 c := by
  rw [ofDigitChars_append, ofDigitChars_ten_toDigits, ← toDigits_append ha isDigit_toDigits]

/-- Behind a fixed numeral, different numerals make different numbers. -/
theorem ofDigitChars_append_toDigits_inj {a c d : Nat} :
    ofDigitChars 10 (toDigits 10 a ++ toDigits 10 c) 0 =
        ofDigitChars 10 (toDigits 10 a ++ toDigits 10 d) 0 ↔ c = d := by
  refine ⟨fun h => ?_, fun h => by rw [h]⟩
  by_cases ha : a = 0
  -- a zero in front counts for nothing
  · subst ha
    rw [ofDigitChars_append_toDigits, ofDigitChars_append_toDigits] at h
    omega
  · have hnum := congrArg (toDigits 10) h
    rw [toDigits_ofDigitChars_append ha, toDigits_ofDigitChars_append ha] at hnum
    exact toDigits_inj.mp (List.append_cancel_left hnum)

/-! ## Reading numerals -/

/-- The number of a text of digits. -/
def ofNumeral? (s : List Char) : Option Nat :=
  if !s.isEmpty && s.all Char.isDigit then some (ofDigitChars 10 s 0) else none

/-- A numeral is read as its number. -/
@[simp] theorem ofNumeral?_toDigits (n : Nat) : ofNumeral? (toDigits 10 n) = some n := by
  have hne : toDigits 10 n ≠ [] := toDigits_ne_nil
  have hall : (toDigits 10 n).all Char.isDigit = true := List.all_eq_true.mpr isDigit_toDigits
  rw [ofNumeral?, if_pos (by simp [hne, hall]), ofDigitChars_ten_toDigits]

/-- A numeral has no sign. -/
theorem toDigits_ne_minus {n : Nat} {s : List Char} : toDigits 10 n ≠ '-' :: s := by
  intro h
  have hdigit := isDigit_toDigits (n := n) '-' (by rw [h]; exact List.mem_cons_self)
  exact absurd hdigit (by decide)

end Nat

namespace Int

/-- The numeral of a whole number. -/
def numeral (n : Int) : List Char :=
  if n < 0 then '-' :: Nat.toDigits 10 n.natAbs else Nat.toDigits 10 n.natAbs

/-- The whole number of a text of digits, with a minus or without. -/
def ofNumeral? : List Char → Option Int
  | '-' :: s => (Nat.ofNumeral? s).map fun n : Nat => -(n : Int)
  | s => (Nat.ofNumeral? s).map fun n : Nat => (n : Int)

/-- So is a numeral with a sign. -/
@[simp] theorem ofNumeral?_numeral (n : Int) : ofNumeral? n.numeral = some n := by
  unfold numeral
  split
  · rw [ofNumeral?, Nat.ofNumeral?_toDigits, Option.map_some]
    congr 1
    omega
  · rw [ofNumeral?, Nat.ofNumeral?_toDigits, Option.map_some]
    · congr 1
      omega
    · exact fun s h => Nat.toDigits_ne_minus h

end Int
