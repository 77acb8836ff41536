import Mathlib

/-!
# The whole numbers of JavaScript

A number of JavaScript has 53 significant bits. Here are those that are whole, with the
infinities and `NaN`, and their sums, differences and remainders: the exact result, rounded to
the nearest number, and of two equally near ones to the even one. Zero has no sign.

## Key results

- `le_roundNat`: rounding does not go below a number of 53 bits
- `roundNat_le`: a number that is not too far above the largest one is rounded down to it
-/

namespace JsNumber

/-! ## Rounding -/

/-- Round to 53 significant bits. -/
def roundNat (n : Nat) : Nat :=
  let e := n.log2 - 52
  let q := n / 2 ^ e
  let r := n % 2 ^ e
  (if 2 ^ e < 2 * r ∨ (2 * r = 2 ^ e ∧ q % 2 = 1) then q + 1 else q) * 2 ^ e

/-- A number with no more than 53 bits stays. -/
theorem roundNat_of_lt {n : Nat} (h : n < 2 ^ 53) : roundNat n = n := by
  have hlog : n.log2 - 52 = 0 := by
    by_cases hn : n = 0
    · simp [hn]
    · have hlt := (Nat.log2_lt hn).mpr h
      omega
  simp [roundNat, hlog, Nat.mod_one]

/-- The bits that are kept. -/
theorem div_lt_two_pow (n : Nat) : n / 2 ^ (n.log2 - 52) < 2 ^ 53 := by
  apply Nat.div_lt_of_lt_mul
  have hlt := Nat.lt_log2_self (n := n)
  calc n < 2 ^ (n.log2 + 1) := hlt
    _ ≤ 2 ^ (n.log2 - 52 + 53) := Nat.pow_le_pow_right (by omega) (by omega)
    _ = 2 ^ (n.log2 - 52) * 2 ^ 53 := Nat.pow_add ..

/-- Rounding does not go below a number of 53 bits. -/
theorem le_roundNat {m n : Nat} (hm : m ≤ 2 ^ 53) (h : m ≤ n) : m ≤ roundNat n := by
  by_cases hn : n < 2 ^ 53
  · rw [roundNat_of_lt hn]
    exact h
  · have hpos : n ≠ 0 := by omega
    have hlog : 53 ≤ n.log2 := (Nat.le_log2 hpos).mpr (by omega)
    have hself := Nat.log2_self_le hpos
    -- at least 52 bits stand before those that are dropped
    have hq : 2 ^ 52 ≤ n / 2 ^ (n.log2 - 52) := by
      rw [Nat.le_div_iff_mul_le (by positivity), ← Nat.pow_add]
      have hexp : 52 + (n.log2 - 52) = n.log2 := by omega
      rw [hexp]
      exact hself
    have hp : 2 ^ 1 ≤ 2 ^ (n.log2 - 52) := Nat.pow_le_pow_right (by omega) (by omega)
    calc m ≤ 2 ^ 52 * 2 ^ 1 := by omega
      _ ≤ n / 2 ^ (n.log2 - 52) * 2 ^ (n.log2 - 52) := Nat.mul_le_mul hq hp
      _ ≤ roundNat n := by
        apply Nat.mul_le_mul_right
        split <;> omega

/-- A number less than half a unit above the largest one with the exponent `k` is rounded to
    no more than that one. -/
theorem roundNat_le {n k : Nat} (h : 2 * n < (2 ^ 54 - 1) * 2 ^ k) :
    roundNat n ≤ (2 ^ 53 - 1) * 2 ^ k := by
  have hq := div_lt_two_pow n
  have hdiv := Nat.div_add_mod n (2 ^ (n.log2 - 52))
  have hle : n.log2 - 52 ≤ k := by
    by_cases hn : n = 0
    · simp [hn]
    · have hlt : n < 2 ^ (k + 53) := by
        rw [Nat.pow_add]
        omega
      have hlog := (Nat.log2_lt hn).mpr hlt
      omega
  rcases Nat.lt_or_eq_of_le hle with hlt | heq
  · -- fewer bits are dropped
    have hp : 2 ^ (n.log2 - 52) * 2 ≤ 2 ^ k := by
      rw [← Nat.pow_succ]
      exact Nat.pow_le_pow_right (by omega) hlt
    calc roundNat n ≤ 2 ^ 53 * 2 ^ (n.log2 - 52) := by
          apply Nat.mul_le_mul_right
          split <;> omega
      _ = 2 ^ 52 * (2 ^ (n.log2 - 52) * 2) := by ring
      _ ≤ (2 ^ 53 - 1) * 2 ^ k := Nat.mul_le_mul (by omega) hp
  · unfold roundNat
    rw [heq] at hq hdiv ⊢
    apply Nat.mul_le_mul_right
    by_cases htop : n / 2 ^ k = 2 ^ 53 - 1
    · -- what is dropped is less than half a unit
      rw [if_neg]
      · omega
      · rw [htop] at hdiv ⊢
        omega
    · split <;> omega

/-- The largest number. -/
@[irreducible] def maxValue : Nat := (2 ^ 53 - 1) * 2 ^ 971

end JsNumber

inductive JsNumber where
  | nan
  | infinity (negative : Bool)
  | int (n : Int) (le : n.natAbs ≤ JsNumber.maxValue)

namespace JsNumber

/-! ## Arithmetic -/

/-- The number nearest to an integer. -/
def ofInt (n : Int) : JsNumber :=
  if h : roundNat n.natAbs ≤ maxValue then
    .int (if n < 0 then -(roundNat n.natAbs : Int) else roundNat n.natAbs) (by split <;> simpa)
  else .infinity (n < 0)

def neg : JsNumber → JsNumber
  | .int n h => .int (-n) (by simpa)
  | .infinity negative => .infinity (!negative)
  | .nan => .nan

/-- `x + y` -/
def add : JsNumber → JsNumber → JsNumber
  | .int m _, .int n _ => ofInt (m + n)
  | .infinity x, .infinity y => if x = y then .infinity x else .nan
  | .infinity x, .int .. | .int .., .infinity x => .infinity x
  | .nan, _ | _, .nan => .nan

/-- `x - y` -/
def sub (x y : JsNumber) : JsNumber := x.add y.neg

/-- `x % y`, with the sign of `x`. -/
def rem : JsNumber → JsNumber → JsNumber
  | .int m h, .int n _ =>
    if n = 0 then .nan
    else .int (m.tmod n) (by
      rw [Int.natAbs_tmod]
      exact (Nat.mod_le _ _).trans h)
  | .int m h, .infinity _ => .int m h
  | _, _ => .nan

/-- The remainder of integers is exact. -/
theorem rem_int {m n : Int} {hm : m.natAbs ≤ maxValue} {hn : n.natAbs ≤ maxValue} (h : n ≠ 0) :
    ∃ hr, (JsNumber.int m hm).rem (.int n hn) = .int (m.tmod n) hr :=
  ⟨_, if_neg h⟩

/-- `x == y`, of which `NaN` makes neither side true. -/
def eq : JsNumber → JsNumber → Bool
  | .int m _, .int n _ => m == n
  | .infinity x, .infinity y => x == y
  | _, _ => false

/-- A whole number above zero. -/
def isPositive : JsNumber → Bool
  | .int n _ => 0 < n
  | _ => false

@[simp] theorem isPositive_int {n : Int} {h : n.natAbs ≤ maxValue} :
    (JsNumber.int n h).isPositive = true ↔ 0 < n := decide_eq_true_iff

/-! ## Texts -/

/-- What `parseInt` passes over at the beginning of a text. -/
def isSpace (c : Char) : Bool :=
  let n := c.toNat
  (9 ≤ n ∧ n ≤ 13) ∨ (0x2000 ≤ n ∧ n ≤ 0x200a) ∨
    n ∈ [0x20, 0xa0, 0x1680, 0x180e, 0x2028, 0x2029, 0x202f, 0x205f, 0x3000, 0xfeff]

/-- The value of a digit or letter, and 36 for everything else. -/
def digitValue (c : Char) : Nat :=
  if c.isDigit then c.toNat - '0'.toNat
  else if c.isLower then c.toNat - 'a'.toNat + 10
  else if c.isUpper then c.toNat - 'A'.toNat + 10
  else 36

/-- The number that the digits at the beginning of a text are, if there are any. -/
def parseDigits (radix : Nat) (s : List Char) : Option Nat :=
  match s.takeWhile fun c => digitValue c < radix with
  | [] => none
  | digits => some (digits.foldl (fun n c => radix * n + digitValue c) 0)

/-- `parseInt(v)` -/
def parseInt (v : String) : JsNumber :=
  let s := v.toList.dropWhile isSpace
  let (negative, s) : Bool × List Char := match s with
    | '-' :: s => (true, s)
    | '+' :: s => (false, s)
    | s => (false, s)
  let n := match s with
    | '0' :: 'x' :: s | '0' :: 'X' :: s => parseDigits 16 s
    | s => parseDigits 10 s
  match n with
  | some n => ofInt (if negative then -n else n)
  | none => .nan

/-! ## Sums of integers -/

/-- An integer that is not negative, and not too far above the largest number, is rounded to
    an integer that is not below any of 53 bits that it is not below itself. -/
theorem exists_ofInt_eq_int {n : Int} (hn : 0 ≤ n) (hmax : n < maxValue + 2 ^ 970) :
    ∃ m h, ofInt n = .int m h ∧ ∀ k : Int, k ≤ 2 ^ 53 → k ≤ n → k ≤ m := by
  have hle : roundNat n.natAbs ≤ maxValue := by
    unfold maxValue at hmax ⊢
    apply roundNat_le
    omega
  have hnonneg : ¬ n < 0 := by omega
  refine ⟨roundNat n.natAbs, by simpa, ?_, fun k hk hkn => ?_⟩
  -- the rounded number is not above the largest one
  · simp [ofInt, hle, hnonneg]
  · have hround := le_roundNat (m := k.toNat) (n := n.natAbs) (by omega) (by omega)
    omega

/-- A sum with a number of 53 bits that is not negative stays finite, and does not go below a
    number of 53 bits that the exact sum is not below. -/
theorem exists_ofInt_add_eq_int {m d : Int} (hm : m.natAbs ≤ maxValue) (hd : d ≤ 2 ^ 53)
    (hsum : 0 ≤ m + d) :
    ∃ r h, ofInt (m + d) = .int r h ∧ ∀ k : Int, k ≤ 2 ^ 53 → k ≤ m + d → k ≤ r := by
  apply exists_ofInt_eq_int hsum
  have hlt : (2 : Int) ^ 53 < 2 ^ 970 := pow_lt_pow_right₀ (by norm_num) (by norm_num)
  omega

/-- An integer of 53 bits stays. -/
theorem ofInt_of_lt {n : Int} (hn : n.natAbs < 2 ^ 53) :
    ∃ h, ofInt n = .int n h := by
  -- an integer of 53 bits is rounded to itself
  have hround := roundNat_of_lt hn
  have hmax : n.natAbs ≤ maxValue := by
    unfold maxValue
    omega
  refine ⟨hmax, ?_⟩
  unfold ofInt
  rw [dif_pos (by rw [hround]; exact hmax)]
  congr 1
  rw [hround]
  split <;> omega

end JsNumber
