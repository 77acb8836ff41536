import Mathlib

/-!
# Python values

The values of Python 2 that a JSON text stands for, and what `==` is on them. Numbers are
compared as numbers, whatever their types; a text of bytes equals the same text of characters
if both are ASCII.
-/

/-- A value that `json.loads` gives. -/
inductive PyValue where
  | null
  | bool (b : Bool)
  | int (n : Int)
  | float (q : ℚ)
  /-- `1e999` and `-1e999` -/
  | infinity (negative : Bool)
  /-- Bytes. -/
  | str (s : String)
  | unicode (s : String)
  | list (items : List PyValue)
  | dict (items : List (String × PyValue))

/-- A dictionary, in the order of its `items()`. -/
abbrev PyDict := AList fun _ : String => PyValue

namespace PyValue

/-- All characters are ASCII. -/
def isAscii (s : String) : Bool := s.toList.all fun c => c.toNat < 128

/-- The number that a value is, unless it is none. -/
def number : PyValue → Option (ℚ ⊕ Bool)
  | .bool b => some (.inl (if b then 1 else 0))
  | .int n => some (.inl n)
  | .float q => some (.inl q)
  | .infinity negative => some (.inr negative)
  | _ => none

mutual

/-- `==` -/
def eq : PyValue → PyValue → Bool
  | .null, .null => true
  | .str a, .str b | .unicode a, .unicode b => a == b
  | .str a, .unicode b | .unicode a, .str b => a == b && isAscii a
  | .list xs, .list ys => eqList xs ys
  | .dict xs, .dict ys => eqItems xs ys && ys.all fun y => (xs.map Prod.fst).contains y.1
  | v, w => v.number.any fun x => w.number.any fun y => decide (x = y)
termination_by structural v => v

def eqList : List PyValue → List PyValue → Bool
  | [], [] => true
  | x :: xs, y :: ys => eq x y && eqList xs ys
  | _, _ => false
termination_by structural xs => xs

/-- Each of the items is one of `ys`. -/
def eqItems : List (String × PyValue) → List (String × PyValue) → Bool
  | [], _ => true
  | x :: xs, ys => eqItem x ys && eqItems xs ys
termination_by structural xs => xs

def eqItem : String × PyValue → List (String × PyValue) → Bool
  | (key, v), ys => match ys.lookup key with
    | some w => eq v w
    | none => false
termination_by structural x => x

end

/-- The items of a dictionary are equal to some of another one. -/
theorem eqItems_iff {xs ys : List (String × PyValue)} :
    eqItems xs ys = true ↔ ∀ x ∈ xs, ∃ w, ys.lookup x.1 = some w ∧ x.2.eq w = true := by
  induction xs with
  | nil => simp [eqItems]
  | cons x xs ih =>
    obtain ⟨key, v⟩ := x
    rw [eqItems, Bool.and_eq_true, List.forall_mem_cons, ih, eqItem]
    refine and_congr_left fun _ => ?_
    cases ys.lookup key <;> simp

/-- Whether a byte is white space. -/
def isByteSpace (c : Char) : Bool := decide (9 ≤ c.toNat ∧ c.toNat ≤ 13) || c == ' '

/-- `setting.lstrip().rstrip()`, for bytes. -/
def strip : PyValue → PyValue
  | .str s => .str (.ofList
      ((s.toList.dropWhile isByteSpace).reverse.dropWhile isByteSpace).reverse)
  | v => v

end PyValue

namespace PyDict

/-- The items of a dictionary as pairs. -/
def items (d : PyDict) : List (String × PyValue) := d.entries.map fun x => (x.1, x.2)

/-- The dictionary with these items. -/
def ofItems (items : List (String × PyValue)) : PyDict :=
  (items.map fun x => (⟨x.1, x.2⟩ : Σ _ : String, PyValue)).toAList

/-- Two dictionaries are equal when they have the same keys and equal values. -/
theorem eq_dict_iff {d : PyDict} {ys : List (String × PyValue)} :
    (PyValue.dict d.items).eq (.dict ys) = true ↔
      (∀ key v, d.lookup key = some v → ∃ w, ys.lookup key = some w ∧ v.eq w = true) ∧
        ∀ y ∈ ys, (d.lookup y.1).isSome = true := by
  rw [PyValue.eq, Bool.and_eq_true, PyValue.eqItems_iff, List.all_eq_true]
  -- the entries of the one are looked up in the other, and the other has no further keys
  refine and_congr ?_ ?_
  · constructor
    · intro h key v hv
      exact h (key, v) (List.mem_map.mpr ⟨⟨key, v⟩, AList.mem_lookup_iff.mp hv, rfl⟩)
    · intro h x hx
      obtain ⟨⟨key, v⟩, hmem, rfl⟩ := List.mem_map.mp hx
      exact h key v (AList.mem_lookup_iff.mpr hmem)
  · refine forall₂_congr fun y _ => ?_
    rw [AList.lookup_isSome, List.contains_iff_mem, AList.mem_keys, AList.keys, List.keys, items,
      List.map_map]
    rfl

end PyDict
