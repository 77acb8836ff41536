import Mathlib

/-!
# Comma-separated values

Rows of fields in one text, as `encoding/csv` of Go writes them. A field with a comma, a quote or
a line break stands in quotes, and a quote in it is written twice. The reader takes one character
after the other, and ends with the last line break.

## Key results

- `read_writeAll`: the rows that have been written are read, as long as each of them has a field
-/

namespace Csv

/-! ## Writing -/

/-- White space of Unicode. -/
def isSpace (c : Char) : Bool :=
  (9 ≤ c.toNat ∧ c.toNat ≤ 13) || (0x2000 ≤ c.toNat ∧ c.toNat ≤ 0x200a) ||
    c.toNat ∈ [0x20, 0x85, 0xa0, 0x1680, 0x2028, 0x2029, 0x202f, 0x205f, 0x3000]

/-- A character that does not stand in a field without quotes. -/
def isSpecial (c : Char) : Bool := c == ',' || c == '"' || c == '\r' || c == '\n'

def fieldNeedsQuotes (field : List Char) : Bool :=
  field == ['\\', '.'] || field.any isSpecial || field.head?.any isSpace

def writeField (field : List Char) : List Char :=
  if fieldNeedsQuotes field then
    '"' :: (field.flatMap (fun c => if c = '"' then ['"', '"'] else [c]) ++ ['"'])
  else field

/-- `(*Writer).Write` -/
def write (record : List (List Char)) : List Char :=
  [','].intercalate (record.map writeField) ++ ['\n']

def writeAll (records : List (List (List Char))) : List Char := records.flatMap write

/-! ## Reading -/

/-- Where the reader stands in a field. -/
inductive Mode where
  | start
  | plain
  | quoted
  /-- Behind a quote in a field with quotes. -/
  | closing
  deriving DecidableEq

/-- The rows that are complete, the fields of the present row that are, and the present field. -/
structure Reader where
  rows : List (List (List Char))
  fields : List (List Char)
  field : List Char
  mode : Mode

namespace Reader

def init : Reader := ⟨[], [], [], .start⟩

/-- A comma. -/
def endField (s : Reader) : Reader := ⟨s.rows, s.fields ++ [s.field], [], .start⟩

/-- A line break. -/
def endRow (s : Reader) : Reader := ⟨s.rows ++ [s.fields ++ [s.field]], [], [], .start⟩

def push (s : Reader) (c : Char) (mode : Mode) : Reader :=
  { s with field := s.field ++ [c], mode }

/-- A character outside quotes. -/
def unquoted (s : Reader) (c : Char) : Reader :=
  if c = ',' then s.endField else if c = '\n' then s.endRow else s.push c .plain

/-- One character, unless it stands behind a field in quotes. -/
def step (s : Reader) (c : Char) : Option Reader :=
  match s.mode with
  | .start => some (if c = '"' then { s with mode := .quoted } else s.unquoted c)
  | .plain => some (s.unquoted c)
  | .quoted => some (if c = '"' then { s with mode := .closing } else s.push c .quoted)
  | .closing =>
    if c = '"' then some (s.push c .quoted)
    else if c = ',' ∨ c = '\n' then some (s.unquoted c)
    else none

end Reader

/-- The rows of a text of whole lines. -/
def read (text : List Char) : Option (List (List (List Char))) :=
  (text.foldlM Reader.step .init).bind fun s =>
    if s.mode = .start ∧ s.fields = [] then some s.rows else none

/-! ## Reading what was written -/

namespace Reader

variable {s : Reader}

theorem foldlM_append (text text' : List Char) (s : Reader) :
    (text ++ text').foldlM step s = (text.foldlM step s).bind (text'.foldlM step ·) := by
  rw [List.foldlM_append]
  rfl

/-- A field without special characters is read up to its end. -/
theorem foldlM_plain {field : List Char} (hfield : ∀ c ∈ field, isSpecial c = false)
    (hmode : s.mode = .plain) :
    field.foldlM step s = some { s with field := s.field ++ field } := by
  induction field generalizing s with
  | nil => simp
  | cons c field ih =>
    rw [List.forall_mem_cons] at hfield
    simp only [isSpecial, Bool.or_eq_false_iff, beq_eq_false_iff_ne] at hfield
    -- the reader stays outside quotes
    have hstep : step s c = some (s.push c .plain) := by
      rw [step, hmode]
      simp [unquoted, hfield.1]
    rw [List.foldlM_cons, hstep]
    show field.foldlM step (s.push c .plain) = _
    rw [ih (by simpa [isSpecial] using hfield.2) rfl]
    simp [push, hmode]

/-- A field in quotes is read up to its last quote. -/
theorem foldlM_quoted (field : List Char) (hmode : s.mode = .quoted) :
    (field.flatMap fun c => if c = '"' then ['"', '"'] else [c]).foldlM step s =
      some { s with field := s.field ++ field } := by
  induction field generalizing s with
  | nil => simp
  | cons c field ih =>
    -- a quote stands for itself when it is doubled
    have hstep : (if c = '"' then ['"', '"'] else [c]).foldlM step s =
        some (s.push c .quoted) := by
      split
      · rename_i hc
        subst hc
        simp [step, hmode, push]
      · rename_i hc
        simp [step, hmode, hc]
    rw [List.flatMap_cons, foldlM_append, hstep, Option.bind_some, ih rfl]
    simp [push, hmode]

/-- A field is read, and then the character behind it. -/
theorem foldlM_writeField (field : List Char) {c : Char} (hc : c = ',' ∨ c = '\n')
    (hmode : s.mode = .start) (hempty : s.field = []) :
    (writeField field ++ [c]).foldlM step s =
      some (({ s with field } : Reader).unquoted c) := by
  have hquote : c ≠ '"' := by
    rintro rfl
    revert hc
    decide
  unfold writeField
  split
  -- a field in quotes; the quote behind it ends it when the next character comes
  · have hopen : step s '"' = some { s with mode := .quoted } := by simp [step, hmode]
    have hread := foldlM_quoted (s := { s with mode := .quoted }) field rfl
    rw [List.cons_append, List.foldlM_cons, hopen]
    show (_ ++ ['"'] ++ [c]).foldlM step { s with mode := .quoted } = _
    rw [List.append_assoc, foldlM_append, hread, Option.bind_some]
    simp only [hempty, List.nil_append, List.cons_append, List.foldlM_cons, List.foldlM_nil]
    rcases hc with rfl | rfl <;> rfl
  · rename_i hneeds
    have hplain : ∀ x ∈ field, isSpecial x = false := by
      simp only [fieldNeedsQuotes, Bool.or_eq_true, not_or, List.any_eq_true] at hneeds
      intro x hx
      by_contra hspecial
      exact hneeds.1.2 ⟨x, hx, by simpa using hspecial⟩
    -- without quotes the first character decides how the field is read
    cases field with
    | nil =>
      have hs : ({ s with field := [] } : Reader) = s := by rw [← hempty]
      rw [hs]
      simp [step, hmode, hquote]
    | cons x field =>
      rw [List.forall_mem_cons] at hplain
      have hx := hplain.1
      simp only [isSpecial, Bool.or_eq_false_iff, beq_eq_false_iff_ne] at hx
      have hstep : step s x = some (s.push x .plain) := by
        simp [step, hmode, hx, unquoted]
      rw [List.cons_append, List.foldlM_cons, hstep]
      show (field ++ [c]).foldlM step (s.push x .plain) = _
      rw [foldlM_append, foldlM_plain hplain.2 rfl]
      simp only [push, hempty, Option.bind_some, List.foldlM_cons, List.foldlM_nil]
      rcases hc with rfl | rfl <;> rfl

/-- A row is read up to its line break. -/
theorem foldlM_write {record : List (List Char)} (hne : record ≠ []) (hmode : s.mode = .start)
    (hempty : s.field = []) :
    (write record).foldlM step s =
      some ⟨s.rows ++ [s.fields ++ record], [], [], .start⟩ := by
  unfold write
  induction record generalizing s with
  | nil => exact absurd rfl hne
  | cons field record ih =>
    -- the last field ends with the line break, another one with a comma
    cases record with
    | nil =>
      rw [List.map_cons, List.map_nil, List.intercalate_singleton,
        foldlM_writeField field (.inr rfl) hmode hempty]
      rfl
    | cons field' record =>
      have hrest := ih (s := ⟨s.rows, s.fields ++ [field], [], .start⟩) (List.cons_ne_nil _ _)
        rfl rfl
      rw [List.map_cons, List.map_cons, List.intercalate_cons_cons, ← List.map_cons,
        List.append_assoc, foldlM_append, foldlM_writeField field (.inl rfl) hmode hempty]
      show List.foldlM step ⟨s.rows, s.fields ++ [field], [], .start⟩ _ = _
      rw [hrest, List.append_assoc]
      rfl

/-- Records are read one after the other. -/
theorem foldlM_writeAll {records : List (List (List Char))} (hne : ∀ r ∈ records, r ≠ [])
    (rows : List (List (List Char))) :
    (writeAll records).foldlM step ⟨rows, [], [], .start⟩ =
      some ⟨rows ++ records, [], [], .start⟩ := by
  induction records generalizing rows with
  | nil => simp [writeAll]
  | cons record records ih =>
    rw [List.forall_mem_cons] at hne
    rw [writeAll, List.flatMap_cons, foldlM_append, foldlM_write hne.1 rfl rfl]
    show (writeAll records).foldlM step ⟨rows ++ [record], [], [], .start⟩ = _
    rw [ih hne.2, List.append_assoc]
    rfl

end Reader

/-- The rows that have been written are read. -/
theorem read_writeAll {records : List (List (List Char))} (hne : ∀ r ∈ records, r ≠ []) :
    read (writeAll records) = some records := by
  rw [read, Reader.init, Reader.foldlM_writeAll hne]
  rfl

end Csv
