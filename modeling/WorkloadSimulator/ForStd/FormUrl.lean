import Mathlib

/-!
# Texts in the query of a URL

`encodeURIComponent` of JavaScript, and the fields of a form in one text, as browsers send them
and servers read them. Both go by the bytes of UTF-8. A space is escaped like other characters,
or written as `+`.

## Key results

- `decodeComponent_component`: a component is read as the text that it was made of
- `decodeForm_joinFields`: the fields of a form are read in their order
- `param_eq`: putting `+` for each escaped space afterwards touches nothing else
- `decodeForm_param`: what `jQuery.param` makes of an object is read as its properties
-/

namespace FormUrl

/-! ## Bytes -/

/-- The bytes of a text. -/
def utf8 (s : List Char) : List UInt8 := s.flatMap String.utf8EncodeChar

/-- The text with these bytes. -/
def ofUtf8 (bs : List UInt8) : Option (List Char) := bs.toByteArray.utf8Decode?.map Array.toList

/-- The bytes of a text are read as the text. -/
theorem ofUtf8_utf8 (s : List Char) : ofUtf8 (utf8 s) = some s := by
  show (List.utf8Encode s).utf8Decode?.map Array.toList = some s
  rw [List.utf8Decode?_utf8Encode]
  rfl

/-! ## Writing -/

/-- The characters that `encodeURIComponent` leaves as they are. -/
def unreserved (c : Char) : Bool := c.isAlphanum ∨ c ∈ "-_.!~*'()".toList

/-- A hexadecimal digit, a capital from ten on. -/
def hexDigit (n : Nat) : Char := n.digitChar.toUpper

/-- A byte behind `%`. -/
def percent (b : UInt8) : List Char := ['%', hexDigit (b.toNat / 16), hexDigit (b.toNat % 16)]

def encodeChar (c : Char) : List Char :=
  if unreserved c then [c] else (String.utf8EncodeChar c).flatMap percent

def encodeURIComponent (s : List Char) : List Char := s.flatMap encodeChar

/-- `s.replace(/%20/g, '+')` -/
def replaceSpaces : List Char → List Char
  | '%' :: '2' :: '0' :: s => '+' :: replaceSpaces s
  | c :: s => c :: replaceSpaces s
  | [] => []

/-- `jQuery.param` for an object with these properties. -/
def param (fields : List (List Char × List Char)) : List Char :=
  replaceSpaces (['&'].intercalate (fields.map fun field =>
    encodeURIComponent field.1 ++ '=' :: encodeURIComponent field.2))

/-! ## Reading -/

/-- The value of a hexadecimal digit. -/
def hexValue? (c : Char) : Option Nat :=
  if '0' ≤ c ∧ c ≤ '9' then some (c.toNat - '0'.toNat)
  else if 'A' ≤ c ∧ c ≤ 'F' then some (c.toNat - 'A'.toNat + 10)
  else if 'a' ≤ c ∧ c ≤ 'f' then some (c.toNat - 'a'.toNat + 10)
  else none

/-- The bytes that a component stands for, unless a `%` has no digits behind it. -/
def unquote : List Char → Option (List UInt8)
  | '%' :: a :: b :: s =>
    (hexValue? a).bind fun a => (hexValue? b).bind fun b =>
      (unquote s).map (UInt8.ofNat (a * 16 + b) :: ·)
  | '%' :: _ => none
  | c :: s => (unquote s).map (String.utf8EncodeChar c ++ ·)
  | [] => some []

/-- The text of a component, where `+` is a space. -/
def decodeComponent (s : List Char) : Option (List Char) :=
  (unquote (s.map fun c => if c = '+' then ' ' else c)).bind ofUtf8

/-- A field: its name is what stands before the first `=`. -/
def decodeField (s : List Char) : Option (List Char × List Char) :=
  (decodeComponent (s.takeWhile (· != '='))).bind fun key =>
    (decodeComponent (s.dropWhile (· != '=')).tail).map fun value => (key, value)

/-- The fields of a form. -/
def decodeForm (s : List Char) : Option (List (List Char × List Char)) :=
  ((s.splitOn '&').filter fun field => !field.isEmpty).mapM decodeField

/-! ## Components -/

/-- What a character is written as, with `+` for a space or without. -/
def componentChar (plus : Bool) (c : Char) : List Char :=
  if plus ∧ c = ' ' then ['+'] else encodeChar c

def component (plus : Bool) (s : List Char) : List Char := s.flatMap (componentChar plus)

/-- `encodeURIComponent` writes components without `+`. -/
theorem encodeURIComponent_eq (s : List Char) : encodeURIComponent s = component false s := by
  unfold component componentChar
  simp [encodeURIComponent]

/-- The digits that are written are read. -/
theorem hexValue?_hexDigit {n : Nat} (h : n < 16) : hexValue? (hexDigit n) = some n := by
  revert n
  decide

/-- The characters that have a meaning of their own. -/
def special : List Char := ['+', '&', '=', '%']

/-- No digit has a meaning of its own. -/
theorem hexDigit_notMem_special {n : Nat} (h : n < 16) : hexDigit n ∉ special := by
  revert n
  decide

/-- Nor has a character that is left as it is. -/
theorem notMem_special_of_unreserved {c : Char} (h : unreserved c = true) : c ∉ special := by
  simp only [special, List.mem_cons, List.not_mem_nil, or_false]
  rintro (rfl | rfl | rfl | rfl) <;> exact absurd h (by decide)

theorem div_lt_sixteen (b : UInt8) : b.toNat / 16 < 16 := Nat.div_lt_of_lt_mul b.toNat_lt

theorem mod_lt_sixteen (b : UInt8) : b.toNat % 16 < 16 := Nat.mod_lt _ (by decide)

/-- A component has no character with a meaning of its own but `%`, and `+` for a space. -/
theorem mem_percent {b : UInt8} {x : Char} (hx : x ∈ percent b) : x = '%' ∨ x ∉ special := by
  simp only [percent, List.mem_cons, List.not_mem_nil, or_false] at hx
  rcases hx with rfl | rfl | rfl
  · exact .inl rfl
  · exact .inr (hexDigit_notMem_special (div_lt_sixteen b))
  · exact .inr (hexDigit_notMem_special (mod_lt_sixteen b))

/-- The same for the escapes of a character. -/
theorem mem_encodeChar {c x : Char} (hx : x ∈ encodeChar c) : x = '%' ∨ x ∉ special := by
  unfold encodeChar at hx
  split at hx
  · rename_i hc
    obtain rfl := List.mem_singleton.mp hx
    exact .inr (notMem_special_of_unreserved hc)
  · obtain ⟨b, -, hx⟩ := List.mem_flatMap.mp hx
    exact mem_percent hx

/-- Neither `&` nor `=` occurs in a component, which is why they can separate fields. -/
theorem notMem_component {x : Char} (hx : x = '&' ∨ x = '=') (plus : Bool) (s : List Char) :
    x ∉ component plus s := by
  intro h
  obtain ⟨c, -, hc⟩ := List.mem_flatMap.mp h
  unfold componentChar at hc
  -- a space is written as `+`, any other character by its escapes
  split at hc
  · obtain rfl := List.mem_singleton.mp hc
    revert hx
    decide
  · rcases mem_encodeChar hc with rfl | hspecial
    · revert hx
      decide
    · rcases hx with rfl | rfl <;> exact hspecial (by decide)

/-! ### Reading a component -/

/-- A byte behind `%` is read as this byte. -/
theorem unquote_percent (b : UInt8) (s : List Char) :
    unquote (percent b ++ s) = (unquote s).map (b :: ·) := by
  -- its digits are those of the byte to the base 16
  have hbyte : UInt8.ofNat (b.toNat / 16 * 16 + b.toNat % 16) = b := by
    rw [Nat.div_add_mod', UInt8.ofNat_toNat]
  show unquote ('%' :: _ :: _ :: s) = _
  rw [unquote, hexValue?_hexDigit (div_lt_sixteen b), hexValue?_hexDigit (mod_lt_sixteen b)]
  show (unquote s).map (UInt8.ofNat _ :: ·) = _
  rw [hbyte]

/-- The same for several bytes. -/
theorem unquote_flatMap_percent (bs : List UInt8) (s : List Char) :
    unquote (bs.flatMap percent ++ s) = (unquote s).map (bs ++ ·) := by
  induction bs with
  | nil => simp
  | cons b bs ih =>
    rw [List.flatMap_cons, List.append_assoc, unquote_percent, ih, Option.map_map]
    rfl

/-- A character that is not `%` is read as its own bytes. -/
theorem unquote_cons {c : Char} (hc : c ≠ '%') (s : List Char) :
    unquote (c :: s) = (unquote s).map (String.utf8EncodeChar c ++ ·) := by
  rw [unquote]
  · exact fun _ _ _ h => absurd h hc
  · exact fun h => absurd h hc

/-- The bytes of a character are read, whether it was escaped or not. -/
theorem unquote_encodeChar (c : Char) (s : List Char) :
    unquote (encodeChar c ++ s) = (unquote s).map (String.utf8EncodeChar c ++ ·) := by
  unfold encodeChar
  split
  -- a character left as it is is not `%`
  · rename_i hc
    rw [List.singleton_append, unquote_cons]
    rintro rfl
    exact notMem_special_of_unreserved hc (by decide)
  · exact unquote_flatMap_percent _ s

/-- Nothing but a space is written as `+`. -/
theorem map_plus_encodeChar (c : Char) :
    (encodeChar c).map (fun x => if x = '+' then ' ' else x) = encodeChar c := by
  refine (List.map_congr_left fun x hx => ?_).trans (List.map_id _)
  rw [if_neg]
  · rfl
  -- an escape has no `+`: its characters are `%` and those without a meaning
  · rintro rfl
    rcases mem_encodeChar hx with heq | hspecial
    · exact absurd heq (by decide)
    · exact hspecial (by decide)

/-- A character is read as its bytes once `+` has become a space again. -/
theorem unquote_componentChar (plus : Bool) (c : Char) (s : List Char) :
    unquote ((componentChar plus c).map (fun x => if x = '+' then ' ' else x) ++ s) =
      (unquote s).map (String.utf8EncodeChar c ++ ·) := by
  unfold componentChar
  split
  -- the space that was written as `+`
  · rename_i h
    obtain ⟨-, rfl⟩ := h
    exact unquote_cons (by decide) s
  · rw [map_plus_encodeChar, unquote_encodeChar]

/-- A component is read as the bytes of its text. -/
theorem unquote_component (plus : Bool) (s : List Char) :
    unquote ((component plus s).map fun x => if x = '+' then ' ' else x) = some (utf8 s) := by
  -- character by character
  induction s with
  | nil => rfl
  | cons c s ih =>
    rw [component, List.flatMap_cons, List.map_append, unquote_componentChar]
    exact congrArg _ ih

/-- A component is the text that it was made of. -/
theorem decodeComponent_component (plus : Bool) (s : List Char) :
    decodeComponent (component plus s) = some s := by
  rw [decodeComponent, unquote_component, Option.bind_some, ofUtf8_utf8]

/-! ## Fields -/

/-- A field of a form. -/
def joinField (plus : Bool) (field : List Char × List Char) : List Char :=
  component plus field.1 ++ '=' :: component plus field.2

/-- The fields of a form. -/
def joinFields (plus : Bool) (fields : List (List Char × List Char)) : List Char :=
  ['&'].intercalate (fields.map (joinField plus))

/-- A field is read as its name and its value. -/
theorem decodeField_joinField (plus : Bool) (field : List Char × List Char) :
    decodeField (joinField plus field) = some field := by
  -- the first `=` is the one behind the name
  have hkey : ∀ x ∈ component plus field.1, (x != '=') = true := by
    intro x hx
    rw [bne_iff_ne]
    rintro rfl
    exact notMem_component (.inr rfl) plus field.1 hx
  rw [decodeField, joinField, List.takeWhile_append_of_pos hkey, List.dropWhile_append_of_pos hkey]
  simp [decodeComponent_component]

/-- No `&` occurs in a field. -/
theorem ampersand_notMem_joinField (plus : Bool) (field : List Char × List Char) :
    '&' ∉ joinField plus field := by
  simp [joinField, notMem_component (.inl rfl)]

/-- The fields of a form are read in their order. -/
theorem decodeForm_joinFields (plus : Bool) (fields : List (List Char × List Char)) :
    decodeForm (joinFields plus fields) = some fields := by
  -- each field is read as itself
  have hfields : (fields.map (joinField plus)).mapM decodeField = some fields := by
    induction fields with
    | nil => rfl
    | cons field fields ih =>
      rw [List.map_cons, List.mapM_cons, decodeField_joinField, ih]
      rfl
  -- without fields the form is empty, and an empty piece is no field
  cases fields with
  | nil => rfl
  | cons field fields =>
    rw [decodeForm, joinFields, List.splitOn_intercalate, List.filter_eq_self.mpr, hfields]
    -- no piece is empty, since `=` stands in each
    · intro piece hpiece
      obtain ⟨field, -, rfl⟩ := List.mem_map.mp hpiece
      simp [joinField]
    -- and none has a `&` in it
    · intro piece hpiece
      obtain ⟨field, -, rfl⟩ := List.mem_map.mp hpiece
      exact ampersand_notMem_joinField plus field
    · simp

/-! ### Spaces as `+` -/

/-- Only `%20` is replaced, so other characters stay. -/
theorem replaceSpaces_cons {c : Char} (hc : c ≠ '%') (s : List Char) :
    replaceSpaces (c :: s) = c :: replaceSpaces s := by
  rw [replaceSpaces]
  exact fun _ h => absurd h hc

/-- A byte other than that of a space stays as it is. -/
theorem replaceSpaces_percent {b : UInt8} (hb : b ≠ 0x20) (s : List Char) :
    replaceSpaces (percent b ++ s) = percent b ++ replaceSpaces s := by
  -- only the digits of a space are `2` and `0`
  have hdigits : ∀ m < 16, ∀ n < 16, hexDigit m = '2' → hexDigit n = '0' → m = 2 ∧ n = 0 := by
    decide
  -- a digit is no `%`, so the replacing goes on behind each
  have hne : ∀ n < 16, hexDigit n ≠ '%' := fun n hn h =>
    hexDigit_notMem_special hn (by rw [h]; decide)
  show replaceSpaces ('%' :: _ :: _ :: s) = '%' :: _ :: _ :: _
  rw [replaceSpaces, replaceSpaces_cons (hne _ (div_lt_sixteen b)),
    replaceSpaces_cons (hne _ (mod_lt_sixteen b))]
  · rfl
  · intro t _ h
    obtain ⟨htwo, hrest⟩ := List.cons.inj h
    obtain ⟨hzero, -⟩ := List.cons.inj hrest
    obtain ⟨hdiv, hmod⟩ := hdigits _ (div_lt_sixteen b) _ (mod_lt_sixteen b) htwo hzero
    apply hb
    rw [← UInt8.toNat_inj]
    show b.toNat = 32
    omega

/-- The same for several bytes, none of them that of a space. -/
theorem replaceSpaces_flatMap_percent {bs : List UInt8} (hbs : ∀ b ∈ bs, b ≠ 0x20)
    (s : List Char) :
    replaceSpaces (bs.flatMap percent ++ s) = bs.flatMap percent ++ replaceSpaces s := by
  induction bs with
  | nil => rfl
  | cons b bs ih =>
    rw [List.forall_mem_cons] at hbs
    rw [List.flatMap_cons, List.append_assoc, replaceSpaces_percent hbs.1, ih hbs.2,
      List.append_assoc]

/-- The bytes of a character other than the space have none that is a space. -/
theorem ne_space_of_mem_utf8EncodeChar {c : Char} (hc : c ≠ ' ') :
    ∀ b ∈ String.utf8EncodeChar c, b ≠ 0x20 := by
  have hval : c.val.toNat ≠ 32 := fun h => hc (Char.ext (UInt32.toNat_inj.mp h))
  have hbyte : ∀ n : Nat, n < 256 → n ≠ 32 → UInt8.ofNat n ≠ 0x20 := by
    intro n hn hne h
    apply hne
    have hnat := congrArg UInt8.toNat h
    rwa [UInt8.toNat_ofNat_of_lt' hn] at hnat
  intro b hb
  unfold String.utf8EncodeChar at hb
  dsimp only at hb
  -- by the length of the encoding: one byte, which is the character, or several from 128 on
  split at hb
  · simp only [List.mem_cons, List.not_mem_nil, or_false] at hb
    rw [hb]
    exact hbyte _ (by omega) hval
  · split at hb
    · simp only [List.mem_cons, List.not_mem_nil, or_false] at hb
      rcases hb with rfl | rfl <;> exact hbyte _ (by omega) (by omega)
    · split at hb
      · simp only [List.mem_cons, List.not_mem_nil, or_false] at hb
        rcases hb with rfl | rfl | rfl <;> exact hbyte _ (by omega) (by omega)
      · simp only [List.mem_cons, List.not_mem_nil, or_false] at hb
        rcases hb with rfl | rfl | rfl | rfl <;> exact hbyte _ (by omega) (by omega)

/-- Of a character, the replacing changes only a space. -/
theorem replaceSpaces_encodeChar (c : Char) (s : List Char) :
    replaceSpaces (encodeChar c ++ s) = componentChar true c ++ replaceSpaces s := by
  unfold componentChar
  by_cases hc : c = ' '
  · subst hc
    rfl
  · rw [if_neg (by simp [hc])]
    unfold encodeChar
    split
    -- a character left as it is is not `%`
    · rename_i hunreserved
      refine replaceSpaces_cons ?_ s
      rintro rfl
      exact notMem_special_of_unreserved hunreserved (by decide)
    · exact replaceSpaces_flatMap_percent (ne_space_of_mem_utf8EncodeChar hc) s

/-- The same for a text, character by character. -/
theorem replaceSpaces_encodeURIComponent (s t : List Char) :
    replaceSpaces (encodeURIComponent s ++ t) = component true s ++ replaceSpaces t := by
  induction s with
  | nil => rfl
  | cons c s ih =>
    have hrest : replaceSpaces (s.flatMap encodeChar ++ t) =
        s.flatMap (componentChar true) ++ replaceSpaces t := ih
    rw [encodeURIComponent, component, List.flatMap_cons, List.flatMap_cons, List.append_assoc,
      List.append_assoc, replaceSpaces_encodeChar, hrest]

/-- A field with its `%20` replaced is one with `+` for spaces. -/
theorem replaceSpaces_field (field : List Char × List Char) (t : List Char) :
    replaceSpaces (encodeURIComponent field.1 ++ '=' :: encodeURIComponent field.2 ++ t) =
      joinField true field ++ replaceSpaces t := by
  rw [List.append_assoc, replaceSpaces_encodeURIComponent, List.cons_append,
    replaceSpaces_cons (by decide), replaceSpaces_encodeURIComponent, joinField,
    List.append_assoc, List.cons_append]

/-- The form of an object has its properties as fields. -/
theorem param_eq (fields : List (List Char × List Char)) :
    param fields = joinFields true fields := by
  unfold param joinFields
  induction fields with
  | nil => rfl
  -- the fields one after the other, with `&` between two of them
  | cons field fields ih =>
    cases fields with
    | nil =>
      have hfield := replaceSpaces_field field []
      rw [List.append_nil, replaceSpaces, List.append_nil] at hfield
      simpa using hfield
    | cons field' fields =>
      rw [List.map_cons, List.map_cons, List.map_cons, List.map_cons] at *
      rw [List.intercalate_cons_cons, List.intercalate_cons_cons, List.append_assoc,
        replaceSpaces_field, List.singleton_append, replaceSpaces_cons (by decide), ih,
        List.append_assoc]
      rfl

/-- The form of an object is read as its properties. -/
theorem decodeForm_param (fields : List (List Char × List Char)) :
    decodeForm (param fields) = some fields := by
  rw [param_eq, decodeForm_joinFields]

end FormUrl
