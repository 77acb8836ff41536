import WorkloadSimulator.ForStd.List
import WorkloadSimulator.Stress.Settings

/-!
# What settings a client can send

The constructor of `Settings` takes each key of the object that it gets for the name of an
attribute, and it catches `ValueError`. A key can name a method or the dictionary of the
instance, and `int` has other exceptions for what is neither a number nor a text.

## Key results

- `foldlM_assign`: the first exception of the loop, or the attributes that it leaves
- `safe_iff`: when the constructor raises `ER_SETTINGS` or makes an instance that works
-/

namespace WorkloadSimulator.Stress.Settings

/-- An item of a dictionary. -/
abbrev Item := Σ _ : String, PyValue

variable (textInt : PyValue → Option Int)

/-! ## What is expected -/

/-- The value of a field for an object with these items: an integer for two of them, without
    white space at its ends if it is of bytes, `None` if there is none. -/
def expected (items : List Item) (field : String) : Option PyValue :=
  match items.dlookup field with
  | some v => (convert textInt field v).toOption
  | none => some .null

/-- The methods of an instance return the expected values. -/
def Works (items : List Item) (self : PyDict) : Prop :=
  ∃ value : String → PyValue,
    (∀ field ∈ fields, expected textInt items field = some (value field)) ∧
    getDict self = some [("memsql_host", value "memsql_host"),
      ("memsql_port", value "memsql_port"), ("memsql_user", value "memsql_user"),
      ("memsql_pass", value "memsql_pass"), ("memsql_db", value "memsql_db"),
      ("workers", value "workers")] ∧
    getClientArguments self = some [("host", value "memsql_host"),
      ("port", value "memsql_port"), ("user", value "memsql_user"),
      ("passwd", value "memsql_pass"), ("db", value "memsql_db"),
      ("unix_socket", .str "/tmp/memsql.sock")] ∧
    getDbConn self = some [("host", value "memsql_host"), ("port", value "memsql_port"),
      ("user", value "memsql_user"), ("password", value "memsql_pass"),
      ("database", value "memsql_db")]

/-- The constructor raises `ServerException` with `ER_SETTINGS`, or makes an instance whose
    methods work. -/
def Safe (d : PyDict) : Prop :=
  match create textInt d with
  | .ok self => Works textInt d.entries self
  | .error (some e) => e.n = ServerException.ER_SETTINGS
  | .error none => False

/-! ## The items that do no harm -/

/-- The exception that an item other than `__dict__` raises for an instance with the
    attributes `self`. -/
def raises (self : String → Option PyValue) (x : Item) : Option PyError :=
  if !PyValue.isAscii x.1 then some .valueError
  else if x.1 = "__class__" then some .other
  else if (getattr self x.1).isSome then
    match convert textInt x.1 x.2 with
    | .error e => some e
    | .ok _ => none
  else none

/-- An attribute that is `old` in the dictionary and `current` for the instance, after it has
    been set. -/
def settled (old : Option PyValue) : Option Attribute → Except PyError PyValue → Option PyValue
  | some current, .ok v => if current.ne v then some v else old
  | _, _ => old

/-- The attributes after such items, if none raises an exception. -/
def assigned (self : String → Option PyValue) (items : List Item) (name : String) :
    Option PyValue :=
  (items.dlookup name).elim (self name) fun v =>
    settled (self name) (getattr self name) (convert textInt name v)

/-- The methods that the rest of the server calls. -/
def used : List String := ["get_dict", "get_client_arguments", "get_db_conn"]

/-- The items `after` do no harm to an instance with the attributes `self`, which the items
    `before` have gone into: the first exception is a `ValueError`, or there is none, no
    method is hidden, and each field is there with the value of its item, if that comes
    before, and without another that equals the value, if it comes after. -/
def Harmless (self : String → Option PyValue) (before after : List Item) : Prop :=
  match after.findSome? (raises textInt self) with
  | some e => e = .valueError
  | none =>
    (∀ name ∈ used, self name = none ∧ name ∉ after.keys) ∧
    ∀ field ∈ fields, ∃ current, self field = some current ∧
      match after.dlookup field with
      | some v => ∀ w, convert textInt field v = .ok w → current.eq w = true → current = w
      | none => expected textInt before field = some current

/-- The object for `__dict__` equals the dictionary that has these attributes. -/
def SameDict (self : String → Option PyValue) (items : List (String × PyValue)) : Prop :=
  (∀ name v, self name = some v → ∃ w, items.lookup name = some w ∧ v.eq w = true) ∧
    ∀ y ∈ items, (self y.1).isSome = true

/-- An object without `__dict__` does no harm to an empty instance. One with it brings its
    own attributes, unless they equal those that the items before it have set. -/
def Accepts (items : List Item) : Prop :=
  let before := items.takeWhile fun x => x.1 ≠ "__dict__"
  match items.dropWhile fun x => x.1 ≠ "__dict__" with
  | [] => Harmless textInt (empty.lookup ·) [] before
  | x :: after =>
    match before.findSome? (raises textInt (empty.lookup ·)) with
    | some e => e = .valueError
    | none => match x.2 with
      | .dict own =>
        (SameDict (assigned textInt (empty.lookup ·) before) own →
          Harmless textInt (assigned textInt (empty.lookup ·) before) before after) ∧
        (¬ SameDict (assigned textInt (empty.lookup ·) before) own →
          Harmless textInt ((PyDict.ofItems own).lookup ·) before after)
      | _ => False

variable {textInt} {self : String → Option PyValue} {x : Item} {items : List Item}
  {name : String}

/-! ## The loop -/

theorem getattr_congr {self' : String → Option PyValue} (h : self' name = self name) :
    getattr self' name = getattr self name := by
  unfold getattr
  rw [h]

theorem raises_congr {self' : String → Option PyValue} (h : self' x.1 = self x.1) :
    raises textInt self' x = raises textInt self x := by
  unfold raises
  rw [getattr_congr h]

/-- Without an item of its name an attribute keeps its value. -/
theorem assigned_of_notMem (h : name ∉ items.keys) :
    assigned textInt self items name = self name := by
  rw [assigned, List.dlookup_eq_none.mpr h, Option.elim_none]

/-- An item alone settles its attribute. -/
theorem assigned_singleton {v : PyValue} :
    assigned textInt self [⟨name, v⟩] name =
      settled (self name) (getattr self name) (convert textInt name v) := by
  rw [assigned, List.dlookup_cons_eq, Option.elim_some]

theorem assigned_singleton_of_ne (h : name ≠ x.1) : assigned textInt self [x] name = self name :=
  assigned_of_notMem (by simpa using h)

/-- The first item, and then the others, which have other keys. -/
theorem assigned_cons (h : x.1 ∉ items.keys) :
    assigned textInt self (x :: items) name =
      assigned textInt (assigned textInt self [x]) items name := by
  obtain ⟨key, v⟩ := x
  -- the attribute of the first item, or one of the others
  by_cases hname : name = key
  · subst hname
    rw [assigned_of_notMem h, assigned_singleton, assigned, List.dlookup_cons_eq,
      Option.elim_some]
  · have hself : assigned textInt self [⟨key, v⟩] name = self name :=
      assigned_singleton_of_ne hname
    rw [assigned, List.dlookup_cons_ne _ _ hname, assigned, getattr_congr hself, hself]

/-- One round of the loop. -/
theorem assign_cases (self : PyDict) (hx : x.1 ≠ "__dict__") :
    (∃ e, raises textInt (self.lookup ·) x = some e ∧ assign textInt self x.1 x.2 = .error e) ∨
    (∃ self', raises textInt (self.lookup ·) x = none ∧ assign textInt self x.1 x.2 = .ok self' ∧
      ∀ name, self'.lookup name = assigned textInt (self.lookup ·) [x] name) := by
  obtain ⟨key, v⟩ := x
  unfold raises assign
  by_cases hascii : (!PyValue.isAscii key) = true
  · simp [hascii]
  -- `self.__class__ = value` raises an error
  · rw [if_neg hascii, if_neg hascii]
    by_cases hclass : key = "__class__"
    · rw [if_pos hclass, if_pos hclass]
      exact .inl ⟨_, rfl, rfl⟩
    · rw [if_neg hclass, if_neg hclass, if_neg hx]
      -- an attribute that is there is set if the new value is another one
      cases hget : getattr (self.lookup ·) key with
      | none =>
        refine .inr ⟨self, rfl, rfl, fun name => ?_⟩
        by_cases hname : name = key
        · subst hname
          rw [assigned_singleton, hget]
          rfl
        · rw [assigned_singleton_of_ne hname]
      | some current =>
        cases hconvert : convert textInt key v with
        | error e => exact .inl ⟨e, rfl, rfl⟩
        | ok w =>
          refine .inr ⟨_, rfl, rfl, fun name => ?_⟩
          by_cases hname : name = key
          · subst hname
            rw [assigned_singleton, hget, hconvert]
            cases hne : current.ne w <;> simp [settled, hne]
          · rw [assigned_singleton_of_ne hname]
            split
            · exact AList.lookup_insert_ne hname
            · rfl

/-- The loop over items other than `__dict__`. -/
theorem foldlM_assign (self : PyDict) (hnodup : items.NodupKeys)
    (hdict : ∀ x ∈ items, x.1 ≠ "__dict__") :
    (∃ e, items.findSome? (raises textInt (self.lookup ·)) = some e ∧
      items.foldlM (fun self x => assign textInt self x.1 x.2) self = .error e) ∨
    (∃ self', items.findSome? (raises textInt (self.lookup ·)) = none ∧
      items.foldlM (fun self x => assign textInt self x.1 x.2) self = .ok self' ∧
      ∀ name, self'.lookup name = assigned textInt (self.lookup ·) items name) := by
  induction items generalizing self with
  | nil => exact .inr ⟨self, rfl, rfl, fun _ => rfl⟩
  | cons x items ih =>
    obtain ⟨hx, hnodup⟩ := List.nodupKeys_cons.mp hnodup
    obtain ⟨hxdict, hdict⟩ := List.forall_mem_cons.mp hdict
    rw [List.findSome?_cons, List.foldlM_cons]
    rcases assign_cases self hxdict with ⟨e, hraises, hassign⟩ | ⟨self₁, hraises, hassign, hlookup⟩
    · rw [hraises, hassign]
      exact .inl ⟨e, rfl, rfl⟩
    · rw [hraises, hassign]
      -- the others have other keys, and find what they would have found before
      have hother : ∀ y ∈ items,
          raises textInt (self₁.lookup ·) y = raises textInt (self.lookup ·) y := by
        intro y hy
        refine raises_congr ?_
        rw [hlookup]
        refine assigned_singleton_of_ne ?_
        intro heq
        have hmem := List.mem_keys_of_mem hy
        rw [heq] at hmem
        exact hx hmem
      have hfind : items.findSome? (raises textInt (self₁.lookup ·)) =
          items.findSome? (raises textInt (self.lookup ·)) := by
        rw [← List.head?_filterMap, ← List.head?_filterMap, List.filterMap_congr hother]
      rcases ih self₁ hnodup hdict with ⟨e, hfirst, herror⟩ | ⟨self₂, hfirst, hok, hlookup₂⟩
      · exact .inl ⟨e, hfind.symm.trans hfirst, herror⟩
      · refine .inr ⟨self₂, hfind.symm.trans hfirst, hok, fun name => ?_⟩
        rw [hlookup₂, assigned_cons hx]
        congr 1
        exact funext hlookup

/-! ## The methods -/

/-- A method returns the values of its fields exactly when no attribute hides it and the
    fields have these values. -/
theorem returnFields_eq_some_iff {self : PyDict} {method : String}
    {names : List (String × String)} (value : String → PyValue) :
    returnFields self method names = some (names.map fun x => (x.1, value x.2)) ↔
      self.lookup method = none ∧ ∀ x ∈ names, self.lookup x.2 = some (value x.2) := by
  unfold returnFields
  by_cases hmem : method ∈ self
  · have hsome := AList.lookup_isSome.mpr hmem
    rw [if_pos hmem]
    -- a method's name in the dictionary hides the method
    refine iff_of_false (by simp) ?_
    rintro ⟨hnone, -⟩
    simp [hnone] at hsome
  · rw [if_neg hmem, List.mapM_eq_some_map, AList.lookup_eq_none, and_iff_right hmem]
    refine forall₂_congr fun x _ => ?_
    obtain ⟨name, field⟩ := x
    cases hlookup : self.lookup field <;> simp [hlookup]

/-- `get_dict` works exactly when it is not hidden and every field has a value. -/
theorem getDict_eq_some_iff {self : PyDict} (value : String → PyValue) :
    getDict self = some [("memsql_host", value "memsql_host"),
      ("memsql_port", value "memsql_port"), ("memsql_user", value "memsql_user"),
      ("memsql_pass", value "memsql_pass"), ("memsql_db", value "memsql_db"),
      ("workers", value "workers")] ↔
    self.lookup "get_dict" = none ∧ ∀ field ∈ fields, self.lookup field = some (value field) := by
  refine (returnFields_eq_some_iff value).trans ?_
  simp [fields]

/-- So does `get_client_arguments`, which leaves out the number of workers. -/
theorem getClientArguments_eq_some_iff {self : PyDict} (value : String → PyValue) :
    getClientArguments self = some [("host", value "memsql_host"),
      ("port", value "memsql_port"), ("user", value "memsql_user"),
      ("passwd", value "memsql_pass"), ("db", value "memsql_db"),
      ("unix_socket", .str "/tmp/memsql.sock")] ↔
    self.lookup "get_client_arguments" = none ∧
      ∀ field ∈ fields.take 5, self.lookup field = some (value field) := by
  have hmap : ∀ (o : Option (List (String × PyValue))) l u,
      o.map (· ++ u) = some (l ++ u) ↔ o = some l := by
    intro o l u
    cases o <;> simp
  refine (hmap _ [("host", value "memsql_host"), ("port", value "memsql_port"),
    ("user", value "memsql_user"), ("passwd", value "memsql_pass"), ("db", value "memsql_db")]
    _).trans ((returnFields_eq_some_iff value).trans ?_)
  simp [fields]

/-- And `get_db_conn`. -/
theorem getDbConn_eq_some_iff {self : PyDict} (value : String → PyValue) :
    getDbConn self = some [("host", value "memsql_host"), ("port", value "memsql_port"),
      ("user", value "memsql_user"), ("password", value "memsql_pass"),
      ("database", value "memsql_db")] ↔
    self.lookup "get_db_conn" = none ∧
      ∀ field ∈ fields.take 5, self.lookup field = some (value field) := by
  refine (returnFields_eq_some_iff value).trans ?_
  simp [fields]

/-- The methods work exactly when none is hidden and the fields have the values expected. -/
theorem works_iff {self : PyDict} :
    Works textInt items self ↔ (∀ name ∈ used, self.lookup name = none) ∧
      ∀ field ∈ fields, ∃ v, self.lookup field = some v ∧
        expected textInt items field = some v := by
  unfold Works
  constructor
  · rintro ⟨value, hexpected, hdict, harguments, hconn⟩
    rw [getDict_eq_some_iff] at hdict
    rw [getClientArguments_eq_some_iff] at harguments
    rw [getDbConn_eq_some_iff] at hconn
    refine ⟨by simp [used, hdict.1, harguments.1, hconn.1], fun field hfield => ?_⟩
    exact ⟨value field, hdict.2 field hfield, hexpected field hfield⟩
  · rintro ⟨hused, hfields⟩
    -- the value of each field is what the settings hold
    have hvalue : ∀ field ∈ fields,
        self.lookup field = some ((self.lookup field).getD .null) := by
      intro field hfield
      obtain ⟨v, hv, -⟩ := hfields field hfield
      simp [hv]
    have htake : ∀ field ∈ fields.take 5,
        self.lookup field = some ((self.lookup field).getD .null) :=
      fun field hfield => hvalue field (List.mem_of_mem_take hfield)
    refine ⟨fun field => (self.lookup field).getD .null, fun field hfield => ?_,
      (getDict_eq_some_iff _).mpr ⟨hused _ (by simp [used]), hvalue⟩,
      (getClientArguments_eq_some_iff _).mpr ⟨hused _ (by simp [used]), htake⟩,
      (getDbConn_eq_some_iff _).mpr ⟨hused _ (by simp [used]), htake⟩⟩
    obtain ⟨v, hv, hexpected⟩ := hfields field hfield
    simp [hv, hexpected]

/-! ## The end of the loop -/

/-- An attribute that hides a method is there already, or the items set it. -/
theorem assigned_eq_none_iff (h : name ∈ used) :
    assigned textInt self items name = none ↔ self name = none ∧ name ∉ items.keys := by
  cases hlookup : items.dlookup name with
  | none =>
    have hmem := List.dlookup_eq_none.mp hlookup
    rw [assigned_of_notMem hmem, and_iff_left hmem]
  | some v =>
    have hmem : name ∈ items.keys := List.dlookup_isSome.mp (by simp [hlookup])
    refine iff_of_false ?_ fun hnone => hnone.2 hmem
    -- a method never equals what it is set to
    have hclass : classAttribute name = some .method ∧ convert textInt name v = .ok v.strip := by
      simp only [used, List.mem_cons, List.not_mem_nil, or_false] at h
      rcases h with rfl | rfl | rfl <;> exact ⟨rfl, by simp [convert]⟩
    rw [assigned, hlookup, Option.elim_some, hclass.2, getattr]
    cases hself : self name with
    | none => simp [hclass.1, settled, Attribute.ne]
    | some current =>
      simp only [settled]
      split <;> simp

/-- The names of the fields are ASCII, and no attributes of the class. -/
theorem plain_of_mem_fields {field : String} (h : field ∈ fields) :
    PyValue.isAscii field = true ∧ field ≠ "__class__" ∧ field ≠ "__dict__" ∧
      classAttribute field = none := by
  simp only [fields, List.mem_cons, List.not_mem_nil, or_false] at h
  rcases h with rfl | rfl | rfl | rfl | rfl | rfl <;>
    exact ⟨by decide +kernel, by decide, by decide, rfl⟩

/-- The loop over the items `after` leaves the methods and the fields right exactly when they
    do no harm. -/
theorem assigned_iff {before after : List Item}
    (hnone : after.findSome? (raises textInt self) = none)
    (hexpected : ∀ field ∈ fields, expected textInt items field =
      (after.dlookup field).elim (expected textInt before field)
        fun v => (convert textInt field v).toOption) :
    ((∀ name ∈ used, assigned textInt self after name = none) ∧
      ∀ field ∈ fields, ∃ v, assigned textInt self after field = some v ∧
        expected textInt items field = some v) ↔ Harmless textInt self before after := by
  rw [Harmless, hnone]
  refine and_congr (forall₂_congr fun name hname => assigned_eq_none_iff hname)
    (forall₂_congr fun field hfield => ?_)
  rw [hexpected field hfield, assigned]
  cases hlookup : after.dlookup field with
  | none => rfl
  | some v =>
    simp only [Option.elim_some]
    obtain ⟨hascii, hclass, -, hattribute⟩ := plain_of_mem_fields hfield
    unfold getattr
    cases hself : self field with
    -- a field that is missing is not set
    | none => simp [hattribute, settled]
    | some current =>
      -- the value could be converted, since nothing was raised
      have hraises := List.findSome?_eq_none_iff.mp hnone _ (List.of_mem_dlookup hlookup)
      simp only [raises, hascii, hclass, getattr, hself] at hraises
      cases hconvert : convert textInt field v with
      | error e => simp [hconvert] at hraises
      | ok w =>
        cases heq : current.eq w with
        | false => simp [settled, Attribute.ne, heq, Except.toOption]
        | true =>
          have hcomm : w = current ↔ current = w := eq_comm
          simpa [settled, Attribute.ne, heq, Except.toOption] using hcomm

/-- How the constructor may end. -/
def EndsWell (textInt : PyValue → Option Int) (items : List Item) :
    Except PyError PyDict → Prop
  | .ok self => Works textInt items self
  | .error e => e = .valueError

/-- The constructor is safe exactly when its loop ends well. -/
theorem safe_iff_endsWell {d : PyDict} :
    Safe textInt d ↔ EndsWell textInt d.entries
      (d.entries.foldlM (fun self x => assign textInt self x.1 x.2) empty) := by
  unfold Safe create
  cases d.entries.foldlM (fun self x => assign textInt self x.1 x.2) empty with
  | ok self => rfl
  | error e => cases e <;> simp [EndsWell, ServerException.plain]

/-- The rest of the loop, without `__dict__`, ends well exactly when its items do no harm. -/
theorem endsWell_iff_harmless {before after : List Item} (self : PyDict)
    (hnodup : after.NodupKeys) (hdict : ∀ x ∈ after, x.1 ≠ "__dict__")
    (hexpected : ∀ field ∈ fields, expected textInt items field =
      (after.dlookup field).elim (expected textInt before field)
        fun v => (convert textInt field v).toOption) :
    EndsWell textInt items (after.foldlM (fun self x => assign textInt self x.1 x.2) self) ↔
      Harmless textInt (self.lookup ·) before after := by
  rcases foldlM_assign self hnodup hdict with ⟨e, hfirst, herror⟩ | ⟨self', hnone, hok, hlookup⟩
  · rw [herror, Harmless, hfirst]
    -- the first error of the loop decides on both sides
    rfl
  · rw [hok, ← assigned_iff hnone hexpected]
    show Works textInt items self' ↔ _
    rw [works_iff]
    simp only [hlookup]

/-! ## All objects -/

/-- What is expected of all the items, where other keys stand before `__dict__` than after. -/
theorem expected_append (textInt : PyValue → Option Int) {before after : List Item} {v : PyValue}
    (hnodup : (before ++ ⟨"__dict__", v⟩ :: after).NodupKeys) :
    ∀ field ∈ fields, expected textInt (before ++ ⟨"__dict__", v⟩ :: after) field =
      (after.dlookup field).elim (expected textInt before field)
        fun v => (convert textInt field v).toOption := by
  intro field hfield
  have hne := (plain_of_mem_fields hfield).2.2.1
  rw [expected, List.dlookup_append, List.dlookup_cons_ne _ _ hne, expected]
  cases hafter : after.dlookup field with
  | none => rw [Option.or_none, Option.elim_none]
  | some w =>
    -- no field is on both sides of `__dict__`
    have hbefore : before.dlookup field = none := by
      rw [List.NodupKeys, List.keys_append, List.nodup_append] at hnodup
      have hmem : field ∈ after.keys := List.dlookup_isSome.mp (by simp [hafter])
      rw [List.dlookup_eq_none]
      intro hmem'
      exact hnodup.2.2 field hmem' field (List.mem_cons_of_mem _ hmem) rfl
    rw [hbefore, Option.none_or, Option.elim_some]

/-- The item `__dict__` brings other attributes, unless they equal those that there are. -/
theorem assign_dict {self : PyDict} {own : List (String × PyValue)} :
    assign textInt self "__dict__" (.dict own) =
      .ok (if (PyValue.dict self.items).eq (.dict own) then self else .ofItems own) := by
  rw [assign, if_neg (by decide +kernel), if_neg (by decide), if_pos rfl]

/-- Nothing but a dictionary can be set. -/
theorem assign_dict_of_ne {self : PyDict} {v : PyValue} (hv : ∀ own, v ≠ .dict own) :
    assign textInt self "__dict__" v = .error .other := by
  unfold assign
  rw [if_neg (by decide +kernel), if_neg (by decide), if_pos rfl]
  split
  · rename_i own
    exact absurd rfl (hv own)
  · rfl

/-- Whatever the object, the constructor raises `ER_SETTINGS` or makes an instance that works
    exactly when its items are accepted. -/
theorem safe_iff (textInt : PyValue → Option Int) (d : PyDict) :
    Safe textInt d ↔ Accepts textInt d.entries := by
  rw [safe_iff_endsWell]
  -- the items are those before `__dict__`, itself, and those after it
  have hsplit := List.takeWhile_append_dropWhile (p := fun x : Item => x.1 ≠ "__dict__")
    (l := d.entries)
  have hnodup := d.nodupKeys
  have hbefore : ∀ x ∈ d.entries.takeWhile fun x => x.1 ≠ "__dict__", x.1 ≠ "__dict__" := by
    intro x hx
    have htest := List.mem_takeWhile_imp hx
    simpa using htest
  unfold Accepts
  generalize d.entries.takeWhile (fun x => x.1 ≠ "__dict__") = before at hsplit hbefore ⊢
  cases hrest : d.entries.dropWhile fun x => x.1 ≠ "__dict__" with
  | nil =>
    rw [hrest, List.append_nil] at hsplit
    rw [← hsplit] at hnodup ⊢
    refine endsWell_iff_harmless empty hnodup hbefore fun field _ => ?_
    unfold expected
    cases before.dlookup field <;> rfl
  | cons x after =>
    have hx : x.1 = "__dict__" := by
      have hhead := List.head?_dropWhile_not (fun x : Item => x.1 ≠ "__dict__") d.entries
      rw [hrest] at hhead
      simpa using hhead
    rw [hrest] at hsplit
    obtain ⟨key, v⟩ := x
    obtain rfl : key = "__dict__" := hx
    rw [← hsplit] at hnodup ⊢
    have hexpected := expected_append textInt hnodup
    have hnodups := hnodup
    rw [List.NodupKeys, List.keys_append, List.nodup_append] at hnodups
    have hafter : ∀ x ∈ after, x.1 ≠ "__dict__" := by
      intro x hx heq
      have hmem := List.mem_keys_of_mem hx
      rw [heq] at hmem
      exact (List.nodup_cons.mp hnodups.2.1).1 hmem
    have hbind : ∀ (self : PyDict) (f : PyDict → Except PyError PyDict),
        (Except.ok self >>= f) = f self := fun _ _ => rfl
    rw [List.foldlM_append]
    dsimp only
    -- the items before `__dict__` raise an error, or leave settings to go on with
    rcases foldlM_assign empty hnodups.1 hbefore with
      ⟨e, hfirst, herror⟩ | ⟨self, hnone, hok, hlookup⟩
    · rw [herror, hfirst]
      rfl
    · rw [hok, hnone, hbind, List.foldlM_cons]
      have hsame : (self.lookup ·) = assigned textInt (empty.lookup ·) before := funext hlookup
      rw [← hsame]
      cases v with
      | dict own =>
        rw [assign_dict, hbind, endsWell_iff_harmless _ hnodups.2.1.tail hafter hexpected]
        by_cases heq : (PyValue.dict self.items).eq (.dict own) = true
        · have hdict : SameDict (self.lookup ·) own := PyDict.eq_dict_iff.mp heq
          simp [heq, hdict]
        · have hdict : ¬ SameDict (self.lookup ·) own := fun h => heq (PyDict.eq_dict_iff.mpr h)
          simp [heq, hdict]
      | _ =>
        rw [assign_dict_of_ne (by simp)]
        exact iff_of_false (fun h => by cases h) fun h => h

/-- The port is `null`: `int` raises a `TypeError`, which nothing catches. -/
theorem type_error_of_null_port :
    ¬ ∀ (textInt : PyValue → Option Int) (d : PyDict), Safe textInt d := by
  intro hall
  exact hall (fun _ => none) (PyDict.ofItems [("memsql_port", .null)])

end WorkloadSimulator.Stress.Settings
