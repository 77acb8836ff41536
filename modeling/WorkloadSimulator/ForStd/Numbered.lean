import Mathlib

/-!
# Collections that number their elements

A collection that gives each new element the next number of a counter and looks elements up
by their number. A number that was given is not given again before the collection is
emptied, so the numbers ascend and each belongs to one element.

## Key results

- `mem_entries_iff`: the entries are what `get?` finds
- `get?_add`, `get?_erase`, `get?_mapWithId`, `get?_map`: what each operation changes
-/

/-- Elements under ascending numbers, all below the next number to be given. -/
structure Numbered (α : Type*) where
  next : Nat
  entries : List (Nat × α)
  /-- The numbers ascend. -/
  sorted : entries.Pairwise fun x y => x.1 < y.1
  /-- The next number is new. -/
  lt_next : ∀ x ∈ entries, x.1 < next

namespace Numbered

variable {α β γ : Type*}

/-- No element, and the counter at zero. -/
def empty : Numbered α := ⟨0, [], .nil, by simp⟩

/-- Add an element under the next number. -/
def add (m : Numbered α) (a : α) : Numbered α where
  next := m.next + 1
  entries := m.entries ++ [(m.next, a)]
  sorted := by
    -- the new number is above all others
    refine List.pairwise_append.mpr ⟨m.sorted, List.pairwise_singleton _ _, ?_⟩
    intro x hx y hy
    obtain rfl := List.mem_singleton.mp hy
    exact m.lt_next x hx
  lt_next x hx := by
    rcases List.mem_append.mp hx with hx | hx
    · exact Nat.lt_succ_of_lt (m.lt_next x hx)
    · obtain rfl := List.mem_singleton.mp hx
      exact Nat.lt_succ_self _

/-- Remove the element with the number `id`. -/
def erase (m : Numbered α) (id : Nat) : Numbered α where
  next := m.next
  entries := m.entries.filter fun x => x.1 != id
  sorted := m.sorted.sublist List.filter_sublist
  lt_next x hx := m.lt_next x (List.mem_of_mem_filter hx)

/-- Change every element; the numbers stay. -/
def mapWithId (m : Numbered α) (f : Nat → α → β) : Numbered β where
  next := m.next
  entries := m.entries.map fun x => (x.1, f x.1 x.2)
  sorted := List.pairwise_map.mpr m.sorted
  lt_next x hx := by
    obtain ⟨y, hy, rfl⟩ := List.mem_map.mp hx
    exact m.lt_next y hy

/-- Change every element, whatever its number. -/
def map (m : Numbered α) (f : α → β) : Numbered β := m.mapWithId fun _ => f

/-- Change the element with the number `id`. -/
def modify (m : Numbered α) (id : Nat) (f : α → α) : Numbered α :=
  m.mapWithId fun n a => if n = id then f a else a

/-- The element with the number `id`. -/
def get? (m : Numbered α) (id : Nat) : Option α := m.entries.lookup id

/-- The numbers of the elements. -/
def ids (m : Numbered α) : List Nat := m.entries.map Prod.fst

/-! ## Changing every element -/

/-- A collection is its counter and its entries; the bounds on them are proofs. -/
@[ext] theorem ext {m m' : Numbered α} (hnext : m.next = m'.next)
    (hentries : m.entries = m'.entries) : m = m' := by
  cases m
  cases m'
  simp_all

/-- Two changes after each other are one change. -/
@[simp] theorem mapWithId_mapWithId (m : Numbered α) (f : Nat → α → β) (g : Nat → β → γ) :
    (m.mapWithId f).mapWithId g = m.mapWithId fun n a => g n (f n a) := by
  ext1
  · rfl
  · simp [mapWithId, Function.comp_def]

@[simp] theorem mapWithId_self (m : Numbered α) : (m.mapWithId fun _ a => a) = m := by
  ext1
  · rfl
  · simp [mapWithId]

/-! ## Lookup -/

/-- In a list with ascending keys, every pair is what its key looks up. -/
theorem lookup_eq_some_iff {l : List (Nat × α)} (h : l.Pairwise fun x y => x.1 < y.1)
    {id : Nat} {a : α} : l.lookup id = some a ↔ (id, a) ∈ l := by
  -- induction on the list: the key is that of its head, or one that the tail looks up
  induction l with
  | nil => simp
  | cons x xs ih =>
    obtain ⟨n, b⟩ := x
    obtain ⟨hx, hxs⟩ := List.pairwise_cons.mp h
    rw [List.lookup_cons, List.mem_cons]
    by_cases hid : id = n
    · subst hid
      -- the keys that follow are greater
      have hnot : (id, a) ∉ xs := fun hmem => absurd (hx _ hmem) (lt_irrefl _)
      simp [hnot, eq_comm]
    · have hbeq : (id == n) = false := beq_eq_false_iff_ne.mpr hid
      simp [hbeq, hid, ih hxs]

/-- The entries are the numbers with what they look up. -/
theorem mem_entries_iff {m : Numbered α} {id : Nat} {a : α} :
    (id, a) ∈ m.entries ↔ m.get? id = some a :=
  (lookup_eq_some_iff m.sorted).symm

/-- The numbers in use are those that find an element. -/
theorem mem_ids_iff {m : Numbered α} {id : Nat} : id ∈ m.ids ↔ ∃ a, m.get? id = some a := by
  simp [ids, ← mem_entries_iff]

/-- Only numbers that have been given find anything. -/
theorem lt_next_of_get? {m : Numbered α} {id : Nat} {a : α} (h : m.get? id = some a) :
    id < m.next :=
  m.lt_next _ (mem_entries_iff.mpr h)

/-- Two collections look up the same when they have the same pairs. -/
theorem get?_eq_of_mem_iff {m : Numbered α} {m' : Numbered β} {id : Nat} {g : α → β}
    (h : ∀ b, (id, b) ∈ m'.entries ↔ ∃ a, (id, a) ∈ m.entries ∧ g a = b) :
    m'.get? id = (m.get? id).map g := by
  apply Option.ext
  intro b
  rw [← mem_entries_iff, h b, Option.map_eq_some_iff]
  simp only [mem_entries_iff]

@[simp] theorem get?_empty (id : Nat) : (empty : Numbered α).get? id = none := rfl

/-- A change of every element changes what a number finds, and whether it finds anything not. -/
@[simp] theorem get?_mapWithId (m : Numbered α) (f : Nat → α → β) (id : Nat) :
    (m.mapWithId f).get? id = (m.get? id).map (f id) := by
  apply get?_eq_of_mem_iff
  intro b
  simp [mapWithId]

@[simp] theorem get?_map (m : Numbered α) (f : α → β) (id : Nat) :
    (m.map f).get? id = (m.get? id).map f :=
  get?_mapWithId m _ id

/-- A change of one element: the others are found as before. -/
theorem get?_modify (m : Numbered α) (id : Nat) (f : α → α) (j : Nat) :
    (m.modify id f).get? j = (m.get? j).map fun a => if j = id then f a else a :=
  get?_mapWithId m _ j

/-- The new element has the next number. -/
theorem get?_add (m : Numbered α) (a : α) (id : Nat) :
    (m.add a).get? id = if id = m.next then some a else m.get? id := by
  apply Option.ext
  intro b
  rw [← mem_entries_iff]
  -- the entry that a lookup finds is an old one or the new one
  show (id, b) ∈ m.entries ++ [(m.next, a)] ↔ _
  rw [List.mem_append, List.mem_singleton, mem_entries_iff]
  split
  · rename_i hid
    subst hid
    constructor
    · rintro (hold | hnew)
      -- no entry has the number that is given out next
      · exact absurd (lt_next_of_get? hold) (lt_irrefl _)
      · rw [(Prod.mk.inj hnew).2]
    · intro hb
      exact .inr (by rw [Option.some.inj hb])
  · rename_i hid
    exact or_iff_left fun hnew => hid (Prod.mk.inj hnew).1

/-- The removed number finds nothing. -/
theorem get?_erase (m : Numbered α) (id j : Nat) :
    (m.erase id).get? j = if j = id then none else m.get? j := by
  apply Option.ext
  intro b
  rw [← mem_entries_iff]
  -- an entry that is found has stayed: its number is not the one removed
  show (j, b) ∈ m.entries.filter (fun x => x.1 != id) ↔ _
  rw [List.mem_filter, mem_entries_iff]
  split
  · rename_i hj
    simp [hj]
  · rename_i hj
    simp [hj]

/-! ## Numbers -/

/-- No change of elements touches the numbers. -/
@[simp] theorem ids_mapWithId (m : Numbered α) (f : Nat → α → β) :
    (m.mapWithId f).ids = m.ids := by
  simp [ids, mapWithId, Function.comp_def]

@[simp] theorem ids_map (m : Numbered α) (f : α → β) : (m.map f).ids = m.ids :=
  ids_mapWithId m _

@[simp] theorem ids_modify (m : Numbered α) (id : Nat) (f : α → α) :
    (m.modify id f).ids = m.ids :=
  ids_mapWithId m _

@[simp] theorem ids_empty : (empty : Numbered α).ids = [] := rfl

/-- The number of a new element comes last. -/
@[simp] theorem ids_add (m : Numbered α) (a : α) : (m.add a).ids = m.ids ++ [m.next] := by
  simp [ids, add]

/-- Only the number removed is gone. -/
theorem mem_ids_erase {m : Numbered α} {id j : Nat} :
    j ∈ (m.erase id).ids ↔ j ∈ m.ids ∧ j ≠ id := by
  simp only [mem_ids_iff, get?_erase]
  split <;> simp_all

/-! ## The elements of a list -/

/-- The elements of a list under the numbers from zero on. -/
def ofList (l : List α) : Numbered α where
  next := l.length
  entries := l.zipIdx.map Prod.swap
  sorted := by
    -- positions ascend from zero
    have hlt : (l.zipIdx.map Prod.snd).Pairwise (· < ·) := by
      rw [List.zipIdx_map_snd]
      exact List.pairwise_lt_range'
    exact List.pairwise_map.mpr (List.pairwise_map.mp hlt)
  lt_next x hx := by
    obtain ⟨y, hy, rfl⟩ := List.mem_map.mp hx
    simpa using List.snd_lt_add_of_mem_zipIdx hy

/-- The element of a number is that at its position. -/
theorem get?_ofList (l : List α) (id : Nat) : (ofList l).get? id = l[id]? := by
  apply Option.ext
  intro a
  rw [← mem_entries_iff, ← List.mk_mem_zipIdx_iff_getElem?]
  simp [ofList]

/-- A list with one element more is one element added. -/
theorem ofList_concat (l : List α) (a : α) : ofList (l ++ [a]) = (ofList l).add a := by
  ext1
  · simp [ofList, add]
  · simp [ofList, add, List.zipIdx_append]

/-- Adding the elements of a list one after the other. -/
theorem foldl_add (l : List α) : l.foldl add empty = ofList l := by
  -- from the end of the list, where `add` works
  induction l using List.reverseRecOn with
  | nil => rfl
  | append_singleton l a ih => rw [List.foldl_concat, ih, ofList_concat]

/-- Changing the elements of a list changes the entries, not their numbers. -/
theorem entries_ofList_map (l : List α) (f : α → β) :
    (ofList (l.map f)).entries = (ofList l).entries.map fun x => (x.1, f x.2) := by
  simp [ofList, List.zipIdx_map]

/-- The elements in the order of their numbers are the list. -/
theorem map_snd_ofList (l : List α) : (ofList l).entries.map Prod.snd = l := by
  simp [ofList, Function.comp_def]

/-- The entries tell the list. -/
theorem ofList_entries_inj {l l' : List α} : (ofList l).entries = (ofList l').entries ↔ l = l' := by
  refine ⟨fun h => ?_, fun h => by rw [h]⟩
  rw [← map_snd_ofList l, h, map_snd_ofList]

/-- The numbers are the positions of the list. -/
@[simp] theorem ids_ofList (l : List α) : (ofList l).ids = List.range l.length := by
  rw [List.range_eq_range', ← List.zipIdx_map_snd]
  simp [ids, ofList, Function.comp_def]

end Numbered
