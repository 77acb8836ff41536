import Mathlib

/-!
# List lemmas for the standard library

Sums and counts over a list after one of its elements is replaced, the first elements and the
last element that satisfy a predicate, ascending numbers without a gap, and lists put together
with effects.
-/

namespace List

/-! ## Replacing one element -/

/-- Replacing an element changes the sum of `f` by the change of `f` at that element. -/
theorem sum_map_set {α M : Type*} [AddCommMonoid M] (f : α → M) {l : List α} {i : Nat}
    {a : α} (b : α) (h : l[i]? = some a) :
    ((l.set i b).map f).sum + f a = (l.map f).sum + f b := by
  induction l generalizing i with
  | nil => simp at h
  | cons x xs ih =>
    cases i with
    | zero =>
      obtain rfl : x = a := by simpa using h
      simp only [set_cons_zero, map_cons, sum_cons]
      -- the replaced element stands at the head
      rw [add_comm (f b), add_comm (f x), add_assoc, add_assoc, add_comm (f b)]
    | succ i =>
      have hi := ih (by simpa using h)
      simp only [set_cons_succ, map_cons, sum_cons, add_assoc, hi]

/-- Replacing an element changes the count of `p` by what the two elements count. -/
theorem countP_set_add {α : Type*} (p : α → Bool) {l : List α} {i : Nat} {a : α} (b : α)
    (h : l[i]? = some a) :
    (l.set i b).countP p + (p a).toNat = l.countP p + (p b).toNat := by
  -- counting is summing one for each element with `p`
  have hsum := sum_map_set (fun x => (p x).toNat) b h
  have hcount : ∀ l : List α, (l.map fun x => (p x).toNat).sum = l.countP p := by
    intro l
    induction l with
    | nil => rfl
    | cons x xs ih =>
      rw [map_cons, sum_cons, ih, countP_cons]
      cases p x <;> simp [Nat.add_comm]
  rwa [hcount, hcount] at hsum

/-- Elements that satisfy `p` all, or none of them, are put after a list. -/
theorem countP_append_of_forall {α : Type*} {p : α → Bool} {c : Prop} [Decidable c]
    (l : List α) {l' : List α} (h : ∀ x ∈ l', p x = true ↔ c) :
    (l ++ l').countP p = l.countP p + if c then l'.length else 0 := by
  rw [countP_append]
  congr 1
  -- where `c` holds all of them count, else none
  split
  · rename_i hc
    exact countP_eq_length.mpr fun x hx => (h x hx).mpr hc
  · rename_i hc
    exact countP_eq_zero.mpr fun x hx => mt (h x hx).mp hc

/-- Counting by the values of `f`, which are all below `n`. -/
theorem sum_countP_range {α : Type*} {f : α → Nat} {n : Nat} {l : List α} (h : ∀ x ∈ l, f x < n)
    (p : α → Bool) : ∑ i ∈ Finset.range n, l.countP (fun x => f x == i && p x) = l.countP p := by
  -- induction on the list: each element is counted under its own value, and once
  induction l with
  | nil => simp
  | cons x l ih =>
    rw [forall_mem_cons] at h
    simp only [countP_cons, Finset.sum_add_distrib, ih h.2, Bool.and_eq_true, beq_iff_eq]
    congr 1
    by_cases hp : p x = true <;> simp [hp, h.1]

/-- A sum of naturals vanishes when each of its terms does. -/
theorem sum_map_eq_zero {α : Type*} (f : α → Nat) (l : List α) :
    (l.map f).sum = 0 ↔ ∀ a ∈ l, f a = 0 := by
  induction l with
  | nil => simp
  | cons x xs ih => simp [ih]

/-- Dropping the elements without `p` loses part of a sum of positive terms, unless there
    are none. -/
theorem sum_map_filter_eq_iff {α : Type*} (p : α → Bool) {f : α → Nat} {l : List α}
    (hpos : ∀ a ∈ l, 0 < f a) :
    ((l.filter p).map f).sum = (l.map f).sum ↔ ∀ a ∈ l, p a = true := by
  constructor
  · intro hsum
    induction l with
    | nil => simp
    | cons x xs ih =>
      have hx := hpos x mem_cons_self
      have hle : ((xs.filter p).map f).sum ≤ (xs.map f).sum :=
        (filter_sublist.map f).sum_le_sum fun _ _ => Nat.zero_le _
      cases hp : p x with
      | false =>
        -- `f x` is positive and missing on the left
        rw [filter_cons_of_neg (by simp [hp]), map_cons, sum_cons] at hsum
        omega
      | true =>
        rw [filter_cons_of_pos hp, map_cons, sum_cons, map_cons, sum_cons] at hsum
        have hxs := ih (fun a ha => hpos a (mem_cons_of_mem x ha)) (by omega)
        exact forall_mem_cons.mpr ⟨hp, hxs⟩
  · intro hall
    rw [filter_eq_self.mpr hall]

theorem getElem?_set_of_ne {α : Type*} {l : List α} {i j : Nat} (a : α) (h : i ≠ j) :
    (l.set i a)[j]? = l[j]? := by
  rw [getElem?_set, if_neg h]

/-- What stands at `j` after `i` was replaced is the new element or was there before. -/
theorem getElem?_set_eq_some {α : Type*} {l : List α} {i j : Nat} {a b : α}
    (h : (l.set i a)[j]? = some b) : (i = j ∧ b = a) ∨ (i ≠ j ∧ l[j]? = some b) := by
  -- at the place that was replaced, or at another
  by_cases hij : i = j
  · subst hij
    have hlt : i < l.length := by
      by_contra hge
      rw [getElem?_eq_none (by simpa using hge)] at h
      exact nomatch h
    rw [getElem?_set_self hlt] at h
    exact .inl ⟨rfl, (Option.some.inj h).symm⟩
  · exact .inr ⟨hij, by rwa [getElem?_set_of_ne a hij] at h⟩

theorem getElem?_set_of_some {α : Type*} {l : List α} {i : Nat} {a : α} (b : α)
    (h : l[i]? = some a) : (l.set i b)[i]? = some b :=
  getElem?_set_self (getElem?_eq_some_iff.mp h).1

/-- What stands in `l ++ [a]` stands in `l`, or is the last element. -/
theorem getElem?_concat_eq_some {α : Type*} {l : List α} {i : Nat} {a b : α}
    (h : (l ++ [a])[i]? = some b) : l[i]? = some b ∨ (i = l.length ∧ b = a) := by
  rcases Nat.lt_trichotomy i l.length with hlt | heq | hgt
  · exact .inl (by rwa [getElem?_append_left hlt] at h)
  · subst heq
    exact .inr ⟨rfl, by simpa using h.symm⟩
  · rw [getElem?_eq_none (by simpa using Nat.succ_le_of_lt hgt)] at h
    exact nomatch h

/-- After an element is replaced, the new one has `p` or one of the others has. -/
theorem any_set {α : Type*} (p : α → Bool) {l : List α} {i : Nat} {a : α} (b : α)
    (h : l[i]? = some a) : (l.set i b).any p = (p b || (l.eraseIdx i).any p) := by
  -- induction on the list, with the place going down beside it
  induction l generalizing i with
  | nil => simp at h
  | cons x xs ih =>
    cases i with
    | zero => simp
    | succ i =>
      have hi := ih (by simpa using h)
      rw [set_cons_succ, any_cons, hi, eraseIdx_cons_succ, any_cons, Bool.or_left_comm]

/-- An element has `p` if the one at `i` has, or one of the others. -/
theorem any_eq_or_eraseIdx {α : Type*} (p : α → Bool) {l : List α} {i : Nat} {a : α}
    (h : l[i]? = some a) : l.any p = (p a || (l.eraseIdx i).any p) := by
  have hset : l.set i a = l := by
    obtain ⟨hlt, rfl⟩ := getElem?_eq_some_iff.mp h
    exact set_getElem_self hlt
  rw [← any_set p a h, hset]

/-- Replacing an element without `p` keeps an element with `p`. -/
theorem any_set_of_any {α : Type*} {p : α → Bool} {l : List α} {i : Nat} {a : α} (b : α)
    (h : l[i]? = some a) (ha : p a = false) (hany : l.any p = true) :
    (l.set i b).any p = true := by
  rw [any_eq_or_eraseIdx p h, ha, Bool.false_or] at hany
  rw [any_set p b h, hany, Bool.or_true]

/-- Replacing an element by one with the same `p` changes nothing. -/
theorem any_set_of_eq {α : Type*} {p : α → Bool} {l : List α} {i : Nat} {a b : α}
    (h : l[i]? = some a) (hab : p b = p a) : (l.set i b).any p = l.any p := by
  rw [any_set p b h, any_eq_or_eraseIdx p h, hab]

/-! ## First elements -/

/-- The first elements with `p` of two lists end in the second one when all of the first have
    `p`. -/
theorem takeWhile_append_eq_ite {α : Type*} (p : α → Bool) (l l' : List α) :
    (l ++ l').takeWhile p = if l.all p then l ++ l'.takeWhile p else l.takeWhile p := by
  -- the first list ends with an element without `p`, or has none
  induction l with
  | nil => rfl
  | cons a l ih =>
    rw [cons_append, takeWhile_cons, takeWhile_cons, ih, all_cons]
    cases p a with
    | true => cases l.all p <;> simp
    | false => rfl

/-! ## Last elements -/

/-- A list is empty or has a last element. -/
theorem eq_nil_or_append_singleton {α : Type*} (l : List α) :
    l = [] ∨ ∃ l' a, l = l' ++ [a] := by
  rcases eq_nil_or_concat l with h | ⟨l', a, h⟩
  · exact .inl h
  · exact .inr ⟨l', a, by rw [h, concat_eq_append]⟩

/-- A list that ends in `a` has `a` as its last element with `p`, or none later. -/
theorem findRev?_concat {α : Type*} (p : α → Bool) (l : List α) (a : α) :
    (l ++ [a]).findRev? p = if p a then some a else l.findRev? p := by
  rw [findRev?_eq_find?_reverse, reverse_append, reverse_singleton, singleton_append,
    find?_cons, findRev?_eq_find?_reverse]
  cases p a <;> rfl

/-- The last element with `p` is in the list and has `p`. -/
theorem of_findRev?_eq_some {α : Type*} {p : α → Bool} {l : List α} {a : α}
    (h : l.findRev? p = some a) : a ∈ l ∧ p a = true := by
  rw [findRev?_eq_find?_reverse] at h
  exact ⟨by simpa using mem_of_find?_eq_some h, find?_some h⟩

/-- There is no last element with `p` when no element has `p`. -/
theorem findRev?_eq_none {α : Type*} {p : α → Bool} {l : List α} :
    l.findRev? p = none ↔ ∀ a ∈ l, p a = false := by
  simp [findRev?_eq_find?_reverse]

/-- The last element with `p` is also the last with `q`, if `q` implies `p` and it has
    `q`. -/
theorem findRev?_of_imp {α : Type*} {p q : α → Bool} {l : List α} {a : α}
    (h : l.findRev? p = some a) (hq : q a = true) (himp : ∀ x ∈ l, q x = true → p x = true) :
    l.findRev? q = some a := by
  -- from the end of the list, where the last element with `p` is looked for
  induction l using List.reverseRecOn with
  | nil => exact h
  | append_singleton l x ih =>
    rw [findRev?_concat] at h ⊢
    have himp' : ∀ y ∈ l, q y = true → p y = true :=
      fun y hy => himp y (mem_append_left _ hy)
    by_cases hx : q x = true
    · have hpx := himp x (by simp) hx
      rw [if_pos hpx] at h
      rw [if_pos hx, h]
    · by_cases hpx : p x = true
      · -- the last element would be `a`, which has `q`
        rw [if_pos hpx] at h
        obtain rfl := Option.some.inj h
        exact absurd hq hx
      · rw [if_neg hx]
        rw [if_neg hpx] at h
        exact ih h himp'

/-- A list is split at its last element with `p` in one way only. -/
theorem append_cons_inj_of_last {α : Type*} {p : α → Bool} {l l' r r' : List α} {a a' : α}
    (h : l ++ a :: r = l' ++ a' :: r') (ha : p a = true) (ha' : p a' = true)
    (hr : ∀ x ∈ r, p x = false) (hr' : ∀ x ∈ r', p x = false) :
    l = l' ∧ a = a' ∧ r = r' := by
  -- induction from the end, on both lists at once
  induction r using List.reverseRecOn generalizing r' with
  | nil =>
    rcases eq_nil_or_append_singleton r' with rfl | ⟨r', x, rfl⟩
    · obtain ⟨hl, hx⟩ := append_inj' h rfl
      exact ⟨hl, by simpa using hx, rfl⟩
    · -- `a` stands after `a'`
      have h : l ++ [a] = (l' ++ a' :: r') ++ [x] := by simpa using h
      obtain ⟨-, hx⟩ := append_inj' h rfl
      obtain rfl : a = x := by simpa using hx
      rw [hr' a (by simp)] at ha
      cases ha
  | append_singleton r x ih =>
    rcases eq_nil_or_append_singleton r' with rfl | ⟨r', y, rfl⟩
    · have h : (l ++ a :: r) ++ [x] = l' ++ [a'] := by simpa using h
      obtain ⟨-, hx⟩ := append_inj' h rfl
      obtain rfl : x = a' := by simpa using hx
      rw [hr x (by simp)] at ha'
      cases ha'
    · have h : (l ++ a :: r) ++ [x] = (l' ++ a' :: r') ++ [y] := by simpa using h
      obtain ⟨h, hx⟩ := append_inj' h rfl
      obtain ⟨hl, haa, hrr⟩ := ih h (fun x hx => hr x (mem_append_left _ hx))
        fun x hx => hr' x (mem_append_left _ hx)
      exact ⟨hl, haa, by rw [hrr, hx]⟩

/-! ## Ascending numbers -/

/-- Ascending numbers without a gap from zero on are those below their count. -/
theorem eq_range_iff {l : List Nat} (hl : l.Pairwise (· < ·)) :
    l = range l.length ↔ ∀ r < l.length, r ∈ l := by
  constructor
  · intro heq r hr
    rw [heq]
    exact mem_range.mpr hr
  · intro hall
    -- as many numbers as `l` has, all of them in `l`
    have hsub : range l.length ⊆ l := fun r hr => hall r (mem_range.mp hr)
    have hperm : (range l.length).Perm l :=
      (subperm_of_subset nodup_range hsub).perm_of_length_le (by rw [length_range])
    exact hperm.symm.eq_of_pairwise' hl pairwise_lt_range

/-- The running maximum of a loop is above all numbers of the list. -/
theorem le_foldl_max {l : List Nat} {i : Nat} (a : Nat) (h : i ∈ l ∨ i ≤ a) :
    i ≤ l.foldl Max.max a := by
  -- induction on the list; `i` may be an element or below the maximum so far
  induction l generalizing a with
  | nil => simpa using h
  | cons x xs ih =>
    apply ih
    rcases h with h | h
    · rcases mem_cons.mp h with rfl | h
      · exact .inr (Nat.le_max_right _ _)
      · exact .inl h
    · exact .inr (h.trans (Nat.le_max_left _ _))

/-- Going through the numbers below a bound meets each element of a list once. -/
theorem countP_range_mem {l : List Nat} (hl : l.Nodup) {n : Nat} (hlt : ∀ i ∈ l, i < n) :
    ((range n).countP fun i => decide (i ∈ l)) = l.length := by
  rw [countP_eq_length_filter]
  apply Perm.length_eq
  refine (perm_ext_iff_of_nodup (nodup_range.filter _) hl).mpr fun i => ?_
  rw [mem_filter, mem_range, decide_eq_true_iff]
  exact and_iff_right_of_imp (hlt i)

/-- A key below all others is not there. -/
theorem lookup_eq_none_of_lt {α : Type*} {l : List (Nat × α)} {k : Nat}
    (h : ∀ x ∈ l, k < x.1) : l.lookup k = none := by
  rw [lookup_eq_none_iff]
  intro x hx
  exact bne_iff_ne.mpr (h x hx).ne

/-- Looking up ascending numbers finds the elements of a list with ascending keys in their
    order. -/
theorem filterMap_lookup_range' {α : Type*} {l : List (Nat × α)}
    (hl : l.Pairwise fun x y => x.1 < y.1) {a n : Nat} (hge : ∀ x ∈ l, a ≤ x.1)
    (hlt : ∀ x ∈ l, x.1 < a + n) :
    ((range' a n).filterMap fun i => l.lookup i) = l.map Prod.snd := by
  -- induction on the numbers: the next one is the first key, or it is below all keys
  induction n generalizing a l with
  | zero =>
    cases l with
    | nil => rfl
    | cons x l =>
      have hge := hge x mem_cons_self
      have hlt := hlt x mem_cons_self
      omega
  | succ n ih =>
    rw [range'_succ, filterMap_cons]
    cases l with
    | nil => simp
    | cons x l =>
      obtain ⟨k, b⟩ := x
      obtain ⟨hk, hl'⟩ := pairwise_cons.mp hl
      rcases (hge (k, b) mem_cons_self).eq_or_lt with rfl | hak
      · -- the numbers that are left are not the first key
        have hrest : ((range' (a + 1) n).filterMap fun i => ((a, b) :: l).lookup i) =
            (range' (a + 1) n).filterMap fun i => l.lookup i := by
          refine filterMap_congr fun i hi => ?_
          have hi := (mem_range'_1.mp hi).1
          have hne : (i == a) = false := beq_eq_false_iff_ne.mpr (by omega)
          rw [lookup_cons, hne]
        rw [lookup_cons_self, hrest, ih hl' hk fun x hx => ?_, map_cons]
        have hlt := hlt x (mem_cons_of_mem _ hx)
        omega
      · have hall : ∀ x ∈ (k, b) :: l, a < x.1 :=
          forall_mem_cons.mpr ⟨hak, fun x hx => hak.trans (hk x hx)⟩
        rw [lookup_eq_none_of_lt hall]
        refine ih hl hall fun x hx => ?_
        have hlt := hlt x hx
        omega

/-- The results are those of a function exactly when each of them is. -/
theorem mapM_eq_some_map {α β : Type*} {f : α → Option β} {g : α → β} {l : List α} :
    l.mapM f = some (l.map g) ↔ ∀ a ∈ l, f a = some (g a) := by
  -- element by element: one without a result ends it
  induction l with
  | nil => simp
  | cons a l ih =>
    rw [mapM_cons, forall_mem_cons, ← ih]
    cases hf : f a with
    | none => simp
    | some b => cases l.mapM f <;> simp

/-- Results that have the keys of the elements, and no key twice, are all of them. -/
theorem exists_mapM_perm {α β κ : Type*} {f : α → Option β} {k : α → κ} {k' : β → κ}
    {l : List α} {r : List β} (hkeys : (l.map k).Perm (r.map k')) (hnodup : (r.map k').Nodup)
    (hread : ∀ a ∈ l, ∃ b ∈ r, k a = k' b ∧ f a = some b) :
    ∃ es, l.mapM f = some es ∧ es.Perm r := by
  -- induction on the elements: the first one takes its result out of `r`
  induction l generalizing r with
  | nil =>
    obtain rfl : r = [] := by simpa using hkeys
    exact ⟨[], rfl, .refl _⟩
  | cons a l ih =>
    rw [forall_mem_cons] at hread
    obtain ⟨⟨b, hb, hkey, hf⟩, hread⟩ := hread
    obtain ⟨r₁, r₂, rfl⟩ := mem_iff_append.mp hb
    have hperm : (b :: (r₁ ++ r₂)).Perm (r₁ ++ b :: r₂) := perm_middle.symm
    have hkeys' := hkeys.trans (hperm.map k').symm
    have hnodup' := (hperm.map k').nodup_iff.mpr hnodup
    rw [map_cons, map_cons, hkey] at hkeys'
    rw [map_cons, nodup_cons] at hnodup'
    -- the other elements have the other results
    obtain ⟨es, hes, hrest⟩ := ih hkeys'.cons_inv hnodup'.2 (by
      intro a' ha'
      obtain ⟨b', hb', hkey', hf'⟩ := hread a' ha'
      refine ⟨b', ?_, hkey', hf'⟩
      rcases mem_cons.mp (hperm.mem_iff.mpr hb') with rfl | hb'
      · have hmem := hkeys'.cons_inv.mem_iff.mp (mem_map_of_mem (f := k) ha')
        rw [hkey'] at hmem
        exact absurd hmem hnodup'.1
      · exact hb')
    exact ⟨b :: es, by rw [mapM_cons, hf, hes]; rfl, (hrest.cons b).trans hperm⟩

/-- A list without two elements for a key is its own dictionary. -/
theorem dedupKeys_of_nodupKeys {α : Type*} {β : α → Type*} [DecidableEq α]
    {l : List (Sigma β)} (h : l.NodupKeys) : l.dedupKeys = l := by
  induction l with
  | nil => rfl
  | cons x l ih =>
    obtain ⟨hx, hl⟩ := nodupKeys_cons.mp h
    rw [dedupKeys_cons, ih hl, kinsert_def, kerase_of_notMem_keys hx]

/-- What an element stands for under `k` is what its result stands for under `g`. -/
theorem map_of_mapM_eq_some {α β γ : Type*} {f : α → Option β} {g : β → γ} {k : α → γ}
    {l : List α} {r : List β} (h : l.mapM f = some r) (hg : ∀ a b, f a = some b → g b = k a) :
    r.map g = l.map k := by
  -- element by element, as the results come
  induction l generalizing r with
  | nil =>
    obtain rfl : [] = r := by simpa using h
    rfl
  | cons a l ih =>
    rw [List.mapM_cons] at h
    obtain ⟨b, hb, h⟩ := Option.bind_eq_some_iff.mp h
    obtain ⟨bs, hbs, h⟩ := Option.bind_eq_some_iff.mp h
    obtain rfl := Option.some.inj h
    rw [List.map_cons, List.map_cons, hg a b hb, ih hbs]

/-- Where `g` decides `f`, a prefix of the values of `g` is one of the values of `f`. -/
theorem map_prefix_map_of_imp {α β γ : Type*} {f : α → β} {g : α → γ}
    (hfg : ∀ a b, g a = g b → f a = f b) {l l' : List α} (h : l.map g <+: l'.map g) :
    l.map f <+: l'.map f := by
  -- both lists begin with elements of the same value
  induction l generalizing l' with
  | nil => exact nil_prefix
  | cons a l ih =>
    cases l' with
    | nil => simp at h
    | cons b l' =>
      rw [map_cons, map_cons, cons_prefix_cons] at h ⊢
      exact ⟨hfg a b h.1, ih h.2⟩

/-! ## Lists put together with effects -/

section concatM

variable {α β γ : Type} {m : Type → Type} [Monad m] [LawfulMonad m]

/-- Put together what the elements give, with their effects from left to right. -/
def concatM {m : Type → Type} [Monad m] (f : α → m (List β)) (l : List α) : m (List β) := do
  return (← l.mapM f).flatten

theorem concatM_nil (f : α → m (List β)) : concatM f [] = pure [] := by
  simp [concatM]

/-- What is done for the first element comes before the rest. -/
theorem concatM_cons (f : α → m (List β)) (a : α) (l : List α) :
    concatM f (a :: l) = do
      let x ← f a
      let y ← concatM f l
      return x ++ y := by
  simp [concatM]

@[simp] theorem concatM_singleton (f : α → m (List β)) (a : α) : concatM f [a] = f a := by
  simp [concatM_cons, concatM_nil]

/-- Elements without effects. -/
theorem concatM_map_pure (f : α → m (List β)) (g : γ → α) {k : γ → List β} {l : List γ}
    (h : ∀ c ∈ l, f (g c) = pure (k c)) : concatM f (l.map g) = pure (l.flatMap k) := by
  induction l with
  | nil => exact concatM_nil f
  | cons c l ih =>
    rw [forall_mem_cons] at h
    rw [map_cons, concatM_cons, h.1, ih h.2]
    simp

/-- For two lists one comes after the other. -/
theorem concatM_append (f : α → m (List β)) (l l' : List α) :
    concatM f (l ++ l') = do
      let x ← concatM f l
      let y ← concatM f l'
      return x ++ y := by
  induction l with
  | nil => simp [concatM_nil]
  | cons a l ih => simp only [cons_append, concatM_cons, ih, bind_assoc, pure_bind, append_assoc]

/-- Two lists that are made part by part from the same list give the same when the parts
    do. -/
theorem concatM_flatMap_congr {α' : Type} {f : α → m (List β)} {f' : α' → m (List β)}
    {g : γ → List α} {g' : γ → List α'} {l : List γ}
    (h : ∀ c ∈ l, concatM f (g c) = concatM f' (g' c)) :
    concatM f (l.flatMap g) = concatM f' (l.flatMap g') := by
  -- part by part, from left to right
  induction l with
  | nil => simp [concatM_nil]
  | cons c l ih =>
    rw [forall_mem_cons] at h
    rw [flatMap_cons, flatMap_cons, concatM_append, concatM_append, h.1, ih h.2]

/-- What the elements give is put together from a log of them. -/
theorem concatM_eq_map_log {δ : Type} (f : α → m δ) (k : α × δ → List β) (l : List α) :
    concatM (fun a => do return k (a, ← f a)) l =
      (fun log => log.flatMap k) <$> l.mapM fun a => do return (a, ← f a) := by
  induction l with
  | nil => simp [concatM_nil]
  | cons a l ih =>
    rw [concatM_cons, ih]
    simp

end concatM

end List

namespace Finset

/-- A sum in which the terms other than that at `i` are those of `g` is at most the sum
    of `g` and the term at `i`. -/
theorem sum_le_sum_add_of_eq_off {ι : Type*} [DecidableEq ι] (s : Finset ι) {f g : ι → Nat}
    (i : ι) (h : ∀ j ∈ s, j ≠ i → f j = g j) : ∑ j ∈ s, f j ≤ ∑ j ∈ s, g j + f i := by
  -- the term at `i` is counted in addition, and once
  calc ∑ j ∈ s, f j ≤ ∑ j ∈ s, (g j + if j = i then f i else 0) := by
        refine Finset.sum_le_sum fun j hj => ?_
        by_cases hji : j = i
        · subst hji
          simp
        · simp [hji, h j hj hji]
    _ = ∑ j ∈ s, g j + ∑ j ∈ s, if j = i then f i else 0 := Finset.sum_add_distrib
    _ ≤ ∑ j ∈ s, g j + f i := by
        refine Nat.add_le_add_left ?_ _
        rw [Finset.sum_ite_eq']
        split <;> simp

end Finset
