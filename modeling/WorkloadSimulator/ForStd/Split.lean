import Mathlib

/-!
# Splitting a list at the places where something matches

`splitHits len hit s` cuts `s` at the leftmost places where `hit` accepts what follows, takes
`len` elements out at each, and goes on behind them. This is what splitting a text at the
matches of a pattern of fixed length does.

## Key results

- `splitHits_spec`: the first piece, and what follows it
- `flatMap_intersperse_splitHits`: a function that can be computed on both sides of a hit is
  computed piece by piece
- `forall_mem_splitHits`: the pieces are parts of the list, and `hit` accepts nothing in them
- `Alternates.flatMap`: elements of two kinds still take turns after those of the one kind have
  been split
-/

namespace List

variable {α β : Type*}

/-- `splitHits` after `k` more elements. -/
def splitHits.go (len : Nat) (hit : List α → Bool) : Nat → List α → List (List α)
  | _, [] => [[]]
  | k + 1, _ :: s => go len hit k s
  | 0, a :: s =>
    if hit (a :: s) then [] :: go len hit (len - 1) s
    else (go len hit 0 s).modifyHead (a :: ·)

/-- The pieces of a list between the hits. -/
def splitHits (len : Nat) (hit : List α → Bool) (s : List α) : List (List α) :=
  splitHits.go len hit 0 s

variable {len : Nat} {hit : List α → Bool}

/-- The characters of a hit are passed over one by one. -/
theorem splitHits.go_eq_drop (k : Nat) (s : List α) :
    splitHits.go len hit k s = splitHits len hit (s.drop k) := by
  induction s generalizing k with
  | nil => cases k <;> rfl
  | cons a s ih =>
    cases k with
    | zero => rfl
    | succ k => exact ih k

/-- What a hit is depends on what it begins with, and a hit is not empty. -/
structure IsHit (len : Nat) (hit : List α → Bool) : Prop where
  pos : 0 < len
  nil : hit [] = false
  append : ∀ s t, hit s = true → hit (s ++ t) = true

/-- Before a hit there is an empty piece, and behind it the rest is split. -/
theorem splitHits_cons_of_hit (h : IsHit len hit) {a : α} {s : List α}
    (ha : hit (a :: s) = true) :
    splitHits len hit (a :: s) = [] :: splitHits len hit ((a :: s).drop len) := by
  obtain ⟨n, rfl⟩ : ∃ n, len = n + 1 := Nat.exists_eq_succ_of_ne_zero h.pos.ne'
  rw [splitHits, splitHits.go, if_pos ha, splitHits.go_eq_drop]
  rfl

/-- An element at which no hit begins belongs to the piece of what follows. -/
theorem splitHits_cons_of_not_hit {a : α} {s : List α} (ha : hit (a :: s) = false) :
    splitHits len hit (a :: s) = (splitHits len hit s).modifyHead (a :: ·) := by
  rw [splitHits, splitHits.go, if_neg (by simp [ha])]
  rfl

/-- The first piece goes up to the first hit, behind which the other pieces are. -/
theorem splitHits_spec (h : IsHit len hit) (s : List α) :
    ∃ p r, s = p ++ r ∧ (∀ t, t <:+ p → t ≠ [] → hit (t ++ r) = false) ∧
      ((r = [] ∧ splitHits len hit s = [p]) ∨
        (hit r = true ∧ splitHits len hit s = p :: splitHits len hit (r.drop len))) := by
  induction s with
  | nil =>
    refine ⟨[], [], rfl, ?_, .inl ⟨rfl, rfl⟩⟩
    intro t ht hne
    exact absurd (suffix_nil.mp ht) hne
  | cons a s ih =>
    cases ha : hit (a :: s) with
    | true =>
      refine ⟨[], a :: s, rfl, ?_, .inr ⟨ha, splitHits_cons_of_hit h ha⟩⟩
      intro t ht hne
      exact absurd (suffix_nil.mp ht) hne
    | false =>
      obtain ⟨p, r, rfl, hno, hpieces⟩ := ih
      refine ⟨a :: p, r, rfl, ?_, ?_⟩
      -- no hit begins in the piece: the first element is checked here, the others by `ih`
      · intro t ht hne
        rcases suffix_cons_iff.mp ht with rfl | ht
        · exact ha
        · exact hno t ht hne
      · rw [splitHits_cons_of_not_hit ha]
        rcases hpieces with ⟨hr, hp⟩ | ⟨hr, hp⟩
        · exact .inl ⟨hr, by rw [hp]; rfl⟩
        · exact .inr ⟨hr, by rw [hp]; rfl⟩

theorem splitHits_ne_nil (h : IsHit len hit) (s : List α) : splitHits len hit s ≠ [] := by
  obtain ⟨p, r, -, -, ⟨-, heq⟩ | ⟨-, heq⟩⟩ := splitHits_spec h s <;> simp [heq]

/-- A list is shorter behind a hit. -/
theorem IsHit.length_drop_lt (h : IsHit len hit) {p r : List α} (hr : hit r = true) :
    (r.drop len).length < (p ++ r).length := by
  have hne : r ≠ [] := by
    rintro rfl
    -- an empty list is no hit
    rw [h.nil] at hr
    cases hr
  have hlen := length_pos_of_ne_nil hne
  have hpos := h.pos
  simp only [length_drop, length_append]
  omega

/-- A function that can be computed on both sides of a hit, and that gives for the hit what it
    gives for `c`, can be computed on the pieces with `c` between them. -/
theorem flatMap_intersperse_splitHits (h : IsHit len hit) {f : List α → List β} {c : List α}
    (happ : ∀ p r, hit r = true → f (p ++ r) = f p ++ f r) (s : List α)
    (hhit : ∀ r, r <:+ s → hit r = true → f r = f c ++ f (r.drop len)) :
    ((splitHits len hit s).intersperse c).flatMap f = f s := by
  induction hn : s.length using Nat.strong_induction_on generalizing s with
  | _ n ih =>
    obtain ⟨p, r, rfl, -, ⟨rfl, heq⟩ | ⟨hr, heq⟩⟩ := splitHits_spec h s
    · rw [heq]
      simp
    · have hsuffix : r.drop len <:+ p ++ r := (drop_suffix _ _).trans (suffix_append _ _)
      -- the rest behind the hit is shorter
      have hrest := ih _ (hn ▸ h.length_drop_lt hr) (r.drop len)
        (fun t ht => hhit t (ht.trans hsuffix)) rfl
      obtain ⟨q, qs, hqs⟩ := exists_cons_of_ne_nil (splitHits_ne_nil h (r.drop len))
      rw [hqs] at hrest
      rw [heq, hqs, intersperse_cons_cons, flatMap_cons, flatMap_cons, hrest, happ p r hr,
        hhit r (suffix_append _ _) hr]

/-- The pieces are parts of the list, and there is no hit in them. -/
theorem forall_mem_splitHits (h : IsHit len hit) (s : List α) :
    ∀ p ∈ splitHits len hit s, p <:+: s ∧ ∀ t, t <:+ p → hit t = false := by
  -- by the length of what is left, which is shorter behind a hit
  induction hn : s.length using Nat.strong_induction_on generalizing s with
  | _ n ih =>
    obtain ⟨p, r, rfl, hno, hpieces⟩ := splitHits_spec h s
    have hp : p <:+: p ++ r ∧ ∀ t, t <:+ p → hit t = false := by
      refine ⟨(prefix_append p r).isInfix, ?_⟩
      intro t ht
      rcases eq_or_ne t [] with rfl | hne
      · exact h.nil
      · -- a hit in the piece would be one in the list
        refine Bool.eq_false_of_not_eq_true fun hhit => ?_
        have happ := h.append t r hhit
        rw [hno t ht hne] at happ
        cases happ
    rcases hpieces with ⟨rfl, heq⟩ | ⟨hr, heq⟩
    · rw [heq, forall_mem_singleton]
      exact hp
    · rw [heq, forall_mem_cons]
      refine ⟨hp, ?_⟩
      intro q hq
      have hsuffix : r.drop len <:+ p ++ r := (drop_suffix _ _).trans (suffix_append _ _)
      obtain ⟨hpart, hhits⟩ := ih _ (hn ▸ h.length_drop_lt hr) (r.drop len) rfl q hq
      exact ⟨hpart.trans hsuffix.isInfix, hhits⟩

/-- Where nothing hits in a list, nothing hits in a part of it. -/
theorem IsHit.of_part (h : IsHit len hit) {p s : List α} (hs : ∀ t, t <:+ s → hit t = false)
    (hp : p <:+: s) : ∀ t, t <:+ p → hit t = false := by
  obtain ⟨a, b, rfl⟩ := hp
  rintro t ⟨u, rfl⟩
  refine Bool.eq_false_of_not_eq_true fun hhit => ?_
  have happ := h.append t b hhit
  rw [hs (t ++ b) ⟨a ++ u, by simp⟩] at happ
  cases happ

/-- What stands in a list with `c` between the elements is `c` or an element. -/
theorem eq_or_mem_of_mem_intersperse {c a : α} {l : List α} (h : a ∈ l.intersperse c) :
    a = c ∨ a ∈ l := by
  -- the induction is that of `intersperse`, with two elements or more in the last case
  induction l using intersperse.induct with
  | case1 => exact .inr h
  | case2 x => exact .inr h
  | case3 x xs hne ih =>
    obtain ⟨y, ys, rfl⟩ := exists_cons_of_ne_nil fun hnil => hne hnil
    rw [intersperse_cons_cons, mem_cons, mem_cons] at h
    rcases h with rfl | rfl | h
    · exact .inr (mem_cons_self ..)
    · exact .inl rfl
    · exact (ih h).imp_right (mem_cons_of_mem x)

/-- The first piece goes up to the first hit. -/
theorem head_intersperse_splitHits (h : IsHit len hit) (c s : List α) :
    ∃ p ps r, (splitHits len hit s).intersperse c = p :: ps ∧ p ∈ splitHits len hit s ∧
      s = p ++ r ∧ (r = [] ∨ hit r = true) := by
  obtain ⟨p, r, hs, -, ⟨hr, heq⟩ | ⟨hr, heq⟩⟩ := splitHits_spec h s
  · exact ⟨p, [], r, by rw [heq]; rfl, by simp [heq], hs, .inl hr⟩
  · obtain ⟨q, qs, hqs⟩ := exists_cons_of_ne_nil (splitHits_ne_nil h (r.drop len))
    exact ⟨p, _, r, by rw [heq, hqs]; rfl, by simp [heq], hs, .inr hr⟩

/-! ## Lists of two kinds of elements -/

/-- Elements with `P` and elements with `Q` take turns, and the first and the last have `P`. -/
inductive Alternates (P Q : α → Prop) : List α → Prop where
  | singleton {a : α} (ha : P a) : Alternates P Q [a]
  | cons_cons {a b : α} {l : List α} (ha : P a) (hb : Q b) (hl : Alternates P Q l) :
      Alternates P Q (a :: b :: l)

namespace Alternates

variable {P Q : α → Prop} {l l' : List α}

/-- Such a list has an element. -/
theorem ne_nil (h : Alternates P Q l) : l ≠ [] := by
  cases h <;> simp

/-- Its length is odd, since it begins and ends with the same kind. -/
theorem length_odd (h : Alternates P Q l) : l.length % 2 = 1 := by
  induction h with
  | singleton ha => rfl
  | cons_cons ha hb hl ih =>
    simp only [length_cons]
    omega

/-- Two such lists with an element of the other kind between them. -/
theorem append_cons {b : α} (h : Alternates P Q l) (hb : Q b) (h' : Alternates P Q l') :
    Alternates P Q (l ++ b :: l') := by
  induction h with
  | singleton ha => exact .cons_cons ha hb h'
  | cons_cons ha hb' hl ih => exact .cons_cons ha hb' ih

/-- The elements of a list take turns with what is put between them. -/
theorem intersperse {c : α} (hne : l ≠ []) (hl : ∀ a ∈ l, P a) (hc : Q c) :
    Alternates P Q (l.intersperse c) := by
  -- the induction is that of `intersperse`
  induction l using intersperse.induct with
  | case1 => exact absurd rfl hne
  | case2 a => exact .singleton (hl a (mem_singleton_self a))
  | case3 a l hne' ih =>
    obtain ⟨b, l, rfl⟩ := exists_cons_of_ne_nil fun hnil => hne' hnil
    rw [intersperse_cons_cons]
    exact .cons_cons (hl a mem_cons_self) hc
      (ih (cons_ne_nil b l) fun x hx => hl x (mem_cons_of_mem a hx))

/-- Replace each element of the one kind by a list in which they take turns, and leave the
    elements of the other kind. -/
theorem flatMap {P' Q' : α → Prop} {f : α → List α} (h : Alternates P Q l)
    (hP : ∀ a, P a → Alternates P' Q' (f a)) (hQ : ∀ b, Q b → f b = [b] ∧ Q' b) :
    Alternates P' Q' (l.flatMap f) := by
  -- the parts are joined from the left, with the elements that stay between them
  induction h with
  | singleton ha =>
    rw [flatMap_singleton]
    exact hP _ ha
  | cons_cons ha hb hl ih =>
    obtain ⟨hf, hb'⟩ := hQ _ hb
    rw [flatMap_cons, flatMap_cons, hf]
    exact (hP _ ha).append_cons hb' ih

/-- The two properties can be weakened. -/
theorem imp {P' Q' : α → Prop} (h : Alternates P Q l) (hP : ∀ a, P a → P' a)
    (hQ : ∀ b, Q b → Q' b) : Alternates P' Q' l := by
  induction h with
  | singleton ha => exact .singleton (hP _ ha)
  | cons_cons ha hb hl ih => exact .cons_cons (hP _ ha) (hQ _ hb) ih

end Alternates

end List
