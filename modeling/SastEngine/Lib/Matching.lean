import Mathlib.Data.Multiset.MapFold
import Mathlib.Data.Multiset.Defs
import Mathlib.Tactic.Lemma

/-!
# Greedy matchings

Takers of a list are served one after the other: each takes some free item it is related to, or
goes without when none is left (`Greedy`).  Whatever items are chosen, the outcome is a maximal
matching, so it is at least half as large as any matching.  It is as large as any matching when
the relation is difunctional: takers that share an item share all their items.  Then the exchange
`x-y`, `x'-y'` for `x-y'`, `x'-y` is always possible, and the order of the takers does not matter.
-/

namespace Sast

variable {α β : Type}

/-- `xs` is made of `ys` and `zs`, the elements of each in their order. -/
inductive Interleaves : List α → List α → List α → Prop
  | nil : Interleaves [] [] []
  | left (x : α) {ys zs xs : List α} : Interleaves ys zs xs → Interleaves (x :: ys) zs (x :: xs)
  | right (x : α) {ys zs xs : List α} : Interleaves ys zs xs → Interleaves ys (x :: zs) (x :: xs)

lemma Interleaves.perm {ys zs xs : List α} (h : Interleaves ys zs xs) : (ys ++ zs).Perm xs := by
  induction h with
  | nil => exact List.Perm.refl _
  | left x _ ih => exact ih.cons x
  | right x _ ih => exact List.perm_middle.trans (ih.cons x)

lemma Interleaves.sublist_left {ys zs xs : List α} (h : Interleaves ys zs xs) :
    ys.Sublist xs := by
  induction h with
  | nil => exact List.Sublist.refl _
  | left x _ ih => exact ih.cons_cons x
  | right x _ ih => exact ih.cons x

lemma Interleaves.length {ys zs xs : List α} (h : Interleaves ys zs xs) :
    ys.length + zs.length = xs.length := by
  rw [← List.length_append]
  exact h.perm.length_eq

/-- A matching of takers `xs` with items `ys`: no taker and no item is used more often than it
occurs. -/
structure Matching (R : α → β → Prop) (xs : Multiset α) (ys : Multiset β)
    (m : Multiset (α × β)) : Prop where
  takers : m.map Prod.fst ≤ xs
  items : m.map Prod.snd ≤ ys
  related : ∀ p ∈ m, R p.1 p.2

/-- Takers that share an item share all their items. -/
def Difunctional (R : α → β → Prop) (xs : Multiset α) (ys : Multiset β) : Prop :=
  ∀ x ∈ xs, ∀ x' ∈ xs, ∀ y ∈ ys, ∀ y' ∈ ys, R x y → R x' y → R x' y' → R x y'

instance (R : α → β → Prop) [∀ x y, Decidable (R x y)] (xs : Multiset α) (ys : Multiset β) :
    Decidable (Difunctional R xs ys) :=
  have (x x' : α) (y : β) : Decidable (∀ y' ∈ ys, R x y → R x' y → R x' y' → R x y') :=
    Multiset.decidableForallMultiset
  have (x x' : α) :
      Decidable (∀ y ∈ ys, ∀ y' ∈ ys, R x y → R x' y → R x' y' → R x y') :=
    Multiset.decidableForallMultiset
  have (x : α) : Decidable (∀ x' ∈ xs, ∀ y ∈ ys, ∀ y' ∈ ys,
      R x y → R x' y → R x' y' → R x y') := Multiset.decidableForallMultiset
  Multiset.decidableForallMultiset

lemma Difunctional.mono {R : α → β → Prop} {xs xs' : Multiset α} {ys ys' : Multiset β}
    (h : Difunctional R xs ys) (hxs : xs' ≤ xs) (hys : ys' ≤ ys) : Difunctional R xs' ys' :=
  fun x hx x' hx' y hy y' hy' => h x (Multiset.mem_of_le hxs hx) x' (Multiset.mem_of_le hxs hx')
    y (Multiset.mem_of_le hys hy) y' (Multiset.mem_of_le hys hy')

/-- What is below `a ::ₘ t` without using `a` is below `t`; what uses `a` has it. -/
lemma le_or_mem_of_le_cons {a : α} {s t : Multiset α} (h : s ≤ a ::ₘ t) : s ≤ t ∨ a ∈ s := by
  by_cases ha : a ∈ s
  · exact Or.inr ha
  · exact Or.inl ((Multiset.le_cons_of_notMem ha).1 h)

lemma exists_cons_of_fst_mem {m : Multiset (α × β)} {x : α} (h : x ∈ m.map Prod.fst) :
    ∃ y m', m = (x, y) ::ₘ m' := by
  obtain ⟨⟨x', y⟩, hp, rfl⟩ := Multiset.mem_map.1 h
  exact ⟨y, Multiset.exists_cons_of_mem hp⟩

lemma exists_cons_of_snd_mem {m : Multiset (α × β)} {y : β} (h : y ∈ m.map Prod.snd) :
    ∃ x m', m = (x, y) ::ₘ m' := by
  obtain ⟨⟨x, y'⟩, hp, rfl⟩ := Multiset.mem_map.1 h
  exact ⟨x, Multiset.exists_cons_of_mem hp⟩

namespace Matching

variable {R : α → β → Prop} {xs : Multiset α} {ys : Multiset β} {m : Multiset (α × β)}

lemma of_cons {p : α × β} (h : Matching R xs ys (p ::ₘ m)) : Matching R xs ys m where
  takers := (Multiset.map_le_map (Multiset.le_cons_self m p)).trans h.takers
  items := (Multiset.map_le_map (Multiset.le_cons_self m p)).trans h.items
  related q hq := h.related q (Multiset.mem_cons_of_mem hq)

/-- A taker related to no item is in no matching. -/
lemma skip {x : α} (h : Matching R (x ::ₘ xs) ys m) (hx : ∀ y ∈ ys, ¬ R x y) :
    Matching R xs ys m := by
  rcases le_or_mem_of_le_cons h.takers with hle | hmem
  · exact ⟨hle, h.items, h.related⟩
  · obtain ⟨y, m', rfl⟩ := exists_cons_of_fst_mem hmem
    have hy : y ∈ ys := Multiset.mem_of_le h.items (by simp)
    exact absurd (h.related (x, y) (Multiset.mem_cons_self _ _)) (hx y hy)

/-- Without the taker `x`, a matching keeps all its pairs but at most one. -/
lemma drop_taker {x : α} (h : Matching R (x ::ₘ xs) ys m) :
    Matching R xs ys m ∨ ∃ y m', m = (x, y) ::ₘ m' ∧ Matching R xs ys m' := by
  rcases le_or_mem_of_le_cons h.takers with hle | hmem
  · exact Or.inl ⟨hle, h.items, h.related⟩
  · obtain ⟨y, m', rfl⟩ := exists_cons_of_fst_mem hmem
    refine Or.inr ⟨y, m', rfl, ?_, h.of_cons.items, h.of_cons.related⟩
    have hle := h.takers
    rw [Multiset.map_cons] at hle
    exact (Multiset.cons_le_cons_iff x).1 hle

/-- Without the item `y`, a matching keeps all its pairs but at most one. -/
lemma drop_item {y : β} (h : Matching R xs (y ::ₘ ys) m) :
    Matching R xs ys m ∨ ∃ x m', m = (x, y) ::ₘ m' ∧ Matching R xs ys m' := by
  rcases le_or_mem_of_le_cons h.items with hle | hmem
  · exact Or.inl ⟨h.takers, hle, h.related⟩
  · obtain ⟨x, m', rfl⟩ := exists_cons_of_snd_mem hmem
    refine Or.inr ⟨x, m', rfl, h.of_cons.takers, ?_, h.of_cons.related⟩
    have hle := h.items
    rw [Multiset.map_cons] at hle
    exact (Multiset.cons_le_cons_iff y).1 hle

/-- A pair taken out costs a matching at most two pairs. -/
lemma exists_without {x : α} {y : β} (h : Matching R (x ::ₘ xs) (y ::ₘ ys) m) :
    ∃ m', Matching R xs ys m' ∧ m.card ≤ m'.card + 2 := by
  rcases h.drop_taker with h₁ | ⟨y', m₁, rfl, h₁⟩
  · rcases h₁.drop_item with h₂ | ⟨x', m₂, rfl, h₂⟩
    · exact ⟨_, h₂, by omega⟩
    · exact ⟨m₂, h₂, by rw [Multiset.card_cons]; omega⟩
  · rcases h₁.drop_item with h₂ | ⟨x', m₂, rfl, h₂⟩
    · exact ⟨m₁, h₂, by rw [Multiset.card_cons]; omega⟩
    · exact ⟨m₂, h₂, by rw [Multiset.card_cons, Multiset.card_cons]⟩

/-- **The exchange.**  A related pair taken out costs a matching at most one pair when the
relation is difunctional: the other two ends are paired instead. -/
lemma exists_exchanged {x : α} {y : β} (hR : Difunctional R (x ::ₘ xs) (y ::ₘ ys)) (hxy : R x y)
    (h : Matching R (x ::ₘ xs) (y ::ₘ ys) m) :
    ∃ m', Matching R xs ys m' ∧ m.card ≤ m'.card + 1 := by
  rcases h.drop_taker with h₁ | ⟨y', m₁, rfl, h₁⟩
  · rcases h₁.drop_item with h₂ | ⟨x', m₂, rfl, h₂⟩
    · exact ⟨_, h₂, by omega⟩
    · exact ⟨m₂, h₂, by rw [Multiset.card_cons]⟩
  · rcases h₁.drop_item with h₂ | ⟨x', m₂, rfl, h₂⟩
    · exact ⟨m₁, h₂, by rw [Multiset.card_cons]⟩
    · -- `x` had `y'` and `x'` had `y`
      have hitems := h.items
      rw [Multiset.map_cons, Multiset.map_cons, Multiset.cons_swap,
        Multiset.cons_le_cons_iff] at hitems
      have hx' : x' ∈ xs := Multiset.mem_of_le h₁.takers (by simp)
      have hy' : y' ∈ ys := Multiset.mem_of_le hitems (by simp)
      have hx'y' : R x' y' := hR x' (Multiset.mem_cons_of_mem hx') x (Multiset.mem_cons_self _ _)
        y (Multiset.mem_cons_self _ _) y' (Multiset.mem_cons_of_mem hy')
        (h₁.related (x', y) (Multiset.mem_cons_self _ _)) hxy
        (h.related (x, y') (Multiset.mem_cons_self _ _))
      refine ⟨(x', y') ::ₘ m₂, ⟨?_, by rw [Multiset.map_cons]; exact hitems, ?_⟩, by simp⟩
      · simpa using h₁.takers
      · intro p hp
        rcases Multiset.mem_cons.1 hp with rfl | hp
        · exact hx'y'
        · exact h₂.related p hp

end Matching

/-- Every taker in turn takes a free item it is related to, or goes without if there is none.
`pairs` are the taken items, `rest` the takers without one, `left` the items left. -/
inductive Greedy [DecidableEq β] (R : α → β → Prop) :
    List α → Multiset β → List (α × β) → List α → Multiset β → Prop
  | nil (free : Multiset β) : Greedy R [] free [] [] free
  | take {x : α} {y : β} {xs : List α} {free : Multiset β} {pairs : List (α × β)} {rest : List α}
      {left : Multiset β} : y ∈ free → R x y → Greedy R xs (free.erase y) pairs rest left →
      Greedy R (x :: xs) free ((x, y) :: pairs) rest left
  | skip {x : α} {xs : List α} {free : Multiset β} {pairs : List (α × β)} {rest : List α}
      {left : Multiset β} : (∀ y ∈ free, ¬ R x y) → Greedy R xs free pairs rest left →
      Greedy R (x :: xs) free pairs (x :: rest) left

namespace Greedy

variable [DecidableEq β] {R : α → β → Prop} {xs : List α} {free : Multiset β}
  {pairs : List (α × β)} {rest : List α} {left : Multiset β}

/-- Each taker got an item or goes without. -/
lemma interleaves (h : Greedy R xs free pairs rest left) :
    Interleaves (pairs.map Prod.fst) rest xs := by
  induction h with
  | nil free => exact .nil
  | take _ _ _ ih => exact ih.left _
  | skip _ _ ih => exact ih.right _

/-- Each item was taken once or is left. -/
lemma items_eq (h : Greedy R xs free pairs rest left) :
    free = (pairs.map Prod.snd : Multiset β) + left := by
  induction h with
  | nil free => simp
  | take hy _ _ ih =>
      rw [List.map_cons, ← Multiset.cons_coe, Multiset.cons_add, ← ih, Multiset.cons_erase hy]
  | skip _ _ ih => exact ih

lemma related (h : Greedy R xs free pairs rest left) : ∀ p ∈ pairs, R p.1 p.2 := by
  induction h with
  | nil free => simp
  | take _ hxy _ ih => exact List.forall_mem_cons.2 ⟨hxy, ih⟩
  | skip _ _ ih => exact ih

lemma matching (h : Greedy R xs free pairs rest left) : Matching R xs free pairs where
  takers := by
    rw [Multiset.map_coe, Multiset.coe_le]
    exact h.interleaves.sublist_left.subperm
  items := by
    rw [Multiset.map_coe, h.items_eq]
    exact Multiset.le_add_right _ _
  related := by simpa using h.related

/-- No taker goes without while an item it is related to is left. -/
lemma maximal (h : Greedy R xs free pairs rest left) : ∀ x ∈ rest, ∀ y ∈ left, ¬ R x y := by
  induction h with
  | nil free => simp
  | take _ _ _ ih => exact ih
  | skip hx htail ih =>
      refine List.forall_mem_cons.2 ⟨fun y hy => hx y ?_, ih⟩
      rw [htail.items_eq]
      exact Multiset.mem_add.2 (Or.inr hy)

/-- A greedy matching is at least half as large as any other. -/
theorem card_le_two_mul (h : Greedy R xs free pairs rest left) {m : Multiset (α × β)}
    (hm : Matching R xs free m) : m.card ≤ 2 * pairs.length := by
  induction h generalizing m with
  | nil free =>
      have hnil : m.map Prod.fst = 0 := Multiset.le_zero.1 hm.takers
      simp [Multiset.map_eq_zero.1 hnil]
  | take hy _ _ ih =>
      rw [← Multiset.cons_coe, ← Multiset.cons_erase hy] at hm
      obtain ⟨m', hm', hcard⟩ := hm.exists_without
      have := ih hm'
      rw [List.length_cons]
      omega
  | skip hx _ ih => exact ih (Matching.skip (by rwa [Multiset.cons_coe]) hx)

/-- Under a difunctional relation a greedy matching is as large as any other. -/
theorem card_le (h : Greedy R xs free pairs rest left) (hR : Difunctional R xs free)
    {m : Multiset (α × β)} (hm : Matching R xs free m) : m.card ≤ pairs.length := by
  induction h generalizing m with
  | nil free =>
      have hnil : m.map Prod.fst = 0 := Multiset.le_zero.1 hm.takers
      simp [Multiset.map_eq_zero.1 hnil]
  | take hy hxy _ ih =>
      rw [← Multiset.cons_coe] at hm hR
      have hR' := hR
      rw [← Multiset.cons_erase hy] at hm hR'
      obtain ⟨m', hm', hcard⟩ := hm.exists_exchanged hR' hxy
      have hle := ih (hR.mono (Multiset.le_cons_self _ _) (Multiset.erase_le _ _)) hm'
      rw [List.length_cons]
      omega
  | skip hx _ ih =>
      rw [← Multiset.cons_coe] at hm hR
      exact ih (hR.mono (Multiset.le_cons_self _ _) le_rfl) (hm.skip hx)

/-- Under a difunctional relation the order of the takers does not matter. -/
theorem length_eq_of_perm {xs' : List α} {pairs' : List (α × β)} {rest' : List α}
    {left' : Multiset β} (h : Greedy R xs free pairs rest left)
    (h' : Greedy R xs' free pairs' rest' left') (hperm : xs'.Perm xs)
    (hR : Difunctional R xs free) : pairs'.length = pairs.length := by
  have hcoe : (xs' : Multiset α) = xs := Multiset.coe_eq_coe.2 hperm
  have hm := h.matching
  have hm' := h'.matching
  rw [hcoe] at hm'
  have hle := h.card_le hR hm'
  rw [← hcoe] at hm hR
  have hge := h'.card_le hR hm
  simp only [Multiset.coe_card] at hle hge
  omega

end Greedy

end Sast
