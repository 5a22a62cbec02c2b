import Mathlib.Data.List.Sort
import Mathlib.Data.Int.Order.Basic
import Mathlib.Tactic.Lemma

/-!
# Sorting by a time

Stable sorting of a list by an integer key, upwards or downwards.  The lists that two stores sort
may hold the same elements in different orders; after sorting, they differ at most where the keys
are equal.  The last part is about the first element with the least key.
-/

namespace Sast

variable {α : Type}

/-- The same elements in the same order, except among those with equal keys. -/
structure SameUpToTies (key : α → Int) (xs ys : List α) : Prop where
  perm : xs.Perm ys
  keys : xs.map key = ys.map key

/-- `sorted(xs, key=key)`. -/
def sortUp (key : α → Int) (xs : List α) : List α :=
  xs.insertionSort fun a b => key a ≤ key b

/-- `sorted(xs, key=key, reverse=True)`, which keeps the order of equal elements too. -/
def sortDown (key : α → Int) (xs : List α) : List α :=
  xs.insertionSort fun a b => key b ≤ key a

lemma perm_sortUp (key : α → Int) (xs : List α) : (sortUp key xs).Perm xs :=
  List.perm_insertionSort _ xs

lemma perm_sortDown (key : α → Int) (xs : List α) : (sortDown key xs).Perm xs :=
  List.perm_insertionSort _ xs

lemma map_sortUp (key : α → Int) (xs : List α) :
    (sortUp key xs).map key = (xs.map key).insertionSort (· ≤ ·) :=
  List.map_insertionSort _ _ key xs fun _ _ _ _ => Iff.rfl

lemma map_sortDown (key : α → Int) (xs : List α) :
    (sortDown key xs).map key = (xs.map key).insertionSort (· ≥ ·) :=
  List.map_insertionSort _ _ key xs fun _ _ _ _ => Iff.rfl

/-- Two orders of the same elements are sorted alike. -/
theorem sameUpToTies_sortUp (key : α → Int) {xs ys : List α} (h : xs.Perm ys) :
    SameUpToTies key (sortUp key xs) (sortUp key ys) where
  perm := ((perm_sortUp key xs).trans h).trans (perm_sortUp key ys).symm
  keys := by
    rw [map_sortUp, map_sortUp]
    refine List.Perm.eq_of_pairwise' (List.pairwise_insertionSort (· ≤ ·) _)
      (List.pairwise_insertionSort (· ≤ ·) _) ?_
    exact ((List.perm_insertionSort _ _).trans (h.map key)).trans
      (List.perm_insertionSort _ _).symm

theorem sameUpToTies_sortDown (key : α → Int) {xs ys : List α} (h : xs.Perm ys) :
    SameUpToTies key (sortDown key xs) (sortDown key ys) where
  perm := ((perm_sortDown key xs).trans h).trans (perm_sortDown key ys).symm
  keys := by
    rw [map_sortDown, map_sortDown]
    refine List.Perm.eq_of_pairwise' (List.pairwise_insertionSort (· ≥ ·) _)
      (List.pairwise_insertionSort (· ≥ ·) _) ?_
    exact ((List.perm_insertionSort _ _).trans (h.map key)).trans
      (List.perm_insertionSort _ _).symm

/-- Sorting changes nothing exactly when the keys do not decrease. -/
theorem sortUp_eq_self_iff (key : α → Int) (xs : List α) :
    sortUp key xs = xs ↔ xs.Pairwise fun a b => key a ≤ key b := by
  constructor
  · intro h
    rw [← h]
    have : IsTrans α fun a b => key a ≤ key b := ⟨fun _ _ _ => le_trans⟩
    have : Std.Total fun a b : α => key a ≤ key b := ⟨fun a b => le_total (key a) (key b)⟩
    exact List.pairwise_insertionSort _ xs
  · exact List.Pairwise.insertionSort_eq

/-- Appending one element to a list that is sorted. -/
lemma sorted_concat_iff (key : α → Int) (xs : List α) (x : α) :
    (xs ++ [x]).Pairwise (fun a b => key a ≤ key b)
      ↔ xs.Pairwise (fun a b => key a ≤ key b) ∧ ∀ last ∈ xs.getLast?, key last ≤ key x := by
  rw [List.pairwise_append]
  constructor
  · rintro ⟨hxs, -, hall⟩
    exact ⟨hxs, fun last hlast => hall last (List.mem_of_getLast? hlast) x (List.mem_singleton_self x)⟩
  · rintro ⟨hxs, hlast⟩
    refine ⟨hxs, List.pairwise_singleton .., ?_⟩
    rintro a ha b hb
    obtain rfl := List.mem_singleton.1 hb
    have hsome := List.getLast?_eq_some_getLast (List.ne_nil_of_mem ha)
    refine le_trans ?_ (hlast _ hsome)
    obtain ⟨pre, heq⟩ := List.getLast?_eq_some_iff.1 hsome
    generalize xs.getLast _ = last at heq
    subst heq
    rcases List.mem_append.1 ha with ha | ha
    · exact (List.pairwise_append.1 hxs).2.2 a ha last (List.mem_singleton_self last)
    · obtain rfl := List.mem_singleton.1 ha
      exact le_refl _

/-! ## The first of the least -/

section FirstLeast

variable {key : α → Nat} {x y : α} {xs : List α}

/-- The element is the first one with the least key. -/
def FirstLeast (key : α → Nat) (xs : List α) (x : α) : Prop :=
  ∃ before after, xs = before ++ x :: after ∧ (∀ y ∈ before, key x < key y)
    ∧ ∀ y ∈ after, key x ≤ key y

lemma FirstLeast.mem (h : FirstLeast key xs x) : x ∈ xs := by
  obtain ⟨before, after, rfl, -⟩ := h
  simp

lemma FirstLeast.le (h : FirstLeast key xs x) (hy : y ∈ xs) : key x ≤ key y := by
  obtain ⟨before, after, rfl, hbefore, hafter⟩ := h
  rcases List.mem_append.1 hy with hy | hy
  · exact (hbefore y hy).le
  · rcases List.mem_cons.1 hy with rfl | hy
    · exact le_rfl
    · exact hafter y hy

lemma FirstLeast.cons_lt (h : FirstLeast key xs x) (hy : key x < key y) :
    FirstLeast key (y :: xs) x := by
  obtain ⟨before, after, rfl, hbefore, hafter⟩ := h
  refine ⟨y :: before, after, rfl, ?_, hafter⟩
  intro z hz
  rcases List.mem_cons.1 hz with rfl | hz
  · exact hy
  · exact hbefore z hz

/-- An element that is no smaller than the first one changes nothing behind it. -/
lemma FirstLeast.insert (h : FirstLeast key (y :: xs) x) {z : α} (hz : key y ≤ key z) :
    FirstLeast key (y :: z :: xs) x := by
  obtain ⟨before, after, heq, hbefore, hafter⟩ := h
  cases before with
  | nil =>
      obtain ⟨rfl, rfl⟩ := List.cons.inj heq
      refine ⟨[], z :: xs, rfl, by simp, ?_⟩
      intro w hw
      rcases List.mem_cons.1 hw with rfl | hw
      · exact hz
      · exact hafter w hw
  | cons b before =>
      obtain ⟨rfl, rfl⟩ := List.cons.inj heq
      refine ⟨y :: z :: before, after, rfl, ?_, hafter⟩
      have hy := hbefore y List.mem_cons_self
      intro w hw
      rcases List.mem_cons.1 hw with rfl | hw
      · exact hy
      · rcases List.mem_cons.1 hw with rfl | hw
        · exact hy.trans_le hz
        · exact hbefore w (List.mem_cons_of_mem y hw)

lemma firstLeast_foldl (xs : List α) :
    ∀ b : α, FirstLeast key (b :: xs)
      (xs.foldl (fun best y => if key y < key best then y else best) b) := by
  induction xs with
  | nil =>
      intro b
      exact ⟨[], [], rfl, by simp, by simp⟩
  | cons y xs ih =>
      intro b
      rw [List.foldl_cons]
      split_ifs with hlt
      · have hleast := ih y
        exact hleast.cons_lt ((hleast.le List.mem_cons_self).trans_lt hlt)
      · exact (ih b).insert (not_lt.1 hlt)

/-- There is one first least element. -/
lemma FirstLeast.unique (hx : FirstLeast key xs x) (hy : FirstLeast key xs y) : x = y := by
  have hle := hx.le hy.mem
  have hge := hy.le hx.mem
  obtain ⟨before, after, heq, hbefore, -⟩ := hx
  obtain ⟨before', after', heq', hbefore', -⟩ := hy
  rw [heq, List.append_eq_append_iff] at heq'
  rcases heq' with ⟨between, hsplit, hrest⟩ | ⟨between, hsplit, hrest⟩
  · cases between with
    | nil => exact (List.cons.inj hrest).1
    | cons z between =>
        obtain ⟨rfl, -⟩ := List.cons.inj hrest
        exact absurd (hbefore' x (by simp [hsplit])) (not_lt.2 hle)
  · cases between with
    | nil => exact (List.cons.inj hrest).1.symm
    | cons z between =>
        obtain ⟨rfl, -⟩ := List.cons.inj hrest
        exact absurd (hbefore y (by simp [hsplit])) (not_lt.2 hge)

end FirstLeast

end Sast
