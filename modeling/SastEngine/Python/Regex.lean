import Mathlib.Data.List.Basic
import Mathlib.Data.Option.Basic
import Mathlib.Tactic.Lemma

/-!
# Regular expressions

The part of `re` that patterns without back references use.  A backtracking matcher tries the ends
of a match in a fixed order, and the first one counts; `re.sub` replaces the matches from left to
right.  Texts are lists of anything that carries a character, so that a substitution can be followed
over characters that know where they come from: `places` is what is left of a text, as places in it,
and `subAll_eq_places` says that the places determine the result.
-/

namespace Sast

/-- A pattern.  Repetitions are of single characters only. -/
inductive Regex where
  | empty
  | char (p : Char → Bool)
  | seq (r s : Regex)
  | alt (r s : Regex)
  /-- `p{min,}` -/
  | many (p : Char → Bool) (min : Nat)
  /-- `p*?` -/
  | fewest (p : Char → Bool)
  /-- `\b` -/
  | boundary

namespace Regex

/-- Patterns one after another. -/
def all : List Regex → Regex
  | [] => .empty
  | [r] => r
  | r :: rs => .seq r (all rs)

/-- One of several patterns, tried in order. -/
def any : List Regex → Regex
  | [] => .empty
  | [r] => r
  | r :: rs => .alt r (any rs)

/-- `r?` -/
def opt (r : Regex) : Regex := .alt r .empty

/-- `p{n}` -/
def times (p : Char → Bool) (n : Nat) : Regex := all (List.replicate n (.char p))

/-- A text, character by character. -/
def text (s : String) : Regex := all (s.toList.map fun c => .char (· == c))

variable (word : Char → Bool)

/-- `\b` holds between two characters, or at an end of the text. -/
def atBoundary (before after : Option Char) : Bool := before.any word != after.any word

/-- The ends of a match that begins with the given characters, as distances, in the order in which
they are tried. -/
def ends : Regex → Option Char → List Char → List Nat
  | .empty, _, _ => [0]
  | .char p, _, cs =>
      match cs with
      | [] => []
      | c :: _ => if p c then [1] else []
  | .seq r s, before, cs =>
      (r.ends before cs).flatMap fun n =>
        (s.ends ((cs.take n).getLast?.or before) (cs.drop n)).map (n + ·)
  | .alt r s, before, cs => r.ends before cs ++ s.ends before cs
  | .many p min, _, cs =>
      (List.range ((cs.takeWhile p).length + 1)).reverse.filter (min ≤ ·)
  | .fewest p, _, cs => List.range ((cs.takeWhile p).length + 1)
  | .boundary, before, cs => if atBoundary word before cs.head? then [0] else []

section Substitution

variable {α β : Type} (char : α → Char) (new : List α)

/-- `re.sub` from a place on: the next characters of the last match are left out, and the character
before is known.  The patterns here do not match the empty text. -/
def subFrom (r : Regex) : Nat → Option Char → List α → List α
  | _, _, [] => []
  | skip + 1, _, a :: as => subFrom r skip (some (char a)) as
  | 0, before, a :: as =>
      match (r.ends word before ((a :: as).map char)).head? with
      | some (n + 1) => new ++ subFrom r n (some (char a)) as
      | _ => a :: subFrom r 0 (some (char a)) as

/-- `pattern.sub(new, text)`. -/
def sub (r : Regex) (as : List α) : List α := r.subFrom word char new 0 none as

/-- Several substitutions, one after another. -/
def subAll (rs : List Regex) (as : List α) : List α :=
  rs.foldl (fun as r => r.sub word char new as) as

variable {word char new}

/-- A substitution does not look at what the characters carry. -/
lemma map_subFrom (f : α → β) (char' : β → Char) (h : ∀ a, char' (f a) = char a) (r : Regex) :
    ∀ (as : List α) (skip : Nat) (before : Option Char),
      (r.subFrom word char new skip before as).map f
        = r.subFrom word char' (new.map f) skip before (as.map f) := by
  intro as
  induction as with
  | nil =>
      intro skip before
      rfl
  | cons a as ih =>
      intro skip before
      cases skip with
      | succ skip => simp only [subFrom, List.map_cons, h, ih]
      | zero =>
          have hchars : (f a :: as.map f).map char' = (a :: as).map char := by simp [h]
          rw [List.map_cons, subFrom, subFrom, hchars, h]
          split
          · rw [List.map_append, ih]
          · rw [List.map_cons, ih]

lemma map_subAll (f : α → β) (char : α → Char) (char' : β → Char) (h : ∀ a, char' (f a) = char a)
    (rs : List Regex) (as : List α) :
    (subAll word char new rs as).map f = subAll word char' (new.map f) rs (as.map f) := by
  induction rs generalizing as with
  | nil => rfl
  | cons r rs ih =>
      rw [subAll, List.foldl_cons, ← subAll, ih, sub, map_subFrom f char' h]
      rfl

/-- What is left comes from the text or from the replacement. -/
lemma mem_subFrom {r : Regex} {x : α} :
    ∀ {as : List α} {skip : Nat} {before : Option Char},
      x ∈ r.subFrom word char new skip before as → x ∈ new ∨ x ∈ as := by
  intro as
  induction as with
  | nil =>
      intro skip before h
      cases h
  | cons a as ih =>
      intro skip before h
      have hlater : x ∈ new ∨ x ∈ as → x ∈ new ∨ x ∈ a :: as :=
        Or.imp_right (List.mem_cons_of_mem a)
      cases skip with
      | succ skip => exact hlater (ih h)
      | zero =>
          rw [subFrom] at h
          split at h
          · rcases List.mem_append.1 h with hnew | hrest
            · exact Or.inl hnew
            · exact hlater (ih hrest)
          · rcases List.mem_cons.1 h with rfl | hrest
            · exact Or.inr List.mem_cons_self
            · exact hlater (ih hrest)

lemma mem_subAll {rs : List Regex} {x : α} {as : List α}
    (h : x ∈ subAll word char new rs as) : x ∈ new ∨ x ∈ as := by
  induction rs generalizing as with
  | nil => exact Or.inr h
  | cons r rs ih =>
      rcases (ih h : x ∈ new ∨ x ∈ r.sub word char new as) with hnew | hsub
      · exact Or.inl hnew
      · exact mem_subFrom hsub

end Substitution

/-! ## Places -/

/-- Where a character of the result comes from: from a place of the text or of a replacement. -/
inductive Place where
  | kept (i : Nat)
  | new (i : Nat)
deriving DecidableEq

/-- The characters of a text with their places. -/
def marked (place : Nat → Place) (cs : List Char) : List (Place × Char) :=
  cs.mapIdx fun i c => (place i, c)

variable (new : List Char) (rs : List Regex)

/-- What is left of a text, as places. -/
def places (cs : List Char) : List Place :=
  (subAll word Prod.snd (marked .new new) rs (marked .kept cs)).map Prod.fst

/-- The character at a place. -/
def Place.charOf (cs : List Char) : Place → Option Char
  | .kept i => cs[i]?
  | .new i => new[i]?

variable {word new rs}

lemma map_snd_marked (place : Nat → Place) (cs : List Char) :
    (marked place cs).map Prod.snd = cs := by
  refine List.ext_getElem (by simp [marked]) fun i _ _ => ?_
  simp [marked]

/-- The places determine what is left of a text. -/
theorem subAll_eq_places (cs : List Char) :
    (subAll word id new rs cs).map some = (places word new rs cs).map (Place.charOf new cs) := by
  have hsub : subAll word id new rs cs
      = (subAll word Prod.snd (marked .new new) rs (marked .kept cs)).map Prod.snd := by
    rw [map_subAll Prod.snd Prod.snd id fun _ => rfl, map_snd_marked, map_snd_marked]
  rw [hsub, places, List.map_map, List.map_map]
  refine List.map_congr_left fun m hm => ?_
  rcases mem_subAll hm with hnew | hkept
  · obtain ⟨i, hi, rfl⟩ := List.mem_mapIdx.1 hnew
    simp [Place.charOf, hi]
  · obtain ⟨i, hi, rfl⟩ := List.mem_mapIdx.1 hkept
    simp [Place.charOf, hi]

/-- Where the same places are left of two texts, the same is left of them iff they have the same
characters there. -/
theorem subAll_eq_iff {cs ds : List Char}
    (h : places word new rs cs = places word new rs ds) :
    subAll word id new rs cs = subAll word id new rs ds
      ↔ ∀ i, Place.kept i ∈ places word new rs cs → cs[i]? = ds[i]? := by
  rw [← (List.map_injective_iff.2 (Option.some_injective Char)).eq_iff, subAll_eq_places,
    subAll_eq_places, ← h, List.map_inj_left]
  constructor
  · exact fun hall i hi => hall _ hi
  · intro hall place hplace
    cases place with
    | kept i => exact hall i hplace
    | new i => rfl

end Regex

end Sast
