import Mathlib.Data.List.Infix
import SastEngine.Python.JoinedLines

/-!
# Two labelled groups

`re.search` for a pattern of two texts, each followed by a group of characters of a class, and
`int` of a group of digits.  Where the second text does not begin with a character of the first
class, a shorter first group matches nothing that the longest one does not, and there is nothing to
backtrack to.
-/

namespace Sast

/-- What `\d`, `\w` and `int` know of a character. -/
structure CharTable where
  decimal : Char → Option Nat
  word : Char → Bool
  decimal_ascii : ∀ c, c.toNat < 128 →
    decimal c = if c.isDigit then some (c.toNat - '0'.toNat) else none
  word_ascii : ∀ c, c.toNat < 128 → word c = (c.isAlphanum || c == '_')

/-- `\d`. -/
def CharTable.digit (chars : CharTable) (c : Char) : Bool := (chars.decimal c).isSome

/-- The digits that `int` reads at most, unless the interpreter is told otherwise. -/
def intMaxStrDigits : Nat := 4300

/-- `int(text)` of a text of digits. -/
def CharTable.int (chars : CharTable) (text : List Char) : Except String Nat :=
  if intMaxStrDigits < text.length then
    .error ("Exceeds the limit (" ++ toString intMaxStrDigits ++ " digits) for integer string "
      ++ "conversion: value has " ++ toString text.length ++ " digits; use "
      ++ "sys.set_int_max_str_digits() to increase the limit")
  else .ok (text.foldl (fun n c => 10 * n + (chars.decimal c).getD 0) 0)

/-- `(p+)`: the group, and what comes after it. -/
def group (p : Char → Bool) (cs : List Char) : Option (List Char × List Char) :=
  if (cs.takeWhile p).isEmpty then none else some (cs.takeWhile p, cs.dropWhile p)

/-- The pattern `first(left+)second(right+)`. -/
structure PairPattern where
  first : List Char
  left : Char → Bool
  second : List Char
  right : Char → Bool

namespace PairPattern

variable (pattern : PairPattern)

/-- `pattern.match(text)`, as its groups. -/
def matchAt (cs : List Char) : Option (List Char × List Char) :=
  match (cs.dropPrefix? pattern.first).bind (group pattern.left) with
  | none => none
  | some (a, rest) =>
      ((rest.dropPrefix? pattern.second).bind (group pattern.right)).map fun g => (a, g.1)

/-- `pattern.search(text)`, as its groups. -/
def search (cs : List Char) : Option (List Char × List Char) :=
  cs.tails.findSome? pattern.matchAt

variable {pattern}

lemma search_cons (c : Char) (cs : List Char) :
    pattern.search (c :: cs) = (pattern.matchAt (c :: cs)).or (pattern.search cs) := by
  rw [search, List.tails, List.findSome?_cons]
  cases pattern.matchAt (c :: cs) <;> rfl

lemma matchAt_eq_none {cs : List Char} (h : ¬ pattern.first <+: cs) :
    pattern.matchAt cs = none := by
  have hdrop : cs.dropPrefix? pattern.first = none := by
    rw [Option.eq_none_iff_forall_ne_some]
    intro rest hrest
    obtain ⟨p, rfl, hp⟩ := List.dropPrefix?_eq_some_iff.1 hrest
    exact h (eq_of_beq hp ▸ List.prefix_append p rest)
  rw [matchAt, hdrop]
  rfl

/-- Without its first text, the pattern is not found. -/
lemma search_eq_none {cs : List Char} (h : ¬ pattern.first <:+: cs) : pattern.search cs = none := by
  refine List.findSome?_eq_none_iff.2 fun t ht => matchAt_eq_none fun hstart => h ?_
  exact hstart.isInfix.trans ((List.mem_tails t cs).1 ht).isInfix

/-- A text before which no match can begin. -/
lemma search_append {lead : List Char}
    (h : ∀ t ∈ lead.tails, t ≠ [] → ¬ pattern.first <+: t ∧ ¬ t <+: pattern.first)
    (cs : List Char) : pattern.search (lead ++ cs) = pattern.search cs := by
  induction lead with
  | nil => rfl
  | cons c lead ih =>
      have hhere := h (c :: lead) (by simp) (List.cons_ne_nil c lead)
      have hnone : pattern.matchAt (c :: (lead ++ cs)) = none := by
        refine matchAt_eq_none fun hfirst => ?_
        rcases List.prefix_or_prefix_of_prefix hfirst (List.prefix_append (c :: lead) cs)
          with hstart | hstart
        · exact hhere.1 hstart
        · exact hhere.2 hstart
      rw [List.cons_append, search_cons, hnone, Option.none_or]
      exact ih fun t ht => h t (by rw [List.tails]; exact List.mem_cons_of_mem _ ht)

/-- In particular, one without the character that a match begins with. -/
lemma search_append_of_notMem {c : Char} {first : List Char} (hfirst : pattern.first = c :: first)
    {lead : List Char} (h : c ∉ lead) (cs : List Char) :
    pattern.search (lead ++ cs) = pattern.search cs := by
  refine search_append (fun t ht hne => ?_) cs
  have hmem : c ∉ t := fun hc => h (((List.mem_tails t lead).1 ht).subset hc)
  rw [hfirst]
  refine ⟨fun hstart => hmem (hstart.subset List.mem_cons_self), fun hstart => ?_⟩
  obtain ⟨d, t, rfl⟩ := List.exists_cons_of_ne_nil hne
  exact hmem (List.cons_prefix_cons.1 hstart |>.1 ▸ List.mem_cons_self)

lemma group_append {p : Char → Bool} {a rest : List Char} (ha : ∀ c ∈ a, p c = true) (hne : a ≠ [])
    (hrest : ∀ c ∈ rest.head?, p c = false) : group p (a ++ rest) = some (a, rest) := by
  have htake : rest.takeWhile p = [] := by
    cases rest with
    | nil => rfl
    | cons c rest => simp [hrest c rfl]
  have hdrop : rest.dropWhile p = rest := by
    cases rest with
    | nil => rfl
    | cons c rest => simp [hrest c rfl]
  rw [group, List.takeWhile_append_of_pos ha, List.dropWhile_append_of_pos ha, htake, hdrop,
    List.append_nil, if_neg (by simpa using hne)]

lemma dropPrefix?_append (lead cs : List Char) : (lead ++ cs).dropPrefix? lead = some cs :=
  List.dropPrefix?_eq_some_iff.2 ⟨lead, rfl, beq_self_eq_true lead⟩

/-- The labelled text itself matches, if there is something after its second label. -/
lemma matchAt_labelled {a rest : List Char} (ha : ∀ c ∈ a, pattern.left c = true) (ha' : a ≠ [])
    (hsecond : ∀ c ∈ (pattern.second ++ rest).head?, pattern.left c = false) :
    pattern.matchAt (pattern.first ++ (a ++ (pattern.second ++ rest)))
      = if rest.takeWhile pattern.right = [] then none
        else some (a, rest.takeWhile pattern.right) := by
  simp only [matchAt, dropPrefix?_append, Option.bind_some, group_append ha ha' hsecond]
  simp only [group, List.isEmpty_iff]
  split_ifs <;> rfl

/-- A match where the search begins. -/
lemma search_of_matchAt {cs : List Char} {groups : List Char × List Char}
    (h : pattern.matchAt cs = some groups) : pattern.search cs = some groups := by
  cases cs with
  | nil => rw [search, List.tails, List.findSome?_cons, h]
  | cons c cs => rw [search_cons, h, Option.some_or]

end PairPattern

end Sast
