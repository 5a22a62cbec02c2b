import Mathlib.Data.List.Basic
import Mathlib.Tactic.Lemma

/-!
# Text operations of `str`

The string methods the program calls, written over lists of characters.  Python's notion of a
line break for `str.splitlines` is wider than the newline of its own grammar; the two splittings
(`splitlinesKeepends` here and `splitlinesNoFf` of the `ast` module) are therefore kept apart.
-/

namespace Sast

/-! ## Character classes -/

/-- `c.isspace()`: the characters `str.strip` removes. -/
def isSpace (c : Char) : Bool :=
  let n := c.toNat
  (9 ≤ n && n ≤ 13) || (28 ≤ n && n ≤ 32) || n == 0x85 || n == 0xA0 || n == 0x1680
    || (0x2000 ≤ n && n ≤ 0x200A) || n == 0x2028 || n == 0x2029 || n == 0x202F || n == 0x205F
    || n == 0x3000

/-- The characters at which `str.splitlines` ends a line. -/
def isLineBreak (c : Char) : Bool :=
  let n := c.toNat
  (10 ≤ n && n ≤ 13) || (28 ≤ n && n ≤ 30) || n == 0x85 || n == 0x2028 || n == 0x2029

/-- `c in " \t"`. -/
def isBlank (c : Char) : Bool := c == ' ' || c == '\t'

/-- `c in "\r\n"`. -/
def isNewline (c : Char) : Bool := c == '\r' || c == '\n'

/-- A test of all characters of a text is decided along the text. -/
instance (priority := 2000) decidableForallMemChar (p : Char → Prop) [DecidablePred p]
    (cs : List Char) : Decidable (∀ c ∈ cs, p c) := List.decidableBAll p cs

instance (priority := 2000) decidableExistsMemChar (p : Char → Prop) [DecidablePred p]
    (cs : List Char) : Decidable (∃ c ∈ cs, p c) := List.decidableBEx p cs

/-! ## Splitting into lines -/

/-- Put one more character in front of the first line. -/
def consLine (c : Char) : List (List Char) → List (List Char)
  | [] => [[c]]
  | l :: ls => (c :: l) :: ls

/-- `s.splitlines(keepends=True)`. -/
def splitlinesKeepends : List Char → List (List Char)
  | [] => []
  | '\r' :: '\n' :: cs => ['\r', '\n'] :: splitlinesKeepends cs
  | c :: cs =>
      if isLineBreak c then [c] :: splitlinesKeepends cs else consLine c (splitlinesKeepends cs)

/-- Remove the line break that ends a line. -/
def dropEnd (line : List Char) : List Char :=
  match line.reverse with
  | '\n' :: '\r' :: rest => rest.reverse
  | c :: rest => if isLineBreak c then rest.reverse else line
  | [] => []

/-- `s.splitlines()`. -/
def splitlines (cs : List Char) : List (List Char) := (splitlinesKeepends cs).map dropEnd

/-- `ast._splitlines_no_ff`: the parser's lines, ended by `\n`, `\r` or `\r\n` only. -/
def splitlinesNoFf : List Char → List (List Char)
  | [] => []
  | '\r' :: '\n' :: cs => ['\r', '\n'] :: splitlinesNoFf cs
  | c :: cs => if isNewline c then [c] :: splitlinesNoFf cs else consLine c (splitlinesNoFf cs)

/-! ## The lines of a text -/

lemma flatten_consLine (c : Char) (lines : List (List Char)) :
    (consLine c lines).flatten = c :: lines.flatten := by
  cases lines <;> rfl

/-- The lines are the text. -/
theorem flatten_splitlinesKeepends (cs : List Char) : (splitlinesKeepends cs).flatten = cs := by
  induction cs using splitlinesKeepends.induct with
  | case1 => rfl
  | case2 cs ih => simp [splitlinesKeepends, ih]
  | case3 c cs hcr hbreak ih =>
      rw [splitlinesKeepends.eq_3 c cs hcr, if_pos hbreak]
      simp [ih]
  | case4 c cs hcr hbreak ih =>
      rw [splitlinesKeepends.eq_3 c cs hcr, if_neg hbreak, flatten_consLine, ih]

lemma splitlinesKeepends_ne_nil (cs : List Char) : ∀ line ∈ splitlinesKeepends cs, line ≠ [] := by
  induction cs using splitlinesKeepends.induct with
  | case1 => simp [splitlinesKeepends]
  | case2 cs ih =>
      rw [splitlinesKeepends]
      exact List.forall_mem_cons.2 ⟨by simp, ih⟩
  | case3 c cs hcr hbreak ih =>
      rw [splitlinesKeepends.eq_3 c cs hcr, if_pos hbreak]
      exact List.forall_mem_cons.2 ⟨by simp, ih⟩
  | case4 c cs hcr hbreak ih =>
      rw [splitlinesKeepends.eq_3 c cs hcr, if_neg hbreak]
      cases hlines : splitlinesKeepends cs with
      | nil => simp [consLine]
      | cons line lines =>
          rw [hlines] at ih
          exact List.forall_mem_cons.2 ⟨by simp, fun l hl => ih l (List.mem_cons_of_mem _ hl)⟩

/-- Every line but the last one ends in a line break. -/
def LinesEnd (lines : List (List Char)) : Prop :=
  ∀ n < lines.length, ∀ c, (lines.take n).flatten.getLast? = some c → isLineBreak c = true

lemma LinesEnd.cons {line : List Char} {lines : List (List Char)} (h : LinesEnd lines)
    (hline : ∀ c, line.getLast? = some c → isLineBreak c = true) : LinesEnd (line :: lines) := by
  intro n hn c hlast
  cases n with
  | zero => simp at hlast
  | succ n =>
      rw [List.take_succ_cons, List.flatten_cons, List.getLast?_append] at hlast
      rcases Option.or_eq_some_iff.1 hlast with hrest | ⟨-, hend⟩
      · exact h n (by simpa using hn) c hrest
      · exact hline c hend

theorem linesEnd_splitlinesKeepends (cs : List Char) : LinesEnd (splitlinesKeepends cs) := by
  induction cs using splitlinesKeepends.induct with
  | case1 => simp [LinesEnd, splitlinesKeepends]
  | case2 cs ih =>
      rw [splitlinesKeepends]
      refine ih.cons ?_
      intro c hc
      obtain rfl : '\n' = c := by simpa using hc
      decide
  | case3 b cs hcr hbreak ih =>
      rw [splitlinesKeepends.eq_3 b cs hcr, if_pos hbreak]
      refine ih.cons ?_
      intro c hc
      obtain rfl : b = c := by simpa using hc
      exact hbreak
  | case4 b cs hcr hbreak ih =>
      rw [splitlinesKeepends.eq_3 b cs hcr, if_neg hbreak]
      have hne := splitlinesKeepends_ne_nil cs
      cases hlines : splitlinesKeepends cs with
      | nil =>
          intro n hn c hlast
          obtain rfl : n = 0 := by simpa [consLine] using hn
          simp at hlast
      | cons line lines =>
          rw [hlines] at ih hne
          have hline : line ≠ [] := hne line (by simp)
          intro n hn c hlast
          cases n with
          | zero => simp at hlast
          | succ n =>
              refine ih (n + 1) hn c ?_
              rw [consLine, List.take_succ_cons, List.flatten_cons, List.cons_append,
                List.getLast?_cons_of_ne_nil (by simp [hline])] at hlast
              rw [List.take_succ_cons, List.flatten_cons, hlast]

/-! ## Stripping -/

/-- `s.lstrip(chars)`. -/
def lstrip (p : Char → Bool) (cs : List Char) : List Char := cs.dropWhile p

/-- `s.rstrip(chars)`. -/
def rstrip (p : Char → Bool) (cs : List Char) : List Char := (cs.reverse.dropWhile p).reverse

/-- `s.strip()`. -/
def strip (cs : List Char) : List Char := rstrip isSpace (lstrip isSpace cs)

/-- `len(s) - len(s.lstrip(" \t"))`. -/
def indentOf (cs : List Char) : Nat := cs.length - (lstrip isBlank cs).length

/-! ## Searching -/

/-- `sub in s`. -/
def contains (sub : List Char) : List Char → Bool
  | [] => sub.isEmpty
  | c :: cs => sub.isPrefixOf (c :: cs) || contains sub cs

/-- `s.startswith(prefix)`. -/
def startswith (pre s : String) : Bool := pre.toList.isPrefixOf s.toList

/-- `s.endswith(suffix)`. -/
def endswith (suf s : String) : Bool := suf.toList.isSuffixOf s.toList

/-- `sub in s`, on strings. -/
def inStr (sub s : String) : Bool := contains sub.toList s.toList

/-- `s.split(sep)[-1]` for a one-character separator. -/
def lastPart (sep : Char) (s : String) : String :=
  String.ofList (s.toList.reverse.takeWhile (· ≠ sep)).reverse

/-! ## Byte offsets -/

/-- The characters of a line from UTF-8 offset `start` on, up to offset `stop` if there is one;
`pos` is the offset of the first character. -/
def sliceBytes (start : Nat) (stop : Option Nat) (pos : Nat) : List Char → List Char
  | [] => []
  | c :: cs =>
      let rest := sliceBytes start stop (pos + c.utf8Size) cs
      if start ≤ pos && stop.all (pos < ·) then c :: rest else rest

example : splitlinesKeepends "a\nb\u000cc\r\n".toList
    = ["a\n".toList, "b\u000c".toList, "c\r\n".toList] := by decide

end Sast
