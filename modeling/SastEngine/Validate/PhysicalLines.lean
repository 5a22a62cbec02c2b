import SastEngine.Prepare.Parser
import SastEngine.Python.Lines
import SastEngine.Remediation.Patches
import SastEngine.Scan.Evidence
import SastEngine.Validate.Evidence

/-!
# The line of a node

Snippets, patches and context windows look a node's line up with `str.splitlines`, which ends
lines at more characters than the parser does.  They take the line of the node iff none of these
characters stands inside a line up to there (`takesPhysicalLine_iff`).
-/

namespace Sast

/-! ## The line that is taken -/

/-- The text of a line without its line break, as a snippet. -/
def lineSnippet (line : List Char) : String :=
  String.ofList ((strip (dropEnd line)).take maxSnippetChars)

/-- The patched text, with the import it needs. -/
def withImport (py : Stdlib) (proposal : RemediationProposal) (text : String) : String :=
  match proposal.importToAdd with
  | some importLine => insertImport py text importLine
  | none => text

/-- All functions that look up a line by its number take the line at this place: its text is what
they read, and what they replace. -/
structure TakesPhysicalLine (source : String) (n : Nat) (place : PlacedLine) : Prop where
  lineText : lineText source n = lineSnippet place.line
  sinkLines : ∀ finding, finding.sink.line = n → sinkLines finding source = .ok (n, place.line)
  applyProposal : ∀ py proposal text, proposal.line = n →
    applyProposal py proposal source = .ok text →
      proposal.before = String.ofList (rstripNewline place.line)
        ∧ ∃ rest, rest <:+ place.after ∧ text = withImport py proposal (String.ofList
          (place.before ++ (replacementLines proposal.after).flatten ++ rest))
  window : ∀ finding, finding.source.line = n ∨ finding.sink.line = n →
    ∀ line, (n, line) ∈ windowLines finding source ↔ line = dropEnd place.line

/-- The parser puts every node on a line of the text. -/
def Prepare.PyInterpreter.PlacesNodes (py : Prepare.PyInterpreter) : Prop :=
  ∀ source tree, py.parse source = .ok tree → ∀ node ∈ tree.nodes, ∀ n, node.lineno? = some n →
    0 < n ∧ n ≤ (splitlinesNoFf source.toList).length

/-! ## From the place to what is taken -/

section Taken

variable {source : String} {n : Nat} {place : PlacedLine}

lemma mem_numberedLines_iff {lines : List (List Char)} (hpos : 0 < n) {line : List Char} :
    (n, line) ∈ numberedLines lines ↔ lines[n - 1]? = some line := by
  rw [numberedLines, List.mem_mapIdx, List.getElem?_eq_some_iff]
  constructor
  · rintro ⟨i, hi, heq⟩
    obtain ⟨rfl, rfl⟩ := Prod.mk.inj heq
    exact ⟨hi, rfl⟩
  · rintro ⟨hi, rfl⟩
    exact ⟨n - 1, hi, by rw [Nat.sub_add_cancel hpos]⟩

/-- The window of a finding shows its own lines. -/
lemma mem_wantedLines {finding : CandidateFinding}
    (h : finding.source.line = n ∨ finding.sink.line = n) : (n : Int) ∈ wantedLines finding := by
  have hcenter : n ∈ [finding.source.line, finding.sink.line] := by
    rcases h with rfl | rfl <;> simp
  refine List.mem_flatMap.2 ⟨n, by exact_mod_cast List.mem_map_of_mem hcenter, ?_⟩
  exact List.mem_map.2 ⟨contextWindow, by decide, by omega⟩

/-- What a patch leaves below the statement is the end of the text. -/
lemma flatten_drop_suffix (lines : List (List Char)) (m k : Nat) :
    (lines.drop (m + k)).flatten <:+ (lines.drop m).flatten := by
  rw [← List.drop_drop]
  refine ⟨((lines.drop m).take k).flatten, ?_⟩
  rw [← List.flatten_append, List.take_append_drop]

/-- A proposal that is applied replaces the line with its number. -/
lemma applyProposal_ok {py : Stdlib} {proposal : RemediationProposal} {text : String}
    (hplace : placedLine (splitlinesKeepends source.toList) n = some place)
    (hline : proposal.line = n) (h : applyProposal py proposal source = .ok text) :
    proposal.before = String.ofList (rstripNewline place.line)
      ∧ ∃ rest, rest <:+ place.after ∧ text = withImport py proposal (String.ofList
        (place.before ++ (replacementLines proposal.after).flatten ++ rest)) := by
  obtain ⟨hget, hbefore, hafter⟩ := placedLine_eq_some_iff.1 hplace
  simp only [applyProposal, hline, hget, Option.getD_some] at h
  split_ifs at h with hfix hrange hcurrent
  split at h
  · cases h
  let lines := splitlinesKeepends source.toList
  let deleted := continuation (indentOf (rstripNewline place.line)) (lines.drop n)
  have hpatched : patchedText proposal lines (rstripNewline place.line)
      = String.ofList (place.before ++ (replacementLines proposal.after).flatten
        ++ (lines.drop (n + deleted)).flatten) := by
    rw [← hbefore]
    simp only [patchedText, spliceLines, hline, List.flatten_append, lines, deleted]
  refine ⟨(not_not.1 hcurrent).symm, (lines.drop (n + deleted)).flatten, ?_, ?_⟩
  · rw [← hafter]
    exact flatten_drop_suffix lines n deleted
  · rw [← hpatched, ← Except.ok.inj h]
    rfl

lemma takesPhysicalLine_of_placedLine (hpos : 0 < n)
    (hplace : placedLine (splitlinesKeepends source.toList) n = some place) :
    TakesPhysicalLine source n place := by
  obtain ⟨hget, -, -⟩ := placedLine_eq_some_iff.1 hplace
  have hsplit : (splitlines source.toList)[n - 1]? = some (dropEnd place.line) := by
    rw [splitlines, List.getElem?_map, hget]
    rfl
  have hn : n ≤ (splitlinesKeepends source.toList).length := by
    obtain ⟨hlt, -⟩ := List.getElem?_eq_some_iff.1 hget
    omega
  refine ⟨?_, ?_, fun py proposal text hline h => applyProposal_ok hplace hline h, ?_⟩
  · have hlength : n ≤ (splitlines source.toList).length := by
      rwa [splitlines, List.length_map]
    simp only [lineText, hpos, hlength, decide_true, Bool.and_self, if_true, hsplit,
      Option.getD_some]
    rfl
  · rintro finding rfl
    simp only [sinkLines]
    rw [if_pos ⟨hpos, hn⟩, hget, Option.getD_some]
  · intro finding hcenter line
    rw [windowLines, List.mem_filter, mem_numberedLines_iff hpos, hsplit]
    simp [mem_wantedLines hcenter, eq_comm]

end Taken

/-! ## From what is taken to the place -/

/-- A finding whose source and sink are on a line. -/
def findingAt (n : Nat) : CandidateFinding where
  id := "f"
  vulnerabilityType := "command_injection"
  severity := "high"
  confidence := 1
  source := ⟨"app.py", n, "", "http"⟩
  sink := ⟨"app.py", n, "", "os.system"⟩
  taintPath := []
  evidence := ⟨"", "", [], [], []⟩

/-- A proposal that replaces a line. -/
def proposalAt (n : Nat) (before after : String) : RemediationProposal where
  findingId := "f"
  vulnerabilityType := "command_injection"
  file := "app.py"
  line := n
  strategy := .shellQuote
  before := before
  after := after
  rationale := ""

/-- An interpreter that parses every text. -/
def lenientPython : Stdlib where
  parse _ := .ok ⟨[]⟩
  parseExpr _ := .error ""
  unparse _ := .error ""
  unparseStmt _ := .error ""
  sha256 := id

section Place

variable {source : String} {n : Nat} {place : PlacedLine}

/-- Two texts that stand before the same insertions are the same. -/
lemma eq_of_insertions {α : Type} {a b : α} (hab : a ≠ b) {xs ys as bs cs ds : List α}
    (ha : xs ++ a :: as = ys ++ a :: bs) (hb : xs ++ b :: cs = ys ++ b :: ds) : xs = ys := by
  induction xs generalizing ys with
  | nil =>
      cases ys with
      | nil => rfl
      | cons y ys =>
          obtain ⟨rfl, -⟩ := List.cons.inj ha
          obtain ⟨rfl, -⟩ := List.cons.inj hb
          exact absurd rfl hab
  | cons x xs ih =>
      cases ys with
      | nil =>
          obtain ⟨rfl, -⟩ := List.cons.inj ha
          obtain ⟨rfl, -⟩ := List.cons.inj hb
          exact absurd rfl hab
      | cons y ys =>
          obtain ⟨rfl, hxs⟩ := List.cons.inj ha
          rw [ih hxs (List.cons.inj hb).2]

lemma replacementLines_char {c : Char} (hc : isLineBreak c = false) :
    replacementLines (String.ofList [c]) = [[c, '\n']] := by
  have hnewline : isNewline c = false := Bool.eq_false_iff.2 fun h => by
    rw [isLineBreak_of_isNewline h] at hc
    cases hc
  have hlines : splitlinesKeepends [c] = [[c]] := by
    rw [splitlinesKeepends_cons hnewline]
    simp [isWideBreak, hc, splitlinesKeepends, consLine]
  simp [replacementLines, hlines, hnewline]

/-- The text that results where a character is put in place of a line. -/
lemma applyProposal_char {line : List Char} (hpos : 0 < n)
    (hline : (splitlinesKeepends source.toList)[n - 1]? = some line) {c : Char}
    (hc : isLineBreak c = false) : ∃ rest, applyProposal lenientPython
        (proposalAt n (String.ofList (rstripNewline line)) (String.ofList [c])) source
      = .ok (String.ofList
        (((splitlinesKeepends source.toList).take (n - 1)).flatten ++ c :: '\n' :: rest)) := by
  obtain ⟨hlt, -⟩ := List.getElem?_eq_some_iff.1 hline
  have hrange : ¬ (n < 1 ∨ (splitlinesKeepends source.toList).length < n) := by omega
  simp only [applyProposal, proposalAt, hline, Option.getD_some, if_neg hrange, reduceCtorEq,
    if_false, ne_eq, not_true_eq_false, lenientPython, patchedText, spliceLines,
    replacementLines_char hc]
  exact ⟨_, by simp; rfl⟩

lemma getElem?_of_sinkLines {finding : CandidateFinding} {m : Nat} {line : List Char}
    (h : sinkLines finding source = .ok (m, line)) :
    (splitlinesKeepends source.toList)[finding.sink.line - 1]? = some line := by
  simp only [sinkLines] at h
  split_ifs at h with hrange
  have hget := List.getElem?_eq_getElem
    (show finding.sink.line - 1 < (splitlinesKeepends source.toList).length by omega)
  rw [hget, Option.getD_some] at h
  rw [hget, (Prod.mk.inj (Except.ok.inj h)).2]

/-- Where all functions take the line at a place of the text, the line stands there. -/
lemma placedLine_of_takesPhysicalLine (hpos : 0 < n) (h : TakesPhysicalLine source n place)
    (hflat : place.before ++ place.line ++ place.after = source.toList) :
    placedLine (splitlinesKeepends source.toList) n = some place := by
  have hline : (splitlinesKeepends source.toList)[n - 1]? = some place.line := by
    exact getElem?_of_sinkLines (h.sinkLines (findingAt n) rfl)
  have hinserted : ∀ c, isLineBreak c = false → ∃ as bs,
      ((splitlinesKeepends source.toList).take (n - 1)).flatten ++ c :: as
        = place.before ++ c :: bs := by
    intro c hc
    obtain ⟨rest, happlied⟩ := applyProposal_char hpos hline hc
    obtain ⟨-, rest', -, htext⟩ := h.applyProposal _ _ _ rfl happlied
    have hchars := String.ofList_injective htext
    rw [show (proposalAt n _ (String.ofList [c])).after = String.ofList [c] from rfl,
      replacementLines_char hc] at hchars
    exact ⟨'\n' :: rest, '\n' :: rest', by rw [hchars]; simp⟩
  obtain ⟨as, bs, ha⟩ := hinserted 'a' (by decide)
  obtain ⟨cs, ds, hb⟩ := hinserted 'b' (by decide)
  have hbefore := eq_of_insertions (by decide) ha hb
  have htaken : placedLine (splitlinesKeepends source.toList) n = some ⟨place.before, place.line,
      ((splitlinesKeepends source.toList).drop n).flatten⟩ :=
    placedLine_eq_some_iff.2 ⟨hline, hbefore, rfl⟩
  have hafter : ((splitlinesKeepends source.toList).drop n).flatten = place.after := by
    have htotal := (flatten_of_placedLine hpos htaken).trans (flatten_splitlinesKeepends _)
    exact List.append_cancel_left (htotal.trans hflat.symm)
  exact placedLine_eq_some_iff.2 ⟨hline, hbefore, hafter⟩

end Place

/-- **The line of a node is taken** iff no line of the parser up to it has a character inside at
which only `str.splitlines` ends a line. -/
theorem takesPhysicalLine_iff (py : Prepare.PyInterpreter) (hplaces : py.PlacesNodes)
    {source : String} {tree node : Prepare.Node} {n : Nat} (hparse : py.parse source = .ok tree)
    (hnode : node ∈ tree.nodes) (hline : node.lineno? = some n) :
    (∃ place, placedLine (splitlinesNoFf source.toList) n = some place
        ∧ TakesPhysicalLine source n place)
      ↔ ∀ line ∈ (splitlinesNoFf source.toList).take n, InOnePiece line := by
  obtain ⟨hpos, hn⟩ := hplaces source tree hparse node hnode n hline
  rw [← placedLine_eq_iff hpos hn]
  constructor
  · rintro ⟨place, hplace, htakes⟩
    rw [hplace]
    refine placedLine_of_takesPhysicalLine hpos htakes ?_
    rw [flatten_of_placedLine hpos hplace, flatten_splitlinesNoFf]
  · intro h
    have hget : (splitlinesNoFf source.toList)[n - 1]?
        = some ((splitlinesNoFf source.toList)[n - 1]) := List.getElem?_eq_getElem (by omega)
    obtain ⟨place, hplace⟩ : ∃ place, placedLine (splitlinesNoFf source.toList) n = some place :=
      ⟨_, by rw [placedLine, hget]; rfl⟩
    exact ⟨place, hplace, takesPhysicalLine_of_placedLine hpos (h.trans hplace)⟩

/-! ## A form feed in a comment -/

/-- A name in a line. -/
def nameNode (line : Nat) : Prepare.Node :=
  .mk "Name" (some line) (some line) [("id", .constant (.str "x"))]

/-- A module that consists of the name. -/
def nameTree (line : Nat) : Prepare.Node :=
  .mk "Module" none none [("body", .list [.node (.mk "Expr" (some line) (some line)
    [("value", .node (nameNode line))])])]

lemma nameNode_mem_nodes (line : Nat) : nameNode line ∈ (nameTree line).nodes := by
  simp [nameTree, nameNode, Prepare.Node.nodes, Prepare.fieldNodes, Prepare.FieldValue.nodes,
    Prepare.itemNodes]

/-- An interpreter that parses one text. -/
def oneTextPython (source : String) (line : Nat) : Prepare.PyInterpreter where
  parse text :=
    if text = source then .ok (nameTree line)
    else .error (.syntaxError (some 1) (some 1) (some "invalid syntax") "invalid syntax (line 1)")
  unparse _ := ""
  sha256 := id
  recursionError _ := none

lemma oneTextPython_placesNodes {source : String} {line : Nat} (hpos : 0 < line)
    (hline : line ≤ (splitlinesNoFf source.toList).length) :
    (oneTextPython source line).PlacesNodes := by
  intro text tree hparse node hnode n hn
  simp only [oneTextPython] at hparse
  split_ifs at hparse with htext
  obtain rfl := Except.ok.inj hparse
  have hone : n = line := by
    simp only [nameTree, nameNode, Prepare.Node.nodes, Prepare.fieldNodes, Prepare.FieldValue.nodes,
      Prepare.itemNodes, List.append_nil, List.mem_cons, List.not_mem_nil, or_false] at hnode
    rcases hnode with rfl | rfl | rfl
    · cases hn
    · exact (Option.some.inj hn).symm
    · exact (Option.some.inj hn).symm
  rw [hone, htext]
  exact ⟨hpos, hline⟩

/-- The line of a name below a comment is taken. -/
theorem takesPhysicalLine_name : ∃ place,
    placedLine (splitlinesNoFf "# a\nx\n".toList) 2 = some place
      ∧ TakesPhysicalLine "# a\nx\n" 2 place := by
  have hparse : (oneTextPython "# a\nx\n" 2).parse "# a\nx\n" = .ok (nameTree 2) := rfl
  exact (takesPhysicalLine_iff (oneTextPython "# a\nx\n" 2)
    (oneTextPython_placesNodes (by decide) (by decide)) hparse (nameNode_mem_nodes 2) rfl).2
      (by decide)

/-- **A form feed in a comment shifts the lines below it**: the line of `x` is not taken. -/
theorem not_takesPhysicalLine_formFeed :
    (oneTextPython "# a\u000cb\nx\n" 2).PlacesNodes
      ∧ (oneTextPython "# a\u000cb\nx\n" 2).parse "# a\u000cb\nx\n" = .ok (nameTree 2)
      ∧ nameNode 2 ∈ (nameTree 2).nodes ∧ (nameNode 2).lineno? = some 2
      ∧ ¬ ∃ place, placedLine (splitlinesNoFf "# a\u000cb\nx\n".toList) 2 = some place
        ∧ TakesPhysicalLine "# a\u000cb\nx\n" 2 place := by
  refine ⟨oneTextPython_placesNodes (by decide) (by decide), rfl, nameNode_mem_nodes 2, rfl, ?_⟩
  rintro ⟨place, hplace, htakes⟩
  have hphysical : placedLine (splitlinesNoFf "# a\u000cb\nx\n".toList) 2
      = some ⟨"# a\u000cb\n".toList, "x\n".toList, []⟩ := by decide
  obtain rfl := Option.some.inj (hplace.symm.trans hphysical)
  exact absurd htakes.lineText (by decide +kernel)

end Sast
