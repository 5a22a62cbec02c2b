import SastEngine.Lib.Separators
import SastEngine.Prepare.Cpg.Builder

/-!
# The ids of the three passes

An id is a text whose parts stand between colons.  Ids of different passes differ in their last
character or in their last part, and an id of the AST pass gives back its path, class, line and
depth.
-/

namespace Sast.Prepare

/-! ## Parts -/

/-- The last part of an id. -/
lemma append_colon_inj {a b x y : String} (hx : ':' ∉ x.toList) (hy : ':' ∉ y.toList)
    (h : a ++ ":" ++ x = b ++ ":" ++ y) : a = b ∧ x = y := by
  have hlist := congrArg String.toList h
  simp only [String.toList_append, List.append_assoc] at hlist
  obtain ⟨hab, hxy⟩ := append_sep_right hx hy hlist
  exact ⟨String.toList_injective hab, String.toList_injective hxy⟩

lemma colon_notMem_toString (n : Nat) : ':' ∉ (toString n).toList := notMem_toString rfl n

lemma toString_inj {n m : Nat} (h : toString n = toString m) : n = m :=
  eq_of_toList_toString (congrArg String.toList h)

lemma toString_natCast (n : Nat) : toString (n : Int) = toString n := rfl

/-- The last character of a text. -/
def lastChar (s : String) : Option Char := s.toList.getLast?

lemma lastChar_append (a : String) {x : String} (hx : x ≠ "") :
    lastChar (a ++ x) = lastChar x := by
  have hne : x.toList ≠ [] := fun hnil => hx (String.toList_injective hnil)
  rw [lastChar, lastChar, String.toList_append, List.getLast?_append_of_ne_nil _ hne]

lemma toString_ne_empty (n : Nat) : toString n ≠ "" := by
  intro h
  have hlist := congrArg String.toList h
  rw [Nat.toString_eq_repr, Nat.toList_repr] at hlist
  exact Nat.toDigits_ne_nil hlist

/-- A text that ends in a number ends in a digit. -/
lemma lastChar_append_toString (a : String) (n : Nat) :
    ∃ c, lastChar (a ++ toString n) = some c ∧ c.isDigit := by
  have hne : (toString n).toList ≠ [] := fun hnil =>
    toString_ne_empty n (String.toList_injective hnil)
  refine ⟨(toString n).toList.getLast hne, ?_, ?_⟩
  · rw [lastChar_append _ (toString_ne_empty n), lastChar, List.getLast?_eq_some_getLast]
  · have hmem := List.getLast_mem hne
    generalize (toString n).toList.getLast hne = c at hmem
    rw [Nat.toString_eq_repr, Nat.toList_repr] at hmem
    exact Nat.isDigit_of_mem_toDigits (by decide) (by decide) hmem

/-! ## Ids of the AST pass -/

/-- An id of the AST pass determines what it was made from. -/
lemma astId_inj {path path' cls cls' : String} {line line' depth depth' : Nat}
    (hcls : ':' ∉ cls.toList) (hcls' : ':' ∉ cls'.toList)
    (h : astId path cls line depth = astId path' cls' line' depth') :
    path = path' ∧ cls = cls' ∧ line = line' ∧ depth = depth' := by
  rw [astId, astId, toString_natCast, toString_natCast] at h
  obtain ⟨h, hdepth⟩ :=
    append_colon_inj (colon_notMem_toString depth) (colon_notMem_toString depth') h
  obtain ⟨h, hline⟩ :=
    append_colon_inj (colon_notMem_toString line) (colon_notMem_toString line') h
  obtain ⟨hpath, hclass⟩ := append_colon_inj hcls hcls' h
  exact ⟨hpath, hclass, toString_inj hline, toString_inj hdepth⟩

lemma lastChar_astId (path cls : String) (line depth : Nat) :
    ∃ c, lastChar (astId path cls line depth) = some c ∧ c.isDigit :=
  lastChar_append_toString _ _

/-! ## Ids of the other passes -/

lemma lastChar_defId (path name : String) (line : Nat) :
    lastChar (defId path name line) = some 'f' :=
  lastChar_append _ (by decide)

lemma lastChar_useId (path name : String) (line : Nat) :
    lastChar (useId path name line) = some 'e' :=
  lastChar_append _ (by decide)

lemma lastChar_stmtId (path : String) (stmt : Node) : lastChar (stmtId path stmt) = some 't' :=
  lastChar_append _ (by decide)

/-- The id of the node of a Python file. -/
lemma lastChar_fileNode {file : SourceFile} (h : endswith ".py" file.path) :
    lastChar (fileNode file).id = some 'y' := by
  obtain ⟨stem, hstem⟩ := List.isSuffixOf_iff_suffix.1 h
  have hpath : file.path = String.ofList stem ++ ".py" := by
    apply String.toList_injective
    rw [String.toList_append, String.toList_ofList]
    exact hstem.symm
  rw [fileNode, hpath, ← String.append_assoc]
  exact lastChar_append _ (by decide)

lemma fileNode_id_inj {file file' : SourceFile} (h : (fileNode file).id = (fileNode file').id) :
    file.path = file'.path := by
  have hlist := congrArg String.toList h
  simp only [fileNode, String.toList_append] at hlist
  exact String.toList_injective (List.append_cancel_left hlist)

/-- The ids of the data-flow pass. -/
def FlowId (path nodeId : String) : Prop :=
  ∃ name line, nodeId = defId path name line ∨ nodeId = useId path name line

lemma FlowId.lastChar {path nodeId : String} (h : FlowId path nodeId) :
    lastChar nodeId = some 'f' ∨ lastChar nodeId = some 'e' := by
  obtain ⟨name, line, rfl | rfl⟩ := h
  · exact Or.inl (lastChar_defId path name line)
  · exact Or.inr (lastChar_useId path name line)

/-- Both passes give different ids. -/
lemma FlowId.ne_astId {path nodeId : String} (h : FlowId path nodeId) (path' cls : String)
    (line depth : Nat) : nodeId ≠ astId path' cls line depth := by
  rintro rfl
  obtain ⟨c, hc, hdigit⟩ := lastChar_astId path' cls line depth
  rcases h.lastChar with hlast | hlast <;>
    · obtain rfl : c = _ := Option.some.inj (hc.symm.trans hlast)
      exact absurd hdigit (by decide)

lemma fileNode_id_ne_astId {file : SourceFile} (h : endswith ".py" file.path) (path cls : String)
    (line depth : Nat) : (fileNode file).id ≠ astId path cls line depth := by
  intro heq
  obtain ⟨c, hc, hdigit⟩ := lastChar_astId path cls line depth
  obtain rfl : c = 'y' := Option.some.inj (hc.symm.trans (heq ▸ lastChar_fileNode h))
  exact absurd hdigit (by decide)

lemma FlowId.ne_fileNode_id {path nodeId : String} (h : FlowId path nodeId) {file : SourceFile}
    (hfile : endswith ".py" file.path) : nodeId ≠ (fileNode file).id := by
  rintro rfl
  have hlast := lastChar_fileNode hfile
  rcases h.lastChar with heq | heq
  · exact absurd (hlast.symm.trans heq) (by decide)
  · exact absurd (hlast.symm.trans heq) (by decide)

end Sast.Prepare
