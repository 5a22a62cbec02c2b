import SastEngine.Lib.Separators
import SastEngine.Prepare.Cpg.Builder

/-!
# What the AST pass makes of a syntax tree

The stored dictionary puts the class of a node under `type`, where the expression of an
`ExceptHandler` overwrites it.  The AST pass therefore shows the module and the nodes below it that
it reaches through nodes with a line number that are no handlers (`Node.shown`); at a handler with
an expression it raises.
-/

namespace Sast.Prepare

/-! ## What the grammar says -/

/-- The fields of a node. -/
def Node.fields : Node → List (String × FieldValue)
  | .mk _ _ _ fields => fields

/-- The names of the fields. -/
def Node.fieldNames (n : Node) : List String := n.fields.map Prod.fst

/-- A node of a class of the grammar. -/
structure Node.Regular (n : Node) : Prop where
  cls_ne : n.cls ≠ ""
  colon : ':' ∉ n.cls.toList
  lineno_ne : n.lineno? ≠ some 0
  names : n.fieldNames.Nodup
  lineno_notMem : "lineno" ∉ n.fieldNames
  endLineno_notMem : "end_lineno" ∉ n.fieldNames
  handler : "type" ∈ n.fieldNames ↔ n.cls = "ExceptHandler"
  handlerType : ∀ v, ("type", v) ∈ n.fields → (∃ m, v = .node m) ∨ v = .constant .none

/-- Nodes of most classes have no field `type`. -/
lemma Node.Regular.of_ne {n : Node} (hcls : n.cls ≠ "" ∧ ':' ∉ n.cls.toList)
    (hline : n.lineno? ≠ some 0) (hnames : n.fieldNames.Nodup)
    (hkeys : "type" ∉ n.fieldNames ∧ "lineno" ∉ n.fieldNames ∧ "end_lineno" ∉ n.fieldNames)
    (hhandler : n.cls ≠ "ExceptHandler") : n.Regular where
  cls_ne := hcls.1
  colon := hcls.2
  lineno_ne := hline
  names := hnames
  lineno_notMem := hkeys.2.1
  endLineno_notMem := hkeys.2.2
  handler := ⟨fun h => absurd h hkeys.1, fun h => absurd h hhandler⟩
  handlerType _ hv := absurd (List.mem_map_of_mem hv) hkeys.1

/-- A tree of the grammar: a module has no line number, and there is only one. -/
structure Node.Grammatical (tree : Node) : Prop where
  cls : tree.cls = "Module"
  lineno : tree.lineno? = none
  regular : ∀ n ∈ tree.nodes, n.Regular
  inner : ∀ n ∈ fieldNodes tree.fields, n.cls ≠ "Module"

/-- A tree without handlers whose nodes are ordinary. -/
lemma grammatical_of_forall {tree : Node} (hcls : tree.cls = "Module")
    (hlineno : tree.lineno? = none)
    (hnodes : ∀ n ∈ tree.nodes, (n.cls ≠ "" ∧ ':' ∉ n.cls.toList) ∧ n.lineno? ≠ some 0
      ∧ n.fieldNames.Nodup
      ∧ ("type" ∉ n.fieldNames ∧ "lineno" ∉ n.fieldNames ∧ "end_lineno" ∉ n.fieldNames)
      ∧ n.cls ≠ "ExceptHandler")
    (hinner : ∀ n ∈ fieldNodes tree.fields, n.cls ≠ "Module") : tree.Grammatical where
  cls := hcls
  lineno := hlineno
  regular n hn := by
    obtain ⟨hclass, hline, hnames, hkeys, hhandler⟩ := hnodes n hn
    exact .of_ne hclass hline hnames hkeys hhandler
  inner := hinner

/-! ## The stored dictionary -/

/-- The entries that a dictionary starts with. -/
def headEntries (cls : String) (lineno : Option Nat) : List (String × PyVal) :=
  match lineno with
  | some n => [("type", .constant (.str cls)), ("lineno", .constant (.int n))]
  | none => [("type", .constant (.str cls))]

lemma astToDict_mk (cls : String) (lineno endLineno : Option Nat)
    (fields : List (String × FieldValue)) :
    astToDict (.mk cls lineno endLineno fields)
      = .dict (fieldsInto (headEntries cls lineno) fields) := by
  cases lineno <;> rfl

/-- A field is looked up in the dictionary under its own name, and the other entries stay. -/
lemma getEntry_fieldsInto {fields : List (String × FieldValue)}
    (hnames : (fields.map Prod.fst).Nodup) (out : List (String × PyVal)) (key : String) :
    Dict.getEntry key (fieldsInto out fields)
      = ((Dict.getEntry key fields).map fieldToVal).or (Dict.getEntry key out) := by
  induction fields generalizing out with
  | nil => simp [fieldsInto, Dict.getEntry]
  | cons field rest ih =>
      obtain ⟨name, value⟩ := field
      obtain ⟨hname, hrest⟩ := List.nodup_cons.1 hnames
      rw [fieldsInto, ih hrest, Dict.getEntry_setEntry, Dict.getEntry]
      by_cases hkey : name = key
      · subst hkey
        have habsent : Dict.getEntry name rest = none := by
          rw [← Option.not_isSome_iff_eq_none, Dict.getEntry_isSome]
          exact hname
        simp [habsent]
      · simp [hkey, Ne.symm hkey]

/-- Fields with new names are stored after what is there. -/
lemma fieldsInto_eq_append {fields : List (String × FieldValue)}
    (hnames : (fields.map Prod.fst).Nodup) (out : List (String × PyVal))
    (hout : ∀ f ∈ fields, f.1 ∉ out.map Prod.fst) :
    fieldsInto out fields = out ++ fields.map fun f => (f.1, fieldToVal f.2) := by
  induction fields generalizing out with
  | nil => simp [fieldsInto]
  | cons field rest ih =>
      obtain ⟨name, value⟩ := field
      obtain ⟨hname, hrest⟩ := List.nodup_cons.1 hnames
      obtain ⟨hfirst, hout⟩ := List.forall_mem_cons.1 hout
      rw [fieldsInto, Dict.setEntry_of_not_mem _ _ _ hfirst, ih hrest]
      · simp
      · intro f hf
        have hmem : f.1 ∈ rest.map Prod.fst := List.mem_map_of_mem hf
        have hne : f.1 ≠ name := fun heq => hname (heq ▸ hmem)
        simp only [List.map_append, List.mem_append, not_or]
        exact ⟨hout f hf, by simpa using hne⟩

/-- What a field is stored as. -/
lemma getEntry_field {n : Node} (hn : n.Regular) {name : String} {value : FieldValue}
    (hmem : (name, value) ∈ n.fields) (out : List (String × PyVal)) :
    Dict.getEntry name (fieldsInto out n.fields) = some (fieldToVal value) := by
  rw [getEntry_fieldsInto hn.names, (Dict.getEntry_eq_some hn.names).2 hmem]
  rfl

mutual

/-- The value records the tree: every node with its class and its line number, and every field
under its own key. -/
def Node.Recorded : Node → PyVal → Prop
  | .mk cls lineno _ fields, .dict entries =>
      Dict.getEntry "type" entries = some (.constant (.str cls))
        ∧ (∀ n, lineno = some n → Dict.getEntry "lineno" entries = some (.constant (.int n)))
        ∧ FieldsRecorded fields entries
  | _, .list _ => False
  | _, .constant _ => False

def FieldsRecorded : List (String × FieldValue) → List (String × PyVal) → Prop
  | [], _ => True
  | (name, value) :: rest, entries =>
      (∃ v, Dict.getEntry name entries = some v ∧ value.Recorded v) ∧ FieldsRecorded rest entries

def FieldValue.Recorded : FieldValue → PyVal → Prop
  | .node n, v => n.Recorded v
  | .list items, .list vs => ItemsRecorded items vs
  | .list _, _ => False
  | .constant c, v => v = .constant c

def ItemsRecorded : List ListItem → List PyVal → Prop
  | [], vs => vs = []
  | .node n :: rest, v :: vs => n.Recorded v ∧ ItemsRecorded rest vs
  | .constant c :: rest, v :: vs => v = .constant c ∧ ItemsRecorded rest vs
  | _ :: _, [] => False

end

lemma mem_nodes_self (n : Node) : n ∈ n.nodes := by
  cases n
  exact List.mem_cons_self

lemma mem_nodes_of_mem_fields {n m : Node} (h : m ∈ fieldNodes n.fields) : m ∈ n.nodes := by
  cases n
  exact List.mem_cons_of_mem _ h

lemma lineno_eq {n : Node} {line : Nat} (h : n.lineno? = some line) : n.lineno = line := by
  cases n
  exact congrArg (Option.getD · 0) h

lemma getEntry_type_head (cls : String) (lineno : Option Nat) :
    Dict.getEntry "type" (headEntries cls lineno) = some (.constant (.str cls)) := by
  cases lineno <;> simp [headEntries, Dict.getEntry]

lemma getEntry_lineno_head (cls : String) (lineno : Option Nat) :
    Dict.getEntry "lineno" (headEntries cls lineno)
      = lineno.map fun n => .constant (.int n) := by
  cases lineno <;> simp [headEntries, Dict.getEntry]

section Entries

variable {cls : String} {lineno endLineno : Option Nat} {fields : List (String × FieldValue)}

/-- The class of a node that is no handler is stored. -/
lemma getEntry_type (hn : (Node.mk cls lineno endLineno fields).Regular)
    (hcls : cls ≠ "ExceptHandler") :
    Dict.getEntry "type" (fieldsInto (headEntries cls lineno) fields)
      = some (.constant (.str cls)) := by
  have hnames : (fields.map Prod.fst).Nodup := hn.names
  have habsent : Dict.getEntry "type" fields = none := by
    rw [← Option.not_isSome_iff_eq_none, Dict.getEntry_isSome]
    exact fun hmem => hcls (hn.handler.1 hmem)
  rw [getEntry_fieldsInto hnames, habsent, getEntry_type_head]
  rfl

/-- The class of a handler is overwritten by its expression, or by `None`. -/
lemma getEntry_type_handler (hn : (Node.mk "ExceptHandler" lineno endLineno fields).Regular) :
    (∃ m, Dict.getEntry "type" (fieldsInto (headEntries "ExceptHandler" lineno) fields)
        = some (astToDict m))
      ∨ Dict.getEntry "type" (fieldsInto (headEntries "ExceptHandler" lineno) fields)
        = some (.constant .none) := by
  have hmem : "type" ∈ fields.map Prod.fst := hn.handler.2 rfl
  obtain ⟨⟨name, value⟩, hfield, heq⟩ := List.mem_map.1 hmem
  obtain rfl : name = "type" := heq
  have hentry : Dict.getEntry "type" (fieldsInto (headEntries "ExceptHandler" lineno) fields)
      = some (fieldToVal value) := getEntry_field hn hfield _
  rw [hentry]
  rcases hn.handlerType value hfield with ⟨m, rfl⟩ | rfl
  · exact Or.inl ⟨m, rfl⟩
  · exact Or.inr rfl

lemma getEntry_lineno (hn : (Node.mk cls lineno endLineno fields).Regular) :
    Dict.getEntry "lineno" (fieldsInto (headEntries cls lineno) fields)
      = lineno.map fun n => .constant (.int n) := by
  have hnames : (fields.map Prod.fst).Nodup := hn.names
  have habsent : Dict.getEntry "lineno" fields = none := by
    rw [← Option.not_isSome_iff_eq_none, Dict.getEntry_isSome]
    exact hn.lineno_notMem
  rw [getEntry_fieldsInto hnames, habsent, getEntry_lineno_head]
  rfl

end Entries

/-! ## The nodes that the AST pass shows -/

/-- The AST pass emits a node here, if it gets here. -/
def Node.Shows (n : Node) : Prop :=
  n.cls = "Module" ∨ n.lineno?.isSome ∧ n.cls ≠ "ExceptHandler"

instance (n : Node) : Decidable n.Shows :=
  inferInstanceAs (Decidable (n.cls = "Module" ∨ n.lineno?.isSome ∧ n.cls ≠ "ExceptHandler"))

mutual

/-- The nodes that the AST pass emits, with their depths: below a node that is not emitted there
are none. -/
def Node.shown (depth : Nat) : Node → List (Node × Nat)
  | .mk cls lineno endLineno fields =>
      if (Node.mk cls lineno endLineno fields).Shows then
        (.mk cls lineno endLineno fields, depth) :: fieldsShown (depth + 1) fields
      else []

def fieldsShown (depth : Nat) : List (String × FieldValue) → List (Node × Nat)
  | [] => []
  | (_, value) :: rest => value.shown depth ++ fieldsShown depth rest

def FieldValue.shown (depth : Nat) : FieldValue → List (Node × Nat)
  | .node n => n.shown depth
  | .list items => itemsShown depth items
  | .constant _ => []

def itemsShown (depth : Nat) : List ListItem → List (Node × Nat)
  | [] => []
  | .node n :: rest => n.shown depth ++ itemsShown depth rest
  | .constant _ :: rest => itemsShown depth rest

end

mutual

/-- The nodes with a line number, with their depths. -/
def Node.placed (depth : Nat) : Node → List (Node × Nat)
  | .mk cls lineno endLineno fields =>
      if lineno.isSome then
        (.mk cls lineno endLineno fields, depth) :: fieldsPlaced (depth + 1) fields
      else fieldsPlaced (depth + 1) fields

def fieldsPlaced (depth : Nat) : List (String × FieldValue) → List (Node × Nat)
  | [] => []
  | (_, value) :: rest => value.placed depth ++ fieldsPlaced depth rest

def FieldValue.placed (depth : Nat) : FieldValue → List (Node × Nat)
  | .node n => n.placed depth
  | .list items => itemsPlaced depth items
  | .constant _ => []

def itemsPlaced (depth : Nat) : List ListItem → List (Node × Nat)
  | [] => []
  | .node n :: rest => n.placed depth ++ itemsPlaced depth rest
  | .constant _ :: rest => itemsPlaced depth rest

end

/-- The id of the node that stands for a node of the tree; a module is put on the first line. -/
def treeId (path : String) (p : Node × Nat) : String :=
  astId path p.1.cls (p.1.lineno?.getD 1 : Nat) p.2

/-- The dictionary of a node. -/
def Node.entries : Node → List (String × PyVal)
  | .mk cls lineno _ fields => fieldsInto (headEntries cls lineno) fields

/-- The node that stands for a node of the tree. -/
def shownNode (path : String) (p : Node × Nat) : CpgNode where
  id := treeId path p
  kind := nodeKind p.1.cls
  file := path
  line := (p.1.lineno?.getD 1 : Nat)
  name := nameOrId p.1.entries
  label := some (labelFor p.1.cls p.1.entries)
  astType := some p.1.cls

section Entries

variable {cls : String} {lineno endLineno : Option Nat} {fields : List (String × FieldValue)}

/-- A node that is no handler is shown with its class and its line. -/
lemma shownAs_of_ne (hn : (Node.mk cls lineno endLineno fields).Regular)
    (hcls : cls ≠ "ExceptHandler") :
    shownAs (fieldsInto (headEntries cls lineno) fields)
      = .ok (if (Node.mk cls lineno endLineno fields).Shows then
          some (cls, ((lineno.getD 1 : Nat) : Int)) else none) := by
  have hne : cls ≠ "" := hn.cls_ne
  have hzero : lineno ≠ some 0 := hn.lineno_ne
  rw [shownAs, getEntry_type hn hcls, getEntry_lineno hn]
  cases lineno with
  | none =>
      by_cases hmodule : cls = "Module" <;>
        simp [isFalsy, Node.Shows, Node.cls, Node.lineno?, hne, hmodule]
  | some n =>
      have hn0 : n ≠ 0 := fun h0 => hzero (h0 ▸ rfl)
      simp [isFalsy, Node.Shows, Node.cls, Node.lineno?, hne, hn0, hcls]

/-- A handler is not shown, if it does not raise. -/
lemma shownAs_handler (hn : (Node.mk "ExceptHandler" lineno endLineno fields).Regular)
    {r : Option (String × Int)}
    (h : shownAs (fieldsInto (headEntries "ExceptHandler" lineno) fields) = .ok r) : r = none := by
  rw [shownAs, getEntry_lineno hn] at h
  rcases getEntry_type_handler hn with ⟨m, htype⟩ | htype
  · obtain ⟨entries, hentries⟩ : ∃ entries, astToDict m = .dict entries := by
      cases m
      exact ⟨_, rfl⟩
    rw [htype, hentries] at h
    cases lineno with
    | none => by_cases hempty : entries.isEmpty <;> simp_all [isFalsy]
    | some n => by_cases hempty : entries.isEmpty <;> by_cases hn0 : n = 0 <;> simp_all [isFalsy]
  · rw [htype] at h
    simpa [isFalsy] using h.symm

/-- What a dictionary of the tree is shown as. -/
lemma shownAs_eq (hn : (Node.mk cls lineno endLineno fields).Regular) {r : Option (String × Int)}
    (h : shownAs (fieldsInto (headEntries cls lineno) fields) = .ok r) :
    r = if (Node.mk cls lineno endLineno fields).Shows then
      some (cls, ((lineno.getD 1 : Nat) : Int)) else none := by
  by_cases hcls : cls = "ExceptHandler"
  · subst hcls
    have hhidden : ¬ (Node.mk "ExceptHandler" lineno endLineno fields).Shows := by
      simp [Node.Shows, Node.cls]
    rw [shownAs_handler hn h, if_neg hhidden]
  · rw [shownAs_of_ne hn hcls] at h
    exact (Except.ok.inj h).symm

/-- Names under which the AST pass looks for children. -/
def ChildNames (fields : List (String × FieldValue)) : Prop :=
  ∀ f ∈ fields, ¬ (f.1 = "type" ∨ f.1 = "lineno" ∨ f.1 = "end_lineno")

lemma childNames (hn : (Node.mk cls lineno endLineno fields).Regular)
    (hcls : cls ≠ "ExceptHandler") : ChildNames fields := by
  intro f hf hname
  have hmem : f.1 ∈ (Node.mk cls lineno endLineno fields).fieldNames := List.mem_map_of_mem hf
  rcases hname with htype | hlineno | hend
  · exact hcls (hn.handler.1 (htype ▸ hmem))
  · exact hn.lineno_notMem (hlineno ▸ hmem)
  · exact hn.endLineno_notMem (hend ▸ hmem)

/-- The loop over the entries of a node that is no handler is the loop over its fields. -/
lemma walkEntries_fieldsInto (hn : (Node.mk cls lineno endLineno fields).Regular)
    (hcls : cls ≠ "ExceptHandler") (path nodeId : String) (kind : CpgNodeKind) (depth : Nat) :
    walkEntries path nodeId kind depth (fieldsInto (headEntries cls lineno) fields)
      = walkEntries path nodeId kind depth (fields.map fun f => (f.1, fieldToVal f.2)) := by
  have hnames : (fields.map Prod.fst).Nodup := hn.names
  have hnew : ∀ f ∈ fields, f.1 ∉ (headEntries cls lineno).map Prod.fst := by
    intro f hf hhead
    have hname := childNames hn hcls f hf
    cases lineno with
    | none => exact hname (Or.inl (by simpa [headEntries] using hhead))
    | some n => exact hname (by simpa [headEntries, or_assoc] using Or.inl hhead)
  rw [fieldsInto_eq_append hnames _ hnew]
  cases lineno <;> simp [headEntries, walkEntries]

end Entries

@[simp] lemma childEdge_nodes (wanted : Bool) (edgeType : CpgEdgeType) (nodeId : String)
    (child : Option String) : (childEdge wanted edgeType nodeId child).nodes = [] := by
  cases child with
  | none => rfl
  | some childId => cases wanted <;> rfl

section Walk

variable (path : String)

mutual

/-- The AST pass emits the nodes that a tree shows. -/
theorem Node.walked_nodes (n : Node) (hreg : ∀ m ∈ n.nodes, m.Regular) {parentId : String}
    {depth : Nat} {w : Walked} {child : Option String}
    (h : walkAst path parentId depth (astToDict n) = .ok (w, child)) :
    w.nodes = (n.shown depth).map (shownNode path) := by
  match n with
  | .mk cls lineno endLineno fields =>
    have hn := hreg _ (mem_nodes_self _)
    rw [astToDict_mk, walkAst] at h
    split at h
    · cases h
    · rename_i hshown
      have hhidden := shownAs_eq hn hshown
      by_cases hshows : (Node.mk cls lineno endLineno fields).Shows
      · rw [if_pos hshows] at hhidden
        cases hhidden
      · obtain ⟨rfl, rfl⟩ := Prod.mk.inj (Except.ok.inj h)
        rw [Node.shown, if_neg hshows]
        rfl
    · rename_i astType line hshown
      have hhidden := shownAs_eq hn hshown
      by_cases hshows : (Node.mk cls lineno endLineno fields).Shows
      · rw [if_pos hshows] at hhidden
        obtain ⟨rfl, rfl⟩ := Prod.mk.inj (Option.some.inj hhidden)
        have hcls : astType ≠ "ExceptHandler" := by
          rintro rfl
          simp [Node.Shows, Node.cls] at hshows
        rw [walkEntries_fieldsInto hn hcls] at h
        split at h
        · cases h
        · rename_i inner hinner
          obtain ⟨rfl, rfl⟩ := Prod.mk.inj (Except.ok.inj h)
          have hfields := fieldsWalked_nodes fields
            (fun m hm => hreg m (List.mem_cons_of_mem _ hm)) (childNames hn hcls) hinner
          rw [Node.shown, if_pos hshows, List.map_cons, ← hfields]
          rfl
      · rw [if_neg hshows] at hhidden
        cases hhidden

theorem fieldsWalked_nodes (fields : List (String × FieldValue))
    (hreg : ∀ m ∈ fieldNodes fields, m.Regular) (hnames : ChildNames fields) {nodeId : String}
    {kind : CpgNodeKind} {depth : Nat} {w : Walked}
    (h : walkEntries path nodeId kind depth (fields.map fun f => (f.1, fieldToVal f.2)) = .ok w) :
    w.nodes = (fieldsShown (depth + 1) fields).map (shownNode path) := by
  match fields with
  | [] =>
    obtain rfl := Except.ok.inj h
    rfl
  | (name, value) :: rest =>
    rw [List.map_cons, walkEntries, if_neg (hnames _ List.mem_cons_self)] at h
    split at h
    · cases h
    · rename_i walked child hwalked
      split at h
      · cases h
      · rename_i listed hlisted
        split at h
        · cases h
        · rename_i more hmore
          obtain rfl := Except.ok.inj h
          have hvalue := value.walked_nodes
            (fun m hm => hreg m (List.mem_append_left _ hm)) hwalked hlisted
          have hrest := fieldsWalked_nodes rest (fun m hm => hreg m (List.mem_append_right _ hm))
            (fun f hf => hnames f (List.mem_cons_of_mem _ hf)) hmore
          rw [fieldsShown, List.map_append, ← hvalue, ← hrest]
          simp [Walked.then]

theorem FieldValue.walked_nodes (value : FieldValue) (hreg : ∀ m ∈ value.nodes, m.Regular)
    {nodeId : String} {asArgs : Bool} {depth : Nat} {w l : Walked} {child : Option String}
    (h : walkAst path nodeId (depth + 1) (fieldToVal value) = .ok (w, child))
    (hl : walkList path nodeId asArgs depth (fieldToVal value) = .ok l) :
    w.nodes ++ l.nodes = (value.shown (depth + 1)).map (shownNode path) := by
  match value with
  | .node n =>
    have hlist : l = {} := by
      cases n
      exact (Except.ok.inj hl).symm
    rw [FieldValue.shown, ← n.walked_nodes hreg h, hlist]
    exact List.append_nil _
  | .list items =>
    obtain ⟨rfl, rfl⟩ := Prod.mk.inj (Except.ok.inj h)
    rw [FieldValue.shown, ← itemsWalked_nodes items hreg hl]
    rfl
  | .constant c =>
    obtain ⟨rfl, rfl⟩ := Prod.mk.inj (Except.ok.inj h)
    obtain rfl := Except.ok.inj hl
    rfl

theorem itemsWalked_nodes (items : List ListItem) (hreg : ∀ m ∈ itemNodes items, m.Regular)
    {nodeId : String} {asArgs : Bool} {depth : Nat} {w : Walked}
    (h : walkItems path nodeId asArgs depth (itemsToVals items) = .ok w) :
    w.nodes = (itemsShown (depth + 1) items).map (shownNode path) := by
  match items with
  | [] =>
    obtain rfl := Except.ok.inj h
    rfl
  | .node n :: rest =>
    rw [itemsToVals, walkItems] at h
    split at h
    · cases h
    · rename_i walked child hwalked
      split at h
      · cases h
      · rename_i more hmore
        obtain rfl := Except.ok.inj h
        have hitem := n.walked_nodes (fun m hm => hreg m (List.mem_append_left _ hm)) hwalked
        have hrest := itemsWalked_nodes rest (fun m hm => hreg m (List.mem_append_right _ hm)) hmore
        rw [itemsShown, List.map_append, ← hitem, ← hrest]
        simp [Walked.then]
  | .constant c :: rest =>
    rw [itemsToVals, walkItems, walkAst] at h
    split at h
    · cases h
    · rename_i walked child hwalked
      obtain ⟨rfl, rfl⟩ := Prod.mk.inj (Except.ok.inj hwalked)
      split at h
      · cases h
      · rename_i more hmore
        obtain rfl := Except.ok.inj h
        rw [itemsShown, ← itemsWalked_nodes rest hreg hmore]
        simp [Walked.then]

end

end Walk

section Accepted

variable (path : String)

mutual

/-- The AST pass accepts a tree without handlers. -/
theorem Node.walkAst_isOk (n : Node) (hreg : ∀ m ∈ n.nodes, m.Regular)
    (hno : ∀ m ∈ n.nodes, m.cls ≠ "ExceptHandler") (parentId : String) (depth : Nat) :
    ∃ r, walkAst path parentId depth (astToDict n) = .ok r := by
  match n with
  | .mk cls lineno endLineno fields =>
    have hn := hreg _ (mem_nodes_self _)
    have hcls : cls ≠ "ExceptHandler" := hno _ (mem_nodes_self _)
    rw [astToDict_mk, walkAst, shownAs_of_ne hn hcls]
    by_cases hshows : (Node.mk cls lineno endLineno fields).Shows
    · obtain ⟨inner, hinner⟩ := fields_walkEntries_isOk fields
        (fun m hm => hreg m (List.mem_cons_of_mem _ hm))
        (fun m hm => hno m (List.mem_cons_of_mem _ hm)) (childNames hn hcls)
        (astId path cls (lineno.getD 1 : Nat) depth) (nodeKind cls) depth
      simp only [if_pos hshows, walkEntries_fieldsInto hn hcls, hinner]
      exact ⟨_, rfl⟩
    · simp only [if_neg hshows]
      exact ⟨_, rfl⟩

theorem fields_walkEntries_isOk (fields : List (String × FieldValue))
    (hreg : ∀ m ∈ fieldNodes fields, m.Regular)
    (hno : ∀ m ∈ fieldNodes fields, m.cls ≠ "ExceptHandler") (hnames : ChildNames fields)
    (nodeId : String) (kind : CpgNodeKind) (depth : Nat) :
    ∃ w, walkEntries path nodeId kind depth (fields.map fun f => (f.1, fieldToVal f.2)) = .ok w := by
  match fields with
  | [] => exact ⟨_, rfl⟩
  | (name, value) :: rest =>
    rw [List.map_cons, walkEntries, if_neg (hnames _ List.mem_cons_self)]
    obtain ⟨⟨⟨walked, child⟩, hwalked⟩, listed, hlisted⟩ := value.walk_isOk
      (fun m hm => hreg m (List.mem_append_left _ hm))
      (fun m hm => hno m (List.mem_append_left _ hm)) nodeId (name = "args" && kind = .call) depth
    obtain ⟨more, hmore⟩ := fields_walkEntries_isOk rest
      (fun m hm => hreg m (List.mem_append_right _ hm))
      (fun m hm => hno m (List.mem_append_right _ hm))
      (fun f hf => hnames f (List.mem_cons_of_mem _ hf)) nodeId kind depth
    simp only [hwalked, hlisted, hmore]
    exact ⟨_, rfl⟩

theorem FieldValue.walk_isOk (value : FieldValue) (hreg : ∀ m ∈ value.nodes, m.Regular)
    (hno : ∀ m ∈ value.nodes, m.cls ≠ "ExceptHandler") (nodeId : String) (asArgs : Bool)
    (depth : Nat) :
    (∃ r, walkAst path nodeId (depth + 1) (fieldToVal value) = .ok r)
      ∧ ∃ l, walkList path nodeId asArgs depth (fieldToVal value) = .ok l := by
  match value with
  | .node n =>
    refine ⟨n.walkAst_isOk hreg hno nodeId (depth + 1), ?_⟩
    cases n
    exact ⟨_, rfl⟩
  | .list items =>
    exact ⟨⟨_, rfl⟩, items_walkItems_isOk items hreg hno nodeId asArgs depth⟩
  | .constant c => exact ⟨⟨_, rfl⟩, _, rfl⟩

theorem items_walkItems_isOk (items : List ListItem) (hreg : ∀ m ∈ itemNodes items, m.Regular)
    (hno : ∀ m ∈ itemNodes items, m.cls ≠ "ExceptHandler") (nodeId : String) (asArgs : Bool)
    (depth : Nat) : ∃ w, walkItems path nodeId asArgs depth (itemsToVals items) = .ok w := by
  match items with
  | [] => exact ⟨_, rfl⟩
  | .node n :: rest =>
    rw [itemsToVals, walkItems]
    obtain ⟨⟨walked, child⟩, hwalked⟩ := n.walkAst_isOk
      (fun m hm => hreg m (List.mem_append_left _ hm))
      (fun m hm => hno m (List.mem_append_left _ hm)) nodeId (depth + 1)
    obtain ⟨more, hmore⟩ := items_walkItems_isOk rest
      (fun m hm => hreg m (List.mem_append_right _ hm))
      (fun m hm => hno m (List.mem_append_right _ hm)) nodeId asArgs depth
    simp only [hwalked, hmore]
    exact ⟨_, rfl⟩
  | .constant c :: rest =>
    rw [itemsToVals, walkItems, walkAst]
    obtain ⟨more, hmore⟩ := items_walkItems_isOk rest hreg hno nodeId asArgs depth
    simp only [hmore]
    exact ⟨_, rfl⟩

end

end Accepted

/-! ## What is recorded -/

mutual

/-- The dictionary records a tree exactly when there are no handlers in it. -/
theorem Node.recorded_iff (n : Node) (hreg : ∀ m ∈ n.nodes, m.Regular) :
    n.Recorded (astToDict n) ↔ ∀ m ∈ n.nodes, m.cls ≠ "ExceptHandler" := by
  match n with
  | .mk cls lineno endLineno fields =>
    have hn := hreg _ (mem_nodes_self _)
    have hentries : ∀ f ∈ fields,
        Dict.getEntry f.1 (fieldsInto (headEntries cls lineno) fields) = some (fieldToVal f.2) :=
      fun f hf => getEntry_field hn hf _
    have hfields := fieldsRecorded_iff fields
      (fun m hm => hreg m (List.mem_cons_of_mem _ hm)) hentries
    have hline : ∀ k, lineno = some k →
        Dict.getEntry "lineno" (fieldsInto (headEntries cls lineno) fields)
          = some (.constant (.int k)) := by
      intro k hk
      rw [getEntry_lineno hn, hk]
      rfl
    rw [astToDict_mk, Node.Recorded, hfields, Node.nodes, List.forall_mem_cons]
    constructor
    · rintro ⟨htype, -, hno⟩
      refine ⟨?_, hno⟩
      rintro rfl
      rcases getEntry_type_handler hn with ⟨m, hm⟩ | hm
      · cases m
        rw [hm] at htype
        cases Option.some.inj htype
      · rw [hm] at htype
        cases Option.some.inj htype
    · rintro ⟨hcls, hno⟩
      exact ⟨getEntry_type hn hcls, hline, hno⟩

theorem fieldsRecorded_iff (fields : List (String × FieldValue))
    (hreg : ∀ m ∈ fieldNodes fields, m.Regular) {entries : List (String × PyVal)}
    (hentries : ∀ f ∈ fields, Dict.getEntry f.1 entries = some (fieldToVal f.2)) :
    FieldsRecorded fields entries ↔ ∀ m ∈ fieldNodes fields, m.cls ≠ "ExceptHandler" := by
  match fields with
  | [] => simp [FieldsRecorded, fieldNodes]
  | (name, value) :: rest =>
    have hvalue := value.recorded_iff fun m hm => hreg m (List.mem_append_left _ hm)
    have hrest := fieldsRecorded_iff rest (fun m hm => hreg m (List.mem_append_right _ hm))
      fun f hf => hentries f (List.mem_cons_of_mem _ hf)
    have hentry := hentries _ List.mem_cons_self
    rw [FieldsRecorded, hentry, hrest, fieldNodes, List.forall_mem_append, ← hvalue]
    simp

theorem FieldValue.recorded_iff (value : FieldValue) (hreg : ∀ m ∈ value.nodes, m.Regular) :
    value.Recorded (fieldToVal value) ↔ ∀ m ∈ value.nodes, m.cls ≠ "ExceptHandler" := by
  match value with
  | .node n => exact n.recorded_iff hreg
  | .list items => exact itemsRecorded_iff items hreg
  | .constant c => simp [FieldValue.Recorded, FieldValue.nodes, fieldToVal]

theorem itemsRecorded_iff (items : List ListItem) (hreg : ∀ m ∈ itemNodes items, m.Regular) :
    ItemsRecorded items (itemsToVals items) ↔ ∀ m ∈ itemNodes items, m.cls ≠ "ExceptHandler" := by
  match items with
  | [] => simp [ItemsRecorded, itemsToVals, itemNodes]
  | .node n :: rest =>
    have hitem := n.recorded_iff fun m hm => hreg m (List.mem_append_left _ hm)
    have hrest := itemsRecorded_iff rest fun m hm => hreg m (List.mem_append_right _ hm)
    rw [itemsToVals, ItemsRecorded, hitem, hrest, itemNodes, List.forall_mem_append]
  | .constant c :: rest =>
    rw [itemsToVals, ItemsRecorded, itemsRecorded_iff rest hreg, itemNodes]
    simp

end

/-! ## What is left out -/

/-- No node with a line number stands below one without. -/
def PlacedBelowPlaced (nodes : List Node) : Prop :=
  ∀ m ∈ nodes, m.lineno? = none → ∀ k ∈ m.nodes, k.lineno? = none

lemma placedBelowPlaced_append {nodes nodes' : List Node} :
    PlacedBelowPlaced (nodes ++ nodes') ↔ PlacedBelowPlaced nodes ∧ PlacedBelowPlaced nodes' :=
  List.forall_mem_append

/-- Lists that are joined from parts are equal when the parts are. -/
lemma append_eq_append_of_sublist {α : Type} {as bs xs ys : List α} (ha : as.Sublist bs)
    (hx : xs.Sublist ys) : as ++ xs = bs ++ ys ↔ as = bs ∧ xs = ys := by
  constructor
  · intro h
    have hlength : as.length = bs.length := by
      have := congrArg List.length h
      simp only [List.length_append] at this
      have hxs := hx.length_le
      have has := ha.length_le
      omega
    exact List.append_inj h hlength
  · rintro ⟨rfl, rfl⟩
    rfl

mutual

/-- The nodes of a node of the tree are nodes of the tree. -/
theorem Node.mem_nodes_trans (n : Node) {m k : Node} (hm : m ∈ n.nodes) (hk : k ∈ m.nodes) :
    k ∈ n.nodes := by
  match n with
  | .mk cls lineno endLineno fields =>
    rcases List.mem_cons.1 hm with rfl | hm
    · exact hk
    · exact List.mem_cons_of_mem _ (mem_fieldNodes_trans fields hm hk)

theorem mem_fieldNodes_trans (fields : List (String × FieldValue)) {m k : Node}
    (hm : m ∈ fieldNodes fields) (hk : k ∈ m.nodes) : k ∈ fieldNodes fields := by
  match fields with
  | [] => cases hm
  | (name, value) :: rest =>
    rcases List.mem_append.1 hm with hm | hm
    · exact List.mem_append_left _ (value.mem_nodes_trans hm hk)
    · exact List.mem_append_right _ (mem_fieldNodes_trans rest hm hk)

theorem FieldValue.mem_nodes_trans (value : FieldValue) {m k : Node} (hm : m ∈ value.nodes)
    (hk : k ∈ m.nodes) : k ∈ value.nodes := by
  match value with
  | .node n => exact n.mem_nodes_trans hm hk
  | .list items => exact mem_itemNodes_trans items hm hk
  | .constant c => cases hm

theorem mem_itemNodes_trans (items : List ListItem) {m k : Node} (hm : m ∈ itemNodes items)
    (hk : k ∈ m.nodes) : k ∈ itemNodes items := by
  match items with
  | [] => cases hm
  | .node n :: rest =>
    rcases List.mem_append.1 hm with hm | hm
    · exact List.mem_append_left _ (n.mem_nodes_trans hm hk)
    · exact List.mem_append_right _ (mem_itemNodes_trans rest hm hk)
  | .constant c :: rest => exact mem_itemNodes_trans rest hm hk

end

mutual

theorem Node.placed_eq_nil_iff (n : Node) (depth : Nat) :
    n.placed depth = [] ↔ ∀ k ∈ n.nodes, k.lineno? = none := by
  match n with
  | .mk cls lineno endLineno fields =>
    rw [Node.placed, Node.nodes, List.forall_mem_cons, ← fieldsPlaced_eq_nil_iff fields (depth + 1)]
    cases lineno <;> simp [Node.lineno?]

theorem fieldsPlaced_eq_nil_iff (fields : List (String × FieldValue)) (depth : Nat) :
    fieldsPlaced depth fields = [] ↔ ∀ k ∈ fieldNodes fields, k.lineno? = none := by
  match fields with
  | [] => simp [fieldsPlaced, fieldNodes]
  | (name, value) :: rest =>
    rw [fieldsPlaced, fieldNodes, List.append_eq_nil_iff, List.forall_mem_append,
      value.placed_eq_nil_iff depth, fieldsPlaced_eq_nil_iff rest depth]

theorem FieldValue.placed_eq_nil_iff (value : FieldValue) (depth : Nat) :
    value.placed depth = [] ↔ ∀ k ∈ value.nodes, k.lineno? = none := by
  match value with
  | .node n => exact n.placed_eq_nil_iff depth
  | .list items => exact itemsPlaced_eq_nil_iff items depth
  | .constant c => simp [FieldValue.placed, FieldValue.nodes]

theorem itemsPlaced_eq_nil_iff (items : List ListItem) (depth : Nat) :
    itemsPlaced depth items = [] ↔ ∀ k ∈ itemNodes items, k.lineno? = none := by
  match items with
  | [] => simp [itemsPlaced, itemNodes]
  | .node n :: rest =>
    rw [itemsPlaced, itemNodes, List.append_eq_nil_iff, List.forall_mem_append,
      n.placed_eq_nil_iff depth, itemsPlaced_eq_nil_iff rest depth]
  | .constant c :: rest =>
    rw [itemsPlaced, itemNodes]
    exact itemsPlaced_eq_nil_iff rest depth

end

mutual

theorem Node.mem_of_placed (n : Node) {depth : Nat} {p : Node × Nat} (h : p ∈ n.placed depth) :
    p.1 ∈ n.nodes := by
  match n with
  | .mk cls lineno endLineno fields =>
    rw [Node.placed] at h
    split at h
    · rcases List.mem_cons.1 h with rfl | h
      · exact mem_nodes_self _
      · exact List.mem_cons_of_mem _ (mem_of_fieldsPlaced fields h)
    · exact List.mem_cons_of_mem _ (mem_of_fieldsPlaced fields h)

theorem mem_of_fieldsPlaced (fields : List (String × FieldValue)) {depth : Nat} {p : Node × Nat}
    (h : p ∈ fieldsPlaced depth fields) : p.1 ∈ fieldNodes fields := by
  match fields with
  | [] => cases h
  | (name, value) :: rest =>
    rcases List.mem_append.1 h with h | h
    · exact List.mem_append_left _ (value.mem_of_placed h)
    · exact List.mem_append_right _ (mem_of_fieldsPlaced rest h)

theorem FieldValue.mem_of_placed (value : FieldValue) {depth : Nat} {p : Node × Nat}
    (h : p ∈ value.placed depth) : p.1 ∈ value.nodes := by
  match value with
  | .node n => exact n.mem_of_placed h
  | .list items => exact mem_of_itemsPlaced items h
  | .constant c => cases h

theorem mem_of_itemsPlaced (items : List ListItem) {depth : Nat} {p : Node × Nat}
    (h : p ∈ itemsPlaced depth items) : p.1 ∈ itemNodes items := by
  match items with
  | [] => cases h
  | .node n :: rest =>
    rcases List.mem_append.1 h with h | h
    · exact List.mem_append_left _ (n.mem_of_placed h)
    · exact List.mem_append_right _ (mem_of_itemsPlaced rest h)
  | .constant c :: rest => exact mem_of_itemsPlaced rest h

end

mutual

theorem Node.lineno_of_placed (n : Node) {depth : Nat} {p : Node × Nat}
    (h : p ∈ n.placed depth) : p.1.lineno?.isSome := by
  match n with
  | .mk cls lineno endLineno fields =>
    rw [Node.placed] at h
    split at h
    · rename_i hline
      rcases List.mem_cons.1 h with rfl | h
      · exact hline
      · exact lineno_of_fieldsPlaced fields h
    · exact lineno_of_fieldsPlaced fields h

theorem lineno_of_fieldsPlaced (fields : List (String × FieldValue)) {depth : Nat}
    {p : Node × Nat} (h : p ∈ fieldsPlaced depth fields) : p.1.lineno?.isSome := by
  match fields with
  | [] => cases h
  | (name, value) :: rest =>
    rcases List.mem_append.1 h with h | h
    · exact value.lineno_of_placed h
    · exact lineno_of_fieldsPlaced rest h

theorem FieldValue.lineno_of_placed (value : FieldValue) {depth : Nat} {p : Node × Nat}
    (h : p ∈ value.placed depth) : p.1.lineno?.isSome := by
  match value with
  | .node n => exact n.lineno_of_placed h
  | .list items => exact lineno_of_itemsPlaced items h
  | .constant c => cases h

theorem lineno_of_itemsPlaced (items : List ListItem) {depth : Nat} {p : Node × Nat}
    (h : p ∈ itemsPlaced depth items) : p.1.lineno?.isSome := by
  match items with
  | [] => cases h
  | .node n :: rest =>
    rcases List.mem_append.1 h with h | h
    · exact n.lineno_of_placed h
    · exact lineno_of_itemsPlaced rest h
  | .constant c :: rest => exact lineno_of_itemsPlaced rest h

end

mutual

/-- Below the module, the nodes that are shown have line numbers. -/
theorem Node.shown_sublist (n : Node) (hinner : ∀ m ∈ n.nodes, m.cls ≠ "Module") (depth : Nat) :
    (n.shown depth).Sublist (n.placed depth) := by
  match n with
  | .mk cls lineno endLineno fields =>
    have hfields := fieldsShown_sublist fields
      (fun m hm => hinner m (List.mem_cons_of_mem _ hm)) (depth + 1)
    rw [Node.shown, Node.placed]
    by_cases hshows : (Node.mk cls lineno endLineno fields).Shows
    · have hline : lineno.isSome := by
        rcases hshows with hmodule | ⟨hline, -⟩
        · exact absurd hmodule (hinner _ (mem_nodes_self _))
        · exact hline
      rw [if_pos hshows, if_pos hline]
      exact hfields.cons_cons _
    · rw [if_neg hshows]
      exact List.nil_sublist _

theorem fieldsShown_sublist (fields : List (String × FieldValue))
    (hinner : ∀ m ∈ fieldNodes fields, m.cls ≠ "Module") (depth : Nat) :
    (fieldsShown depth fields).Sublist (fieldsPlaced depth fields) := by
  match fields with
  | [] => exact List.Sublist.refl _
  | (name, value) :: rest =>
    exact (value.shown_sublist (fun m hm => hinner m (List.mem_append_left _ hm)) depth).append
      (fieldsShown_sublist rest (fun m hm => hinner m (List.mem_append_right _ hm)) depth)

theorem FieldValue.shown_sublist (value : FieldValue)
    (hinner : ∀ m ∈ value.nodes, m.cls ≠ "Module") (depth : Nat) :
    (value.shown depth).Sublist (value.placed depth) := by
  match value with
  | .node n => exact n.shown_sublist hinner depth
  | .list items => exact itemsShown_sublist items hinner depth
  | .constant c => exact List.Sublist.refl _

theorem itemsShown_sublist (items : List ListItem)
    (hinner : ∀ m ∈ itemNodes items, m.cls ≠ "Module") (depth : Nat) :
    (itemsShown depth items).Sublist (itemsPlaced depth items) := by
  match items with
  | [] => exact List.Sublist.refl _
  | .node n :: rest =>
    exact (n.shown_sublist (fun m hm => hinner m (List.mem_append_left _ hm)) depth).append
      (itemsShown_sublist rest (fun m hm => hinner m (List.mem_append_right _ hm)) depth)
  | .constant c :: rest => exact itemsShown_sublist rest hinner depth

end

mutual

/-- Every node with a line number is shown exactly when none stands below a node without one. -/
theorem Node.shown_eq_placed_iff (n : Node) (hinner : ∀ m ∈ n.nodes, m.cls ≠ "Module")
    (hno : ∀ m ∈ n.nodes, m.cls ≠ "ExceptHandler") (depth : Nat) :
    n.shown depth = n.placed depth ↔ PlacedBelowPlaced n.nodes := by
  match n with
  | .mk cls lineno endLineno fields =>
    have hmodule : cls ≠ "Module" := hinner _ (mem_nodes_self _)
    have hcls : cls ≠ "ExceptHandler" := hno _ (mem_nodes_self _)
    have hfields := fieldsShown_eq_placed_iff fields
      (fun m hm => hinner m (List.mem_cons_of_mem _ hm))
      (fun m hm => hno m (List.mem_cons_of_mem _ hm)) (depth + 1)
    rw [Node.shown, PlacedBelowPlaced, Node.nodes, List.forall_mem_cons]
    cases lineno with
    | none =>
        have hhidden : ¬ (Node.mk cls none endLineno fields).Shows := by
          simp [Node.Shows, Node.cls, Node.lineno?, hmodule]
        rw [if_neg hhidden, eq_comm, Node.placed_eq_nil_iff]
        constructor
        · intro hnone
          refine ⟨fun _ => hnone, fun m hm _ k hk => ?_⟩
          exact hnone k (List.mem_cons_of_mem _ (mem_fieldNodes_trans fields hm hk))
        · intro h
          exact h.1 rfl
    | some line =>
        have hshows : (Node.mk cls (some line) endLineno fields).Shows :=
          Or.inr ⟨rfl, hcls⟩
        rw [if_pos hshows, Node.placed, if_pos (show (some line).isSome = true from rfl),
          List.cons_eq_cons, hfields]
        simp [PlacedBelowPlaced, Node.lineno?]

theorem fieldsShown_eq_placed_iff (fields : List (String × FieldValue))
    (hinner : ∀ m ∈ fieldNodes fields, m.cls ≠ "Module")
    (hno : ∀ m ∈ fieldNodes fields, m.cls ≠ "ExceptHandler") (depth : Nat) :
    fieldsShown depth fields = fieldsPlaced depth fields
      ↔ PlacedBelowPlaced (fieldNodes fields) := by
  match fields with
  | [] => simp [fieldsShown, fieldsPlaced, fieldNodes, PlacedBelowPlaced]
  | (name, value) :: rest =>
    have hinner := List.forall_mem_append.1 hinner
    have hno := List.forall_mem_append.1 hno
    rw [fieldsShown, fieldsPlaced, fieldNodes, placedBelowPlaced_append,
      append_eq_append_of_sublist (value.shown_sublist hinner.1 depth)
        (fieldsShown_sublist rest hinner.2 depth),
      value.shown_eq_placed_iff hinner.1 hno.1 depth,
      fieldsShown_eq_placed_iff rest hinner.2 hno.2 depth]

theorem FieldValue.shown_eq_placed_iff (value : FieldValue)
    (hinner : ∀ m ∈ value.nodes, m.cls ≠ "Module")
    (hno : ∀ m ∈ value.nodes, m.cls ≠ "ExceptHandler") (depth : Nat) :
    value.shown depth = value.placed depth ↔ PlacedBelowPlaced value.nodes := by
  match value with
  | .node n => exact n.shown_eq_placed_iff hinner hno depth
  | .list items => exact itemsShown_eq_placed_iff items hinner hno depth
  | .constant c => simp [FieldValue.shown, FieldValue.placed, FieldValue.nodes, PlacedBelowPlaced]

theorem itemsShown_eq_placed_iff (items : List ListItem)
    (hinner : ∀ m ∈ itemNodes items, m.cls ≠ "Module")
    (hno : ∀ m ∈ itemNodes items, m.cls ≠ "ExceptHandler") (depth : Nat) :
    itemsShown depth items = itemsPlaced depth items ↔ PlacedBelowPlaced (itemNodes items) := by
  match items with
  | [] => simp [itemsShown, itemsPlaced, itemNodes, PlacedBelowPlaced]
  | .node n :: rest =>
    have hinner := List.forall_mem_append.1 hinner
    have hno := List.forall_mem_append.1 hno
    rw [itemsShown, itemsPlaced, itemNodes, placedBelowPlaced_append,
      append_eq_append_of_sublist (n.shown_sublist hinner.1 depth)
        (itemsShown_sublist rest hinner.2 depth),
      n.shown_eq_placed_iff hinner.1 hno.1 depth,
      itemsShown_eq_placed_iff rest hinner.2 hno.2 depth]
  | .constant c :: rest => exact itemsShown_eq_placed_iff rest hinner hno depth

end

/-! ## A module -/

lemma shown_of_grammatical {tree : Node} (h : tree.Grammatical) :
    tree.shown 0 = (tree, 0) :: fieldsShown 1 tree.fields := by
  have hshows : tree.Shows := Or.inl h.cls
  cases tree
  rw [Node.shown, if_pos hshows]
  rfl

lemma placed_of_grammatical {tree : Node} (h : tree.Grammatical) :
    tree.placed 0 = fieldsPlaced 1 tree.fields := by
  have hline := h.lineno
  cases tree
  cases hline
  rfl

end Sast.Prepare
