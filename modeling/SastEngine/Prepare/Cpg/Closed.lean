import SastEngine.Prepare.Cpg.Builder
import SastEngine.Lib.Except

/-!
# The AST pass closes its edges

Whatever dictionary the AST pass walks, its edges lead between the nodes that it appends and the
node that it started below, and it registers its functions and its calls.
-/

namespace Sast.Prepare

/-- The types of the edges of the AST pass. -/
def astEdgeTypes : List CpgEdgeType := [.astChild, .dfgAssignRhs, .dfgCallArg]

/-- The ids of what the AST pass appends. -/
def Walked.ids (w : Walked) : List String := w.nodes.map CpgNode.id

/-- The ids of the nodes of this kind. -/
def idsOfKind (kind : CpgNodeKind) (nodes : List CpgNode) : List String :=
  (nodes.filter fun n => n.kind = kind).map CpgNode.id

lemma idsOfKind_append (kind : CpgNodeKind) (nodes nodes' : List CpgNode) :
    idsOfKind kind (nodes ++ nodes') = idsOfKind kind nodes ++ idsOfKind kind nodes' := by
  rw [idsOfKind, List.filter_append, List.map_append]
  rfl

lemma mem_idsOfKind {kind : CpgNodeKind} {nodes : List CpgNode} {i : String} :
    i ∈ idsOfKind kind nodes ↔ ∃ n ∈ nodes, n.id = i ∧ n.kind = kind := by
  simp only [idsOfKind, List.mem_map, List.mem_filter, decide_eq_true_eq]
  constructor
  · rintro ⟨n, ⟨hn, hkind⟩, hid⟩
    exact ⟨n, hn, hid, hkind⟩
  · rintro ⟨n, hn, hid, hkind⟩
    exact ⟨n, ⟨hn, hkind⟩, hid⟩

/-- Edges lead between the new nodes and the root, and the new nodes are registered. -/
structure Walked.Closed (root : String) (w : Walked) : Prop where
  src : ∀ e ∈ w.edges, e.src = root ∨ e.src ∈ w.ids
  dst : ∀ e ∈ w.edges, e.dst = root ∨ e.dst ∈ w.ids
  edgeType : ∀ e ∈ w.edges, e.edgeType ∈ astEdgeTypes
  functionNodes : w.functionNodes = idsOfKind .function w.nodes
  callNodes : w.callNodes = idsOfKind .call w.nodes

namespace Walked.Closed

variable {root : String} {w w' : Walked}

lemma empty (root : String) : Walked.Closed root {} where
  src := by simp
  dst := by simp
  edgeType := by simp
  functionNodes := rfl
  callNodes := rfl

lemma ids_then (w w' : Walked) : (w.then w').ids = w.ids ++ w'.ids := List.map_append

lemma andThen (h : w.Closed root) (h' : w'.Closed root) : (w.then w').Closed root where
  src := by
    intro e he
    rw [ids_then, List.mem_append]
    rcases List.mem_append.1 he with he | he
    · exact (h.src e he).imp_right Or.inl
    · exact (h'.src e he).imp_right Or.inr
  dst := by
    intro e he
    rw [ids_then, List.mem_append]
    rcases List.mem_append.1 he with he | he
    · exact (h.dst e he).imp_right Or.inl
    · exact (h'.dst e he).imp_right Or.inr
  edgeType := List.forall_mem_append.2 ⟨h.edgeType, h'.edgeType⟩
  functionNodes := by
    rw [Walked.then, idsOfKind_append, h.functionNodes, h'.functionNodes]
  callNodes := by
    rw [Walked.then, idsOfKind_append, h.callNodes, h'.callNodes]

/-- The edge from a child that was appended. -/
lemma then_childEdge (h : w.Closed root) {child : Option String}
    (hchild : ∀ c, child = some c → c ∈ w.ids) (wanted : Bool) {edgeType : CpgEdgeType}
    (htype : edgeType ∈ astEdgeTypes) :
    (w.then (childEdge wanted edgeType root child)).Closed root := by
  cases child with
  | none => exact h.andThen (empty root)
  | some c =>
      cases wanted with
      | false => exact h.andThen (empty root)
      | true =>
          have hc := hchild c rfl
          exact
            { src := fun e he => by
                rw [ids_then, List.mem_append]
                rcases List.mem_append.1 he with he | he
                · exact (h.src e he).imp_right Or.inl
                · obtain rfl := List.mem_singleton.1 he
                  exact Or.inr (Or.inl hc)
              dst := fun e he => by
                rw [ids_then, List.mem_append]
                rcases List.mem_append.1 he with he | he
                · exact (h.dst e he).imp_right Or.inl
                · obtain rfl := List.mem_singleton.1 he
                  exact Or.inl rfl
              edgeType := List.forall_mem_append.2
                ⟨h.edgeType, List.forall_mem_singleton.2 htype⟩
              functionNodes := by
                rw [Walked.then, idsOfKind_append, h.functionNodes]
                rfl
              callNodes := by
                rw [Walked.then, idsOfKind_append, h.callNodes]
                rfl }

end Walked.Closed

/-- A node and what is below it, from the node above. -/
lemma walkedNode_closed (path astType : String) (line : Int) (depth : Nat) (parentId : String)
    (entries : List (String × PyVal)) {inner : Walked}
    (h : inner.Closed (astId path astType line depth)) :
    ((walkedNode path astType line depth parentId entries).then inner).Closed parentId := by
  have hself : astId path astType line depth
      ∈ ((walkedNode path astType line depth parentId entries).then inner).ids :=
    List.mem_cons_self
  have hinner : ∀ i ∈ inner.ids,
      i ∈ ((walkedNode path astType line depth parentId entries).then inner).ids :=
    fun i hi => List.mem_cons_of_mem _ hi
  constructor
  · intro e he
    rcases List.mem_cons.1 he with rfl | he
    · exact Or.inl rfl
    · rcases h.src e he with hsrc | hsrc
      · exact Or.inr (hsrc ▸ hself)
      · exact Or.inr (hinner _ hsrc)
  · intro e he
    rcases List.mem_cons.1 he with rfl | he
    · exact Or.inr hself
    · rcases h.dst e he with hdst | hdst
      · exact Or.inr (hdst ▸ hself)
      · exact Or.inr (hinner _ hdst)
  · intro e he
    rcases List.mem_cons.1 he with rfl | he
    · exact List.mem_cons_self
    · exact h.edgeType e he
  · rw [Walked.then, idsOfKind_append, h.functionNodes]
    by_cases hkind : nodeKind astType = .function <;> simp [walkedNode, idsOfKind, hkind]
  · rw [Walked.then, idsOfKind_append, h.callNodes]
    by_cases hkind : nodeKind astType = .call <;> simp [walkedNode, idsOfKind, hkind]

section Walk

variable (path : String)

mutual

theorem walkAst_closed (v : PyVal) {parentId : String} {depth : Nat} {w : Walked}
    {child : Option String} (h : walkAst path parentId depth v = .ok (w, child)) :
    w.Closed parentId ∧ ∀ c, child = some c → c ∈ w.ids := by
  match v with
  | .list _ =>
    obtain ⟨rfl, rfl⟩ := Prod.mk.inj (Except.ok.inj h)
    exact ⟨.empty parentId, fun c hc => by cases hc⟩
  | .constant _ =>
    obtain ⟨rfl, rfl⟩ := Prod.mk.inj (Except.ok.inj h)
    exact ⟨.empty parentId, fun c hc => by cases hc⟩
  | .dict entries =>
    rw [walkAst] at h
    split at h
    · cases h
    · obtain ⟨rfl, rfl⟩ := Prod.mk.inj (Except.ok.inj h)
      exact ⟨.empty parentId, fun c hc => by cases hc⟩
    · split at h
      · cases h
      · rename_i inner hinner
        obtain ⟨rfl, rfl⟩ := Prod.mk.inj (Except.ok.inj h)
        refine ⟨walkedNode_closed _ _ _ _ _ _ (walkEntries_closed entries hinner), ?_⟩
        intro c hc
        obtain rfl := Option.some.inj hc
        exact List.mem_cons_self

theorem walkEntries_closed (entries : List (String × PyVal)) {nodeId : String}
    {kind : CpgNodeKind} {depth : Nat} {w : Walked}
    (h : walkEntries path nodeId kind depth entries = .ok w) : w.Closed nodeId := by
  match entries with
  | [] =>
    obtain rfl := Except.ok.inj h
    exact .empty nodeId
  | (name, value) :: rest =>
    rw [walkEntries] at h
    split at h
    · exact walkEntries_closed rest h
    · split at h
      · cases h
      · rename_i walked child hwalked
        split at h
        · cases h
        · rename_i listed hlisted
          split at h
          · cases h
          · rename_i more hmore
            obtain rfl := Except.ok.inj h
            obtain ⟨hvalue, hchild⟩ := walkAst_closed value hwalked
            exact ((hvalue.then_childEdge hchild _ (by decide)).andThen
              (walkList_closed value hlisted)).andThen (walkEntries_closed rest hmore)

theorem walkList_closed (v : PyVal) {nodeId : String} {asArgs : Bool} {depth : Nat} {w : Walked}
    (h : walkList path nodeId asArgs depth v = .ok w) : w.Closed nodeId := by
  match v with
  | .list items => exact walkItems_closed items h
  | .dict _ =>
    obtain rfl := Except.ok.inj h
    exact .empty nodeId
  | .constant _ =>
    obtain rfl := Except.ok.inj h
    exact .empty nodeId

theorem walkItems_closed (items : List PyVal) {nodeId : String} {asArgs : Bool} {depth : Nat}
    {w : Walked} (h : walkItems path nodeId asArgs depth items = .ok w) : w.Closed nodeId := by
  match items with
  | [] =>
    obtain rfl := Except.ok.inj h
    exact .empty nodeId
  | item :: rest =>
    rw [walkItems] at h
    split at h
    · cases h
    · rename_i walked child hwalked
      split at h
      · cases h
      · rename_i more hmore
        obtain rfl := Except.ok.inj h
        obtain ⟨hitem, hchild⟩ := walkAst_closed item hwalked
        exact (hitem.then_childEdge hchild _ (by decide)).andThen (walkItems_closed rest hmore)

end

end Walk

end Sast.Prepare
