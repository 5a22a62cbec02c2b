import SastEngine.Lib.BoundedSearch
import SastEngine.Prepare.Cpg.Graph

/-!
# Reachability along the data flow

`dfg_reachability` of `prepare/cpg/models.py`, and what it answers: whether a path of at most so
many data flow edges leads from the one node to the other.
-/

namespace Sast.Prepare

/-- `CPGEdgeType.value`. -/
def CpgEdgeType.value : CpgEdgeType → String
  | .astChild => "ast_child"
  | .astFile => "ast_file"
  | .astClass => "ast_class"
  | .astFunction => "ast_function"
  | .astBody => "ast_body"
  | .cfgSeq => "cfg_seq"
  | .cfgTrue => "cfg_true"
  | .cfgFalse => "cfg_false"
  | .cfgLoopBody => "cfg_loop_body"
  | .cfgLoopNext => "cfg_loop_next"
  | .cfgExcept => "cfg_except"
  | .cfgFinal => "cfg_final"
  | .dfgDef => "dfg_def"
  | .dfgUse => "dfg_use"
  | .dfgParam => "dfg_param"
  | .dfgReturn => "dfg_return"
  | .dfgCallArg => "dfg_call_arg"
  | .dfgCallResult => "dfg_call_result"
  | .dfgAssignRhs => "dfg_assign_rhs"

/-- The edges of the data flow layer. -/
def CpgEdgeType.isDfg : CpgEdgeType → Bool
  | .dfgDef | .dfgUse | .dfgParam | .dfgReturn | .dfgCallArg | .dfgCallResult | .dfgAssignRhs =>
      true
  | _ => false

/-- The layer can be read off the value. -/
lemma CpgEdgeType.startsWith_value (edgeType : CpgEdgeType) :
    "dfg_".toList.isPrefixOf edgeType.value.toList = edgeType.isDfg := by
  cases edgeType <;> rfl

namespace CodePropertyGraph

variable (g : CodePropertyGraph)

/-- `edges_from`. -/
def edgesFrom (nodeId : String) (edgeType : Option CpgEdgeType := none) : List CpgEdge :=
  g.edges.filter fun e => e.src = nodeId ∧ (edgeType = none ∨ some e.edgeType = edgeType)

/-- `dfg_reachability`, with at most so many rounds of its loop. -/
def dfgReachability (fuel : Nat) (sourceId targetId : String) (maxDepth : Nat := 10) :
    Option Bool :=
  boundedSearch
    (fun current => ((g.edgesFrom current).filter fun edge =>
      "dfg_".toList.isPrefixOf edge.edgeType.value.toList).map CpgEdge.dst)
    targetId maxDepth fuel [] [(sourceId, 0)]

/-- The paths of so many data flow edges. -/
inductive DfgPath : String → Nat → String → Prop
  | nil (i : String) : DfgPath i 0 i
  | cons {e : CpgEdge} {target : String} {n : Nat} : e ∈ g.edges → e.edgeType.isDfg = true →
      DfgPath e.dst n target → DfgPath e.src (n + 1) target

variable {g}

/-- The data flow edges as pairs of ids. -/
def flowEdges (g : CodePropertyGraph) : List (String × String) :=
  (g.edges.filter fun e => e.edgeType.isDfg).map fun e => (e.src, e.dst)

lemma ends_flowEdges (current : String) :
    ends g.flowEdges current = ((g.edgesFrom current).filter fun edge =>
      "dfg_".toList.isPrefixOf edge.edgeType.value.toList).map CpgEdge.dst := by
  simp only [ends, flowEdges, edgesFrom, CpgEdgeType.startsWith_value, List.filter_map,
    List.map_map, List.filter_filter]
  congr 1
  apply List.filter_congr
  intro e _
  simp [Bool.and_comm]

lemma mem_ends_flowEdges {a b : String} :
    b ∈ ends g.flowEdges a ↔ ∃ e ∈ g.edges, e.edgeType.isDfg = true ∧ e.src = a ∧ e.dst = b := by
  simp only [ends, flowEdges, List.mem_map, List.mem_filter, decide_eq_true_eq]
  constructor
  · rintro ⟨_, ⟨⟨e, ⟨he, hdfg⟩, rfl⟩, hsrc⟩, rfl⟩
    exact ⟨e, he, hdfg, hsrc, rfl⟩
  · rintro ⟨e, he, hdfg, hsrc, rfl⟩
    exact ⟨(e.src, e.dst), ⟨⟨e, ⟨he, hdfg⟩, rfl⟩, hsrc⟩, rfl⟩

/-- The walks of the search are the paths of the graph. -/
lemma stepsTo_flowEdges_iff {a b : String} {n : Nat} :
    StepsTo (ends g.flowEdges) a n b ↔ g.DfgPath a n b := by
  constructor
  · intro hwalk
    induction hwalk with
    | nil a => exact .nil a
    | cons hb _ ih =>
        obtain ⟨e, he, hdfg, rfl, rfl⟩ := mem_ends_flowEdges.1 hb
        exact .cons he hdfg ih
  · intro hpath
    induction hpath with
    | nil a => exact .nil a
    | cons he hdfg _ ih => exact .cons (mem_ends_flowEdges.2 ⟨_, he, hdfg, rfl, rfl⟩) ih

/-- The search ends within two rounds more than there are edges, and its answer is exact. -/
theorem dfgReachability_spec (g : CodePropertyGraph) (sourceId targetId : String)
    (maxDepth : Nat) :
    ∃ found, (∀ fuel, g.edges.length + 2 ≤ fuel →
        g.dfgReachability fuel sourceId targetId maxDepth = some found) ∧
      (found = true ↔ ∃ n ≤ maxDepth, g.DfgPath sourceId n targetId) := by
  obtain ⟨found, hruns, hiff⟩ :=
    search_spec g.flowEdges targetId maxDepth sourceId
  refine ⟨found, fun fuel hfuel => ?_, ?_⟩
  · have hlength : g.flowEdges.length ≤ g.edges.length := by
      rw [flowEdges, List.length_map]
      exact List.length_filter_le _ _
    rw [← hruns fuel (by omega), dfgReachability]
    simp only [← ends_flowEdges]
  · simpa only [stepsTo_flowEdges_iff] using hiff

end CodePropertyGraph

end Sast.Prepare
