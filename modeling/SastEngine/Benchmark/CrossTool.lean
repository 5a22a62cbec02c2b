import SastEngine.Benchmark.Matcher
import SastEngine.Lib.Matching
import Mathlib.Data.List.Dedup
import Mathlib.Data.List.Sort
import Mathlib.Data.String.Basic

/-!
# The comparison of two tools

`match_cross_tool` is a greedy matching, hence a maximal one, and it splits both lists.
`_build_comparison` of `benchmark/service.py` returns early when the other tool found nothing;
what it returns then is what the rest of the function computes only if our list is empty too.
-/

namespace Sast

namespace BenchmarkMatcher

variable {matcher : BenchmarkMatcher}

/-- The loop of `match_cross_tool` adds a greedy matching to its accumulators. -/
theorem greedy_crossTool (ours : List BenchmarkFinding) (s : CrossTool) :
    ∃ pairs rest,
      Greedy (fun a b => matcher.same a b = true) ours s.remaining pairs rest
        (ours.foldl matcher.crossToolStep s).remaining
      ∧ (ours.foldl matcher.crossToolStep s).shared = s.shared ++ pairs.map Prod.fst
      ∧ (ours.foldl matcher.crossToolStep s).oursOnly = s.oursOnly ++ rest
      ∧ (ours.foldl matcher.crossToolStep s).remaining.Sublist s.remaining := by
  induction ours generalizing s with
  | nil => exact ⟨[], [], .nil _, by simp, by simp, List.Sublist.refl _⟩
  | cons finding ours ih =>
      rw [List.foldl_cons]
      obtain ⟨pairs, rest, hgreedy, hshared, hours, hsub⟩ := ih (matcher.crossToolStep s finding)
      cases h : s.remaining.find? (matcher.same finding) with
      | none =>
          have hstep : matcher.crossToolStep s finding
              = { s with oursOnly := s.oursOnly ++ [finding] } := by
            simp only [crossToolStep, h]
          rw [hstep] at hgreedy hshared hours hsub ⊢
          refine ⟨pairs, finding :: rest, .skip ?_ hgreedy, hshared, ?_, hsub⟩
          · intro y hy
            exact List.find?_eq_none.1 h y (Multiset.mem_coe.1 hy)
          · rw [hours, List.append_assoc, List.singleton_append]
      | some partner =>
          have hstep : matcher.crossToolStep s finding
              = { s with
                  shared := s.shared ++ [finding]
                  remaining := s.remaining.erase partner } := by
            simp only [crossToolStep, h]
          rw [hstep] at hgreedy hshared hours hsub ⊢
          refine ⟨(finding, partner) :: pairs, rest, .take ?_ (List.find?_some h) ?_, ?_, hours,
            hsub.trans List.erase_sublist⟩
          · exact Multiset.mem_coe.2 (List.mem_of_find?_eq_some h)
          · rw [Multiset.coe_erase]
            exact hgreedy
          · rw [hshared, List.append_assoc, List.map_cons, List.singleton_append]

/-- For every two lists, the comparison is a maximal partition: our list is split in order; the
other tool's list loses exactly one related finding per shared one; and nothing left on one side
is related to anything left on the other. -/
theorem matchCrossTool_partition (matcher : BenchmarkMatcher)
    (ours theirs : List BenchmarkFinding) :
    Interleaves (matcher.matchCrossTool ours theirs).shared
        (matcher.matchCrossTool ours theirs).oursOnly ours
      ∧ (∃ taken, List.Forall₂ (fun a b => matcher.same a b = true)
          (matcher.matchCrossTool ours theirs).shared taken
        ∧ (taken ++ (matcher.matchCrossTool ours theirs).remaining).Perm theirs)
      ∧ (matcher.matchCrossTool ours theirs).remaining.Sublist theirs
      ∧ ∀ a ∈ (matcher.matchCrossTool ours theirs).oursOnly,
        ∀ b ∈ (matcher.matchCrossTool ours theirs).remaining, matcher.same a b = false := by
  obtain ⟨pairs, rest, hgreedy, hshared, hours, hsub⟩ :=
    @greedy_crossTool matcher ours ⟨[], [], theirs⟩
  rw [List.nil_append] at hshared hours
  rw [matchCrossTool, hshared, hours]
  refine ⟨hgreedy.interleaves, ⟨pairs.map Prod.snd, ?_, ?_⟩, hsub, ?_⟩
  · rw [List.forall₂_map_left_iff, List.forall₂_map_right_iff, List.forall₂_same]
    exact hgreedy.related
  · rw [← Multiset.coe_eq_coe, ← Multiset.coe_add]
    exact hgreedy.items_eq.symm
  · intro a ha b hb
    simpa using hgreedy.maximal a ha b (Multiset.mem_coe.2 hb)

/-- `sorted` of a set of texts. -/
def sortedSet (texts : List String) : List String := texts.dedup.insertionSort (· ≤ ·)

lemma mem_sortedSet {texts : List String} {text : String} :
    text ∈ sortedSet texts ↔ text ∈ texts := by
  rw [sortedSet, List.mem_insertionSort, List.mem_dedup]

lemma sortedSet_eq_nil {texts : List String} : sortedSet texts = [] ↔ texts = [] := by
  simp only [List.eq_nil_iff_forall_not_mem, mem_sortedSet]

variable (matcher)

/-- The ids of the safe cases that some finding matches. -/
def safeIncorrect (findings : List BenchmarkFinding) (cases : List GroundTruthCase) :
    List String :=
  sortedSet ((cases.filter fun case =>
    !case.expectedVulnerable && findings.any fun f => matcher.matchesCase f case).map
      GroundTruthCase.caseId)

/-- The general path of `_build_comparison`. -/
def compare (ours theirs : List BenchmarkFinding) (cases : List GroundTruthCase) :
    BenchmarkComparison :=
  let matched := matcher.matchCrossTool ours theirs
  { sharedFindings := matched.shared
    oursOnly := matched.oursOnly
    semgrepOnly := matched.remaining
    sharedVulnerabilityTypes := sortedSet (matched.shared.map (·.vulnerabilityType))
    safeCasesDetectedIncorrectly := matcher.safeIncorrect (ours ++ theirs) cases }

/-- `_build_comparison`. -/
def buildComparison (ours theirs : List BenchmarkFinding) (cases : List GroundTruthCase) :
    BenchmarkComparison :=
  if theirs = [] then
    { sharedFindings := []
      oursOnly := ours
      semgrepOnly := []
      sharedVulnerabilityTypes := sortedSet (ours.map (·.vulnerabilityType))
      safeCasesDetectedIncorrectly := [] }
  else matcher.compare ours theirs cases

variable {matcher}

/-- Against an empty list every finding of ours is set aside. -/
lemma foldl_crossToolStep_nil (ours : List BenchmarkFinding) (s : CrossTool)
    (h : s.remaining = []) :
    ours.foldl matcher.crossToolStep s = { s with oursOnly := s.oursOnly ++ ours } := by
  induction ours generalizing s with
  | nil => simp
  | cons finding ours ih =>
      have hstep : matcher.crossToolStep s finding
          = { s with oursOnly := s.oursOnly ++ [finding] } := by
        simp only [crossToolStep, h, List.find?_nil]
      rw [List.foldl_cons, hstep, ih { s with oursOnly := s.oursOnly ++ [finding] } h,
        List.append_assoc, List.singleton_append]

/-- Nothing is shared with an empty list. -/
lemma matchCrossTool_nil (ours : List BenchmarkFinding) :
    matcher.matchCrossTool ours [] = ⟨[], ours, []⟩ := by
  rw [matchCrossTool, foldl_crossToolStep_nil ours _ rfl, List.nil_append]

/-- The early return agrees with the general path exactly when our list is empty; on the safe
cases, exactly when none of our findings matches one. -/
theorem buildComparison_nil_iff (matcher : BenchmarkMatcher) (ours : List BenchmarkFinding)
    (cases : List GroundTruthCase) :
    (matcher.buildComparison ours [] cases = matcher.compare ours [] cases ↔ ours = [])
      ∧ ((matcher.buildComparison ours [] cases).safeCasesDetectedIncorrectly
          = (matcher.compare ours [] cases).safeCasesDetectedIncorrectly
        ↔ ∀ case ∈ cases, case.expectedVulnerable = false →
          ∀ f ∈ ours, matcher.matchesCase f case = false) := by
  have hgeneral : matcher.compare ours [] cases
      = { sharedFindings := []
          oursOnly := ours
          semgrepOnly := []
          sharedVulnerabilityTypes := []
          safeCasesDetectedIncorrectly := matcher.safeIncorrect ours cases } := by
    rw [compare, matchCrossTool_nil, List.append_nil]
    rfl
  rw [hgeneral, buildComparison, if_pos rfl]
  constructor
  · constructor
    · intro h
      have htypes := congrArg BenchmarkComparison.sharedVulnerabilityTypes h
      simpa [sortedSet_eq_nil] using htypes
    · rintro rfl
      simp [safeIncorrect, sortedSet]
  · rw [eq_comm, safeIncorrect, sortedSet_eq_nil]
    simp

/-- Our scanner flags the constant command of the fixture and the other tool finds nothing. -/
theorem not_buildComparison_safe_case :
    ({} : BenchmarkMatcher).buildComparison [reportedAt "command_injection" 51] []
        (fixtureGroundTruth "vulnerable_python_app")
      ≠ ({} : BenchmarkMatcher).compare [reportedAt "command_injection" 51] []
        (fixtureGroundTruth "vulnerable_python_app")
    ∧ (({} : BenchmarkMatcher).compare [reportedAt "command_injection" 51] []
        (fixtureGroundTruth "vulnerable_python_app")).safeCasesDetectedIncorrectly
      = ["cmd-app-run-command-safe"]
    ∧ (({} : BenchmarkMatcher).buildComparison [reportedAt "command_injection" 51] []
        (fixtureGroundTruth "vulnerable_python_app")).safeCasesDetectedIncorrectly = [] := by
  decide +kernel

end BenchmarkMatcher

end Sast
