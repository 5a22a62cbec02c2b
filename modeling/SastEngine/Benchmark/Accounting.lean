import SastEngine.Benchmark.Matcher
import SastEngine.Lib.Matching
import Mathlib.Data.List.Dedup
import Mathlib.Data.List.NodupEquivFin
import Mathlib.Data.Rat.Floor
import Mathlib.Order.Bounds.Basic

/-!
# Accounting against the ground truth

`classify` is a greedy matching of findings with the ids of the vulnerable cases.  Hence its
counts balance for every list of findings and every ground truth, and its score is the best
possible where findings that share a vulnerable case match the same vulnerable cases.
-/

namespace Sast

namespace BenchmarkMatcher

variable (matcher : BenchmarkMatcher) (vulnerable safe : List GroundTruthCase)

/-- The finding matches a vulnerable case with this id. -/
def Hits (finding : BenchmarkFinding) (id : String) : Prop :=
  ∃ c ∈ vulnerable, c.caseId = id ∧ matcher.matchesCase finding c = true

/-- The ids of the vulnerable cases that are not consumed. -/
def freeIds (consumed : List String) : List String :=
  (vulnerable.map GroundTruthCase.caseId).dedup.filter (· ∉ consumed)

variable {matcher vulnerable safe}

lemma mem_freeIds {consumed : List String} {id : String} :
    id ∈ freeIds vulnerable consumed ↔ (∃ c ∈ vulnerable, c.caseId = id) ∧ id ∉ consumed := by
  simp [freeIds]

lemma erase_freeIds (consumed : List String) (id : String) :
    (freeIds vulnerable consumed).erase id = freeIds vulnerable (id :: consumed) := by
  rw [freeIds, (List.Nodup.filter _ (List.nodup_dedup _)).erase_eq_filter, List.filter_filter,
    freeIds]
  refine List.filter_congr fun x _ => ?_
  by_cases h : x = id <;> simp [h]

lemma firstHit_eq_some {cases : List GroundTruthCase} {consumed : List String}
    {finding : BenchmarkFinding} {c : GroundTruthCase}
    (h : matcher.firstHit cases consumed finding = some c) :
    c ∈ cases ∧ c.caseId ∉ consumed ∧ matcher.matchesCase finding c = true := by
  refine ⟨List.mem_of_find?_eq_some h, ?_⟩
  simpa using List.find?_some h

lemma firstHit_eq_none {cases : List GroundTruthCase} {consumed : List String}
    {finding : BenchmarkFinding} (h : matcher.firstHit cases consumed finding = none)
    {c : GroundTruthCase} (hc : c ∈ cases) (hfree : c.caseId ∉ consumed) :
    matcher.matchesCase finding c = false := by
  simpa [hfree] using List.find?_eq_none.1 h c hc

/-- A finding that hits no free vulnerable case becomes a false positive. -/
lemma classifyStep_of_none {s : Classification} {finding : BenchmarkFinding}
    (h : matcher.firstHit vulnerable s.consumedVulnerable finding = none) :
    (matcher.classifyStep vulnerable safe s finding).consumedVulnerable = s.consumedVulnerable
      ∧ (matcher.classifyStep vulnerable safe s finding).matchedCaseIds = s.matchedCaseIds
      ∧ (matcher.classifyStep vulnerable safe s finding).falsePositives
        = s.falsePositives ++ [finding] := by
  simp only [classifyStep, h]
  cases matcher.firstHit safe s.consumedSafe finding <;> exact ⟨rfl, rfl, rfl⟩

/-- The loop of `classify` adds a greedy matching to its accumulators. -/
theorem greedy_foldl (findings : List BenchmarkFinding) (s : Classification) :
    ∃ pairs rest left,
      Greedy (matcher.Hits vulnerable) findings (freeIds vulnerable s.consumedVulnerable)
        pairs rest left
      ∧ (findings.foldl (matcher.classifyStep vulnerable safe) s).matchedCaseIds
        = s.matchedCaseIds ++ pairs.map Prod.snd
      ∧ (findings.foldl (matcher.classifyStep vulnerable safe) s).falsePositives
        = s.falsePositives ++ rest := by
  induction findings generalizing s with
  | nil => exact ⟨[], [], _, .nil _, by simp, by simp⟩
  | cons finding findings ih =>
      rw [List.foldl_cons]
      cases h : matcher.firstHit vulnerable s.consumedVulnerable finding with
      | some c =>
          obtain ⟨hc, hfree, hmatch⟩ := firstHit_eq_some h
          obtain ⟨pairs, rest, left, hgreedy, hmatched, hfps⟩ :=
            ih (matcher.classifyStep vulnerable safe s finding)
          have hstep : matcher.classifyStep vulnerable safe s finding
              = { s with
                  consumedVulnerable := c.caseId :: s.consumedVulnerable
                  matchedCaseIds := s.matchedCaseIds ++ [c.caseId] } := by
            simp only [classifyStep, h]
          refine ⟨(finding, c.caseId) :: pairs, rest, left, .take ?_ ⟨c, hc, rfl, hmatch⟩ ?_, ?_, ?_⟩
          · exact Multiset.mem_coe.2 (mem_freeIds.2 ⟨⟨c, hc, rfl⟩, hfree⟩)
          · rw [Multiset.coe_erase, erase_freeIds]
            simpa [hstep] using hgreedy
          · rw [hmatched, hstep]
            simp
          · rw [hfps, hstep]
      | none =>
          obtain ⟨hconsumed, hids, hfp⟩ := @classifyStep_of_none matcher vulnerable safe s finding h
          obtain ⟨pairs, rest, left, hgreedy, hmatched, hfps⟩ :=
            ih (matcher.classifyStep vulnerable safe s finding)
          rw [hconsumed] at hgreedy
          refine ⟨pairs, finding :: rest, left, .skip ?_ hgreedy, by rw [hmatched, hids], ?_⟩
          · rintro id hid ⟨c, hc, rfl, hmatch⟩
            have hfree := (mem_freeIds.1 (Multiset.mem_coe.1 hid)).2
            rw [firstHit_eq_none h hc hfree] at hmatch
            exact Bool.false_ne_true hmatch
          · rw [hfps, hfp, List.append_assoc, List.singleton_append]

end BenchmarkMatcher

open BenchmarkMatcher

variable {matcher : BenchmarkMatcher}

/-- The vulnerable cases of a list. -/
def onlyVulnerable (cases : List GroundTruthCase) : List GroundTruthCase :=
  cases.filter (·.expectedVulnerable)

/-- The ids of the vulnerable cases of a list. -/
def vulnerableIds (cases : List GroundTruthCase) : List String :=
  ((onlyVulnerable cases).map GroundTruthCase.caseId).dedup

/-- The finding matches a vulnerable case of the list with this id. -/
def MatchesId (matcher : BenchmarkMatcher) (cases : List GroundTruthCase)
    (finding : BenchmarkFinding) (id : String) : Prop :=
  ∃ c ∈ cases, c.expectedVulnerable = true ∧ c.caseId = id
    ∧ matcher.matchesCase finding c = true

lemma hits_onlyVulnerable (cases : List GroundTruthCase) (finding : BenchmarkFinding) (id : String) :
    matcher.Hits (onlyVulnerable cases) finding id ↔ MatchesId matcher cases finding id := by
  simp only [Hits, onlyVulnerable, List.mem_filter, MatchesId, and_assoc]

/-- `classify` is a greedy matching of the findings with the ids of the vulnerable cases. -/
theorem greedy_classify (findings : List BenchmarkFinding) (cases : List GroundTruthCase) :
    ∃ pairs left,
      Greedy (MatchesId matcher cases) findings (vulnerableIds cases) pairs
        (matcher.classify findings cases).falsePositives left
      ∧ (matcher.classify findings cases).matchedCaseIds = pairs.map Prod.snd := by
  obtain ⟨pairs, rest, left, hgreedy, hmatched, hfps⟩ :=
    @greedy_foldl matcher (onlyVulnerable cases) (cases.filter (!·.expectedVulnerable))
      findings ⟨[], [], [], []⟩
  have hR : matcher.Hits (onlyVulnerable cases) = MatchesId matcher cases := by
    funext finding id
    exact propext (hits_onlyVulnerable cases finding id)
  have hfree : freeIds (onlyVulnerable cases) [] = vulnerableIds cases := by
    simp [freeIds, vulnerableIds]
  have hrest : (matcher.classify findings cases).falsePositives = rest := by
    rw [classify]
    exact hfps.trans (List.nil_append _)
  rw [hR, hfree] at hgreedy
  refine ⟨pairs, left, by rw [hrest]; exact hgreedy, ?_⟩
  rw [classify]
  exact hmatched.trans (List.nil_append _)

/-- What a classification accounts for. -/
structure Accounted (matcher : BenchmarkMatcher) (findings : List BenchmarkFinding)
    (cases : List GroundTruthCase) (result : Classification) : Prop where
  total : result.matchedCaseIds.length + result.falsePositives.length = findings.length
  vulnerable : ∀ id ∈ result.matchedCaseIds, ∃ c ∈ cases,
    c.expectedVulnerable = true ∧ c.caseId = id
  once : result.matchedCaseIds.Nodup
  assigned : ∃ finder : Fin result.matchedCaseIds.length → Fin findings.length,
    Function.Injective finder
      ∧ ∀ i, MatchesId matcher cases (findings.get (finder i)) (result.matchedCaseIds.get i)
  onlySafe : ∀ finding,
    (∀ c ∈ cases, matcher.matchesCase finding c = true → c.expectedVulnerable = false) →
      result.falsePositives.count finding = findings.count finding

/-- The takers of a sublist have distinct positions. -/
lemma exists_injective_positions {α β : Type} {R : α → β → Prop} {pairs : List (α × β)}
    {xs : List α} (hsub : (pairs.map Prod.fst).Sublist xs) (hR : ∀ p ∈ pairs, R p.1 p.2)
    {ys : List β} (hys : ys = pairs.map Prod.snd) :
    ∃ g : Fin ys.length → Fin xs.length,
      Function.Injective g ∧ ∀ i, R (xs.get (g i)) (ys.get i) := by
  subst hys
  obtain ⟨f, hf⟩ := List.sublist_iff_exists_fin_orderEmbedding_get_eq.1 hsub
  have hlen : (pairs.map Prod.snd).length = (pairs.map Prod.fst).length := by simp
  refine ⟨fun i => f (Fin.cast hlen i), ?_, fun i => ?_⟩
  · exact f.injective.comp (Fin.cast_injective hlen)
  · have hi : i.1 < pairs.length := by simpa using i.2
    rw [← hf]
    simpa using hR pairs[i.1] (List.getElem_mem hi)

lemma nodup_vulnerableIds (cases : List GroundTruthCase) : (vulnerableIds cases).Nodup :=
  List.nodup_dedup _

theorem accounted_classify (findings : List BenchmarkFinding) (cases : List GroundTruthCase) :
    Accounted matcher findings cases (matcher.classify findings cases) := by
  obtain ⟨pairs, left, hgreedy, hmatched⟩ := @greedy_classify matcher findings cases
  have hrelated := hgreedy.related
  have hinter := hgreedy.interleaves
  constructor
  case total =>
    rw [hmatched, ← hinter.length, List.length_map, List.length_map]
  case vulnerable =>
    intro id hid
    rw [hmatched] at hid
    obtain ⟨p, hp, rfl⟩ := List.mem_map.1 hid
    obtain ⟨c, hc, hvuln, hcid, -⟩ := hrelated p hp
    exact ⟨c, hc, hvuln, hcid⟩
  case once =>
    have hle := hgreedy.matching.items
    rw [Multiset.map_coe, Multiset.coe_le] at hle
    rw [hmatched]
    obtain ⟨l, hperm, hsub⟩ := hle
    exact hperm.nodup_iff.1 ((nodup_vulnerableIds cases).sublist hsub)
  case assigned => exact exists_injective_positions hinter.sublist_left hrelated hmatched
  case onlySafe =>
    intro finding hsafe
    rw [← hinter.perm.count_eq, List.count_append]
    have hnone : finding ∉ pairs.map Prod.fst := by
      intro hmem
      obtain ⟨p, hp, rfl⟩ := List.mem_map.1 hmem
      obtain ⟨c, hc, hvuln, -, hmatch⟩ := hrelated p hp
      rw [hsafe c hc hmatch] at hvuln
      exact Bool.false_ne_true hvuln
    rw [List.count_eq_zero_of_not_mem hnone, Nat.zero_add]

/-! ## The metrics of a fixture -/

lemma vulnerableCases_eq (truth : GroundTruth) (fixture : String) :
    vulnerableCases truth fixture = onlyVulnerable (truth fixture) := rfl

/-- Listing the vulnerable cases before the safe ones changes neither of the two. -/
lemma classify_vulnerable_safe (findings : List BenchmarkFinding) (truth : GroundTruth)
    (fixture : String) :
    matcher.classify findings (vulnerableCases truth fixture ++ safeCases truth fixture)
      = matcher.classify findings (truth fixture) := by
  have hvuln : (vulnerableCases truth fixture ++ safeCases truth fixture).filter
      (·.expectedVulnerable) = (truth fixture).filter (·.expectedVulnerable) := by
    simp [vulnerableCases, safeCases, List.filter_filter]
  have hsafe : (vulnerableCases truth fixture ++ safeCases truth fixture).filter
      (!·.expectedVulnerable) = (truth fixture).filter (!·.expectedVulnerable) := by
    simp [vulnerableCases, safeCases, List.filter_filter]
  simp only [classify, hvuln, hsafe]

/-- No more ids are matched than there are vulnerable cases. -/
lemma length_matched_le (findings : List BenchmarkFinding) (cases : List GroundTruthCase) :
    (matcher.classify findings cases).matchedCaseIds.length ≤ (onlyVulnerable cases).length := by
  obtain ⟨pairs, left, hgreedy, hmatched⟩ := @greedy_classify matcher findings cases
  have hle := Multiset.card_le_card hgreedy.matching.items
  have hdedup := ((onlyVulnerable cases).map GroundTruthCase.caseId).dedup_sublist.length_le
  rw [hmatched]
  simp only [Multiset.card_map, Multiset.coe_card, vulnerableIds, List.length_map] at hle hdedup ⊢
  exact hle.trans hdedup

section Metrics

variable {F : Type} (float : FloatOps F) (tool : String) (findings : List BenchmarkFinding)
  (truth : GroundTruth) (fixture : String)

/-- The counts of the metrics are those of the classification, and they balance. -/
structure Balanced (matcher : BenchmarkMatcher) (findings : List BenchmarkFinding)
    (cases : List GroundTruthCase) (metrics : BenchmarkMetrics F) : Prop where
  matched : metrics.truePositives = (matcher.classify findings cases).matchedCaseIds.length
  reported : metrics.falsePositives = (matcher.classify findings cases).falsePositives.length
  found : metrics.truePositives + metrics.falsePositives = findings.length
  expected : metrics.truePositives + metrics.falseNegatives = (onlyVulnerable cases).length
  missed : 0 ≤ metrics.falseNegatives

/-- For every list of findings and every ground truth, the accounting is exact. -/
theorem computeMetrics_accounts :
    Accounted matcher findings (truth fixture) (matcher.classify findings (truth fixture))
      ∧ Balanced matcher findings (truth fixture)
        (computeMetrics float truth tool findings fixture matcher) := by
  have haccounted := @accounted_classify matcher findings (truth fixture)
  have hle := @length_matched_le matcher findings (truth fixture)
  have htotal := haccounted.total
  refine ⟨haccounted, ?_⟩
  constructor
  case matched => simp only [computeMetrics, classify_vulnerable_safe]
  case reported => simp only [computeMetrics, classify_vulnerable_safe]
  case found =>
    simp only [computeMetrics, classify_vulnerable_safe]
    omega
  case expected =>
    simp only [computeMetrics, classify_vulnerable_safe]
    rw [vulnerableCases_eq]
    omega
  case missed =>
    simp only [computeMetrics, classify_vulnerable_safe]
    rw [vulnerableCases_eq]
    omega

end Metrics

end Sast
