import SastEngine.Benchmark.Accounting

/-!
# The order of the report

Matching is greedy, so the order in which a tool reports its findings can cost true positives: an
early finding may take the only case of a later one.  In every order at least half of the best
possible score is reached.  The score is the best possible one, in every order, where findings
that share a vulnerable case match the same vulnerable cases.
-/

namespace Sast

open BenchmarkMatcher

variable {F : Type}

/-- The sizes of the matchings between findings and ids of vulnerable cases. -/
def matchingSizes (matcher : BenchmarkMatcher) (findings : List BenchmarkFinding)
    (cases : List GroundTruthCase) : Set ℕ :=
  {n | ∃ m, Matching (MatchesId matcher cases) findings (vulnerableIds cases) m ∧ m.card = n}

/-- The metrics are the same in every order of the findings, and the true positives are the size
of a maximum matching. -/
structure OrderFree (float : FloatOps F) (truth : GroundTruth) (tool : String)
    (findings : List BenchmarkFinding) (fixture : String) (matcher : BenchmarkMatcher) : Prop where
  metrics : ∀ findings' : List BenchmarkFinding, findings'.Perm findings →
    computeMetrics float truth tool findings' fixture matcher
      = computeMetrics float truth tool findings fixture matcher
  maximum : IsGreatest (matchingSizes matcher findings (truth fixture))
    (matcher.classify findings (truth fixture)).matchedCaseIds.length

variable {matcher : BenchmarkMatcher}

/-- The matched ids are those of a matching at least half as large as any other. -/
lemma length_matched_mem (findings : List BenchmarkFinding) (cases : List GroundTruthCase) :
    (matcher.classify findings cases).matchedCaseIds.length
        ∈ matchingSizes matcher findings cases
      ∧ ∀ n ∈ matchingSizes matcher findings cases,
        n ≤ 2 * (matcher.classify findings cases).matchedCaseIds.length := by
  obtain ⟨pairs, left, hgreedy, hmatched⟩ := @greedy_classify matcher findings cases
  rw [hmatched, List.length_map]
  refine ⟨⟨pairs, hgreedy.matching, Multiset.coe_card _⟩, ?_⟩
  rintro n ⟨m, hm, rfl⟩
  exact hgreedy.card_le_two_mul hm

lemma matchingSizes_of_perm {findings findings' : List BenchmarkFinding}
    (h : findings'.Perm findings) (cases : List GroundTruthCase) :
    matchingSizes matcher findings' cases = matchingSizes matcher findings cases := by
  rw [matchingSizes, Multiset.coe_eq_coe.2 h, matchingSizes]

/-- The metrics are determined by the number of findings and the number of matched ids. -/
lemma computeMetrics_congr (float : FloatOps F) (truth : GroundTruth) (tool : String)
    (fixture : String) {findings findings' : List BenchmarkFinding}
    (hlen : findings'.length = findings.length)
    (hmatched : (matcher.classify findings' (truth fixture)).matchedCaseIds.length
      = (matcher.classify findings (truth fixture)).matchedCaseIds.length) :
    computeMetrics float truth tool findings' fixture matcher
      = computeMetrics float truth tool findings fixture matcher := by
  have htotal := (@accounted_classify matcher findings (truth fixture)).total
  have htotal' := (@accounted_classify matcher findings' (truth fixture)).total
  have hfps : (matcher.classify findings' (truth fixture)).falsePositives.length
      = (matcher.classify findings (truth fixture)).falsePositives.length := by omega
  simp only [computeMetrics, classify_vulnerable_safe, hmatched, hfps, hlen]

/-- In every order of the findings, the true positives are the size of a matching at least half
as large as the largest; and they, like all metrics, are the same in every order, that of a
maximum matching, where findings that share a vulnerable case match the same vulnerable cases. -/
theorem computeMetrics_order (float : FloatOps F) (truth : GroundTruth) (tool : String)
    (findings : List BenchmarkFinding) (fixture : String) (matcher : BenchmarkMatcher) :
    (∀ findings' : List BenchmarkFinding, findings'.Perm findings →
      (matcher.classify findings' (truth fixture)).matchedCaseIds.length
          ∈ matchingSizes matcher findings (truth fixture)
        ∧ ∀ n ∈ matchingSizes matcher findings (truth fixture),
          n ≤ 2 * (matcher.classify findings' (truth fixture)).matchedCaseIds.length)
    ∧ (Difunctional (MatchesId matcher (truth fixture)) findings (vulnerableIds (truth fixture)) →
      OrderFree float truth tool findings fixture matcher) := by
  constructor
  · intro findings' hperm
    rw [← matchingSizes_of_perm hperm]
    exact length_matched_mem findings' (truth fixture)
  · intro hR
    obtain ⟨pairs, left, hgreedy, hmatched⟩ :=
      @greedy_classify matcher findings (truth fixture)
    constructor
    case metrics =>
      intro findings' hperm
      obtain ⟨pairs', left', hgreedy', hmatched'⟩ :=
        @greedy_classify matcher findings' (truth fixture)
      refine computeMetrics_congr float truth tool fixture hperm.length_eq ?_
      rw [hmatched, hmatched', List.length_map, List.length_map]
      exact hgreedy.length_eq_of_perm hgreedy' hperm hR
    case maximum =>
      refine ⟨(length_matched_mem findings (truth fixture)).1, ?_⟩
      rintro n ⟨m, hm, rfl⟩
      rw [hmatched, List.length_map]
      exact hgreedy.card_le hR hm

/-! ## Two findings and two cases -/

/-- Exact arithmetic. -/
def exactOps : FloatOps ℚ where
  ofInt n := n
  divideInts n d := (n : ℚ) / d
  divide x y := x / y
  multiply x y := x * y
  add x y := x + y
  round4 x := (round (x * 10000) : ℚ) / 10000
  isZero x := x = 0
  isPositive x := 0 < x

/-- Two vulnerable cases four lines apart. -/
def adjacentTruth : GroundTruth := fun _ =>
  [ ⟨"first", "app.py", "first", "sql_injection", true, 10, 10⟩,
    ⟨"second", "app.py", "second", "sql_injection", true, 14, 14⟩ ]

instance (matcher : BenchmarkMatcher) (cases : List GroundTruthCase)
    (finding : BenchmarkFinding) (id : String) : Decidable (MatchesId matcher cases finding id) :=
  inferInstanceAs (Decidable (∃ c ∈ cases, c.expectedVulnerable = true ∧ c.caseId = id
    ∧ matcher.matchesCase finding c = true))

/-- The finding between the two cases takes the first one when it is reported first, and the
other finding goes without. -/
theorem not_orderFree_adjacent : ¬ OrderFree exactOps adjacentTruth "our-sast"
    [reportedAt "sql_injection" 12, reportedAt "sql_injection" 8] "fixture" {} := by
  intro h
  have hmetrics := h.metrics [reportedAt "sql_injection" 8, reportedAt "sql_injection" 12]
    (List.Perm.swap _ _ _)
  have htwo : (computeMetrics exactOps adjacentTruth "our-sast"
      [reportedAt "sql_injection" 8, reportedAt "sql_injection" 12] "fixture" {}).truePositives
      = 2 := by decide +kernel
  have hone : (computeMetrics exactOps adjacentTruth "our-sast"
      [reportedAt "sql_injection" 12, reportedAt "sql_injection" 8] "fixture" {}).truePositives
      = 1 := by decide +kernel
  rw [hmetrics, hone] at htwo
  exact absurd htwo (by decide)

/-- Two findings of the fixture that match different cases. -/
theorem computeMetrics_order_fixture : OrderFree exactOps fixtureGroundTruth "our-sast"
    [reportedAt "sql_injection" 12, reportedAt "command_injection" 33] "vulnerable_python_app" {} :=
  (computeMetrics_order exactOps fixtureGroundTruth "our-sast"
    [reportedAt "sql_injection" 12, reportedAt "command_injection" 33] "vulnerable_python_app"
    {}).2 (by decide +kernel)

end Sast
