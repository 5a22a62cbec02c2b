import SastEngine.Lib.Pass
import SastEngine.Scan.Paths

/-!
# Where taint comes from

The engine keeps one provenance for each variable.  Here the walk is repeated over the origins of
values, parameters and source expressions, twice: with the origins the engine keeps where it has to
choose between two, and with all of them.  The steps and the kind that the engine records are
those of the origins it keeps (`spec_tracedFlow`), for every finding of a file
(`findings_fileTraces`).
-/

namespace Sast

variable (ctx : FileContext)

/-! ## Origins -/

/-- Where the taint of a value begins: at a parameter, with the step recorded for it, or at an
expression that is a source. -/
inductive Origin where
  | param (name : String) (step : TaintStep)
  | source (expr : Expr) (ref : SourceRef)

/-- The step that the engine records for an origin. -/
def Origin.step : Origin → TaintStep
  | .param _ step => step
  | .source expr ref =>
      { stepType := .source, file := ctx.file, line := expr.loc.lineno, snippet := ref.snippet }

/-- The kind of an origin. -/
def Origin.kind : Origin → String
  | .param _ _ => "function_param"
  | .source _ ref => ref.kind

/-- The origin is a request object. -/
def Origin.isRequest (origin : Origin) : Bool := startswith "request" origin.kind

/-- The origins of each variable; none for one that is not tainted. -/
abbrev OriginMap := String → List Origin

/-- What an expression takes its taint from, in the order in which its parts are merged. -/
inductive Atom where
  | var (name : String)
  | source (expr : Expr) (ref : SourceRef)

/-- An expression that is a source is one itself; otherwise its parts count. -/
def sourceOr (expr : Expr) (parts : List Atom) : List Atom :=
  match ctx.rule.isSource expr ctx.file ctx.source with
  | some ref => [.source expr ref]
  | none => parts

mutual

/-- The atoms of an expression. -/
def atoms : Expr → List Atom
  | .name _ id _ => [.var id]
  | .joinedStr _ values => partAtoms values
  | .binOp _ left op right => if op = .add ∨ op = .mod then atoms left ++ atoms right else []
  | .call loc func args keywords =>
      sourceOr ctx (.call loc func args keywords)
        (match func, args with
          | .name _ id _, arg :: _ =>
              if id = "str" ∨ id = "repr" ∨ id = "bytes" then atoms arg else []
          | .attribute _ value attr _, args =>
              if attr = "format" then atoms value ++ listAtoms args else []
          | _, _ => [])
  | .attribute loc value attr c => sourceOr ctx (.attribute loc value attr c) (atoms value)
  | .subscript loc value slice c => sourceOr ctx (.subscript loc value slice c) (atoms value)
  | .list _ elts _ | .tuple _ elts _ | .set _ elts => listAtoms elts
  | .dict _ keys values => optAtoms keys ++ listAtoms values
  | .ifExp _ test body orelse => atoms test ++ atoms body ++ atoms orelse
  | _ => []

def listAtoms : List Expr → List Atom
  | [] => []
  | e :: es => atoms e ++ listAtoms es

def optAtoms : List (Option Expr) → List Atom
  | [] => []
  | none :: es => optAtoms es
  | some e :: es => atoms e ++ optAtoms es

def partAtoms : List Expr → List Atom
  | [] => []
  | .formattedValue _ value _ _ :: es => atoms value ++ partAtoms es
  | _ :: es => partAtoms es

end

/-- The origins of an atom. -/
def OriginMap.ofAtom (origins : OriginMap) : Atom → List Origin
  | .var name => origins name
  | .source expr ref => [.source expr ref]

/-- The origins of an expression. -/
def OriginMap.of (origins : OriginMap) (expr : Expr) : List Origin :=
  (atoms ctx expr).flatMap origins.ofAtom

/-! ## Steps and kinds -/

/-- The kind that is shown for several origins: that of the first request object, or else of the
first one. -/
def preferredKind (origins : List Origin) : String :=
  match origins.find? Origin.isRequest with
  | some origin => origin.kind
  | none => (origins.head?.map Origin.kind).getD ""

/-- A recorded taint has these origins: it begins at the first one, its source steps are theirs,
and its kind is the preferred one. -/
structure DerivesFrom (taint : Taint) (origins : List Origin) : Prop where
  first : ∃ origin rest steps, origins = origin :: rest ∧ taint.steps = origin.step ctx :: steps
  kind : taint.sourceKind = preferredKind origins
  steps : ∀ step, step.stepType = .source →
    (step ∈ taint.steps ↔ ∃ origin ∈ origins, origin.step ctx = step)

/-- A tainted value has these origins; an untainted one has none. -/
def Tracks : Option Taint → List Origin → Prop
  | none, origins => origins = []
  | some taint, origins => DerivesFrom ctx taint origins

/-- Several tainted parts have these origins, part by part. -/
def TracksAll (parts : List Taint) (origins : List Origin) : Prop :=
  ∃ groups, List.Forall₂ (DerivesFrom ctx) parts groups ∧ groups.flatten = origins

variable {ctx}

lemma DerivesFrom.ne_nil {taint : Taint} {origins : List Origin}
    (h : DerivesFrom ctx taint origins) : origins ≠ [] := by
  obtain ⟨origin, rest, steps, rfl, -⟩ := h.first
  simp

/-- A step that is no source changes neither origin nor kind. -/
lemma DerivesFrom.push {taint : Taint} {origins : List Origin} (h : DerivesFrom ctx taint origins)
    {step : TaintStep} (hstep : step.stepType ≠ .source) :
    DerivesFrom ctx { steps := taint.steps ++ [step], sourceKind := taint.sourceKind } origins := by
  obtain ⟨origin, rest, steps, horigins, hsteps⟩ := h.first
  refine ⟨⟨origin, rest, steps ++ [step], horigins, by simp [hsteps]⟩, h.kind, ?_⟩
  intro s hs
  have hne : s ≠ step := by
    rintro rfl
    exact hstep hs
  rw [List.mem_append, List.mem_singleton, or_iff_left hne]
  exact h.steps s hs

lemma Tracks.push {taint : Option Taint} {origins : List Origin} (h : Tracks ctx taint origins)
    {step : TaintStep} (hstep : step.stepType ≠ .source) :
    Tracks ctx (taint.map fun t => t.push step) origins := by
  cases taint with
  | none => exact h
  | some t => exact DerivesFrom.push h hstep

lemma tracksAll_nil : TracksAll ctx [] [] := ⟨[], .nil, rfl⟩

lemma TracksAll.append {xs ys : List Taint} {os ps : List Origin} (hx : TracksAll ctx xs os)
    (hy : TracksAll ctx ys ps) : TracksAll ctx (xs ++ ys) (os ++ ps) := by
  obtain ⟨gs, hgs, rfl⟩ := hx
  obtain ⟨hs, hhs, rfl⟩ := hy
  exact ⟨gs ++ hs, List.rel_append hgs hhs, List.flatten_append⟩

lemma Tracks.toList {taint : Option Taint} {origins : List Origin} (h : Tracks ctx taint origins) :
    TracksAll ctx taint.toList origins := by
  cases taint with
  | none => exact ⟨[], .nil, h.symm⟩
  | some t => exact ⟨[origins], .cons h .nil, by simp⟩

/-! ## Merging -/

lemma mem_foldl_dedup (steps : List TaintStep) :
    ∀ (acc : List TaintStep) (step : TaintStep),
      step ∈ steps.foldl (fun acc s => if s ∈ acc then acc else acc ++ [s]) acc
        ↔ step ∈ acc ∨ step ∈ steps := by
  induction steps with
  | nil => simp
  | cons s steps ih =>
      intro acc step
      rw [List.foldl_cons, ih, List.mem_cons]
      split_ifs with h
      · constructor
        · rintro (hacc | hsteps)
          · exact Or.inl hacc
          · exact Or.inr (Or.inr hsteps)
        · rintro (hacc | rfl | hsteps)
          · exact Or.inl hacc
          · exact Or.inl h
          · exact Or.inr hsteps
      · simp [or_assoc]

lemma head_foldl_dedup (steps : List TaintStep) :
    ∀ (acc : List TaintStep) (step : TaintStep), ∃ rest,
      steps.foldl (fun acc s => if s ∈ acc then acc else acc ++ [s]) (step :: acc)
        = step :: rest := by
  induction steps with
  | nil =>
      intro acc step
      exact ⟨acc, rfl⟩
  | cons s steps ih =>
      intro acc step
      rw [List.foldl_cons]
      split_ifs
      · exact ih acc step
      · exact ih (acc ++ [s]) step

lemma mem_mergeSteps {parts : List Taint} {step : TaintStep} :
    step ∈ mergeSteps parts ↔ ∃ part ∈ parts, step ∈ part.steps := by
  rw [mergeSteps, mem_foldl_dedup]
  simp

lemma head_mergeSteps {part : Taint} {parts : List Taint} {step : TaintStep}
    {steps : List TaintStep} (h : part.steps = step :: steps) :
    ∃ rest, mergeSteps (part :: parts) = step :: rest := by
  rw [mergeSteps, List.flatMap_cons, h, List.cons_append, List.foldl_cons]
  exact head_foldl_dedup _ [] step

lemma isRequest_preferredKind {origins : List Origin} :
    startswith "request" (preferredKind origins) → (∃ o ∈ origins, o.isRequest) := by
  unfold preferredKind
  cases hfind : origins.find? Origin.isRequest with
  | some o =>
      intro _
      exact ⟨o, List.mem_of_find?_eq_some hfind, List.find?_some hfind⟩
  | none =>
      cases origins with
      | nil =>
          intro h
          exact absurd h (by decide)
      | cons o os =>
          intro h
          exact ⟨o, List.mem_cons_self, h⟩

/-- The kind is that of a request object iff there is one. -/
lemma startswith_preferredKind {origins : List Origin} :
    startswith "request" (preferredKind origins) ↔ ∃ o ∈ origins, o.isRequest := by
  refine ⟨isRequest_preferredKind, ?_⟩
  rintro ⟨o, ho, hrequest⟩
  unfold preferredKind
  cases hfind : origins.find? Origin.isRequest with
  | some found =>
      have hfound : found.isRequest = true := List.find?_some hfind
      exact hfound
  | none => exact absurd hrequest (List.find?_eq_none.1 hfind o ho)

lemma preferredKind_of_find {origins : List Origin} {origin : Origin}
    (h : origins.find? Origin.isRequest = some origin) : preferredKind origins = origin.kind := by
  rw [preferredKind, h]

lemma preferredKind_of_none {origin : Origin} {rest : List Origin}
    (h : (origin :: rest).find? Origin.isRequest = none) :
    preferredKind (origin :: rest) = origin.kind := by
  rw [preferredKind, h]
  rfl

/-- The first part with the kind of a request object has the first origin that is one. -/
lemma find_parts {parts : List Taint} {groups : List (List Origin)}
    (h : List.Forall₂ (DerivesFrom ctx) parts groups) :
    (parts.find? fun p => startswith "request" p.sourceKind).map Taint.sourceKind
      = (groups.flatten.find? Origin.isRequest).map Origin.kind := by
  induction h with
  | nil => rfl
  | @cons part group parts groups hpart _ ih =>
      rw [List.flatten_cons, List.find?_append]
      cases hfind : group.find? Origin.isRequest with
      | some origin =>
          have hrequest : startswith "request" part.sourceKind = true := by
            rw [hpart.kind, startswith_preferredKind]
            exact ⟨origin, List.mem_of_find?_eq_some hfind, List.find?_some hfind⟩
          rw [List.find?_cons_of_pos (p := fun p : Taint => startswith "request" p.sourceKind)
            hrequest]
          simp [hpart.kind, preferredKind_of_find hfind]
      | none =>
          have hplain : ¬ startswith "request" part.sourceKind = true := by
            rw [hpart.kind, startswith_preferredKind]
            rintro ⟨origin, horigin, hrequest⟩
            exact List.find?_eq_none.1 hfind origin horigin hrequest
          rw [List.find?_cons_of_neg (p := fun p : Taint => startswith "request" p.sourceKind)
            hplain, ih, Option.none_or]

/-- The kind of merged parts is the preferred one of their origins. -/
lemma kindOf_eq {part : Taint} {parts : List Taint} {group : List Origin}
    {groups : List (List Origin)} (hpart : DerivesFrom ctx part group)
    (hparts : List.Forall₂ (DerivesFrom ctx) parts groups) :
    kindOf (part :: parts) = preferredKind (group :: groups).flatten := by
  have hfind := find_parts (List.Forall₂.cons hpart hparts)
  obtain ⟨origin, rest, steps, rfl, -⟩ := hpart.first
  cases horigins : ((origin :: rest) :: groups).flatten.find? Origin.isRequest with
  | some found =>
      rw [horigins, Option.map_some] at hfind
      obtain ⟨p, hp, hkind⟩ := Option.map_eq_some_iff.1 hfind
      rw [kindOf, hp, preferredKind_of_find horigins]
      exact hkind
  | none =>
      rw [horigins, Option.map_none, Option.map_eq_none_iff] at hfind
      have hplain : (origin :: rest).find? Origin.isRequest = none := by
        rw [List.find?_eq_none] at horigins ⊢
        intro o ho
        exact horigins o (List.mem_flatten.2 ⟨_, List.mem_cons_self, ho⟩)
      have hfirst : preferredKind (origin :: (rest ++ groups.flatten)) = origin.kind :=
        preferredKind_of_none horigins
      rw [kindOf, hfind, List.flatten_cons, List.cons_append, hfirst]
      show part.sourceKind = origin.kind
      rw [hpart.kind, preferredKind_of_none hplain]

/-- The source steps of the parts are the steps of their origins. -/
lemma mem_steps_iff {parts : List Taint} {groups : List (List Origin)}
    (h : List.Forall₂ (DerivesFrom ctx) parts groups) {step : TaintStep}
    (hstep : step.stepType = .source) :
    (∃ part ∈ parts, step ∈ part.steps) ↔ ∃ origin ∈ groups.flatten, origin.step ctx = step := by
  induction h with
  | nil => simp
  | @cons part group parts groups hpart _ ih =>
      simp only [List.exists_mem_cons_iff, ih, hpart.steps step hstep, List.flatten_cons,
        List.mem_append, or_and_right, exists_or]

/-- **Merged parts have the origins of the parts.** -/
lemma TracksAll.combine {parts : List Taint} {origins : List Origin}
    (h : TracksAll ctx parts origins) {step : TaintStep} (hstep : step.stepType ≠ .source) :
    Tracks ctx (combine parts step) origins := by
  obtain ⟨groups, hgroups, rfl⟩ := h
  cases hgroups with
  | nil => rfl
  | @cons part group parts groups hpart hparts =>
      have hall : List.Forall₂ (DerivesFrom ctx) (part :: parts) (group :: groups) :=
        .cons hpart hparts
      have hmerged : DerivesFrom ctx
          { steps := mergeSteps (part :: parts), sourceKind := kindOf (part :: parts) }
          (group :: groups).flatten := by
        obtain ⟨origin, rest, steps, rfl, hsteps⟩ := hpart.first
        obtain ⟨merged, hmerged⟩ : ∃ merged, mergeSteps (part :: parts)
            = origin.step ctx :: merged := head_mergeSteps hsteps
        refine ⟨⟨origin, rest ++ groups.flatten, merged, rfl, hmerged⟩,
          kindOf_eq hpart hparts, ?_⟩
        intro s hs
        rw [mem_mergeSteps]
        exact mem_steps_iff hall hs
      exact hmerged.push hstep

/-! ## The taint of an expression -/

/-- An expression that is a source is described by itself. -/
lemma tracks_source {expr : Expr} {ref : SourceRef}
    (h : ctx.rule.isSource expr ctx.file ctx.source = some ref) :
    Tracks ctx (sourceTaint ctx expr) [.source expr ref] := by
  simp only [sourceTaint, h, Option.map_some, Tracks]
  refine ⟨⟨.source expr ref, [], [], rfl, rfl⟩, ?_, ?_⟩
  · unfold preferredKind
    simp only [List.find?_singleton]
    split_ifs <;> rfl
  · intro step _
    simp [Origin.step, eq_comm]

/-- An expression that is a source or takes its taint from its parts. -/
lemma tracks_sourceOr {origins : OriginMap} {expr : Expr} {parts : Option Taint} {as : List Atom}
    (h : Tracks ctx parts (as.flatMap origins.ofAtom)) :
    Tracks ctx ((sourceTaint ctx expr).or parts)
      ((sourceOr ctx expr as).flatMap origins.ofAtom) := by
  unfold sourceOr
  cases hsource : ctx.rule.isSource expr ctx.file ctx.source with
  | none => simpa [sourceTaint, hsource] using h
  | some ref =>
      have htaint := tracks_source hsource
      cases hexpr : sourceTaint ctx expr with
      | none => simp [sourceTaint, hsource] at hexpr
      | some taint =>
          rw [hexpr] at htaint
          simpa [OriginMap.ofAtom] using htaint

lemma string_ne_source (loc : Loc) : (stringStep ctx loc).stepType ≠ .source := by
  simp [stringStep]

lemma propagation_ne_source (loc : Loc) : (propagationStep ctx loc).stepType ≠ .source := by
  simp [propagationStep]

/-- The provenances of a taint map are those of the origins. -/
def MapTracks (ctx : FileContext) (t : Taints) (origins : OriginMap) : Prop :=
  ∀ x, Tracks ctx (t.get? x) (origins x)

mutual

/-- **The taint of an expression has the origins of its atoms.** -/
theorem tracks_taintOf {t : Taints} {origins : OriginMap} (h : MapTracks ctx t origins) :
    ∀ e : Expr, Tracks ctx (taintOf ctx t e) (origins.of ctx e)
  | .name _ id _ => by
      simpa [taintOf, OriginMap.of, atoms, OriginMap.ofAtom] using h id
  | .joinedStr loc values => by
      rw [taintOf, OriginMap.of, atoms]
      exact (tracks_parts h values).combine (string_ne_source loc)
  | .binOp loc left op right => by
      rw [taintOf, OriginMap.of, atoms]
      split_ifs
      · rw [List.flatMap_append]
        exact ((tracks_taintOf h left).toList.append (tracks_taintOf h right).toList).combine
          (string_ne_source loc)
      · rfl
  | .call loc (.name nl id nc) [] keywords => by
      simp only [taintOf, OriginMap.of, atoms]
      exact tracks_sourceOr rfl
  | .call loc (.name nl id nc) (arg :: args) keywords => by
      rw [taintOf, OriginMap.of, atoms]
      refine tracks_sourceOr ?_
      split_ifs
      · exact (tracks_taintOf h arg).push (propagation_ne_source loc)
      · rfl
  | .call loc (.attribute al value attr ac) args keywords => by
      rw [taintOf, OriginMap.of, atoms]
      refine tracks_sourceOr ?_
      split_ifs
      · rw [List.flatMap_append]
        exact ((tracks_taintOf h value).toList.append (tracks_list h args)).combine
          (string_ne_source loc)
      · rfl
  | .call _ (.joinedStr ..) _ _ | .call _ (.binOp ..) _ _ | .call _ (.call ..) _ _
  | .call _ (.subscript ..) _ _ | .call _ (.list ..) _ _ | .call _ (.tuple ..) _ _
  | .call _ (.set ..) _ _ | .call _ (.dict ..) _ _ | .call _ (.ifExp ..) _ _
  | .call _ (.boolOp ..) _ _ | .call _ (.namedExpr ..) _ _ | .call _ (.unaryOp ..) _ _
  | .call _ (.lambda ..) _ _ | .call _ (.listComp ..) _ _ | .call _ (.setComp ..) _ _
  | .call _ (.dictComp ..) _ _ | .call _ (.generatorExp ..) _ _ | .call _ (.await ..) _ _
  | .call _ (.yield ..) _ _ | .call _ (.yieldFrom ..) _ _ | .call _ (.compare ..) _ _
  | .call _ (.formattedValue ..) _ _ | .call _ (.constant ..) _ _ | .call _ (.starred ..) _ _
  | .call _ (.slice ..) _ _ => by
      simp only [taintOf, OriginMap.of, atoms]
      exact tracks_sourceOr rfl
  | .attribute loc value attr c => by
      rw [taintOf, OriginMap.of, atoms]
      exact tracks_sourceOr ((tracks_taintOf h value).push (propagation_ne_source loc))
  | .subscript loc value slice c => by
      rw [taintOf, OriginMap.of, atoms]
      exact tracks_sourceOr ((tracks_taintOf h value).push (propagation_ne_source loc))
  | .list loc elts _ | .tuple loc elts _ | .set loc elts => by
      rw [taintOf, OriginMap.of, atoms]
      exact (tracks_list h elts).combine (propagation_ne_source loc)
  | .dict loc keys values => by
      rw [taintOf, OriginMap.of, atoms, List.flatMap_append]
      exact ((tracks_opts h keys).append (tracks_list h values)).combine
        (propagation_ne_source loc)
  | .ifExp loc test body orelse => by
      rw [taintOf, OriginMap.of, atoms, List.flatMap_append, List.flatMap_append]
      exact (((tracks_taintOf h test).toList.append (tracks_taintOf h body).toList).append
        (tracks_taintOf h orelse).toList).combine (propagation_ne_source loc)
  | .boolOp .. | .namedExpr .. | .unaryOp .. | .lambda .. | .listComp .. | .setComp ..
  | .dictComp .. | .generatorExp .. | .await .. | .yield .. | .yieldFrom .. | .compare ..
  | .formattedValue .. | .constant .. | .starred .. | .slice .. => rfl

lemma tracks_list {t : Taints} {origins : OriginMap} (h : MapTracks ctx t origins) :
    ∀ es : List Expr,
      TracksAll ctx (taintList ctx t es) ((listAtoms ctx es).flatMap origins.ofAtom)
  | [] => tracksAll_nil
  | e :: es => by
      rw [taintList, listAtoms, List.flatMap_append]
      exact (tracks_taintOf h e).toList.append (tracks_list h es)

lemma tracks_opts {t : Taints} {origins : OriginMap} (h : MapTracks ctx t origins) :
    ∀ es : List (Option Expr),
      TracksAll ctx (taintOpts ctx t es) ((optAtoms ctx es).flatMap origins.ofAtom)
  | [] => tracksAll_nil
  | none :: es => tracks_opts h es
  | some e :: es => by
      rw [taintOpts, optAtoms, List.flatMap_append]
      exact (tracks_taintOf h e).toList.append (tracks_opts h es)

lemma tracks_parts {t : Taints} {origins : OriginMap} (h : MapTracks ctx t origins) :
    ∀ es : List Expr,
      TracksAll ctx (taintParts ctx t es) ((partAtoms ctx es).flatMap origins.ofAtom)
  | [] => tracksAll_nil
  | .formattedValue _ value _ _ :: es => by
      rw [taintParts, partAtoms, List.flatMap_append]
      exact (tracks_taintOf h value).toList.append (tracks_parts h es)
  | .name .. :: es | .joinedStr .. :: es | .binOp .. :: es | .call .. :: es | .attribute .. :: es
  | .subscript .. :: es | .list .. :: es | .tuple .. :: es | .set .. :: es | .dict .. :: es
  | .ifExp .. :: es | .boolOp .. :: es | .namedExpr .. :: es | .unaryOp .. :: es
  | .lambda .. :: es | .listComp .. :: es | .setComp .. :: es | .dictComp .. :: es
  | .generatorExp .. :: es | .await .. :: es | .yield .. :: es | .yieldFrom .. :: es
  | .compare .. :: es | .constant .. :: es | .starred .. :: es | .slice .. :: es => by
      simp only [taintParts, partAtoms]
      exact tracks_parts h es

end

/-! ## Walks over origins -/

/-- The first of two lists, unless it is empty. -/
def firstOr (xs ys : List Origin) : List Origin := if xs.isEmpty then ys else xs

/-- Bind names to the origins of a value, if it has any. -/
def OriginMap.bind (origins : OriginMap) (names : List String) (value : List Origin) : OriginMap :=
  if value.isEmpty then origins else fun x => if x ∈ names then value else origins x

variable (ctx)

/-- The effect of an event on origins.  `both` combines the origins of the target of an augmented
assignment with those of its value. -/
def Event.transfer (both : List Origin → List Origin → List Origin) :
    Event → OriginMap → OriginMap
  | .eval _ _, origins => origins
  | .assign _ targets value, origins =>
      origins.bind (targetNames targets) (origins.of ctx value)
  | .augAssign _ target value, origins => fun x =>
      if x ∈ targetNames [target] then both (origins x) (origins.of ctx value) else origins x
  | .bind _ target iter, origins =>
      origins.bind (targetNames (forTargets target)) (origins.of ctx iter)

variable {ctx}

/-- How the engine merges taint maps: the later one overwrites the earlier one. -/
def updateMerge : Merge Taints where
  branches before left right := before.update (left.update right)
  skipped _ bound := bound
  partly := Dict.update
  fully := Dict.update

/-- The origins that are kept: those of the later map in which the variable is tainted. -/
def keptMerge : Merge OriginMap where
  branches before left right := fun x => firstOr (firstOr (right x) (left x)) (before x)
  skipped _ bound := bound
  partly before block := fun x => firstOr (block x) (before x)
  fully before block := fun x => firstOr (block x) (before x)

/-- All origins: those of both branches, those from before a loop that may find no item, and those
from before a block that may be left early.  A binding takes no origins away, so where it leaves
none there were none. -/
def carriedMerge : Merge OriginMap where
  branches before left right := fun x => firstOr (left x ++ right x) (before x)
  skipped before bound := fun x => if (bound x).isEmpty then [] else before x ++ bound x
  partly before block := fun x => before x ++ block x
  fully before block := fun x => firstOr (block x) (before x)

/-- The engine's map, the origins it keeps, and all origins that some branch carries. -/
structure TracedState where
  taints : Taints
  kept : OriginMap
  carried : OriginMap

/-- One event. -/
def Event.track (ctx : FileContext) (event : Event) (state : TracedState) : TracedState where
  taints := event.apply ctx state.taints
  kept := event.transfer ctx firstOr state.kept
  carried := event.transfer ctx (· ++ ·) state.carried

/-- One merge. -/
def trackedMerge : Merge TracedState where
  branches before left right :=
    ⟨updateMerge.branches before.taints left.taints right.taints,
      keptMerge.branches before.kept left.kept right.kept,
      carriedMerge.branches before.carried left.carried right.carried⟩
  skipped before bound :=
    ⟨updateMerge.skipped before.taints bound.taints,
      keptMerge.skipped before.kept bound.kept,
      carriedMerge.skipped before.carried bound.carried⟩
  partly before block :=
    ⟨updateMerge.partly before.taints block.taints, keptMerge.partly before.kept block.kept,
      carriedMerge.partly before.carried block.carried⟩
  fully before block :=
    ⟨updateMerge.fully before.taints block.taints, keptMerge.fully before.kept block.kept,
      carriedMerge.fully before.carried block.carried⟩

/-! ## The walk of the engine is a pass -/

/-- The flows at an event. -/
def visitFlows (ctx : FileContext) (v : Event × Taints) : List SinkFlow :=
  v.1.scanned.flatMap (exprFlows ctx v.2)

/-- A pass with the taint maps of the engine. -/
abbrev engineEnd (ctx : FileContext) (c : Cmd Event) (t : Taints) : Taints :=
  passEnd (Event.apply ctx) updateMerge c t

abbrev engineStates (ctx : FileContext) (c : Cmd Event) (t : Taints) : List (Event × Taints) :=
  passStates (Event.apply ctx) updateMerge c t

mutual

lemma applyStmt_eq : ∀ (s : Stmt) (t : Taints),
    (applyStmt ctx [] [] s t).2 = engineEnd ctx (stmtCmd s) t
  | .if_ _ test body orelse, t | .while_ _ test body orelse, t => by
      simp only [applyStmt, analyzeBlock_eq body t, analyzeBlock_eq orelse t]
      rfl
  | .for_ loc target iter body orelse, t => by
      simp only [applyStmt, analyzeBlock_eq body _, analyzeBlock_eq orelse _]
      rfl
  | .try_ _ body handlers orelse finalbody, t => by
      simp only [applyStmt, analyzeBlock_eq body _, analyzeBlock_eq orelse _,
        analyzeBlock_eq finalbody _, analyzeHandlers_eq handlers _]
      rfl
  | .with_ _ items body, t => by
      simp only [applyStmt, analyzeBlock_eq body t]
      rfl
  | .assign .., t | .annAssign _ _ _ (some _) _, t | .augAssign .., t
  | .return_ _ (some _), t | .return_ _ none, t | .annAssign _ _ _ none _, t | .expr .., t
  | .delete .., t | .raise .., t | .assert .., t | .functionDef .., t | .asyncFunctionDef .., t
  | .classDef .., t | .import_ .., t | .importFrom .., t | .global .., t | .nonlocal .., t
  | .pass _, t | .break_ _, t | .continue_ _, t | .asyncFor .., t | .asyncWith .., t
  | .match_ .., t | .tryStar .., t => rfl

/-- The map after a block is the end of the pass over its command. -/
lemma analyzeBlock_eq : ∀ (ss : List Stmt) (t : Taints),
    (analyzeBlock ctx [] [] ss t).2 = engineEnd ctx (blockCmd ss) t
  | [], t => rfl
  | s :: ss, t => by
      simp only [analyzeBlock, applyStmt_eq s t, analyzeBlock_eq ss _]
      rfl

lemma analyzeHandlers_eq : ∀ (hs : List ExceptHandler) (t : Taints),
    (analyzeHandlers ctx [] [] hs t).2 = engineEnd ctx (handlersCmd hs) t
  | [], t => rfl
  | .mk _ type _ body :: hs, t => by
      simp only [analyzeHandlers, analyzeBlock_eq body t, analyzeHandlers_eq hs _]
      rfl

end

@[simp] lemma visitFlows_eval (operands scanned : List Expr) (t : Taints) :
    visitFlows ctx (.eval operands scanned, t) = scanned.flatMap (exprFlows ctx t) := rfl

@[simp] lemma visitFlows_assign (loc : Loc) (targets : List Expr) (value : Expr) (t : Taints) :
    visitFlows ctx (.assign loc targets value, t) = [] := rfl

@[simp] lemma visitFlows_augAssign (loc : Loc) (target value : Expr) (t : Taints) :
    visitFlows ctx (.augAssign loc target value, t) = [] := rfl

@[simp] lemma visitFlows_bind (loc : Loc) (target iter : Expr) (t : Taints) :
    visitFlows ctx (.bind loc target iter, t) = [] := rfl

lemma flows_siteAt (operands scanned : List Expr) (t : Taints) :
    (siteAt true operands scanned t).flows ctx = scanned.flatMap (exprFlows ctx t) := rfl

/-- Code that the engine falls through on has no flows, and does nothing. -/
lemma flows_unseen_stmt (s : Stmt) (t : Taints) (hcmd : stmtCmd s = .skip) :
    (stmtSites ctx false s t).flatMap (Site.flows ctx)
      = (engineStates ctx (stmtCmd s) t).flatMap (visitFlows ctx) := by
  rw [flows_stmtSites_unseen, hcmd]
  rfl

mutual

lemma flows_stmtSites : ∀ (s : Stmt) (t : Taints),
    (stmtSites ctx true s t).flatMap (Site.flows ctx)
      = (engineStates ctx (stmtCmd s) t).flatMap (visitFlows ctx)
  | .assign loc targets value, t => by
      simp [stmtSites, stmtCmd, evalCmd, passStates, flows_siteAt]
  | .annAssign loc target _ (some value) _, t => by
      simp [stmtSites, stmtCmd, evalCmd, passStates, flows_siteAt]
  | .annAssign _ target _ none _, t => by
      simp [stmtSites, stmtCmd, evalCmd, passStates]
  | .augAssign loc target _ value, t => by
      simp [stmtSites, stmtCmd, evalCmd, passStates, flows_siteAt]
  | .expr _ value, t => by
      simp [stmtSites, stmtCmd, evalCmd, passStates, flows_siteAt]
  | .return_ _ value, t => by
      simp [stmtSites, stmtCmd, evalCmd, passStates, flows_siteAt]
  | .if_ _ test body orelse, t => by
      simp only [stmtSites, stmtCmd, evalCmd, passStates, passEnd, Event.apply, List.flatMap_append,
        List.flatMap_cons, List.flatMap_nil, List.append_nil, flows_siteAt, visitFlows_eval,
        flows_blockSites body t, flows_blockSites orelse t]
  | .while_ _ test body orelse, t => by
      simp only [stmtSites, stmtCmd, evalCmd, passStates, passEnd, Event.apply, List.flatMap_append,
        List.flatMap_cons, List.flatMap_nil, List.append_nil, flows_siteAt, visitFlows_eval,
        flows_blockSites body t, flows_blockSites orelse t]
  | .for_ loc target iter body orelse, t => by
      simp only [stmtSites, stmtCmd, evalCmd, passStates, passEnd, Event.apply, boundTaints,
        if_true, List.flatMap_append, List.flatMap_cons, List.flatMap_nil, List.append_nil,
        List.nil_append, flows_siteAt, visitFlows_eval, visitFlows_bind, flows_blockSites body _,
        flows_blockSites orelse _]
      rfl
  | .try_ _ body handlers orelse finalbody, t => by
      simp only [stmtSites, stmtCmd, passStates, blockAfter, if_true, analyzeBlock_eq,
        List.flatMap_append, flows_blockSites body _, flows_blockSites orelse _,
        flows_blockSites finalbody _, flows_handlerSites handlers _]
      rfl
  | .with_ _ items body, t => by
      simp only [stmtSites, stmtCmd, evalCmd, passStates, passEnd, Event.apply, List.flatMap_append,
        List.flatMap_cons, List.flatMap_nil, List.append_nil, flows_siteAt_nil, visitFlows_eval,
        flows_blockSites body t]
  | .asyncFor l tg it body orelse, t => flows_unseen_stmt (.asyncFor l tg it body orelse) t rfl
  | .asyncWith l items body, t => flows_unseen_stmt (.asyncWith l items body) t rfl
  | .tryStar l body handlers orelse finalbody, t =>
      flows_unseen_stmt (.tryStar l body handlers orelse finalbody) t rfl
  | .match_ l subject cases, t => flows_unseen_stmt (.match_ l subject cases) t rfl
  | .delete .., t | .raise .., t | .assert .., t | .functionDef .., t | .asyncFunctionDef .., t
  | .classDef .., t | .import_ .., t | .importFrom .., t | .global .., t | .nonlocal .., t
  | .pass _, t | .break_ _, t | .continue_ _, t => by
      simp [stmtSites, stmtCmd, passStates]

/-- **The flows of a block** are those at the events that the pass over its command comes to. -/
lemma flows_blockSites : ∀ (ss : List Stmt) (t : Taints),
    (blockSites ctx true ss t).flatMap (Site.flows ctx)
      = (engineStates ctx (blockCmd ss) t).flatMap (visitFlows ctx)
  | [], t => rfl
  | s :: ss, t => by
      simp only [blockSites, blockCmd, passStates, List.flatMap_append, flows_stmtSites s t,
        flows_blockSites ss _, taintsAfter, if_true, applyStmt_eq]

lemma flows_handlerSites : ∀ (hs : List ExceptHandler) (t : Taints),
    (handlerSites ctx true hs t).flatMap (Site.flows ctx)
      = (engineStates ctx (handlersCmd hs) t).flatMap (visitFlows ctx)
  | [], t => rfl
  | .mk _ type _ body :: hs, t => by
      simp only [handlerSites, handlersCmd, evalCmd, passStates, passEnd, Event.apply, blockAfter,
        if_true, analyzeBlock_eq, List.flatMap_append, List.flatMap_cons, List.flatMap_nil,
        List.append_nil, List.nil_append, flows_siteAt_nil, visitFlows_eval,
        flows_blockSites body t, flows_handlerSites hs _]
      rfl

end

/-! ## Tracked flows -/

/-- A flow, with the event at which it is found and what is tracked there. -/
structure TracedFlow where
  event : Event
  state : TracedState
  flow : SinkFlow

/-- The origins at the entry of a scope: its tainted names are parameters. -/
def Scope.origins (scope : Scope) : OriginMap := fun x =>
  match scope.entry.get? x with
  | some taint => taint.steps.map (.param x)
  | none => []

/-- What is tracked at the entry of a scope. -/
def Scope.start (scope : Scope) : TracedState := ⟨scope.entry, scope.origins, scope.origins⟩

/-- The flows of a scope, each with what is tracked at its event. -/
def tracedFlows (ctx : FileContext) (scope : Scope) : List TracedFlow :=
  (passStates (Event.track ctx) trackedMerge (blockCmd scope.body) scope.start).flatMap fun v =>
    (visitFlows ctx (v.1, v.2.taints)).map fun flow => ⟨v.1, v.2, flow⟩

/-- The tracked maps are those of the engine. -/
lemma related_taints : Related (Event.track ctx) trackedMerge (Event.apply ctx) updateMerge
    fun state t => state.taints = t where
  event := by
    rintro e s t rfl
    rfl
  branches := by
    rintro s t a a' b b' rfl rfl rfl
    rfl
  skipped := by
    rintro s t a a' rfl rfl
    rfl
  partly := by
    rintro s t a a' rfl rfl
    rfl
  fully := by
    rintro s t a a' rfl rfl
    rfl

/-- **The traced flows of a scope are its flows.** -/
theorem tracedFlows_flow {scope : Scope} (hseen : scope.seen = true) :
    (tracedFlows ctx scope).map TracedFlow.flow = scope.flows ctx := by
  have hstates : List.Forall₂ (SameVisit fun (state : TracedState) t => state.taints = t)
      (passStates (Event.track ctx) trackedMerge (blockCmd scope.body) scope.start)
      (engineStates ctx (blockCmd scope.body) scope.entry) :=
    states_related related_taints (blockCmd scope.body) rfl
  rw [Scope.flows, Scope.sites, hseen, flows_blockSites, tracedFlows, List.map_flatMap]
  generalize passStates (Event.track ctx) trackedMerge (blockCmd scope.body) scope.start = vs
    at hstates
  generalize engineStates ctx (blockCmd scope.body) scope.entry = ws at hstates
  induction hstates with
  | nil => rfl
  | @cons v w vs ws hvw _ ih =>
      obtain ⟨hevent, htaints⟩ := hvw
      rw [List.flatMap_cons, List.flatMap_cons, ih, List.map_map, hevent, htaints]
      simp [Function.comp_def]

/-! ## What is tracked agrees -/

/-- Fewer origins, but none only where there are none. -/
structure Within (o p : OriginMap) : Prop where
  subset : ∀ x, o x ⊆ p x
  empty : ∀ x, o x = [] → p x = []

/-- The provenances recorded are those of the origins kept, and these are among all origins. -/
structure TracedState.Valid (ctx : FileContext) (state : TracedState) : Prop where
  tracks : MapTracks ctx state.taints state.kept
  within : Within state.kept state.carried

lemma firstOr_eq_nil {xs ys : List Origin} : firstOr xs ys = [] ↔ xs = [] ∧ ys = [] := by
  cases xs <;> simp [firstOr]

/-- The origins of the tainted one of two values, the first of them if both are. -/
lemma Tracks.or {a b : Option Taint} {xs ys : List Origin} (ha : Tracks ctx a xs)
    (hb : Tracks ctx b ys) : Tracks ctx (a.or b) (firstOr xs ys) := by
  cases a with
  | none =>
      obtain rfl : xs = [] := ha
      exact hb
  | some t =>
      have hne : xs ≠ [] := DerivesFrom.ne_nil ha
      cases xs with
      | nil => exact absurd rfl hne
      | cons x xs => exact ha

lemma MapTracks.update {t u : Taints} {o p : OriginMap} (ht : MapTracks ctx t o)
    (hu : MapTracks ctx u p) : MapTracks ctx (t.update u) fun x => firstOr (p x) (o x) := by
  intro x
  rw [Dict.get?_update]
  exact (hu x).or (ht x)

lemma get?_bindNames (targets : List Expr) (taint : Taint) :
    ∀ (t : Taints) (x : String), (bindNames targets taint t).get? x
      = if x ∈ targetNames targets then some taint else t.get? x := by
  induction targets with
  | nil =>
      intro t x
      simp [bindNames, targetNames]
  | cons target targets ih =>
      intro t x
      rw [bindNames, List.foldl_cons, ← bindNames, ih]
      cases target with
      | name loc id c =>
          simp only [targetNames, List.filterMap_cons, List.mem_cons, Dict.get?_set]
          split_ifs <;> tauto
      | _ => rfl

lemma MapTracks.bind {t : Taints} {origins : OriginMap} (h : MapTracks ctx t origins)
    {taint : Taint} {value : List Origin} (hvalue : DerivesFrom ctx taint value)
    (targets : List Expr) :
    MapTracks ctx (bindNames targets taint t) (origins.bind (targetNames targets) value) := by
  intro x
  have hne : value.isEmpty = false := by
    simpa using hvalue.ne_nil
  rw [get?_bindNames, OriginMap.bind, hne]
  simp only [Bool.false_eq_true, if_false]
  split_ifs
  · exact hvalue
  · exact h x

lemma assignment_ne_source (file snippet : String) (line : Nat) :
    (⟨file, line, snippet, .assignment⟩ : TaintStep).stepType ≠ .source := by
  simp

/-- One event keeps the recorded provenances those of the origins kept. -/
lemma MapTracks.apply {t : Taints} {origins : OriginMap} (h : MapTracks ctx t origins)
    (event : Event) : MapTracks ctx (event.apply ctx t) (event.transfer ctx firstOr origins) := by
  cases event with
  | eval operands scanned => exact h
  | assign loc targets value =>
      have hvalue := tracks_taintOf h value
      simp only [Event.apply, Event.transfer, assignTaints]
      cases htaint : taintOf ctx t value with
      | none =>
          rw [htaint] at hvalue
          have hnil : origins.of ctx value = [] := hvalue
          simpa [OriginMap.bind, hnil] using h
      | some taint =>
          rw [htaint] at hvalue
          have hvalue : DerivesFrom ctx taint (origins.of ctx value) := hvalue
          simp only
          split_ifs
          · exact h.bind (hvalue.push (assignment_ne_source _ _ _)) targets
          · exact h.bind hvalue targets
  | augAssign loc target value =>
      have hvalue := tracks_taintOf h value
      simp only [Event.apply, Event.transfer, augAssignTaints]
      cases target with
      | name nloc id nctx =>
          have hboth : Tracks ctx (((t.get? id).or (taintOf ctx t value)).map fun base =>
              base.push (propagationStep ctx loc)) (firstOr (origins id) (origins.of ctx value)) :=
            ((h id).or hvalue).push (propagation_ne_source loc)
          intro x
          by_cases hx : x = id
          · subst hx
            cases hor : (t.get? x).or (taintOf ctx t value) with
            | none =>
                rw [hor] at hboth
                obtain ⟨hnone, hnovalue⟩ := Option.or_eq_none_iff.1 hor
                simpa [targetNames, hnone, hnovalue] using hboth
            | some base =>
                rw [hor] at hboth
                simpa [targetNames, hor] using hboth
          · cases hor : (t.get? id).or (taintOf ctx t value) with
            | none => simpa [targetNames, hor, hx] using h x
            | some base => simpa [targetNames, hor, hx, Dict.get?_set_ne _ _ hx] using h x
      | _ => simpa [targetNames] using h
  | bind loc target iter =>
      have hvalue := tracks_taintOf h iter
      simp only [Event.apply, Event.transfer, forTaints]
      cases htaint : taintOf ctx t iter with
      | none =>
          rw [htaint] at hvalue
          have hnil : origins.of ctx iter = [] := hvalue
          simpa [OriginMap.bind, hnil] using h
      | some taint =>
          rw [htaint] at hvalue
          have hvalue : DerivesFrom ctx taint (origins.of ctx iter) := hvalue
          exact h.bind (hvalue.push (propagation_ne_source loc)) (forTargets target)

/-- OriginMap that are among others for each variable are so for each expression. -/
lemma OriginMap.of_subset {o p : OriginMap} (h : ∀ x, o x ⊆ p x) (e : Expr) :
    o.of ctx e ⊆ p.of ctx e := by
  intro origin horigin
  obtain ⟨atom, hatom, hmem⟩ := List.mem_flatMap.1 horigin
  refine List.mem_flatMap.2 ⟨atom, hatom, ?_⟩
  cases atom with
  | var x => exact h x hmem
  | source expr ref => exact hmem

lemma OriginMap.of_eq_nil {o p : OriginMap} (h : ∀ x, o x = [] → p x = []) {e : Expr}
    (he : o.of ctx e = []) : p.of ctx e = [] := by
  rw [OriginMap.of, List.flatMap_eq_nil_iff] at he ⊢
  intro atom hatom
  have hnil := he atom hatom
  cases atom with
  | var x => exact h x hnil
  | source expr ref => exact hnil

lemma Within.bind {o p : OriginMap} (h : Within o p) (names : List String) (e : Expr) :
    Within (o.bind names (o.of ctx e)) (p.bind names (p.of ctx e)) := by
  have hsubset : o.of ctx e ⊆ p.of ctx e := OriginMap.of_subset h.subset e
  unfold OriginMap.bind
  by_cases hnil : o.of ctx e = []
  · have hnil' : p.of ctx e = [] := OriginMap.of_eq_nil h.empty hnil
    simpa [hnil, hnil'] using h
  · have hnil' : p.of ctx e ≠ [] := by
      intro hp
      rw [hp] at hsubset
      exact hnil (List.subset_nil.1 hsubset)
    simp only [List.isEmpty_iff, hnil, hnil', if_false]
    constructor
    · intro x
      split_ifs
      · exact hsubset
      · exact h.subset x
    · intro x
      split_ifs
      · exact fun hx => absurd hx hnil
      · exact h.empty x

lemma firstOr_subset_append (xs ys : List Origin) : firstOr xs ys ⊆ xs ++ ys := by
  unfold firstOr
  split_ifs
  · exact List.subset_append_right xs ys
  · exact List.subset_append_left xs ys

lemma Within.transfer {o p : OriginMap} (h : Within o p) (event : Event) :
    Within (event.transfer ctx firstOr o) (event.transfer ctx (· ++ ·) p) := by
  cases event with
  | eval operands scanned => exact h
  | assign loc targets value => exact h.bind (targetNames targets) value
  | bind loc target iter => exact h.bind (targetNames (forTargets target)) iter
  | augAssign loc target value =>
      have hsubset : o.of ctx value ⊆ p.of ctx value := OriginMap.of_subset h.subset value
      simp only [Event.transfer]
      constructor
      · intro x
        split_ifs
        · intro origin horigin
          rcases List.mem_append.1 (firstOr_subset_append _ _ horigin) with hmem | hmem
          · exact List.mem_append_left _ (h.subset x hmem)
          · exact List.mem_append_right _ (hsubset hmem)
        · exact h.subset x
      · intro x
        split_ifs
        · intro hx
          obtain ⟨hx, hvalue⟩ := firstOr_eq_nil.1 hx
          rw [h.empty x hx, OriginMap.of_eq_nil h.empty hvalue, List.append_nil]
        · exact h.empty x

lemma mem_firstOr_of {xs ys : List Origin} {origin : Origin} (h : origin ∈ firstOr xs ys) :
    origin ∈ xs ∨ origin ∈ ys :=
  List.mem_append.1 (firstOr_subset_append xs ys h)

/-- Where both branches keep origins, both carry them. -/
lemma Within.branches {o p ol pl or pr : OriginMap} (h : Within o p) (hl : Within ol pl)
    (hr : Within or pr) :
    Within (keptMerge.branches o ol or) (carriedMerge.branches p pl pr) := by
  constructor
  · intro x origin horigin
    simp only [keptMerge, carriedMerge] at horigin ⊢
    by_cases hbranches : firstOr (or x) (ol x) = []
    · obtain ⟨hright, hleft⟩ := firstOr_eq_nil.1 hbranches
      rw [hbranches] at horigin
      rw [hl.empty x hleft, hr.empty x hright]
      exact h.subset x horigin
    · have hmem : origin ∈ pl x ++ pr x := by
        rw [firstOr, if_neg (by simpa using hbranches)] at horigin
        rcases mem_firstOr_of horigin with hright | hleft
        · exact List.mem_append_right _ (hr.subset x hright)
        · exact List.mem_append_left _ (hl.subset x hleft)
      have hne : pl x ++ pr x ≠ [] := List.ne_nil_of_mem hmem
      rwa [firstOr, if_neg (by simpa using hne)]
  · intro x hx
    simp only [keptMerge, carriedMerge] at hx ⊢
    obtain ⟨hbranches, hbefore⟩ := firstOr_eq_nil.1 hx
    obtain ⟨hright, hleft⟩ := firstOr_eq_nil.1 hbranches
    rw [hl.empty x hleft, hr.empty x hright, h.empty x hbefore]
    rfl

lemma Within.skipped {o p ob pb : OriginMap} (hb : Within ob pb) :
    Within (keptMerge.skipped o ob) (carriedMerge.skipped p pb) := by
  constructor
  · intro x origin horigin
    have hmem : origin ∈ pb x := hb.subset x horigin
    have hne : pb x ≠ [] := List.ne_nil_of_mem hmem
    simp only [carriedMerge]
    rw [if_neg (by simpa using hne)]
    exact List.mem_append_right _ hmem
  · intro x hx
    simp [carriedMerge, hb.empty x hx]

lemma Within.partly {o p ob pb : OriginMap} (h : Within o p) (hb : Within ob pb) :
    Within (keptMerge.partly o ob) (carriedMerge.partly p pb) := by
  constructor
  · intro x origin horigin
    rcases mem_firstOr_of horigin with hblock | hbefore
    · exact List.mem_append_right _ (hb.subset x hblock)
    · exact List.mem_append_left _ (h.subset x hbefore)
  · intro x hx
    obtain ⟨hblock, hbefore⟩ := firstOr_eq_nil.1 hx
    simp [carriedMerge, h.empty x hbefore, hb.empty x hblock]

lemma Within.fully {o p ob pb : OriginMap} (h : Within o p) (hb : Within ob pb) :
    Within (keptMerge.fully o ob) (carriedMerge.fully p pb) := by
  constructor
  · intro x origin horigin
    simp only [keptMerge, carriedMerge] at horigin ⊢
    by_cases hblock : ob x = []
    · rw [hblock] at horigin
      rw [hb.empty x hblock]
      exact h.subset x horigin
    · rw [firstOr, if_neg (by simpa using hblock)] at horigin
      have hmem := hb.subset x horigin
      have hne : pb x ≠ [] := List.ne_nil_of_mem hmem
      rwa [firstOr, if_neg (by simpa using hne)]
  · intro x hx
    obtain ⟨hblock, hbefore⟩ := firstOr_eq_nil.1 hx
    simp [carriedMerge, firstOr, h.empty x hbefore, hb.empty x hblock]

/-- **What is tracked stays valid** over events and merges. -/
lemma valid_related (ctx : FileContext) :
    Related (Event.track ctx) trackedMerge (fun _ _ => ()) unitMerge
      fun (state : TracedState) (_ : Unit) => state.Valid ctx where
  event := by
    intro event state _ h
    exact ⟨h.tracks.apply event, h.within.transfer event⟩
  branches := by
    intro before _ left _ right _ h hl hr
    exact ⟨h.tracks.update (hl.tracks.update hr.tracks), h.within.branches hl.within hr.within⟩
  skipped := by
    intro before _ bound _ _ hb
    exact ⟨hb.tracks, hb.within.skipped (o := before.kept)⟩
  partly := by
    intro before _ block _ h hb
    exact ⟨h.tracks.update hb.tracks, h.within.partly hb.within⟩
  fully := by
    intro before _ block _ h hb
    exact ⟨h.tracks.update hb.tracks, h.within.fully hb.within⟩

/-! ## Origins are real -/

/-- The step recorded for the parameters of a function: its `def` line. -/
def defStep (ctx : FileContext) (loc : Loc) : TaintStep where
  stepType := .source
  file := ctx.file
  line := loc.lineno
  snippet := lineText ctx.source loc.lineno

/-- An origin in a scope is what it says: a parameter of the function whose body the scope is, with
the line of its `def`, or an expression that the rule takes for a source. -/
def Origin.Real (ctx : FileContext) (scope : Scope) : Origin → Prop
  | .param name step => ∃ loc args body seen, scope = ⟨entryTaints ctx loc args, body, true, seen⟩
      ∧ name ∈ paramNames args ∧ step = defStep ctx loc
  | .source expr ref => ctx.rule.isSource expr ctx.file ctx.source = some ref

/-- The atoms that are sources are sources of the rule. -/
def SourcesReal (ctx : FileContext) (as : List Atom) : Prop :=
  ∀ expr ref, .source expr ref ∈ as → ctx.rule.isSource expr ctx.file ctx.source = some ref

lemma sourcesReal_nil : SourcesReal ctx [] := by
  intro expr ref h
  simp at h

lemma SourcesReal.append {as bs : List Atom} (ha : SourcesReal ctx as) (hb : SourcesReal ctx bs) :
    SourcesReal ctx (as ++ bs) := by
  intro expr ref h
  rcases List.mem_append.1 h with h | h
  · exact ha expr ref h
  · exact hb expr ref h

lemma SourcesReal.sourceOr {as : List Atom} (h : SourcesReal ctx as) (e : Expr) :
    SourcesReal ctx (sourceOr ctx e as) := by
  unfold Sast.sourceOr
  cases hsource : ctx.rule.isSource e ctx.file ctx.source with
  | none => exact h
  | some found =>
      intro expr ref hmem
      simp only [List.mem_singleton, Atom.source.injEq] at hmem
      obtain ⟨rfl, rfl⟩ := hmem
      exact hsource

mutual

lemma sourcesReal_atoms : ∀ e : Expr, SourcesReal ctx (atoms ctx e)
  | .name _ id _ => by
      intro expr ref h
      simp [atoms] at h
  | .joinedStr _ values => by
      rw [atoms]
      exact sourcesReal_parts values
  | .binOp _ left op right => by
      rw [atoms]
      split_ifs
      · exact (sourcesReal_atoms left).append (sourcesReal_atoms right)
      · exact sourcesReal_nil
  | .call _ (.name ..) [] _ => by
      simp only [atoms]
      exact sourcesReal_nil.sourceOr _
  | .call _ (.name _ id _) (arg :: _) _ => by
      rw [atoms]
      refine SourcesReal.sourceOr ?_ _
      split_ifs
      · exact sourcesReal_atoms arg
      · exact sourcesReal_nil
  | .call _ (.attribute _ value attr _) args _ => by
      rw [atoms]
      refine SourcesReal.sourceOr ?_ _
      split_ifs
      · exact (sourcesReal_atoms value).append (sourcesReal_list args)
      · exact sourcesReal_nil
  | .call _ (.joinedStr ..) _ _ | .call _ (.binOp ..) _ _ | .call _ (.call ..) _ _
  | .call _ (.subscript ..) _ _ | .call _ (.list ..) _ _ | .call _ (.tuple ..) _ _
  | .call _ (.set ..) _ _ | .call _ (.dict ..) _ _ | .call _ (.ifExp ..) _ _
  | .call _ (.boolOp ..) _ _ | .call _ (.namedExpr ..) _ _ | .call _ (.unaryOp ..) _ _
  | .call _ (.lambda ..) _ _ | .call _ (.listComp ..) _ _ | .call _ (.setComp ..) _ _
  | .call _ (.dictComp ..) _ _ | .call _ (.generatorExp ..) _ _ | .call _ (.await ..) _ _
  | .call _ (.yield ..) _ _ | .call _ (.yieldFrom ..) _ _ | .call _ (.compare ..) _ _
  | .call _ (.formattedValue ..) _ _ | .call _ (.constant ..) _ _ | .call _ (.starred ..) _ _
  | .call _ (.slice ..) _ _ => by
      simp only [atoms]
      exact sourcesReal_nil.sourceOr _
  | .attribute _ value _ _ | .subscript _ value _ _ => by
      rw [atoms]
      exact (sourcesReal_atoms value).sourceOr _
  | .list _ elts _ | .tuple _ elts _ | .set _ elts => by
      rw [atoms]
      exact sourcesReal_list elts
  | .dict _ keys values => by
      rw [atoms]
      exact (sourcesReal_opts keys).append (sourcesReal_list values)
  | .ifExp _ test body orelse => by
      rw [atoms]
      exact ((sourcesReal_atoms test).append (sourcesReal_atoms body)).append
        (sourcesReal_atoms orelse)
  | .boolOp .. | .namedExpr .. | .unaryOp .. | .lambda .. | .listComp .. | .setComp ..
  | .dictComp .. | .generatorExp .. | .await .. | .yield .. | .yieldFrom .. | .compare ..
  | .formattedValue .. | .constant .. | .starred .. | .slice .. => sourcesReal_nil

lemma sourcesReal_list : ∀ es : List Expr, SourcesReal ctx (listAtoms ctx es)
  | [] => sourcesReal_nil
  | e :: es => (sourcesReal_atoms e).append (sourcesReal_list es)

lemma sourcesReal_opts : ∀ es : List (Option Expr), SourcesReal ctx (optAtoms ctx es)
  | [] => sourcesReal_nil
  | none :: es => sourcesReal_opts es
  | some e :: es => (sourcesReal_atoms e).append (sourcesReal_opts es)

lemma sourcesReal_parts : ∀ es : List Expr, SourcesReal ctx (partAtoms ctx es)
  | [] => sourcesReal_nil
  | .formattedValue _ value _ _ :: es => (sourcesReal_atoms value).append (sourcesReal_parts es)
  | .name .. :: es | .joinedStr .. :: es | .binOp .. :: es | .call .. :: es | .attribute .. :: es
  | .subscript .. :: es | .list .. :: es | .tuple .. :: es | .set .. :: es | .dict .. :: es
  | .ifExp .. :: es | .boolOp .. :: es | .namedExpr .. :: es | .unaryOp .. :: es
  | .lambda .. :: es | .listComp .. :: es | .setComp .. :: es | .dictComp .. :: es
  | .generatorExp .. :: es | .await .. :: es | .yield .. :: es | .yieldFrom .. :: es
  | .compare .. :: es | .constant .. :: es | .starred .. :: es | .slice .. :: es =>
      sourcesReal_parts es

end

/-- All origins of all variables are real. -/
def OriginMap.Real (ctx : FileContext) (scope : Scope) (origins : OriginMap) : Prop :=
  ∀ x, ∀ origin ∈ origins x, origin.Real ctx scope

section Real

variable {scope : Scope} {o p : OriginMap}

lemma OriginMap.Real.of (h : o.Real ctx scope) (e : Expr) :
    ∀ origin ∈ o.of ctx e, origin.Real ctx scope := by
  intro origin horigin
  obtain ⟨atom, hatom, hmem⟩ := List.mem_flatMap.1 horigin
  cases atom with
  | var x => exact h x origin hmem
  | source expr ref =>
      obtain rfl := List.mem_singleton.1 hmem
      exact sourcesReal_atoms e expr ref hatom

lemma OriginMap.Real.bind (h : o.Real ctx scope) (names : List String) (e : Expr) :
    (o.bind names (o.of ctx e)).Real ctx scope := by
  intro x origin horigin
  unfold OriginMap.bind at horigin
  split_ifs at horigin
  · exact h x origin horigin
  · simp only at horigin
    split_ifs at horigin
    · exact h.of e origin horigin
    · exact h x origin horigin

lemma OriginMap.Real.transfer (h : o.Real ctx scope) (event : Event) :
    (event.transfer ctx (· ++ ·) o).Real ctx scope := by
  cases event with
  | eval operands scanned => exact h
  | assign loc targets value => exact h.bind (targetNames targets) value
  | bind loc target iter => exact h.bind (targetNames (forTargets target)) iter
  | augAssign loc target value =>
      intro x origin horigin
      simp only [Event.transfer] at horigin
      split_ifs at horigin
      · rcases List.mem_append.1 horigin with horigin | horigin
        · exact h x origin horigin
        · exact h.of value origin horigin
      · exact h x origin horigin

/-- What two maps give together is real if both are. -/
lemma OriginMap.Real.append (h : o.Real ctx scope) (hp : p.Real ctx scope) :
    OriginMap.Real ctx scope fun x => o x ++ p x := by
  intro x origin horigin
  rcases List.mem_append.1 horigin with horigin | horigin
  · exact h x origin horigin
  · exact hp x origin horigin

lemma OriginMap.Real.firstOr (h : o.Real ctx scope) (hp : p.Real ctx scope) :
    OriginMap.Real ctx scope fun x => firstOr (o x) (p x) := by
  intro x origin horigin
  exact h.append hp x origin (firstOr_subset_append _ _ horigin)

/-- All origins that are carried stay real. -/
lemma real_related (ctx : FileContext) (scope : Scope) :
    Related (Event.track ctx) trackedMerge (fun _ _ => ()) unitMerge
      fun (state : TracedState) (_ : Unit) => state.carried.Real ctx scope where
  event := by
    intro event state _ h
    exact h.transfer event
  branches := by
    intro before _ left _ right _ h hl hr
    exact (hl.append hr).firstOr h
  skipped := by
    intro before _ bound _ h hb x origin horigin
    simp only [trackedMerge, carriedMerge] at horigin
    split_ifs at horigin
    · simp at horigin
    · exact h.append hb x origin horigin
  partly := by
    intro before _ block _ h hb
    exact h.append hb
  fully := by
    intro before _ block _ h hb
    exact hb.firstOr h

end Real

/-! ## The entry of a scope -/

lemma get?_foldl_set (taint : Taint) (names : List String) :
    ∀ (t : Taints) (x : String), (names.foldl (fun acc name => acc.set name taint) t).get? x
      = if x ∈ names then some taint else t.get? x := by
  induction names with
  | nil =>
      intro t x
      simp
  | cons name names ih =>
      intro t x
      rw [List.foldl_cons, ih]
      simp only [List.mem_cons, Dict.get?_set]
      split_ifs <;> tauto

/-- What is tainted at the entry of a function is a parameter, with the step of the `def`. -/
lemma get?_entryTaints {loc : Loc} {args : Arguments} {x : String} {taint : Taint}
    (h : (entryTaints ctx loc args).get? x = some taint) :
    x ∈ paramNames args ∧ taint = ⟨[defStep ctx loc], "function_param"⟩ := by
  unfold entryTaints at h
  split_ifs at h
  · rw [get?_foldl_set] at h
    split_ifs at h with hx
    · exact ⟨hx, (Option.some.inj h).symm⟩
    · simp at h
  · simp at h

/-- A scope without taint at its entry, or the body of a function. -/
def Scope.Enters (ctx : FileContext) (scope : Scope) : Prop :=
  scope.entry = Dict.empty
    ∨ ∃ loc args body seen, scope = ⟨entryTaints ctx loc args, body, true, seen⟩

mutual

lemma enters_stmt {scope : Scope} :
    ∀ {seen : Bool} (s : Stmt), scope ∈ stmtScopes ctx seen s → scope.Enters ctx
  | seen, .functionDef loc _ args body _ _, h | seen, .asyncFunctionDef loc _ args body _ _, h => by
      rcases List.mem_cons.1 h with rfl | h
      · exact Or.inr ⟨loc, args, body, seen, rfl⟩
      · exact enters_block body h
  | _, .classDef _ _ _ _ body _, h => by
      rcases List.mem_cons.1 h with rfl | h
      · exact Or.inl rfl
      · exact enters_block body h
  | _, .if_ _ _ body orelse, h | _, .while_ _ _ body orelse, h | _, .for_ _ _ _ body orelse, h
  | _, .asyncFor _ _ _ body orelse, h => by
      rcases List.mem_append.1 h with h | h
      · exact enters_block body h
      · exact enters_block orelse h
  | _, .try_ _ body handlers orelse finalbody, h
  | _, .tryStar _ body handlers orelse finalbody, h => by
      simp only [stmtScopes, List.mem_append] at h
      rcases h with ((h | h) | h) | h
      · exact enters_block body h
      · exact enters_block orelse h
      · exact enters_block finalbody h
      · exact enters_handlers handlers h
  | _, .with_ _ _ body, h | _, .asyncWith _ _ body, h => enters_block body h
  | _, .match_ _ _ cases, h => enters_cases cases h
  | _, .assign .., h | _, .annAssign .., h | _, .augAssign .., h | _, .expr .., h
  | _, .return_ .., h | _, .delete .., h | _, .raise .., h | _, .assert .., h | _, .import_ .., h
  | _, .importFrom .., h | _, .global .., h | _, .nonlocal .., h | _, .pass _, h
  | _, .break_ _, h | _, .continue_ _, h => by
      simp [stmtScopes] at h

lemma enters_block {scope : Scope} :
    ∀ {seen : Bool} (ss : List Stmt), scope ∈ blockScopes ctx seen ss → scope.Enters ctx
  | _, [], h => by simp [blockScopes] at h
  | _, s :: ss, h => by
      rcases List.mem_append.1 h with h | h
      · exact enters_stmt s h
      · exact enters_block ss h

lemma enters_handlers {scope : Scope} :
    ∀ {seen : Bool} (hs : List ExceptHandler),
      scope ∈ handlerScopes ctx seen hs → scope.Enters ctx
  | _, [], h => by simp [handlerScopes] at h
  | _, .mk _ _ _ body :: hs, h => by
      rcases List.mem_append.1 h with h | h
      · exact enters_block body h
      · exact enters_handlers hs h

lemma enters_cases {scope : Scope} :
    ∀ (cs : List MatchCase), scope ∈ caseScopes ctx cs → scope.Enters ctx
  | [], h => by simp [caseScopes] at h
  | .mk _ _ body :: cs, h => by
      rcases List.mem_append.1 h with h | h
      · exact enters_block body h
      · exact enters_cases cs h

end

lemma enters_tree {tree : Module} {scope : Scope} (h : scope ∈ treeScopes ctx tree) :
    scope.Enters ctx := by
  rcases List.mem_cons.1 h with rfl | h
  · exact Or.inl rfl
  · exact enters_block tree.body h

/-- One parameter is described by its own step. -/
lemma derivesFrom_param (x : String) (loc : Loc) :
    DerivesFrom ctx ⟨[defStep ctx loc], "function_param"⟩ [.param x (defStep ctx loc)] where
  first := ⟨.param x (defStep ctx loc), [], [], rfl, rfl⟩
  kind := by
    unfold preferredKind
    simp only [List.find?_singleton]
    split_ifs <;> rfl
  steps := by
    intro step _
    simp [Origin.step, eq_comm]

lemma Scope.Enters.valid {scope : Scope} (h : scope.Enters ctx) : scope.start.Valid ctx := by
  refine ⟨?_, fun x => List.Subset.refl _, fun x hx => hx⟩
  intro x
  show Tracks ctx (scope.entry.get? x) (scope.origins x)
  unfold Scope.origins
  cases htaint : scope.entry.get? x with
  | none => rfl
  | some taint =>
      rcases h with hempty | ⟨loc, args, body, seen, rfl⟩
      · simp [hempty] at htaint
      · obtain ⟨-, rfl⟩ := get?_entryTaints htaint
        exact derivesFrom_param x loc

lemma Scope.Enters.real {scope : Scope} (h : scope.Enters ctx) :
    scope.start.carried.Real ctx scope := by
  intro x origin horigin
  have horigin : origin ∈ scope.origins x := horigin
  unfold Scope.origins at horigin
  cases htaint : scope.entry.get? x with
  | none => simp [htaint] at horigin
  | some taint =>
      rcases h with hempty | ⟨loc, args, body, seen, rfl⟩
      · simp [hempty] at htaint
      · obtain ⟨hx, rfl⟩ := get?_entryTaints htaint
        simp only [htaint, List.map_cons, List.map_nil, List.mem_singleton] at horigin
        subst horigin
        exact ⟨loc, args, body, seen, rfl, hx, rfl⟩

/-! ## The origins of a flow -/

/-- The origins of the sink expression of a flow, in a map. -/
def TracedFlow.originsIn (ctx : FileContext) (f : TracedFlow) (origins : OriginMap) :
    List Origin :=
  match ctx.rule.sinkExpression f.flow.call with
  | some target => origins.of ctx target
  | none => []

/-- The origins of its sink expression that the walk keeps. -/
def TracedFlow.kept (ctx : FileContext) (f : TracedFlow) : List Origin :=
  f.originsIn ctx f.state.kept

/-- All origins of its sink expression. -/
def TracedFlow.carried (ctx : FileContext) (f : TracedFlow) : List Origin :=
  f.originsIn ctx f.state.carried

/-- The finding that is emitted for it. -/
def TracedFlow.finding (ctx : FileContext) (f : TracedFlow) : CandidateFinding :=
  f.flow.finding ctx

/-- A tainted sink has the taint of its sink expression. -/
lemma taintOf_sinkExpression {t : Taints} {call : Expr} {sink : SinkRef} {taint : Taint}
    (h : taintedSink ctx t call = some (sink, taint)) :
    ∃ target, ctx.rule.sinkExpression call = some target ∧ taintOf ctx t target = some taint := by
  unfold taintedSink at h
  split at h
  · cases h
  · split_ifs at h
    split at h
    · cases h
    · rename_i target htarget
      obtain ⟨found, hfound, heq⟩ := Option.map_eq_some_iff.1 h
      obtain ⟨-, rfl⟩ := Prod.mk.inj heq
      exact ⟨target, htarget, hfound⟩

/-- **A traced flow** has the taint of the origins kept, these are among all of its origins, and
all of them are real. -/
structure TracedFlow.Spec (ctx : FileContext) (scope : Scope) (f : TracedFlow) : Prop where
  derives : DerivesFrom ctx f.flow.taint (f.kept ctx)
  subset : f.kept ctx ⊆ f.carried ctx
  real : ∀ origin ∈ f.carried ctx, origin.Real ctx scope

theorem spec_tracedFlow {tree : Module} {scope : Scope} (hscope : scope ∈ treeScopes ctx tree)
    {f : TracedFlow} (h : f ∈ tracedFlows ctx scope) : f.Spec ctx scope := by
  have henters : scope.Enters ctx := enters_tree hscope
  simp only [tracedFlows, List.mem_flatMap, List.mem_map] at h
  obtain ⟨v, hv, flow, hflow, rfl⟩ := h
  have hvalid : v.2.Valid ctx := states_invariant (valid_related ctx) _ henters.valid v hv
  have hreal : v.2.carried.Real ctx scope :=
    states_invariant (real_related ctx scope) _ henters.real v hv
  obtain ⟨e, -, he⟩ := List.mem_flatMap.1 hflow
  obtain ⟨-, hhit⟩ := mem_exprFlows.1 he
  obtain ⟨target, htarget, htaint⟩ := taintOf_sinkExpression hhit
  have htracks : Tracks ctx (taintOf ctx v.2.taints target) (v.2.kept.of ctx target) :=
    tracks_taintOf hvalid.tracks target
  rw [htaint] at htracks
  have hkept : TracedFlow.kept ctx ⟨v.1, v.2, flow⟩ = v.2.kept.of ctx target := by
    simp [TracedFlow.kept, TracedFlow.originsIn, htarget]
  have hcarried : TracedFlow.carried ctx ⟨v.1, v.2, flow⟩ = v.2.carried.of ctx target := by
    simp [TracedFlow.carried, TracedFlow.originsIn, htarget]
  constructor
  · rw [hkept]
    exact htracks
  · rw [hkept, hcarried]
    exact OriginMap.of_subset hvalid.within.subset target
  · rw [hcarried]
    exact hreal.of target

/-- The traced flows of a file: those of the scopes that are visited. -/
def fileTraces (ctx : FileContext) (tree : Module) : List TracedFlow :=
  ((treeScopes ctx tree).filter Scope.seen).flatMap (tracedFlows ctx)

lemma mem_fileTraces {tree : Module} {f : TracedFlow} (h : f ∈ fileTraces ctx tree) :
    ∃ scope ∈ treeScopes ctx tree, f ∈ tracedFlows ctx scope := by
  obtain ⟨scope, hscope, hf⟩ := List.mem_flatMap.1 h
  exact ⟨scope, (List.mem_filter.1 hscope).1, hf⟩

lemma fileTraces_flow (tree : Module) :
    (fileTraces ctx tree).map TracedFlow.flow = treeFlows ctx tree := by
  unfold fileTraces treeFlows
  induction treeScopes ctx tree with
  | nil => rfl
  | cons scope scopes ih =>
      rw [List.flatMap_cons, ← ih]
      cases hseen : scope.seen with
      | true =>
          rw [List.filter_cons_of_pos hseen, List.flatMap_cons, List.map_append,
            tracedFlows_flow hseen]
      | false =>
          rw [List.filter_cons_of_neg (by simp [hseen]), flows_unseen_scope hseen,
            List.nil_append]

/-- **The findings of a file are those of its traced flows.** -/
theorem findings_fileTraces (ctx : FileContext) (tree : Module) :
    (analyzeTree ctx tree).findings.Perm ((fileTraces ctx tree).map (TracedFlow.finding ctx)) := by
  have h := findings_analyzeTree ctx tree
  rw [← fileTraces_flow, List.map_map] at h
  exact h

end Sast
