import SastEngine.Lib.Except
import SastEngine.Remediation.Patches

/-!
# What a proposal is

`build_proposal` either refuses, or renders the statement found at the sink line with one call
replaced by another.  Everything the proofs need of a generated fix is read off `SinkRewrite`.
-/

namespace Sast

variable (py : Stdlib)

/-- The new call passes a query template and its parameters (`_sql_proposal`). -/
structure Parameterizes (tree : Module) (line : Nat) (call newCall : Expr) where
  loc : Loc
  func : Expr
  queryArg : Expr
  args : List Expr
  keywords : List Keyword
  fstring : Option Template
  template : Template
  params : List Expr
  call_eq : call = .call loc func (queryArg :: args) keywords
  resolved : fstringTemplate py tree queryArg = .ok fstring
  templated : fstring.or (concatTemplate py tree line queryArg) = some template
  reparsed : template.params.mapM py.parseExpr = .ok params
  newCall_eq : newCall = parameterizedCall loc func keywords template.query params

/-- The new call wraps the command (`_cmd_proposal`). -/
structure Neutralizes (call newCall : Expr) where
  loc : Loc
  func : Expr
  arg : Expr
  args : List Expr
  keywords : List Keyword
  funcName : String
  command : String
  fix : CommandFix
  wrapped : Expr
  call_eq : call = .call loc func (arg :: args) keywords
  named : py.unparse func = .ok funcName
  printed : py.unparse arg = .ok command
  chosen : commandFix funcName keywords = some fix
  reparsed : py.parseExpr (fix.wrapper ++ "(" ++ command ++ ")") = .ok wrapped
  newCall_eq : newCall = .call loc func [wrapped] fix.keywords

/-- A proposal that replaces the call at the sink line. -/
structure SinkRewrite (finding : CandidateFinding) (source : String)
    (proposal : RemediationProposal) where
  tree : Module
  lineText : List Char
  call : Expr
  newCall : Expr
  located : sinkLines finding source = .ok (finding.sink.line, lineText)
  parsed : py.parse source = .ok tree
  called : findCallAt tree finding.sink.line = some call
  rendered : renderStatementLine py tree call newCall finding.sink.line lineText
    = .ok proposal.after
  line_eq : proposal.line = finding.sink.line
  before_eq : proposal.before = String.ofList (rstripNewline lineText)
  kind : proposal.strategy = .parameterizeQuery ∧ proposal.importToAdd = none
      ∧ Nonempty (Parameterizes py tree finding.sink.line call newCall)
    ∨ proposal.strategy ≠ .parameterizeQuery ∧ proposal.strategy ≠ .noAutomaticFix
      ∧ proposal.importToAdd = (if needsImport source then some "import shlex" else none)
      ∧ Nonempty (Neutralizes py call newCall)

variable {py} {finding : CandidateFinding} {source : String} {proposal : RemediationProposal}

/-- The proposal is a refusal, or it rewrites the sink. -/
def RefusesOrRewrites (py : Stdlib) (finding : CandidateFinding) (source : String)
    (proposal : RemediationProposal) : Prop :=
  (∃ reason, proposal = noFix finding reason) ∨ Nonempty (SinkRewrite py finding source proposal)

lemma refuses {reason : String}
    (h : (pure (noFix finding reason) : Except PatchFailure RemediationProposal) = .ok proposal) :
    RefusesOrRewrites py finding source proposal :=
  Or.inl ⟨reason, (pure_eq_ok.1 h).symm⟩

lemma sinkLines_ok {line : Nat} {text : List Char}
    (h : sinkLines finding source = .ok (line, text)) : line = finding.sink.line := by
  simp only [sinkLines] at h
  split_ifs at h
  exact (Prod.mk.inj (Except.ok.inj h)).1.symm

lemma sqlRewrite_cases {tree : Module} {lineText : List Char} {loc : Loc} {func queryArg : Expr}
    {args : List Expr} {keywords : List Keyword}
    (hlocated : sinkLines finding source = .ok (finding.sink.line, lineText))
    (hparsed : py.parse source = .ok tree)
    (hcalled : findCallAt tree finding.sink.line
      = some (.call loc func (queryArg :: args) keywords))
    (h : sqlRewrite py finding tree finding.sink.line lineText
      (.call loc func (queryArg :: args) keywords) loc func keywords queryArg = .ok proposal) :
    RefusesOrRewrites py finding source proposal := by
  obtain ⟨fstring, hfstring, h⟩ := bind_eq_ok.1 h
  split at h
  · exact refuses h
  · next template htemplate =>
      obtain ⟨params, hparams, h⟩ := bind_eq_ok.1 h
      simp only at h
      split at h
      · exact refuses h
      · next after hafter =>
          obtain rfl := pure_eq_ok.1 h
          exact Or.inr ⟨{
            tree := tree
            lineText := lineText
            call := .call loc func (queryArg :: args) keywords
            newCall := parameterizedCall loc func keywords template.query params
            located := hlocated
            parsed := hparsed
            called := hcalled
            rendered := hafter
            line_eq := rfl
            before_eq := rfl
            kind := Or.inl ⟨rfl, rfl, ⟨⟨loc, func, queryArg, args, keywords, fstring, template,
              params, rfl, hfstring, htemplate, mapError_eq_ok.1 hparams, rfl⟩⟩⟩ }⟩

lemma sqlProposal_cases (h : sqlProposal py finding source = .ok proposal) :
    RefusesOrRewrites py finding source proposal := by
  obtain ⟨⟨line, text⟩, hlocated, h⟩ := bind_eq_ok.1 h
  obtain rfl := sinkLines_ok hlocated
  simp only at h
  split at h
  · exact refuses h
  · next tree hparsed =>
      split at h
      · next hcalled =>
          split_ifs at h
          · split at h
            · exact refuses h
            · exact sqlRewrite_cases hlocated hparsed hcalled h
          · exact refuses h
      · exact refuses h

/-- The strategies of a command sink. -/
lemma commandFix_strategy {funcName : String} {keywords : List Keyword} {fix : CommandFix}
    (h : commandFix funcName keywords = some fix) :
    fix.strategy ≠ .parameterizeQuery ∧ fix.strategy ≠ .noAutomaticFix := by
  simp only [commandFix] at h
  split_ifs at h
  all_goals
    obtain rfl := Option.some.inj h
    exact ⟨by simp, by simp⟩

lemma commandRewrite_cases {tree : Module} {lineText : List Char} {loc : Loc} {func arg : Expr}
    {args : List Expr} {keywords : List Keyword} {funcName command : String} {fix : CommandFix}
    (hlocated : sinkLines finding source = .ok (finding.sink.line, lineText))
    (hparsed : py.parse source = .ok tree)
    (hcalled : findCallAt tree finding.sink.line = some (.call loc func (arg :: args) keywords))
    (hnamed : py.unparse func = .ok funcName) (hprinted : py.unparse arg = .ok command)
    (hchosen : commandFix funcName keywords = some fix)
    (h : commandRewrite py finding source tree finding.sink.line lineText
      (.call loc func (arg :: args) keywords) loc func command fix = .ok proposal) :
    RefusesOrRewrites py finding source proposal := by
  obtain ⟨wrapped, hwrapped, h⟩ := bind_eq_ok.1 h
  simp only at h
  split at h
  · exact refuses h
  · next after hafter =>
      obtain rfl := pure_eq_ok.1 h
      obtain ⟨hsql, hnone⟩ := commandFix_strategy hchosen
      exact Or.inr ⟨{
        tree := tree
        lineText := lineText
        call := .call loc func (arg :: args) keywords
        newCall := .call loc func [wrapped] fix.keywords
        located := hlocated
        parsed := hparsed
        called := hcalled
        rendered := hafter
        line_eq := rfl
        before_eq := rfl
        kind := Or.inr ⟨hsql, hnone, rfl, ⟨⟨loc, func, arg, args, keywords, funcName, command, fix,
          wrapped, rfl, hnamed, hprinted, hchosen, mapError_eq_ok.1 hwrapped, rfl⟩⟩⟩ }⟩

lemma cmdProposal_cases (h : cmdProposal py finding source = .ok proposal) :
    RefusesOrRewrites py finding source proposal := by
  obtain ⟨⟨line, text⟩, hlocated, h⟩ := bind_eq_ok.1 h
  obtain rfl := sinkLines_ok hlocated
  simp only at h
  split at h
  · exact refuses h
  · next tree hparsed =>
      split at h
      · next loc func args keywords hcalled =>
          obtain ⟨funcName, hnamed, h⟩ := bind_eq_ok.1 h
          split at h
          · exact refuses h
          · next arg args =>
              obtain ⟨command, hprinted, h⟩ := bind_eq_ok.1 h
              split at h
              · exact refuses h
              · next fix hchosen =>
                  exact commandRewrite_cases hlocated hparsed hcalled (mapError_eq_ok.1 hnamed)
                    (mapError_eq_ok.1 hprinted) hchosen h
      · exact refuses h

/-- **Every proposal is a refusal or rewrites the call at the sink line.** -/
theorem buildProposal_cases (h : buildProposal py finding source = .ok proposal) :
    RefusesOrRewrites py finding source proposal := by
  unfold buildProposal at h
  split_ifs at h
  · exact sqlProposal_cases h
  · exact cmdProposal_cases h
  · exact Or.inl ⟨_, (Except.ok.inj h).symm⟩

/-- A proposal with a fix rewrites the call at the sink line. -/
lemma exists_sinkRewrite (h : buildProposal py finding source = .ok proposal)
    (hfix : proposal.strategy ≠ .noAutomaticFix) :
    Nonempty (SinkRewrite py finding source proposal) := by
  rcases buildProposal_cases h with ⟨reason, rfl⟩ | hrewrite
  · exact absurd rfl hfix
  · exact hrewrite

/-- **Every proposal is anchored at the sink line of its finding**, whatever the text is now. -/
lemma buildProposal_line (h : buildProposal py finding source = .ok proposal) :
    proposal.line = finding.sink.line := by
  rcases buildProposal_cases h with ⟨reason, rfl⟩ | hrewrite
  · rfl
  · obtain ⟨rewrite⟩ := hrewrite
    exact rewrite.line_eq

end Sast
