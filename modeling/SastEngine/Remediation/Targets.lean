import SastEngine.Lib.Sorting
import SastEngine.Remediation.Proposals
import SastEngine.Scan.Paths

/-!
# Which call a patch rewrites

A finding keeps the line of its sink, not the call.  `_find_call_at` chooses a call again, among
all that start on that line, and `_find_statement_at` the statement to print.
-/

namespace Sast

/-! ## The sink calls of a file are calls of its tree -/

section SinkCalls

variable {ctx : FileContext} {flow : SinkFlow}

lemma call_mem_site {operands scanned : List Expr} {t : Taints} {calls : List Expr}
    (h : flow ∈ (siteAt true operands scanned t).flows ctx)
    (hcalls : ∀ e ∈ scanned, callsIn e ⊆ calls) : flow.call ∈ calls := by
  obtain ⟨e, he, hflow⟩ := List.mem_flatMap.1 h
  exact hcalls e he (mem_callsIn (mem_exprFlows.1 hflow).1)

/-- Nothing flows below a statement that the engine falls through on. -/
lemma not_mem_unseen (s : Stmt) (t : Taints) :
    flow ∉ (stmtSites ctx false s t).flatMap (Site.flows ctx) := by
  simp [flows_stmtSites_unseen]

mutual

lemma call_mem_stmt :
    ∀ (s : Stmt) (t : Taints), flow ∈ (stmtSites ctx true s t).flatMap (Site.flows ctx) →
      flow.call ∈ s.calls
  | .assign _ targets value, t, h | .augAssign _ targets _ value, t, h => by
      simp only [stmtSites, List.flatMap_cons, List.flatMap_nil, List.append_nil] at h
      refine call_mem_site h ?_
      simp [Stmt.calls]
  | .annAssign _ target _ value _, t, h => by
      simp only [stmtSites, List.flatMap_cons, List.flatMap_nil, List.append_nil] at h
      refine call_mem_site h ?_
      cases value <;> simp [Stmt.calls, callsInOpt]
  | .expr _ value, t, h => by
      simp only [stmtSites, List.flatMap_cons, List.flatMap_nil, List.append_nil] at h
      refine call_mem_site h ?_
      simp [Stmt.calls]
  | .return_ _ value, t, h => by
      simp only [stmtSites, List.flatMap_cons, List.flatMap_nil, List.append_nil] at h
      refine call_mem_site h ?_
      cases value <;> simp [Stmt.calls, callsInOpt]
  | .if_ _ test body orelse, t, h | .while_ _ test body orelse, t, h => by
      simp only [stmtSites, List.flatMap_cons, List.flatMap_append, List.mem_append] at h
      simp only [Stmt.calls, List.mem_append]
      rcases h with h | h | h
      · exact Or.inl (Or.inl (call_mem_site h (by simp)))
      · exact Or.inl (Or.inr (call_mem_block body t h))
      · exact Or.inr (call_mem_block orelse t h)
  | .for_ loc target iter body orelse, t, h => by
      simp only [stmtSites, List.flatMap_cons, List.flatMap_append, List.mem_append] at h
      simp only [Stmt.calls, List.mem_append]
      rcases h with h | h | h
      · exact Or.inl (Or.inl (Or.inr (call_mem_site h (by simp))))
      · exact Or.inl (Or.inr (call_mem_block body _ h))
      · exact Or.inr (call_mem_block orelse _ h)
  | .try_ _ body handlers orelse finalbody, t, h => by
      simp only [stmtSites, List.flatMap_append, List.mem_append] at h
      simp only [Stmt.calls, List.mem_append]
      rcases h with ((h | h) | h) | h
      · exact Or.inl (Or.inl (Or.inl (call_mem_block body t h)))
      · exact Or.inl (Or.inr (call_mem_block orelse _ h))
      · exact Or.inr (call_mem_block finalbody _ h)
      · exact Or.inl (Or.inl (Or.inr (call_mem_handlers handlers _ h)))
  | .with_ _ items body, t, h => by
      simp only [stmtSites, List.flatMap_cons, flows_siteAt_nil, List.nil_append] at h
      exact List.mem_append_right _ (call_mem_block body t h)
  | .asyncFor l tg it body orelse, t, h =>
      absurd h (not_mem_unseen (.asyncFor l tg it body orelse) t)
  | .asyncWith l items body, t, h => absurd h (not_mem_unseen (.asyncWith l items body) t)
  | .tryStar l body handlers orelse finalbody, t, h =>
      absurd h (not_mem_unseen (.tryStar l body handlers orelse finalbody) t)
  | .match_ l subject cases, t, h => absurd h (not_mem_unseen (.match_ l subject cases) t)
  | .functionDef .., t, h | .asyncFunctionDef .., t, h | .classDef .., t, h | .delete .., t, h
  | .raise .., t, h | .assert .., t, h | .import_ .., t, h | .importFrom .., t, h
  | .global .., t, h | .nonlocal .., t, h | .pass _, t, h | .break_ _, t, h
  | .continue_ _, t, h => by
      simp [stmtSites] at h

lemma call_mem_block :
    ∀ (ss : List Stmt) (t : Taints), flow ∈ (blockSites ctx true ss t).flatMap (Site.flows ctx) →
      flow.call ∈ callsInBlock ss
  | [], t, h => by simp [blockSites] at h
  | s :: ss, t, h => by
      simp only [blockSites, List.flatMap_append, List.mem_append] at h
      rcases h with h | h
      · exact List.mem_append_left _ (call_mem_stmt s t h)
      · exact List.mem_append_right _ (call_mem_block ss _ h)

lemma call_mem_handlers :
    ∀ (hs : List ExceptHandler) (t : Taints),
      flow ∈ (handlerSites ctx true hs t).flatMap (Site.flows ctx) →
      flow.call ∈ callsInHandlers hs
  | [], t, h => by simp [handlerSites] at h
  | .mk _ type _ body :: hs, t, h => by
      simp only [handlerSites, List.flatMap_cons, List.flatMap_append, flows_siteAt_nil,
        List.nil_append, List.mem_append] at h
      simp only [callsInHandlers, List.mem_append]
      rcases h with h | h
      · exact Or.inl (Or.inr (call_mem_block body t h))
      · exact Or.inr (call_mem_handlers hs _ h)

end

lemma not_mem_unseen_scopes (s : Stmt) :
    flow ∉ (stmtScopes ctx false s).flatMap (Scope.flows ctx) := by
  rw [flows_unseen_scopes fun _ hscope => seen_of_mem_stmtScopes s hscope]
  exact List.not_mem_nil

mutual

lemma call_mem_stmtScopes :
    ∀ s : Stmt, flow ∈ (stmtScopes ctx true s).flatMap (Scope.flows ctx) → flow.call ∈ s.calls
  | .functionDef loc _ args body _ _, h | .asyncFunctionDef loc _ args body _ _, h => by
      have hbody : flow.call ∈ callsInBlock body := by
        rw [stmtScopes, List.flatMap_cons, List.mem_append] at h
        rcases h with h | h
        · exact call_mem_block body _ h
        · exact call_mem_blockScopes body h
      simp [Stmt.calls, hbody]
  | .classDef _ _ _ _ body _, h => by
      have hbody : flow.call ∈ callsInBlock body := by
        rw [stmtScopes, List.flatMap_cons, List.mem_append] at h
        rcases h with h | h
        · exact call_mem_block body _ h
        · exact call_mem_blockScopes body h
      simp [Stmt.calls, hbody]
  | .if_ _ _ body orelse, h | .while_ _ _ body orelse, h | .for_ _ _ _ body orelse, h => by
      simp only [stmtScopes, List.flatMap_append, List.mem_append] at h
      simp only [Stmt.calls, List.mem_append]
      rcases h with h | h
      · exact Or.inl (Or.inr (call_mem_blockScopes body h))
      · exact Or.inr (call_mem_blockScopes orelse h)
  | .try_ _ body handlers orelse finalbody, h => by
      simp only [stmtScopes, List.flatMap_append, List.mem_append] at h
      simp only [Stmt.calls, List.mem_append]
      rcases h with ((h | h) | h) | h
      · exact Or.inl (Or.inl (Or.inl (call_mem_blockScopes body h)))
      · exact Or.inl (Or.inr (call_mem_blockScopes orelse h))
      · exact Or.inr (call_mem_blockScopes finalbody h)
      · exact Or.inl (Or.inl (Or.inr (call_mem_handlerScopes handlers h)))
  | .with_ _ _ body, h => List.mem_append_right _ (call_mem_blockScopes body h)
  | .asyncFor l tg it body orelse, h =>
      absurd h (not_mem_unseen_scopes (.asyncFor l tg it body orelse))
  | .asyncWith l items body, h => absurd h (not_mem_unseen_scopes (.asyncWith l items body))
  | .tryStar l body handlers orelse finalbody, h =>
      absurd h (not_mem_unseen_scopes (.tryStar l body handlers orelse finalbody))
  | .match_ l subject cases, h => absurd h (not_mem_unseen_scopes (.match_ l subject cases))
  | .assign .., h | .annAssign .., h | .augAssign .., h | .expr .., h | .return_ .., h
  | .delete .., h | .raise .., h | .assert .., h | .import_ .., h | .importFrom .., h
  | .global .., h | .nonlocal .., h | .pass _, h | .break_ _, h | .continue_ _, h => by
      simp [stmtScopes] at h

lemma call_mem_blockScopes :
    ∀ ss : List Stmt, flow ∈ (blockScopes ctx true ss).flatMap (Scope.flows ctx) →
      flow.call ∈ callsInBlock ss
  | [], h => by simp [blockScopes] at h
  | s :: ss, h => by
      simp only [blockScopes, List.flatMap_append, List.mem_append] at h
      rcases h with h | h
      · exact List.mem_append_left _ (call_mem_stmtScopes s h)
      · exact List.mem_append_right _ (call_mem_blockScopes ss h)

lemma call_mem_handlerScopes :
    ∀ hs : List ExceptHandler, flow ∈ (handlerScopes ctx true hs).flatMap (Scope.flows ctx) →
      flow.call ∈ callsInHandlers hs
  | [], h => by simp [handlerScopes] at h
  | .mk _ _ _ body :: hs, h => by
      simp only [handlerScopes, List.flatMap_append, List.mem_append] at h
      simp only [callsInHandlers, List.mem_append]
      rcases h with h | h
      · exact Or.inl (Or.inr (call_mem_blockScopes body h))
      · exact Or.inr (call_mem_handlerScopes hs h)

end

/-- **The sink call of every flow** is among the calls of the tree. -/
theorem call_mem_tree {tree : Module} (h : flow ∈ treeFlows ctx tree) :
    flow.call ∈ tree.calls := by
  rw [treeFlows, treeScopes, List.flatMap_cons, List.mem_append] at h
  rcases h with h | h
  · exact call_mem_block tree.body _ h
  · exact call_mem_blockScopes tree.body h

end SinkCalls

/-! ## Choosing a call -/

/-- **`min` with a key** returns the first element with the least key. -/
lemma firstMin_eq_some_iff {α : Type} {key : α → Nat} {xs : List α} {x : α} :
    firstMin key xs = some x ↔ FirstLeast key xs x := by
  cases xs with
  | nil => simp [firstMin, FirstLeast]
  | cons y ys =>
      have hleast := @firstLeast_foldl _ key ys y
      constructor
      · intro h
        rwa [← Option.some.inj h]
      · intro h
        exact congrArg some (hleast.unique h)

/-! ## Fixes -/

variable (py : Stdlib)

/-- The call is the first one with the fewest nodes among those that start on the line. -/
def FirstSmallestCall (tree : Module) (line : Nat) (call : Expr) : Prop :=
  FirstLeast Expr.nodeCount (tree.calls.filter fun c => c.loc.lineno = line) call

/-- A call of a SQL method. -/
def isSqlMethodCall : Expr → Bool
  | .call _ (.attribute _ _ attr _) _ _ => attr ∈ patchSqlMethods
  | _ => false

/-- The call and its argument have a form that the strategy for the type of the finding takes: a
query that one of the two strategies takes apart, or any command of one of the known functions. -/
def SupportedForm (finding : CandidateFinding) (tree : Module) (call : Expr) : Prop :=
  ∃ loc func arg args keywords, call = .call loc func (arg :: args) keywords
    ∧ (finding.vulnerabilityType = "sql_injection" ∧ isSqlMethodCall call
        ∧ (∃ fstring template, fstringTemplate py tree arg = .ok fstring
          ∧ fstring.or (concatTemplate py tree finding.sink.line arg) = some template)
      ∨ finding.vulnerabilityType = "command_injection"
        ∧ ∃ funcName fix, py.unparse func = .ok funcName ∧ commandFix funcName keywords = some fix)

/-- The fix of a call can be built and printed: its form is supported, the texts that take the
place of its arguments parse, and the statement on the line prints. -/
def Fixable (finding : CandidateFinding) (source : String) (tree : Module) (call : Expr) : Prop :=
  ∃ lineText newCall after, sinkLines finding source = .ok (finding.sink.line, lineText)
    ∧ renderStatementLine py tree call newCall finding.sink.line lineText = .ok after
    ∧ (finding.vulnerabilityType = "sql_injection" ∧ isSqlMethodCall call
        ∧ Nonempty (Parameterizes py tree finding.sink.line call newCall)
      ∨ finding.vulnerabilityType = "command_injection" ∧ Nonempty (Neutralizes py call newCall))

/-- What is printed for the line contains the call: the statement found there, or the call
alone. -/
def ShownAt (tree : Module) (line : Nat) (call : Expr) : Prop :=
  match findStatementAt tree line with
  | none => True
  | some statement => call ∈ statement.calls

/-- The proposal rewrites the call: it is the call that is replaced, and it stands in the statement
that is printed. -/
def Rewrites (finding : CandidateFinding) (source : String) (proposal : RemediationProposal)
    (call : Expr) : Prop :=
  ∃ rewrite : SinkRewrite py finding source proposal, rewrite.call = call
    ∧ ShownAt rewrite.tree finding.sink.line call

/-- The proposal for a finding targets its sink call: a fix rewrites that call, and a call of a
supported form gets a fix. -/
structure TargetsSink (finding : CandidateFinding) (source : String) (tree : Module)
    (call : Expr) : Prop where
  rewrites : ∀ proposal, buildProposal py finding source = .ok proposal →
    proposal.strategy ≠ .noAutomaticFix → Rewrites py finding source proposal call
  fixes : SupportedForm py finding tree call →
    ∃ proposal, buildProposal py finding source = .ok proposal
      ∧ proposal.strategy ≠ .noAutomaticFix

/-- If the sink call is supported, or the first smallest call on its line can be fixed, they are
the same call, which can be fixed and stands in the statement on the line. -/
def SinkIsSmallest (finding : CandidateFinding) (source : String) (tree : Module)
    (call : Expr) : Prop :=
  ∀ chosen, FirstSmallestCall tree finding.sink.line chosen →
    SupportedForm py finding tree call ∨ Fixable py finding source tree chosen →
    chosen = call ∧ ShownAt tree finding.sink.line call ∧ Fixable py finding source tree call

variable {py} {finding : CandidateFinding} {source : String} {tree : Module} {chosen : Expr}

lemma findCallAt_eq_some_iff {line : Nat} {call : Expr} :
    findCallAt tree line = some call ↔ FirstSmallestCall tree line call :=
  firstMin_eq_some_iff

lemma isSqlMethodCall_iff {call : Expr} : isSqlMethodCall call
    ↔ ∃ loc fl receiver attr fc args keywords,
      call = .call loc (.attribute fl receiver attr fc) args keywords
        ∧ attr ∈ patchSqlMethods := by
  constructor
  · intro h
    unfold isSqlMethodCall at h
    split at h
    · exact ⟨_, _, _, _, _, _, _, rfl, by simpa using h⟩
    · cases h
  · rintro ⟨loc, fl, receiver, attr, fc, args, keywords, rfl, hattr⟩
    simpa [isSqlMethodCall] using hattr

lemma noFix_strategy {reason : String} {proposal : RemediationProposal}
    (h : (pure (noFix finding reason) : Except PatchFailure RemediationProposal) = .ok proposal) :
    proposal.strategy = .noAutomaticFix := by
  obtain rfl := pure_eq_ok.1 h
  rfl

/-- What is proposed for a sink of a SQL method. -/
lemma sqlProposal_eq {lineText : List Char} {loc : Loc} {func arg : Expr} {args : List Expr}
    {keywords : List Keyword}
    (hlocated : sinkLines finding source = .ok (finding.sink.line, lineText))
    (hparsed : py.parse source = .ok tree)
    (hcalled : findCallAt tree finding.sink.line = some (.call loc func (arg :: args) keywords))
    (hmethod : isSqlMethodCall (.call loc func (arg :: args) keywords)) :
    sqlProposal py finding source = sqlRewrite py finding tree finding.sink.line lineText
      (.call loc func (arg :: args) keywords) loc func keywords arg := by
  obtain ⟨loc', fl, receiver, attr, fc, args', keywords', heq, hattr⟩ :=
    isSqlMethodCall_iff.1 hmethod
  obtain ⟨rfl, rfl, rfl, rfl⟩ := Expr.call.inj heq
  simp [sqlProposal, hlocated, hparsed, hcalled, hattr, bind, Except.bind]

lemma fixable_of_sqlRewrite {lineText : List Char} {loc : Loc} {func arg : Expr}
    {args : List Expr} {keywords : List Keyword} {proposal : RemediationProposal}
    (hlocated : sinkLines finding source = .ok (finding.sink.line, lineText))
    (htype : finding.vulnerabilityType = "sql_injection")
    (hmethod : isSqlMethodCall (.call loc func (arg :: args) keywords))
    (h : sqlRewrite py finding tree finding.sink.line lineText
      (.call loc func (arg :: args) keywords) loc func keywords arg = .ok proposal)
    (hfix : proposal.strategy ≠ .noAutomaticFix) :
    Fixable py finding source tree (.call loc func (arg :: args) keywords) := by
  obtain ⟨fstring, hfstring, h⟩ := bind_eq_ok.1 h
  split at h
  · exact absurd (noFix_strategy h) hfix
  · next template htemplate =>
      obtain ⟨params, hparams, h⟩ := bind_eq_ok.1 h
      simp only at h
      split at h
      · exact absurd (noFix_strategy h) hfix
      · next after hafter =>
          exact ⟨lineText, _, after, hlocated, hafter, Or.inl ⟨htype, hmethod, ⟨⟨loc, func, arg,
            args, keywords, fstring, template, params, rfl, hfstring, htemplate,
            mapError_eq_ok.1 hparams, rfl⟩⟩⟩⟩

lemma sqlRewrite_of_fixable {lineText : List Char} {call newCall : Expr} {after : String}
    (z : Parameterizes py tree finding.sink.line call newCall)
    (hrendered : renderStatementLine py tree call newCall finding.sink.line lineText = .ok after) :
    ∃ proposal, sqlRewrite py finding tree finding.sink.line lineText call z.loc z.func z.keywords
        z.queryArg = .ok proposal ∧ proposal.strategy ≠ .noAutomaticFix := by
  refine ⟨{
    findingId := finding.id
    vulnerabilityType := finding.vulnerabilityType
    file := finding.sink.file
    line := finding.sink.line
    strategy := .parameterizeQuery
    before := String.ofList (rstripNewline lineText)
    after := after
    rationale := sqlRationale }, ?_, by simp⟩
  have hnew := z.newCall_eq
  rw [hnew] at hrendered
  simp [sqlRewrite, z.resolved, z.templated, z.reparsed, hrendered, unguarded, bind, Except.bind,
    Except.mapError, pure, Except.pure]

/-- A SQL fix is proposed iff the chosen call can be fixed. -/
lemma sqlProposal_iff (hparsed : py.parse source = .ok tree)
    (hcalled : findCallAt tree finding.sink.line = some chosen)
    (htype : finding.vulnerabilityType = "sql_injection") :
    (∃ proposal, sqlProposal py finding source = .ok proposal
        ∧ proposal.strategy ≠ .noAutomaticFix) ↔ Fixable py finding source tree chosen := by
  constructor
  · rintro ⟨proposal, h, hfix⟩
    obtain ⟨⟨line, lineText⟩, hlocated, h⟩ := bind_eq_ok.1 h
    obtain rfl := sinkLines_ok hlocated
    simp only [hparsed, hcalled] at h
    split at h
    · next loc fl receiver attr fc args keywords heq =>
        obtain rfl := Option.some.inj heq
        split_ifs at h with hattr
        · have hmethod := isSqlMethodCall_iff.2 ⟨loc, fl, receiver, attr, fc, args, keywords, rfl,
            hattr⟩
          cases args with
          | nil => exact absurd (noFix_strategy h) hfix
          | cons arg args => exact fixable_of_sqlRewrite hlocated htype hmethod h hfix
        · exact absurd (noFix_strategy h) hfix
    · exact absurd (noFix_strategy h) hfix
  · rintro ⟨lineText, newCall, after, hlocated, hrendered, ⟨-, hmethod, ⟨z⟩⟩ | ⟨hcommand, -⟩⟩
    · have hcall := z.call_eq
      rw [hcall] at hcalled hmethod
      rw [sqlProposal_eq hlocated hparsed hcalled hmethod, ← hcall]
      exact sqlRewrite_of_fixable z hrendered
    · rw [htype] at hcommand
      exact absurd hcommand (by decide)

/-- What is proposed for a command sink. -/
lemma cmdProposal_eq {lineText : List Char} {call newCall : Expr}
    (hlocated : sinkLines finding source = .ok (finding.sink.line, lineText))
    (hparsed : py.parse source = .ok tree)
    (hcalled : findCallAt tree finding.sink.line = some call) (z : Neutralizes py call newCall) :
    cmdProposal py finding source = commandRewrite py finding source tree finding.sink.line
      lineText call z.loc z.func z.command z.fix := by
  obtain ⟨loc, func, arg, args, keywords, funcName, command, fix, wrapped, rfl, hnamed, hprinted,
    hchosen, -, -⟩ := z
  simp [cmdProposal, hlocated, hparsed, hcalled, hnamed, hprinted, hchosen, unguarded, bind,
    Except.bind, Except.mapError]

lemma commandRewrite_of_fixable {lineText : List Char} {call newCall : Expr} {after : String}
    (z : Neutralizes py call newCall)
    (hrendered : renderStatementLine py tree call newCall finding.sink.line lineText = .ok after) :
    ∃ proposal, commandRewrite py finding source tree finding.sink.line lineText call z.loc z.func
        z.command z.fix = .ok proposal ∧ proposal.strategy ≠ .noAutomaticFix := by
  refine ⟨{
    findingId := finding.id
    vulnerabilityType := finding.vulnerabilityType
    file := finding.sink.file
    line := finding.sink.line
    strategy := z.fix.strategy
    before := String.ofList (rstripNewline lineText)
    after := after
    importToAdd := if needsImport source then some "import shlex" else none
    rationale := z.fix.rationale }, ?_, (commandFix_strategy z.chosen).2⟩
  have hnew := z.newCall_eq
  rw [hnew] at hrendered
  simp [commandRewrite, z.reparsed, hrendered, unguarded, bind, Except.bind, Except.mapError, pure,
    Except.pure]

lemma fixable_of_commandRewrite {lineText : List Char} {loc : Loc} {func arg : Expr}
    {args : List Expr} {keywords : List Keyword} {funcName command : String} {fix : CommandFix}
    {proposal : RemediationProposal}
    (hlocated : sinkLines finding source = .ok (finding.sink.line, lineText))
    (htype : finding.vulnerabilityType = "command_injection")
    (hnamed : py.unparse func = .ok funcName) (hprinted : py.unparse arg = .ok command)
    (hchosen : commandFix funcName keywords = some fix)
    (h : commandRewrite py finding source tree finding.sink.line lineText
      (.call loc func (arg :: args) keywords) loc func command fix = .ok proposal)
    (hfix : proposal.strategy ≠ .noAutomaticFix) :
    Fixable py finding source tree (.call loc func (arg :: args) keywords) := by
  obtain ⟨wrapped, hwrapped, h⟩ := bind_eq_ok.1 h
  simp only at h
  split at h
  · exact absurd (noFix_strategy h) hfix
  · next after hafter =>
      exact ⟨lineText, _, after, hlocated, hafter, Or.inr ⟨htype, ⟨⟨loc, func, arg, args, keywords,
        funcName, command, fix, wrapped, rfl, hnamed, hprinted, hchosen,
        mapError_eq_ok.1 hwrapped, rfl⟩⟩⟩⟩

/-- A command fix is proposed iff the chosen call can be fixed. -/
lemma cmdProposal_iff (hparsed : py.parse source = .ok tree)
    (hcalled : findCallAt tree finding.sink.line = some chosen)
    (htype : finding.vulnerabilityType = "command_injection") :
    (∃ proposal, cmdProposal py finding source = .ok proposal
        ∧ proposal.strategy ≠ .noAutomaticFix) ↔ Fixable py finding source tree chosen := by
  constructor
  · rintro ⟨proposal, h, hfix⟩
    obtain ⟨⟨line, lineText⟩, hlocated, h⟩ := bind_eq_ok.1 h
    obtain rfl := sinkLines_ok hlocated
    simp only [hparsed, hcalled] at h
    split at h
    · next loc func args keywords heq =>
        obtain rfl := Option.some.inj heq
        obtain ⟨funcName, hnamed, h⟩ := bind_eq_ok.1 h
        split at h
        · exact absurd (noFix_strategy h) hfix
        · next arg args =>
            obtain ⟨command, hprinted, h⟩ := bind_eq_ok.1 h
            split at h
            · exact absurd (noFix_strategy h) hfix
            · next fix hchosen =>
                exact fixable_of_commandRewrite hlocated htype (mapError_eq_ok.1 hnamed)
                  (mapError_eq_ok.1 hprinted) hchosen h hfix
    · exact absurd (noFix_strategy h) hfix
  · rintro ⟨lineText, newCall, after, hlocated, hrendered, ⟨hsql, -⟩ | ⟨-, ⟨z⟩⟩⟩
    · rw [htype] at hsql
      exact absurd hsql (by decide)
    · rw [cmdProposal_eq hlocated hparsed hcalled z]
      exact commandRewrite_of_fixable z hrendered

/-- **A fix is proposed** iff the call that `_find_call_at` chooses can be fixed. -/
lemma buildProposal_iff (hparsed : py.parse source = .ok tree)
    (hcalled : findCallAt tree finding.sink.line = some chosen) :
    (∃ proposal, buildProposal py finding source = .ok proposal
        ∧ proposal.strategy ≠ .noAutomaticFix) ↔ Fixable py finding source tree chosen := by
  unfold buildProposal
  split_ifs with hsql hcommand
  · exact sqlProposal_iff hparsed hcalled hsql
  · exact cmdProposal_iff hparsed hcalled hcommand
  · constructor
    · rintro ⟨proposal, h, hfix⟩
      obtain rfl := Except.ok.inj h
      exact absurd rfl hfix
    · rintro ⟨_, _, _, _, _, ⟨h, -⟩ | ⟨h, -⟩⟩
      · exact absurd h hsql
      · exact absurd h hcommand

/-- A fix rewrites the call iff that is the chosen one and stands in the statement printed. -/
lemma rewrites_iff (hparsed : py.parse source = .ok tree)
    (hcalled : findCallAt tree finding.sink.line = some chosen)
    {proposal : RemediationProposal} (h : buildProposal py finding source = .ok proposal)
    (hfix : proposal.strategy ≠ .noAutomaticFix) (call : Expr) :
    Rewrites py finding source proposal call
      ↔ chosen = call ∧ ShownAt tree finding.sink.line call := by
  have hsame : ∀ rewrite : SinkRewrite py finding source proposal,
      rewrite.tree = tree ∧ rewrite.call = chosen := by
    intro rewrite
    have htree : rewrite.tree = tree := Except.ok.inj (rewrite.parsed.symm.trans hparsed)
    refine ⟨htree, Option.some.inj ?_⟩
    rw [← hcalled, ← htree, rewrite.called]
  constructor
  · rintro ⟨rewrite, rfl, hshown⟩
    obtain ⟨htree, hcall⟩ := hsame rewrite
    exact ⟨hcall.symm, htree ▸ hshown⟩
  · rintro ⟨rfl, hshown⟩
    obtain ⟨rewrite⟩ := exists_sinkRewrite h hfix
    obtain ⟨htree, hcall⟩ := hsame rewrite
    exact ⟨rewrite, hcall, htree ▸ hshown⟩

/-- The patch of a finding targets a call on its line iff that call is the smallest there. -/
lemma targetsSink_iff_smallest (hparsed : py.parse source = .ok tree) {call : Expr}
    (hmem : call ∈ tree.calls) (hline : call.loc.lineno = finding.sink.line) :
    TargetsSink py finding source tree call ↔ SinkIsSmallest py finding source tree call := by
  have hcandidate : call ∈ tree.calls.filter fun c => c.loc.lineno = finding.sink.line := by
    simpa [hline] using hmem
  obtain ⟨chosen, hcalled⟩ : ∃ chosen, findCallAt tree finding.sink.line = some chosen := by
    unfold findCallAt
    cases hcalls : tree.calls.filter fun c => c.loc.lineno = finding.sink.line with
    | nil => simp [hcalls] at hcandidate
    | cons c cs => exact ⟨_, rfl⟩
  have hbuild := buildProposal_iff hparsed hcalled
  have hsmallest := findCallAt_eq_some_iff.1 hcalled
  constructor
  · rintro ⟨hrewrites, hfixes⟩ other hother hneeds
    obtain rfl := hsmallest.unique hother
    obtain ⟨proposal, h, hfix⟩ := hneeds.elim hfixes hbuild.2
    obtain ⟨rfl, hshown⟩ := (rewrites_iff hparsed hcalled h hfix call).1 (hrewrites proposal h hfix)
    exact ⟨rfl, hshown, hbuild.1 ⟨proposal, h, hfix⟩⟩
  · intro hsink
    constructor
    · intro proposal h hfix
      obtain ⟨hchosen, hshown, -⟩ :=
        hsink chosen hsmallest (Or.inr (hbuild.1 ⟨proposal, h, hfix⟩))
      exact (rewrites_iff hparsed hcalled h hfix call).2 ⟨hchosen, hshown⟩
    · intro hsupported
      obtain ⟨rfl, -, hfixable⟩ := hsink chosen hsmallest (Or.inl hsupported)
      exact hbuild.2 hfixable

/-! ## Findings of a scan -/

/-- A rule whose findings have an automatic fix reports its sink at the call it matched. -/
lemma line_of_flow {rule : ScanRule}
    (hrule : rule = sqlInjectionRule py ∨ rule = commandInjectionRule py) {projectId : String}
    {codeFile : SourceFile} {flow : SinkFlow}
    (h : flow ∈ treeFlows (contextOf py rule projectId codeFile) tree) :
    flow.call.loc.lineno = flow.sink.line := by
  simp only [treeFlows, Scope.flows, Site.flows, List.mem_flatMap, mem_exprFlows] at h
  obtain ⟨_, _, _, _, _, _, _, hhit⟩ := h
  obtain ⟨hmatch, -⟩ := exists_taintedSink.1 ⟨_, hhit⟩
  rcases hrule with rfl | rfl
  · simp only [contextOf, sqlInjectionRule, sqlMatchSink] at hmatch
    split at hmatch
    · split_ifs at hmatch
      exact congrArg SinkRef.line (Option.some.inj hmatch)
    · cases hmatch
  · simp only [contextOf, commandInjectionRule, commandMatchSink] at hmatch
    split at hmatch
    · split_ifs at hmatch
      exact congrArg SinkRef.line (Option.some.inj hmatch)
    · cases hmatch

/-- Every finding that a scan of the file emits has a patch that targets its sink call. -/
def PatchesTargetSinks (py : Stdlib) (rule : ScanRule) (projectId : String)
    (codeFile : SourceFile) : Prop :=
  ∀ tree, py.parse codeFile.source = .ok tree →
    ∀ flow ∈ treeFlows (contextOf py rule projectId codeFile) tree,
      TargetsSink py (flow.finding (contextOf py rule projectId codeFile)) codeFile.source tree
        flow.call

/-- **The patch of a finding targets its sink call** iff that call is the first smallest one on
its line, wherever either of the two could be fixed.  The findings of a scan are those of the
flows into such calls. -/
theorem targetsSink_iff {rule : ScanRule}
    (hrule : rule = sqlInjectionRule py ∨ rule = commandInjectionRule py) (projectId : String)
    {codeFile : SourceFile} (herror : codeFile.error = none)
    (hparse : py.parse codeFile.source = .ok tree) :
    (∃ findings summaries, analyzeFile py rule projectId codeFile = .ok (findings, summaries)
      ∧ findings.Perm ((treeFlows (contextOf py rule projectId codeFile) tree).map
        (SinkFlow.finding (contextOf py rule projectId codeFile))))
    ∧ (PatchesTargetSinks py rule projectId codeFile
        ↔ ∀ flow ∈ treeFlows (contextOf py rule projectId codeFile) tree,
          SinkIsSmallest py (flow.finding (contextOf py rule projectId codeFile)) codeFile.source
            tree flow.call)
    ∧ ∀ flow ∈ treeFlows (contextOf py rule projectId codeFile) tree,
        (TargetsSink py (flow.finding (contextOf py rule projectId codeFile)) codeFile.source tree
            flow.call
          ↔ SinkIsSmallest py (flow.finding (contextOf py rule projectId codeFile))
            codeFile.source tree flow.call) := by
  have hflow : ∀ flow ∈ treeFlows (contextOf py rule projectId codeFile) tree,
      (TargetsSink py (flow.finding (contextOf py rule projectId codeFile)) codeFile.source tree
          flow.call
        ↔ SinkIsSmallest py (flow.finding (contextOf py rule projectId codeFile))
          codeFile.source tree flow.call) := by
    intro flow hflow
    exact targetsSink_iff_smallest hparse (call_mem_tree hflow) (line_of_flow hrule hflow)
  refine ⟨⟨_, _, analyzeFile_eq herror hparse, findings_analyzeTree _ tree⟩, ?_, hflow⟩
  constructor
  · intro h flow hmem
    exact (hflow flow hmem).1 (h tree hparse flow hmem)
  · intro h other hother flow hmem
    obtain rfl := Except.ok.inj (hother.symm.trans hparse)
    exact (hflow flow hmem).2 (h flow hmem)

/-- An interpreter that knows the file with the one statement `os.system(cmd)`, and the text of
its new argument. -/
def statementFixPython : Stdlib :=
  tabulatedPython [(statementFile.source, statementTree)]
    [("shlex.quote(cmd)", callAt 1 0 "shlex" "quote" (nameAt 1 12 "cmd"))]

/-- The sink call of that file. -/
def statementCall : Expr := callAt 3 4 "os" "system" (nameAt 3 14 "cmd")

/-- In that file the patch of the only finding targets its sink call. -/
theorem targetsSink_statementFile : ∃ flow ∈ treeFlows (contextOf statementFixPython
      (commandInjectionRule statementFixPython) "p" statementFile) statementTree,
    flow.call = statementCall
      ∧ TargetsSink statementFixPython (flow.finding (contextOf statementFixPython
        (commandInjectionRule statementFixPython) "p" statementFile)) statementFile.source
        statementTree flow.call := by
  let ctx := contextOf statementFixPython (commandInjectionRule statementFixPython) "p"
    statementFile
  have hparse : statementFixPython.parse statementFile.source = .ok statementTree :=
    parse_tabulatedPython ..
  obtain ⟨flow, hflows⟩ : ∃ flow, treeFlows ctx statementTree = [flow] := ⟨_, rfl⟩
  have hmem : flow ∈ treeFlows ctx statementTree := by
    rw [hflows]
    exact List.mem_singleton_self flow
  have hcalls : (treeFlows ctx statementTree).map SinkFlow.call = [statementCall] := rfl
  have hcall : flow.call = statementCall := by
    rw [hflows] at hcalls
    exact (List.cons.inj hcalls).1
  refine ⟨flow, hmem, hcall, ?_⟩
  refine ((targetsSink_iff (Or.inr rfl) "p" rfl hparse).2.2 flow hmem).2 ?_
  have hline : (flow.finding ctx).sink.line = 3 := by
    show flow.sink.line = 3
    rw [← line_of_flow (Or.inr rfl) hmem, hcall]
    rfl
  have hsmallest : FirstSmallestCall statementTree 3 statementCall := findCallAt_eq_some_iff.1 rfl
  rw [hcall]
  intro chosen hchosen _
  rw [hline] at hchosen ⊢
  refine ⟨hchosen.unique hsmallest, ?_, ?_⟩
  · -- the statement of the line is that call
    show statementCall ∈ [statementCall]
    exact List.mem_singleton_self _
  · refine ⟨"    os.system(cmd)\n".toList, .call statementCall.loc (dottedAt 3 4 "os" "system")
      [callAt 1 0 "shlex" "quote" (nameAt 1 12 "cmd")] [], "    os.system(shlex.quote(cmd))",
      ?_, ?_, Or.inr ⟨rfl, ⟨{
        loc := statementCall.loc
        func := dottedAt 3 4 "os" "system"
        arg := nameAt 3 14 "cmd"
        args := []
        keywords := []
        funcName := "os.system"
        command := "cmd"
        fix := ⟨.shellQuote, "shlex.quote", [], shellQuoteRationale⟩
        wrapped := callAt 1 0 "shlex" "quote" (nameAt 1 12 "cmd")
        call_eq := rfl
        named := rfl
        printed := rfl
        chosen := rfl
        reparsed := rfl
        newCall_eq := rfl }⟩⟩⟩
    · rw [sinkLines, hline]
      rfl
    · rw [hline]
      rfl

/-! ## A call in the argument of the sink -/

/-- A file that passes the text of a parameter to `os.system`. -/
def nestedFile : SourceFile :=
  ⟨"app.py", "import os\ndef run(cmd):\n    os.system(str(cmd))\n", none⟩

/-- The argument of that call. -/
def nestedArg : Expr := .call (spanOf 3 14 22) (nameAt 3 14 "str") [nameAt 3 18 "cmd"] []

/-- The sink call of that file. -/
def nestedCall : Expr := callAt 3 4 "os" "system" nestedArg

/-- The tree of that file. -/
def nestedTree : Module where
  body := [importAt 1 "os", functionAt 2 "run" "cmd" [.expr nestedCall.loc nestedCall]]

/-- An interpreter that knows that file. -/
def nestedPython : Stdlib := tabulatedPython [(nestedFile.source, nestedTree)] []

/-- **Not every patch targets its sink**: the call in the argument is smaller than the sink, so it
is chosen, and no fix is proposed for a command of a form that has one. -/
theorem not_patchesTargetSinks : nestedPython.parse nestedFile.source = .ok nestedTree
    ∧ ¬ PatchesTargetSinks nestedPython (commandInjectionRule nestedPython) "p" nestedFile := by
  let ctx := contextOf nestedPython (commandInjectionRule nestedPython) "p" nestedFile
  have hparse : nestedPython.parse nestedFile.source = .ok nestedTree := parse_tabulatedPython ..
  refine ⟨hparse, fun htargets => ?_⟩
  obtain ⟨flow, hflows⟩ : ∃ flow, treeFlows ctx nestedTree = [flow] := ⟨_, rfl⟩
  have hmem : flow ∈ treeFlows ctx nestedTree := by
    rw [hflows]
    exact List.mem_singleton_self flow
  have hcalls : (treeFlows ctx nestedTree).map SinkFlow.call = [nestedCall] := rfl
  have hcall : flow.call = nestedCall := by
    rw [hflows] at hcalls
    exact (List.cons.inj hcalls).1
  have hline : (flow.finding ctx).sink.line = 3 := by
    show flow.sink.line = 3
    rw [← line_of_flow (Or.inr rfl) hmem, hcall]
    rfl
  have hsupported : SupportedForm nestedPython (flow.finding ctx) nestedTree flow.call := by
    rw [hcall]
    exact ⟨_, _, _, _, _, rfl, Or.inr ⟨rfl, "os.system", _, rfl, rfl⟩⟩
  have hchosen : FirstSmallestCall nestedTree (flow.finding ctx).sink.line nestedArg := by
    rw [hline]
    exact findCallAt_eq_some_iff.1 rfl
  obtain ⟨heq, -⟩ := (targetsSink_iff_smallest hparse (call_mem_tree hmem)
    (line_of_flow (Or.inr rfl) hmem)).1 (htargets nestedTree hparse flow hmem) nestedArg hchosen
    (Or.inl hsupported)
  rw [hcall] at heq
  have hloc := congrArg (fun e : Expr => e.loc.colOffset) heq
  exact absurd hloc (by decide)

end Sast
