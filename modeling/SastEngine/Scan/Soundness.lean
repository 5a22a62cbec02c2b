import SastEngine.Scan.Paths

/-!
# Soundness over control-flow paths

Whether the statement-order walk reports every sink that some control-flow path reaches with
tainted data.  A path may carry taint round a loop, from the body of a loop into its `else`, or
from a handler into `finally`; the walk passes every loop body once, from the map before the loop,
and `finally` before the handlers.
-/

namespace Sast

variable {py : Stdlib} {rule : ScanRule} {projectId : String} {codeFile : SourceFile}

mutual

/-- The statement forms the engine has a branch for, with blocks made of such forms. -/
def Stmt.handled : Stmt → Bool
  | .assign .. | .annAssign .. | .augAssign .. | .expr .. | .return_ .. => true
  | .if_ _ _ body orelse | .while_ _ _ body orelse | .for_ _ _ _ body orelse =>
      blockHandled body && blockHandled orelse
  | .try_ _ body handlers orelse finalbody =>
      blockHandled body && handlersHandled handlers && blockHandled orelse
        && blockHandled finalbody
  | .with_ _ _ body => blockHandled body
  | _ => false

def blockHandled : List Stmt → Bool
  | [] => true
  | s :: ss => s.handled && blockHandled ss

def handlersHandled : List ExceptHandler → Bool
  | [] => true
  | .mk _ _ _ body :: hs => blockHandled body && handlersHandled hs

end

/-- Some path through the body of the function, with the engine's transfers, comes to a call that
exposes the sink. -/
def Scope.pathExposes (ctx : FileContext) (scope : Scope) (sink : SinkRef) : Prop :=
  ∃ event t, Reach (Event.apply ctx) (blockCmd scope.body) scope.entry event t
    ∧ event.exposes ctx sink (keySet t)

/-- Some sweep through the body, with the engine's transfers, comes to a call in a scanned operand
that exposes the sink. -/
def Scope.sweepExposes (ctx : FileContext) (scope : Scope) (sink : SinkRef) : Prop :=
  ∃ event t, SweepReach (Event.apply ctx) (blockCmd scope.body) scope.entry event t
    ∧ event.hits ctx sink (keySet t)

/-- Every sink that a path through a function body of handled statements exposes is reported. -/
def SoundOverPaths (py : Stdlib) (rule : ScanRule) (projectId : String) (codeFile : SourceFile)
    (tree : Module) : Prop :=
  ∀ scope ∈ treeScopes (contextOf py rule projectId codeFile) tree, scope.isFunction = true →
    blockHandled scope.body = true → ∀ sink,
      scope.pathExposes (contextOf py rule projectId codeFile) sink →
        Reports py rule projectId codeFile sink

/-- A scope has a hit iff it is visited and a sweep exposes the sink. -/
lemma hitsAny_scope_iff {ctx : FileContext} {scope : Scope} {sink : SinkRef} :
    HitsAny ctx (scope.sites ctx) sink ↔ scope.seen = true ∧ scope.sweepExposes ctx sink := by
  cases hseen : scope.seen with
  | false => simp [not_hits_unseen_scope hseen sink]
  | true =>
      rw [Scope.sites, hseen, hitsAny_iff_sweep]
      simp [Scope.sweepExposes]

/-- What a file reports: the sinks that the sweeps of its visited scopes expose. -/
lemma reports_iff_sweep (herror : codeFile.error = none) {tree : Module}
    (hparse : py.parse codeFile.source = .ok tree) (sink : SinkRef) :
    Reports py rule projectId codeFile sink
      ↔ ∃ scope ∈ treeScopes (contextOf py rule projectId codeFile) tree, scope.seen = true
        ∧ scope.sweepExposes (contextOf py rule projectId codeFile) sink := by
  rw [reports_iff herror hparse]
  simp only [HitsScope, hitsAny_scope_iff]

/-- **Soundness is one pass.**  For every rule and every parsed file: the sinks exposed on the
paths of its function bodies are all reported if and only if each of them is exposed on a sweep
of a visited scope. -/
theorem soundOverPaths_iff (herror : codeFile.error = none) (tree : Module)
    (hparse : py.parse codeFile.source = .ok tree) :
    SoundOverPaths py rule projectId codeFile tree
      ↔ ∀ scope ∈ treeScopes (contextOf py rule projectId codeFile) tree,
        scope.isFunction = true → blockHandled scope.body = true → ∀ sink,
          scope.pathExposes (contextOf py rule projectId codeFile) sink →
            ∃ visited ∈ treeScopes (contextOf py rule projectId codeFile) tree,
              visited.seen = true
                ∧ visited.sweepExposes (contextOf py rule projectId codeFile) sink := by
  unfold SoundOverPaths
  simp only [reports_iff_sweep herror hparse]

/-- In a body without loops, `try` and `with`, the merge of the branches covers every path. -/
theorem reports_of_branching (herror : codeFile.error = none) {tree : Module}
    (hparse : py.parse codeFile.source = .ok tree) {scope : Scope}
    (hscope : scope ∈ treeScopes (contextOf py rule projectId codeFile) tree)
    (hseen : scope.seen = true) (hbranching : (blockCmd scope.body).Branching) {event : Event}
    {t : Taints} {sink : SinkRef}
    (hreach : Reach (Event.apply (contextOf py rule projectId codeFile)) (blockCmd scope.body)
      scope.entry event t)
    (hhits : event.hits (contextOf py rule projectId codeFile) sink (keySet t)) :
    Reports py rule projectId codeFile sink := by
  rw [reports_iff_sweep herror hparse]
  exact ⟨scope, hscope, hseen, event, t, hreach.sweepReach hbranching, hhits⟩

/-- In the file with the one statement `os.system(cmd)`, the walk is sound. -/
theorem soundOverPaths_statementFile :
    SoundOverPaths statementPython (commandInjectionRule statementPython) "p" statementFile
      statementTree := by
  have hparse : statementPython.parse statementFile.source = .ok statementTree :=
    parse_tabulatedPython ..
  refine (soundOverPaths_iff rfl statementTree hparse).2 ?_
  rintro scope hscope hfun - sink ⟨event, t, hreach, e, he, call, hcall, hsink⟩
  refine ⟨scope, hscope, ?_⟩
  simp only [treeScopes, statementTree, importAt, functionAt, blockScopes, stmtScopes,
    List.nil_append, List.append_nil, List.mem_cons, List.not_mem_nil, or_false] at hscope
  rcases hscope with rfl | rfl
  · simp at hfun
  · -- the body is one scanning point
    refine ⟨rfl, event, t, hreach.sweepReach ⟨trivial, trivial⟩, ?_⟩
    simp only [blockCmd, stmtCmd, evalCmd] at hreach
    cases hreach with
    | second _ hskip => cases hskip
    | first hfirst =>
        cases hfirst
        simp only [Event.operands, List.mem_singleton] at he
        subst he
        exact ⟨_, List.mem_singleton_self _, call, hcall, hsink⟩

/-! ## Taint carried round a loop -/

/-- A file that passes a parameter to `os.system` in the second round of a loop. -/
def loopFile : SourceFile :=
  ⟨"app.py", "import os\ndef run(cmd):\n    x = ''\n    while cmd:\n        os.system(x)\n"
    ++ "        x = cmd\n", none⟩

/-- The sink call of that file. -/
def loopedCall : Expr := callAt 5 8 "os" "system" (nameAt 5 18 "x")

/-- The body of its function. -/
def loopBody : List Stmt :=
  [.assign (spanOf 3 4 10) [.name (spanOf 3 4 5) "x" .store] (.constant (spanOf 3 8 10) (.str "")),
   .while_ ⟨4, 4, 6, 15⟩ (nameAt 4 10 "cmd")
     [.expr (spanOf 5 8 20) loopedCall,
      .assign (spanOf 6 8 15) [.name (spanOf 6 8 9) "x" .store] (nameAt 6 12 "cmd")]
     []]

/-- The tree of that file. -/
def loopTree : Module where
  body := [importAt 1 "os", functionAt 2 "run" "cmd" loopBody]

/-- An interpreter that knows that file. -/
def loopPython : Stdlib := tabulatedPython [(loopFile.source, loopTree)] []

/-- The sink of the looped call. -/
def loopedSink : SinkRef := ⟨"app.py", 5, "os.system(x)", "command_exec"⟩

/-- Its second round exposes the sink, and nothing is reported. -/
theorem not_soundOverPaths :
    loopPython.parse loopFile.source = .ok loopTree
      ∧ ¬ SoundOverPaths loopPython (commandInjectionRule loopPython) "p" loopFile loopTree := by
  have hnone : (match analyzeFile loopPython (commandInjectionRule loopPython) "p" loopFile with
      | .ok result => result.1
      | .error _ => []) = [] := by decide +kernel
  have hparse : loopPython.parse loopFile.source = .ok loopTree :=
    parse_tabulatedPython ..
  refine ⟨hparse, fun hsound => ?_⟩
  let ctx := contextOf loopPython (commandInjectionRule loopPython) "p" loopFile
  let entry := entryTaints ctx (functionAt 2 "run" "cmd" loopBody).loc
    (.mk [] [.mk (spanOf 2 8 11) "cmd" none] none [] [] none [])
  let start := assignTaints ctx (spanOf 3 4 10) [.name (spanOf 3 4 5) "x" .store]
    (.constant (spanOf 3 8 10) (.str "")) entry
  let next := assignTaints ctx (spanOf 6 8 15) [.name (spanOf 6 8 9) "x" .store]
    (nameAt 6 12 "cmd") start
  -- two rounds of the loop, up to the call in the second one
  have hreach : Reach (Event.apply ctx) (blockCmd loopBody) entry
      (.eval [loopedCall] [loopedCall]) next :=
    .second (.seq (.event _ entry) (.event _ entry))
      (.first (.loopNext (.event _ start)
        (.seq (.event _ start) (.seq (.seq (.event _ start) (.event _ start)) (.skip next)))
        (.loopBody (.event _ next) (.first (.event _ next)))))
  have hsink : SinkIn ctx (keySet next) loopedCall loopedSink := by
    have hhit : (taintedSink ctx next loopedCall).map Prod.fst = some loopedSink := by
      decide +kernel
    obtain ⟨⟨sink, taint⟩, hsome, rfl⟩ := Option.map_eq_some_iff.1 hhit
    exact exists_taintedSink.1 ⟨taint, hsome⟩
  have hexposes : Scope.pathExposes ctx ⟨entry, loopBody, true, true⟩ loopedSink :=
    ⟨_, next, hreach, loopedCall, List.mem_singleton_self _, loopedCall,
      List.mem_cons_self .., hsink⟩
  obtain ⟨findings, summaries, heq, f, hf, -⟩ := hsound ⟨entry, loopBody, true, true⟩
    (List.mem_cons_of_mem _ (List.mem_cons_self ..)) rfl rfl loopedSink hexposes
  rw [heq] at hnone
  simp only at hnone
  simp [hnone] at hf

end Sast
