import SastEngine.Python.Replace
import SastEngine.Python.Stdlib
import SastEngine.Python.Walk
import SastEngine.Remediation.Models
import SastEngine.Scan.Models

/-!
# Remediation patches

`remediation/patches.py`: a proposal is a line-anchored rewrite of one statement, generated from
the parsed source and applied to its text.  Text is handled as lists of characters.
-/

namespace Sast

/-- The exceptions that leave this module: `PatchError`, and those of the library calls the module
does not guard. -/
inductive PatchFailure where
  | patchError (message : String)
  | raised (message : String)
deriving DecidableEq

variable (py : Stdlib)

/-- A library call whose exception nobody catches. -/
def unguarded {α : Type} (result : Except String α) : Except PatchFailure α :=
  result.mapError .raised

/-- `_sink_lines`. -/
def sinkLines (finding : CandidateFinding) (source : String) :
    Except PatchFailure (Nat × List Char) :=
  let lines := splitlinesKeepends source.toList
  if 1 ≤ finding.sink.line ∧ finding.sink.line ≤ lines.length then
    .ok (finding.sink.line, (lines[finding.sink.line - 1]?).getD [])
  else .error (.patchError s!"sink line {finding.sink.line} is outside the file")

/-- `_no_fix`. -/
def noFix (finding : CandidateFinding) (reason : String) : RemediationProposal where
  findingId := finding.id
  vulnerabilityType := finding.vulnerabilityType
  file := finding.sink.file
  line := finding.sink.line
  strategy := .noAutomaticFix
  before := finding.sink.snippet
  after := finding.sink.snippet
  rationale := reason

/-! ## Locating nodes -/

/-- The first element with the least key: Python's `min` with a key. -/
def firstMin {α : Type} (key : α → Nat) : List α → Option α
  | [] => none
  | x :: xs => some (xs.foldl (fun best y => if key y < key best then y else best) x)

/-- `_find_call_at`. -/
def findCallAt (tree : Module) (line : Nat) : Option Expr :=
  firstMin Expr.nodeCount (tree.calls.filter fun c => c.loc.lineno = line)

/-- The statement classes that `_find_statement_at` accepts. -/
def isRenderable : Stmt → Bool
  | .assign .. | .annAssign .. | .augAssign .. | .expr .. | .return_ .. | .if_ .. | .for_ ..
  | .while_ .. | .with_ .. | .try_ .. => true
  | _ => false

/-- `_find_statement_at`. -/
def findStatementAt (tree : Module) (line : Nat) : Option Stmt :=
  tree.stmtsBfs.find? fun s => isRenderable s && s.loc.lineno = line

/-- `isinstance(s, (ast.FunctionDef, ast.AsyncFunctionDef))`. -/
def isFunction : Stmt → Bool
  | .functionDef .. | .asyncFunctionDef .. => true
  | _ => false

/-- `isinstance(s, (ast.FunctionDef, ast.AsyncFunctionDef, ast.ClassDef))`. -/
def isScope : Stmt → Bool
  | .functionDef .. | .asyncFunctionDef .. | .classDef .. => true
  | _ => false

/-- `_find_enclosing_function`. -/
def findEnclosingFunction (tree : Module) (line : Nat) : Option Stmt :=
  (tree.stmtsBfs.filter fun s =>
    isFunction s && s.loc.lineno ≤ line && line ≤ s.loc.endLineno).foldl
      (fun best s => match best with
        | none => some s
        | some b => if b.loc.lineno ≤ s.loc.lineno then some s else some b) none

/-! ## Taking queries apart -/

/-- `isinstance(t, ast.Name) and t.id == name`. -/
def isNamed (name : String) : Expr → Bool
  | .name _ id _ => id = name
  | _ => false

/-- `isinstance(e, ast.JoinedStr)` with at least one interpolated value. -/
def isInterpolated : Expr → Bool
  | .joinedStr _ values => values.any fun v => match v with
      | .formattedValue .. => true
      | _ => false
  | _ => false

/-- `_decompose_fstring` on the values of an f-string: the parts of the query and the texts of
the parameters.  The parser puts only string constants and interpolations there. -/
def decomposeFstring : List Expr → Option (List String × List String)
  | [] => some ([], [])
  | .constant _ (.str s) :: values =>
      (decomposeFstring values).map fun r => (s :: r.1, r.2)
  | .formattedValue _ value _ _ :: values =>
      match py.unparse value with
      | .ok text => (decomposeFstring values).map fun r => ("?" :: r.1, text :: r.2)
      | .error _ => none
  | _ :: _ => none

/-- The values of an f-string. -/
def fstringValues : Expr → List Expr
  | .joinedStr _ values => values
  | _ => []

/-- The f-string a statement assigns to the name. -/
def assignedFstring (name : String) : Stmt → Option Expr
  | .assign _ targets (.joinedStr l values) =>
      if targets.any (isNamed name) then some (.joinedStr l values) else none
  | _ => none

/-- `_resolve_assigned_fstring`. -/
def resolveAssignedFstring (tree : Module) (name : String) : Option Expr :=
  match tree.stmts.filterMap (assignedFstring name) with
  | [fstring] => some fstring
  | _ => none

/-- `_collect_concat_parts`. -/
def collectConcatParts : Expr → List Expr
  | .binOp _ left .add right => collectConcatParts left ++ collectConcatParts right
  | e => [e]

mutual

/-- `_collect(child)`: the collected values below one statement. -/
def collectBelow (inFunction : Bool) (name : String) : Stmt → List Expr
  | .functionDef _ _ _ body _ _ | .asyncFunctionDef _ _ _ body _ _ | .classDef _ _ _ _ body _
  | .with_ _ _ body | .asyncWith _ _ body => (collectChildren inFunction name body).1
  | .for_ _ _ _ body orelse | .asyncFor _ _ _ body orelse | .while_ _ _ body orelse
  | .if_ _ _ body orelse =>
      let b := collectChildren inFunction name body
      if b.2 then b.1 else b.1 ++ (collectChildren inFunction name orelse).1
  | .match_ _ _ cases => collectCases inFunction name cases
  | .try_ _ body handlers orelse finalbody | .tryStar _ body handlers orelse finalbody =>
      let b := collectChildren inFunction name body
      if b.2 then b.1
      else
        let h := collectHandlers inFunction name handlers
        let o := collectChildren inFunction name orelse
        if o.2 then b.1 ++ h ++ o.1
        else b.1 ++ h ++ o.1 ++ (collectChildren inFunction name finalbody).1
  | .return_ .. | .delete .. | .assign .. | .augAssign .. | .annAssign .. | .raise ..
  | .assert .. | .import_ .. | .importFrom .. | .global .. | .nonlocal .. | .expr .. | .pass _
  | .break_ _ | .continue_ _ => []

/-- The loop of `_collect` over the statements of a block: the collected values, and whether an
augmented assignment other than `+=` ended the loop over the children of the enclosing node. -/
def collectChildren (inFunction : Bool) (name : String) : List Stmt → List Expr × Bool
  | [] => ([], false)
  | s :: ss =>
      if inFunction && isScope s then collectChildren inFunction name ss
      else match s with
        | .assign _ targets value =>
            let rest := collectChildren inFunction name ss
            if targets.any (isNamed name) then (value :: rest.1, rest.2) else rest
        | .augAssign _ target op value =>
            if isNamed name target then
              if op = .add then
                let rest := collectChildren inFunction name ss
                (value :: rest.1, rest.2)
              else ([], true)
            else collectChildren inFunction name ss
        | s =>
            let rest := collectChildren inFunction name ss
            (collectBelow inFunction name s ++ rest.1, rest.2)

def collectHandlers (inFunction : Bool) (name : String) : List ExceptHandler → List Expr
  | [] => []
  | .mk _ _ _ body :: hs =>
      (collectChildren inFunction name body).1 ++ collectHandlers inFunction name hs

def collectCases (inFunction : Bool) (name : String) : List MatchCase → List Expr
  | [] => []
  | .mk _ _ body :: cs => (collectChildren inFunction name body).1 ++ collectCases inFunction name cs

end

/-- One segment of a concatenated query: a literal, or a placeholder with its expression. -/
structure Segment where
  literal : String
  expression : String
deriving DecidableEq

/-- The segment of one part of a concatenation. -/
def concatSegment : Expr → Option Segment
  | .constant _ (.str s) => some ⟨s, ""⟩
  | .name l id c => placeholder (.name l id c)
  | .attribute l value attr c => placeholder (.attribute l value attr c)
  | .subscript l value slice c => placeholder (.subscript l value slice c)
  | _ => none
where
  placeholder (part : Expr) : Option Segment :=
    match py.unparse part with
    | .ok text => some ⟨"?", text⟩
    | .error _ => none

/-- `_resolve_assigned_concatenation`. -/
def resolveAssignedConcatenation (tree : Module) (name : String) (enclosing : Option Stmt) :
    Option (List Segment) :=
  let assignments : List Expr := match enclosing with
    | some fn => collectBelow true name fn
    | none => (collectChildren false name tree.body).1
  if assignments.isEmpty then none
  else (assignments.flatMap collectConcatParts).mapM (concatSegment py)

/-- The parameters of a concatenated query: a segment whose literal is `?` counts as a
placeholder. -/
def segmentParams (segments : List Segment) : List String :=
  (segments.filter fun s => s.literal = "?").map Segment.expression

/-- A new query and the texts of its parameters. -/
structure Template where
  query : String
  params : List String
deriving DecidableEq

/-- Strategy 1: a direct f-string or the only f-string assigned to the query variable.  Unpacking
the result of a failed decomposition raises. -/
def fstringTemplate (tree : Module) (queryArg : Expr) : Except PatchFailure (Option Template) :=
  let fstring := match queryArg with
    | .joinedStr l values => some (.joinedStr l values)
    | .name _ id _ => resolveAssignedFstring tree id
    | _ => none
  match fstring with
  | none => .ok none
  | some e =>
      if isInterpolated e then
        match decomposeFstring py (fstringValues e) with
        | some (parts, params) => .ok (some ⟨String.join parts, params⟩)
        | none => .error (.raised "cannot unpack non-iterable NoneType object")
      else .ok none

/-- Strategy 2: the concatenations assigned to the query variable. -/
def concatTemplate (tree : Module) (line : Nat) (queryArg : Expr) : Option Template :=
  match queryArg with
  | .name _ id _ =>
      (resolveAssignedConcatenation py tree id (findEnclosingFunction tree line)).map
        fun segments =>
          ⟨String.join (segments.map Segment.literal), segmentParams segments⟩
  | _ => none

/-! ## Rendering -/

/-- Replace one call by another.  A call is identified by its position: no two calls of a parsed
file start and end at the same places. -/
def swapCall (old new e : Expr) : Option Expr :=
  if e.loc = old.loc then some new else none

/-- `_render_statement_line`. -/
def renderStatementLine (tree : Module) (oldCall newCall : Expr) (line : Nat)
    (lineText : List Char) : Except String String :=
  match findStatementAt tree line with
  | none => py.unparse newCall
  | some statement => do
      let rendered := splitlines (← py.unparseStmt (statement.replace (swapCall oldCall newCall))
        ).toList
      let indent := lineText.takeWhile isBlank
      if rendered.isEmpty then py.unparse newCall
      else return String.ofList (List.intercalate ['\n'] (rendered.map (indent ++ ·)))

/-! ## Proposals -/

/-- `line_text.rstrip("\r\n")`. -/
def rstripNewline (line : List Char) : List Char := rstrip isNewline line

/-- The arguments of a call. -/
def callArgs : Expr → List Expr
  | .call _ _ args _ => args
  | _ => []

/-- The rationale of a parameterized query. -/
def sqlRationale : String :=
  "Parameterized query: interpolated values are passed as query "
    ++ "parameters instead of being embedded in the SQL text, so user "
    ++ "input can no longer alter the statement structure."

/-- `k.arg in ("parameters", "params")`. -/
def isParametersKeyword : Keyword → Bool
  | .mk _ arg _ => arg = some "parameters" || arg = some "params"

/-- The position of nodes that the generator builds without one. -/
def noLoc : Loc := ⟨1, 0, 1, 0⟩

/-- The call with the query template and the parameter tuple. -/
def parameterizedCall (loc : Loc) (func : Expr) (keywords : List Keyword) (query : String)
    (params : List Expr) : Expr :=
  .call loc func [.constant noLoc (.str query), .tuple noLoc params .load]
    (keywords.filter fun k => !isParametersKeyword k)

/-- The refusal of a query that neither strategy takes apart. -/
def undecomposable : String :=
  "query argument cannot be decomposed into a parameterizable "
    ++ "form (f-string or string concatenation); automatic "
    ++ "parameterization is not safe here"

/-- `_sql_proposal` past the checks on the sink. -/
def sqlRewrite (finding : CandidateFinding) (tree : Module) (line : Nat) (lineText : List Char)
    (call : Expr) (loc : Loc) (func : Expr) (keywords : List Keyword) (queryArg : Expr) :
    Except PatchFailure RemediationProposal := do
  let fstring ← fstringTemplate py tree queryArg
  match fstring.or (concatTemplate py tree line queryArg) with
  | none => return noFix finding undecomposable
  | some template =>
      let params ← unguarded (template.params.mapM py.parseExpr)
      let newCall := parameterizedCall loc func keywords template.query params
      match renderStatementLine py tree call newCall line lineText with
      | .error exc => return noFix finding s!"rewritten sink cannot be rendered ({exc})"
      | .ok after => return {
          findingId := finding.id
          vulnerabilityType := finding.vulnerabilityType
          file := finding.sink.file
          line := line
          strategy := .parameterizeQuery
          before := String.ofList (rstripNewline lineText)
          after := after
          rationale := sqlRationale }

/-- `SQL_METHODS`. -/
def patchSqlMethods : List String := ["execute", "executemany", "executescript"]

/-- `_sql_proposal`. -/
def sqlProposal (finding : CandidateFinding) (source : String) :
    Except PatchFailure RemediationProposal := do
  let (line, lineText) ← sinkLines finding source
  match py.parse source with
  | .error exc =>
      return noFix finding s!"file does not parse ({exc}); automatic fix unavailable"
  | .ok tree =>
      match findCallAt tree finding.sink.line with
      | some (.call loc (.attribute fl receiver attr fc) args keywords) =>
          if attr ∈ patchSqlMethods then
            match args with
            | [] => return noFix finding "sink call has no query argument"
            | queryArg :: _ =>
                sqlRewrite py finding tree line lineText
                  (.call loc (.attribute fl receiver attr fc) args keywords) loc
                  (.attribute fl receiver attr fc) keywords queryArg
          else return noFix finding "sink method is not a SQL execute call"
      | _ => return noFix finding "sink is not a recognizable SQL execute call"

/-- `SUBPROCESS_SINKS`. -/
def subprocessSinks : List String :=
  ["subprocess.run", "subprocess.call", "subprocess.Popen", "subprocess.check_call",
    "subprocess.check_output"]

/-- `SHELL_STRING_SINKS`. -/
def shellStringSinks : List String := ["os.system", "os.popen"]

/-- `k.arg == "shell" and isinstance(k.value, ast.Constant) and k.value.value is True`. -/
def isShellTrue : Keyword → Bool
  | .mk _ arg (.constant _ (.bool true)) => arg = some "shell"
  | _ => false

/-- The rationale of the argument-vector form. -/
def argumentVectorRationale : String :=
  "Argument-vector form: the command is split into a list and "
    ++ "passed without a shell, so user-controlled text is never "
    ++ "interpreted as shell syntax."

/-- The rationale of the quoted form. -/
def shellQuoteRationale : String :=
  "Shell-quoted argument: user-controlled text is quoted so it "
    ++ "cannot inject additional shell syntax into the command string."

/-- How a command sink is neutralized: the strategy, the function wrapped around the command, the
keywords that stay, and the rationale. -/
structure CommandFix where
  strategy : Strategy
  wrapper : String
  keywords : List Keyword
  rationale : String

/-- The branch of `_cmd_proposal` on the name of the called function. -/
def commandFix (funcName : String) (keywords : List Keyword) : Option CommandFix :=
  if funcName ∈ subprocessSinks then
    some ⟨.shellArgumentVector, "shlex.split", keywords.filter fun k => !isShellTrue k,
      argumentVectorRationale⟩
  else if funcName ∈ shellStringSinks then
    some ⟨.shellQuote, "shlex.quote", keywords, shellQuoteRationale⟩
  else none

/-- `"import shlex" not in source and "from shlex" not in source`. -/
def needsImport (source : String) : Bool :=
  !inStr "import shlex" source && !inStr "from shlex" source

/-- `_cmd_proposal` past the checks on the call. -/
def commandRewrite (finding : CandidateFinding) (source : String) (tree : Module) (line : Nat)
    (lineText : List Char) (call : Expr) (loc : Loc) (func : Expr) (command : String)
    (fix : CommandFix) : Except PatchFailure RemediationProposal := do
  let wrapped ← unguarded (py.parseExpr (fix.wrapper ++ "(" ++ command ++ ")"))
  let newCall := Expr.call loc func [wrapped] fix.keywords
  match renderStatementLine py tree call newCall line lineText with
  | .error exc => return noFix finding s!"rewritten sink cannot be rendered ({exc})"
  | .ok after => return {
      findingId := finding.id
      vulnerabilityType := finding.vulnerabilityType
      file := finding.sink.file
      line := line
      strategy := fix.strategy
      before := String.ofList (rstripNewline lineText)
      after := after
      importToAdd := if needsImport source then some "import shlex" else none
      rationale := fix.rationale }

/-- `_cmd_proposal`. -/
def cmdProposal (finding : CandidateFinding) (source : String) :
    Except PatchFailure RemediationProposal := do
  let (line, lineText) ← sinkLines finding source
  match py.parse source with
  | .error exc =>
      return noFix finding s!"file does not parse ({exc}); automatic fix unavailable"
  | .ok tree =>
      match findCallAt tree finding.sink.line with
      | some (.call loc func args keywords) =>
          let funcName ← unguarded (py.unparse func)
          match args with
          | [] => return noFix finding "command call has no command argument"
          | arg :: _ =>
              let command ← unguarded (py.unparse arg)
              match commandFix funcName keywords with
              | none => return noFix finding "unrecognized command execution sink"
              | some fix =>
                  commandRewrite py finding source tree line lineText
                    (.call loc func args keywords) loc func command fix
      | _ => return noFix finding "sink is not a recognizable command execution call"

/-- `build_proposal`. -/
def buildProposal (finding : CandidateFinding) (source : String) :
    Except PatchFailure RemediationProposal :=
  if finding.vulnerabilityType = "sql_injection" then sqlProposal py finding source
  else if finding.vulnerabilityType = "command_injection" then cmdProposal py finding source
  else .ok (noFix finding (s!"no deterministic automatic fix is defined for "
    ++ finding.vulnerabilityType ++ "; manual remediation is required"))

/-! ## Application -/

/-- `nxt.strip() in (")", "]", "}")`. -/
def isClosingBracket (line : List Char) : Bool :=
  strip line = [')'] || strip line = [']'] || strip line = ['}']

/-- The lines after the anchored one that the patch deletes with it: the deeper-indented ones, and
one closing bracket at the same indent. -/
def continuation (startIndent : Nat) : List (List Char) → Nat
  | [] => 0
  | line :: lines =>
      let nxt := rstripNewline line
      if nxt.isEmpty then 0
      else if startIndent < indentOf nxt then continuation startIndent lines + 1
      else if indentOf nxt = startIndent ∧ isClosingBracket nxt then 1
      else 0

/-- `new_lines`: the lines of the rewritten statement, the last one ended by a newline. -/
def replacementLines (after : String) : List (List Char) :=
  let lines := splitlinesKeepends after.toList
  match lines.getLast? with
  | none => []
  | some last =>
      if last.getLast?.any isNewline then lines else lines.dropLast ++ [last ++ ['\n']]

/-- `lines[idx:end] = new_lines`. -/
def spliceLines {α : Type} (lines : List α) (idx stop : Nat) (new : List α) : List α :=
  lines.take idx ++ new ++ lines.drop stop

/-- The string constant a statement consists of. -/
def docstringEnd : List Stmt → Nat
  | .expr _ (.constant loc (.str _)) :: _ => loc.endLineno
  | _ => 0

/-- `_insert_import`. -/
def insertImport (source : String) (importLine : String) : String :=
  match py.parse source with
  | .error _ => source
  | .ok tree =>
      let insertAt := docstringEnd tree.body
      let lines := splitlinesKeepends source.toList
      String.ofList (lines.take insertAt ++ [importLine.toList ++ ['\n']]
        ++ lines.drop insertAt).flatten

/-- The text with the anchored statement replaced. -/
def patchedText (proposal : RemediationProposal) (lines : List (List Char)) (current : List Char) :
    String :=
  let stop := proposal.line + continuation (indentOf current) (lines.drop proposal.line)
  String.ofList (spliceLines lines (proposal.line - 1) stop
    (replacementLines proposal.after)).flatten

/-- `apply_proposal`. -/
def applyProposal (proposal : RemediationProposal) (source : String) :
    Except PatchFailure String :=
  if proposal.strategy = .noAutomaticFix then
    .error (.patchError "no automatic fix available for this finding")
  else
    let lines := splitlinesKeepends source.toList
    if proposal.line < 1 ∨ lines.length < proposal.line then
      .error (.patchError s!"proposal line {proposal.line} is outside the file")
    else
      let current := rstripNewline ((lines[proposal.line - 1]?).getD [])
      if String.ofList current ≠ proposal.before then
        .error (.patchError ("source changed since the proposal was generated; "
          ++ "generate a new proposal before applying"))
      else
        let replaced := patchedText proposal lines current
        let newSource := match proposal.importToAdd with
          | some importLine => insertImport py replaced importLine
          | none => replaced
        match py.parse newSource with
        | .error exc =>
            .error (.patchError s!"patched source does not parse ({exc}); fix not applied")
        | .ok _ => .ok newSource

end Sast
