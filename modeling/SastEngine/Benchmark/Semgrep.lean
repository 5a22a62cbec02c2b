import SastEngine.Benchmark.Models
import SastEngine.Dedup.Service
import SastEngine.Lib.Except
import SastEngine.Python.Json

/-!
# What semgrep reports

`parse_semgrep_json` of `benchmark/semgrep_runner.py` promises never to raise on malformed
output.  It does not keep the promise for every JSON object, and `defensive_iff` says for which
texts it does.  Four reads are not guarded: `results` may be a value that cannot be iterated,
`start` may be a value without `get` (its sibling `extra` is checked for that), the texts of the
fingerprint may hold half of a surrogate pair, and `json.loads` has errors of its own besides
`JSONDecodeError`.  A start line `true` is taken for the integer it is to Python.
-/

namespace Sast

/-! ## The runner -/

/-- What the parser takes from the interpreter: the limits of `json.loads`, the text of the
`JSONDecodeError` of a text, `str` of a value that is not a string, `str.lower`, `\w` and
SHA-256. -/
structure Interpreter where
  limits : JsonLimits
  decodeError : String → String
  str : Json → String
  lower : String → String
  isWord : Char → Bool
  sha256 : String → String

/-- The exceptions that leave `parse_semgrep_json`. -/
inductive ReportError
  | valueError
  | recursionError
  | typeError
  | attributeError
  | unicodeEncodeError
deriving DecidableEq

/-- The text a `str` is, unless it holds a surrogate: `encode("utf-8")` raises then. -/
def Str.encoded (s : Str) : Option String :=
  if s.all fun n => decide n.isValidChar then some (String.ofList (s.map Char.ofNat)) else none

/-- A `str` with U+FFFD for every surrogate, which is neither white space nor a word character
either. -/
def Str.lossy (s : Str) : List Char :=
  s.map fun n => if n.isValidChar then Char.ofNat n else Char.ofNat 0xFFFD

/-- `re.match(r"def\s+(\w+)", cs)`. -/
def definedHere (isWord : Char → Bool) : List Char → Option (List Char)
  | 'd' :: 'e' :: 'f' :: cs =>
      let name := (cs.dropWhile isSpace).takeWhile isWord
      if (cs.takeWhile isSpace).isEmpty ∨ name.isEmpty then none else some name
  | _ => none

/-- `_function_name`. -/
def functionName (isWord : Char → Bool) : List Char → Option String
  | [] => none
  | c :: cs =>
      match definedHere isWord (c :: cs) with
      | some name => some (String.ofList name)
      | none => functionName isWord cs

/-- `_canonical_type`. -/
def canonicalType (lower : String → String) (checkId : String) : String :=
  let lowered := lower checkId
  if inStr "sql" lowered then "sql_injection"
  else if inStr "command" lowered || inStr "shell" lowered || inStr "subprocess" lowered then
    "command_injection"
  else if inStr "ssrf" lowered || inStr "url" lowered || inStr "request" lowered then "ssrf"
  else checkId

/-- `Path(path).name`. -/
def pathName (path : String) : String :=
  let parts := (pathComponents path.toList).filter fun part => part ≠ [] ∧ part ≠ ['.']
  String.ofList (parts.getLast?.getD [])

variable (interp : Interpreter)

/-- `str(value or default)`. -/
def strOr (value : Json) (default : Str) : Str :=
  match value with
  | .str s => if s.isEmpty then default else s
  | value => if value.truthy then Str.of (interp.str value) else default

/-- `raw["check_id"]` as the parser reads it. -/
def checkIdOf (raw : List (Str × Json)) : Str :=
  strOr interp (Json.get raw "check_id") (Str.of "unknown")

/-- `raw["path"]` as the parser reads it. -/
def pathOf (raw : List (Str × Json)) : Str := strOr interp (Json.get raw "path") []

/-- `raw.get("extra") or {}`, where it is an object. -/
def extraOf (raw : List (Str × Json)) : List (Str × Json) :=
  match Json.get raw "extra" with
  | .object extra => extra
  | _ => []

/-- `extra["message"]` as the parser reads it. -/
def messageOf (raw : List (Str × Json)) : Str :=
  strOr interp (Json.get (extraOf raw) "message") (checkIdOf interp raw)

/-- The function named on the first line of `extra["lines"]`. -/
def functionOf (raw : List (Str × Json)) : Option String :=
  match Json.get (extraOf raw) "lines" with
  | .str s => functionName interp.isWord ((splitlines (strip s.lossy)).headD [])
  | _ => none

/-- `start.get("line")`: anything but an object and the values that are false has no `get`. -/
def startLine (raw : List (Str × Json)) : Except ReportError Json :=
  match Json.get raw "start" with
  | .object start => .ok (Json.get start "line")
  | start => if start.truthy then .error .attributeError else .ok .null

/-- An `int` and its `str`, where `isinstance(line, int)`. -/
def intOf : Json → Option (Int × String)
  | .int n => some (n, toString n)
  | .bool true => some (1, "True")
  | .bool false => some (0, "False")
  | _ => none

/-- The finding of an entry with a line. -/
def reportEntry (tool : String) (raw : List (Str × Json)) (line : Int × String) :
    Except ReportError BenchmarkFinding :=
  match (checkIdOf interp raw).encoded, (pathOf interp raw).encoded,
      (messageOf interp raw).encoded with
  | some checkId, some path, some message =>
      let function := functionOf interp raw
      .ok {
        tool := tool
        vulnerabilityType := canonicalType interp.lower checkId
        file := pathName path
        line := line.1
        function := function
        message := message
        fingerprint := interp.sha256
          ("|".intercalate [checkId, path, line.2, function.getD "None", message]) }
  | _, _, _ => .error .unicodeEncodeError

/-- The body of the loop: the finding of an entry, if it is not skipped. -/
def readEntry (tool : String) : Json → Except ReportError (Option BenchmarkFinding)
  | .object raw => do
      let line ← startLine raw
      match intOf line with
      | some line =>
          if (pathOf interp raw).isEmpty then .ok none
          else do
            let finding ← reportEntry interp tool raw line
            .ok (some finding)
      | none => .ok none
  | _ => .ok none

/-- The loop. -/
def readEntries (tool : String) : List Json → Except ReportError (List BenchmarkFinding)
  | [] => .ok []
  | entry :: entries => do
      let finding ← readEntry interp tool entry
      let findings ← readEntries tool entries
      .ok (finding.toList ++ findings)

/-- `for raw in results or []`: iterating a string gives its characters, and iterating an object
its keys. -/
def iterated (results : Json) : Except ReportError (List Json) :=
  match results with
  | .array items => .ok items
  | .object pairs => .ok (pairs.map fun pair => .str pair.1)
  | .str s => .ok (s.map fun c => .str [c])
  | results => if results.truthy then .error .typeError else .ok []

/-- `parse_semgrep_json`. -/
def parseSemgrepJson (text tool : String) :
    Except ReportError (List BenchmarkFinding × Option String) :=
  match loads interp.limits text.toList with
  | .error .decode => .ok ([], some ("malformed semgrep JSON: " ++ interp.decodeError text))
  | .error .digits => .error .valueError
  | .error .recursion => .error .recursionError
  | .ok (.object payload) => do
      let entries ← iterated (Json.get payload "results")
      let findings ← readEntries interp tool entries
      .ok (findings, none)
  | .ok _ => .ok ([], some "malformed semgrep JSON: expected an object")

/-! ## What it promises -/

/-- The results list of a report. -/
def resultsList (payload : List (Str × Json)) : List Json :=
  match Json.get payload "results" with
  | .array items => items
  | _ => []

/-- The start line of an entry, where it is an integer. -/
def integerLine (raw : List (Str × Json)) : Option Int :=
  match Json.get raw "start" with
  | .object start =>
      match Json.get start "line" with
      | .int n => some n
      | _ => none
  | _ => none

/-- An entry is an object with a path that is not empty and an integer start line. -/
def reported : Json → Bool
  | .object raw => !(pathOf interp raw).isEmpty && (integerLine raw).isSome
  | _ => false

/-- A finding reports an entry: the file of its path and its start line. -/
def ReportsEntry (tool : String) (finding : BenchmarkFinding) (entry : Json) : Prop :=
  ∃ raw n path, entry = .object raw ∧ integerLine raw = some n
    ∧ (pathOf interp raw).encoded = some path
    ∧ finding.tool = tool ∧ finding.file = pathName path ∧ finding.line = n

/-- The parser returns on a text: an error where the text is no JSON object, and otherwise one
finding, in order, for each reported entry of the results list. -/
structure Defensive (text tool : String) : Prop where
  invalid : (∀ payload, loads interp.limits text.toList ≠ .ok (.object payload)) →
    ∃ message, parseSemgrepJson interp text tool = .ok ([], some message)
  object : ∀ payload, loads interp.limits text.toList = .ok (.object payload) →
    ∃ findings, parseSemgrepJson interp text tool = .ok (findings, none)
      ∧ List.Forall₂ (ReportsEntry interp tool) findings
        ((resultsList payload).filter (reported interp))

/-! ## When it keeps the promise -/

/-- Iterating a value does not raise, where a value that is false counts as the empty list. -/
def iterable : Json → Bool
  | .array _ | .object _ | .str _ => true
  | results => !results.truthy

/-- Reading an entry does not raise and does not take `true` for a line. -/
structure Harmless (raw : List (Str × Json)) : Prop where
  start : (Json.get raw "start").truthy = true → ∃ start, Json.get raw "start" = .object start
  line : pathOf interp raw ≠ [] → ∀ start, Json.get raw "start" = .object start →
    ∀ b, Json.get start "line" ≠ .bool b
  texts : reported interp (.object raw) = true →
    (checkIdOf interp raw).encoded.isSome ∧ (pathOf interp raw).encoded.isSome
      ∧ (messageOf interp raw).encoded.isSome

/-- `json.loads` raises nothing but `JSONDecodeError`, `results` can be iterated, and every entry
of the results list that is an object is harmless. -/
structure WellTyped (text : String) : Prop where
  loads : ∀ e, loads interp.limits text.toList = .error e → e = .decode
  results : ∀ payload, Sast.loads interp.limits text.toList = .ok (.object payload) →
    iterable (Json.get payload "results") = true
  entries : ∀ payload, Sast.loads interp.limits text.toList = .ok (.object payload) →
    ∀ raw, .object raw ∈ resultsList payload → Harmless interp raw

variable {interp} {tool : String} {raw : List (Str × Json)}

/-- What the code does with `start`: it is an object, or false, or `get` raises. -/
lemma startLine_cases :
    (∃ start, Json.get raw "start" = .object start ∧ startLine raw = .ok (Json.get start "line"))
      ∨ (∀ start, Json.get raw "start" ≠ .object start)
        ∧ ((Json.get raw "start").truthy = false ∧ startLine raw = .ok .null
          ∨ (Json.get raw "start").truthy = true ∧ startLine raw = .error .attributeError) := by
  rw [startLine]
  split
  case h_1 start hstart => exact Or.inl ⟨start, hstart, rfl⟩
  case h_2 hstart =>
    refine Or.inr ⟨fun start h => hstart start h, ?_⟩
    split_ifs with htruthy
    · exact Or.inr ⟨htruthy, rfl⟩
    · exact Or.inl ⟨by simpa using htruthy, rfl⟩

/-- What the code does with a line: it is an integer, a boolean or no `int`. -/
lemma intOf_cases (line : Json) :
    (∃ n, line = .int n ∧ intOf line = some (n, toString n))
      ∨ (∃ b found, line = .bool b ∧ intOf line = some found)
      ∨ (∀ n, line ≠ .int n) ∧ (∀ b, line ≠ .bool b) ∧ intOf line = none := by
  cases line with
  | int n => exact Or.inl ⟨n, rfl, rfl⟩
  | bool b => cases b <;> exact Or.inr (Or.inl ⟨_, _, rfl, rfl⟩)
  | null | float | nan | infinity | str | array | object =>
      exact Or.inr (Or.inr ⟨by simp, by simp, rfl⟩)

lemma integerLine_eq_none (h : ∀ start, Json.get raw "start" = .object start →
    ∀ n, Json.get start "line" ≠ .int n) : integerLine raw = none := by
  rw [integerLine]
  split
  case h_1 start hstart =>
    split
    case h_1 n hline => exact absurd hline (h start hstart n)
    case h_2 => rfl
  case h_2 => rfl

/-- The finding of an entry is made exactly when its texts can be encoded. -/
lemma reportEntry_isOk_iff {line : Int × String} :
    (∃ finding, reportEntry interp tool raw line = .ok finding)
      ↔ (checkIdOf interp raw).encoded.isSome ∧ (pathOf interp raw).encoded.isSome
        ∧ (messageOf interp raw).encoded.isSome := by
  simp only [Option.isSome_iff_exists]
  constructor
  · rintro ⟨finding, h⟩
    unfold reportEntry at h
    split at h
    case h_1 checkId path message hcheckId hpath hmessage =>
      exact ⟨⟨checkId, hcheckId⟩, ⟨path, hpath⟩, ⟨message, hmessage⟩⟩
    case h_2 => cases h
  · rintro ⟨⟨checkId, hcheckId⟩, ⟨path, hpath⟩, ⟨message, hmessage⟩⟩
    simp only [reportEntry, hcheckId, hpath, hmessage]
    exact ⟨_, rfl⟩

lemma reports_reportEntry {n : Int} {text : String} {finding : BenchmarkFinding}
    (hline : integerLine raw = some n)
    (h : reportEntry interp tool raw (n, text) = .ok finding) :
    ReportsEntry interp tool finding (.object raw) := by
  unfold reportEntry at h
  split at h
  case h_1 checkId path message hcheckId hpath hmessage =>
    obtain rfl := Except.ok.inj h
    exact ⟨raw, n, path, rfl, hline, hpath, rfl, rfl, rfl⟩
  case h_2 => cases h

lemma not_reported (h : integerLine raw = none) : reported interp (.object raw) = false := by
  simp [reported, h]

/-- What happens to an object of the results list: it is reported, and only its texts can raise;
or it is harmless and skipped; or it is neither, and the code does not skip it. -/
lemma readEntry_cases :
    (reported interp (.object raw) = true ∧ ∃ n, integerLine raw = some n
        ∧ readEntry interp tool (.object raw)
          = (reportEntry interp tool raw (n, toString n)).map some
        ∧ (Harmless interp raw ↔ (checkIdOf interp raw).encoded.isSome
          ∧ (pathOf interp raw).encoded.isSome ∧ (messageOf interp raw).encoded.isSome))
      ∨ reported interp (.object raw) = false ∧ Harmless interp raw
        ∧ readEntry interp tool (.object raw) = .ok none
      ∨ reported interp (.object raw) = false ∧ ¬ Harmless interp raw
        ∧ readEntry interp tool (.object raw) ≠ .ok none := by
  rcases @startLine_cases raw with
    ⟨start, hstart, hline⟩ | ⟨hstart, ⟨hfalse, hline⟩ | ⟨htruthy, hline⟩⟩
  · have hobject : ∀ start', Json.get raw "start" = .object start' → start' = start :=
      fun start' h' => Json.object.inj (h'.symm.trans hstart)
    by_cases hpath : pathOf interp raw = []
    · have hreported : reported interp (.object raw) = false := by simp [reported, hpath]
      refine Or.inr (Or.inl ⟨hreported, ⟨fun _ => ⟨start, hstart⟩, fun hne => absurd hpath hne,
        fun h' => absurd h' (by simp [hreported])⟩, ?_⟩)
      cases hint : intOf (Json.get start "line") <;>
        simp [readEntry, hline, hint, hpath, bind, Except.bind]
    · rcases intOf_cases (Json.get start "line") with
        ⟨n, hn, hint⟩ | ⟨b, line, hb, hint⟩ | ⟨hn, hb, hint⟩
      · have hinteger : integerLine raw = some n := by simp [integerLine, hstart, hn]
        refine Or.inl ⟨by simp [reported, hpath, hinteger], n, hinteger, ?_, fun h => h.texts ?_,
          fun h => ⟨fun _ => ⟨start, hstart⟩, fun _ start' h' b hb => ?_, fun _ => h⟩⟩
        · rw [readEntry, hline]
          simp only [bind, Except.bind, hint, List.isEmpty_iff, hpath, if_false]
          rfl
        · simp [reported, hpath, hinteger]
        · rw [hobject start' h', hn] at hb
          cases hb
      · refine Or.inr (Or.inr ⟨not_reported (integerLine_eq_none fun start' h' n hn => ?_),
          fun h => h.line hpath start hstart b hb, ?_⟩)
        · rw [hobject start' h', hb] at hn
          cases hn
        · rw [readEntry, hline]
          simp only [bind, Except.bind, hint, List.isEmpty_iff, hpath, if_false]
          cases reportEntry interp tool raw line <;> simp
      · have hreported := @not_reported interp raw (integerLine_eq_none fun start' h' => by
          rw [hobject start' h']
          exact hn)
        refine Or.inr (Or.inl ⟨hreported, ⟨fun _ => ⟨start, hstart⟩, fun _ start' h' => ?_,
          fun h' => absurd h' (by simp [hreported])⟩, ?_⟩)
        · rw [hobject start' h']
          exact hb
        · simp [readEntry, hline, hint, bind, Except.bind]
  · have hreported := @not_reported interp raw (integerLine_eq_none fun start hstart' =>
      absurd hstart' (hstart start))
    refine Or.inr (Or.inl ⟨hreported, ⟨fun h' => absurd h' (by simp [hfalse]),
      fun _ start h' => absurd h' (hstart start), fun h' => absurd h' (by simp [hreported])⟩, ?_⟩)
    simp [readEntry, hline, intOf, bind, Except.bind]
  · refine Or.inr (Or.inr ⟨not_reported (integerLine_eq_none fun start hstart' =>
      absurd hstart' (hstart start)), fun h => ?_, ?_⟩)
    · obtain ⟨start, hobject⟩ := h.start htruthy
      exact absurd hobject (hstart start)
    · simp [readEntry, hline, bind, Except.bind]

/-- An entry is harmless, if it is an object, exactly when it is read without an exception, into
a finding if and only if it is reported. -/
lemma harmless_iff (entry : Json) :
    (∀ raw, entry = .object raw → Harmless interp raw)
      ↔ ∃ found, readEntry interp tool entry = .ok found
        ∧ found.isSome = reported interp entry := by
  cases entry with
  | object raw =>
      simp only [Json.object.injEq, forall_eq']
      rcases @readEntry_cases interp tool raw with
        ⟨hreported, n, -, hread, hharmless⟩ | ⟨hreported, hharmless, hread⟩
          | ⟨hreported, hharmless, hread⟩
      · rw [hharmless, ← @reportEntry_isOk_iff interp tool raw (n, toString n), hread, hreported]
        constructor
        · rintro ⟨finding, hfinding⟩
          exact ⟨some finding, by rw [hfinding]; rfl, rfl⟩
        · rintro ⟨found, hfound, -⟩
          obtain ⟨finding, hfinding, -⟩ := map_eq_ok.1 hfound
          exact ⟨finding, hfinding⟩
      · exact iff_of_true hharmless ⟨none, hread, hreported.symm⟩
      · refine iff_of_false hharmless ?_
        rintro ⟨found, hfound, hsome⟩
        rw [hreported, Option.isSome_eq_false_iff, Option.isNone_iff_eq_none] at hsome
        exact hread (hsome ▸ hfound)
  | null | bool | int | float | nan | infinity | str | array =>
      exact iff_of_true (by simp) ⟨none, rfl, rfl⟩

/-- What is read of a reported entry is a finding that reports it. -/
lemma reports_of_readEntry {entry : Json} (hreported : reported interp entry = true)
    {found : Option BenchmarkFinding} (h : readEntry interp tool entry = .ok found) :
    ∃ finding, found = some finding ∧ ReportsEntry interp tool finding entry := by
  cases entry with
  | object raw =>
      rcases @readEntry_cases interp tool raw with
        ⟨-, n, hline, hread, -⟩ | ⟨hnot, -⟩ | ⟨hnot, -⟩
      · rw [hread] at h
        obtain ⟨finding, hfinding, rfl⟩ := map_eq_ok.1 h
        exact ⟨finding, rfl, reports_reportEntry hline hfinding⟩
      · simp [hnot] at hreported
      · simp [hnot] at hreported
  | null | bool | int | float | nan | infinity | str | array => simp [reported] at hreported

/-! ## The loop -/

lemma readEntries_cons {entry : Json} {entries : List Json} {findings : List BenchmarkFinding} :
    readEntries interp tool (entry :: entries) = .ok findings
      ↔ ∃ found, readEntry interp tool entry = .ok found ∧ ∃ rest,
        readEntries interp tool entries = .ok rest ∧ found.toList ++ rest = findings := by
  simp only [readEntries, bind_eq_ok, Except.ok.injEq]

/-- Entries whose objects are harmless are read into one finding for each reported entry. -/
lemma readEntries_of_harmless {entries : List Json}
    (h : ∀ raw, .object raw ∈ entries → Harmless interp raw) :
    ∃ findings, readEntries interp tool entries = .ok findings
      ∧ List.Forall₂ (ReportsEntry interp tool) findings (entries.filter (reported interp)) := by
  induction entries with
  | nil => exact ⟨[], rfl, .nil⟩
  | cons entry entries ih =>
      obtain ⟨rest, hrest, hall⟩ := ih fun raw hraw => h raw (List.mem_cons_of_mem _ hraw)
      obtain ⟨found, hread, hsome⟩ := (@harmless_iff interp tool entry).1 fun raw heq =>
        h raw (heq ▸ List.mem_cons_self)
      refine ⟨found.toList ++ rest, readEntries_cons.2 ⟨found, hread, rest, hrest, rfl⟩, ?_⟩
      by_cases hreported : reported interp entry = true
      · obtain ⟨finding, rfl, hreports⟩ := reports_of_readEntry hreported hread
        rw [List.filter_cons_of_pos hreported]
        exact .cons hreports hall
      · have hnone : found = none := by simpa [hreported] using hsome
        rw [List.filter_cons_of_neg hreported, hnone]
        exact hall

/-- Entries that are read give at least one finding for each reported entry, and no more only
where every object among them is harmless. -/
lemma harmless_of_readEntries {entries : List Json} {findings : List BenchmarkFinding}
    (h : readEntries interp tool entries = .ok findings) :
    (entries.filter (reported interp)).length ≤ findings.length
      ∧ (findings.length = (entries.filter (reported interp)).length →
        ∀ raw, .object raw ∈ entries → Harmless interp raw) := by
  induction entries generalizing findings with
  | nil => exact ⟨by simp, by simp⟩
  | cons entry entries ih =>
      obtain ⟨found, hread, rest, hrest, rfl⟩ := readEntries_cons.1 h
      obtain ⟨hle, hharmless⟩ := ih hrest
      have hone : (if reported interp entry then 1 else 0) ≤ found.toList.length := by
        split_ifs with hreported
        · obtain ⟨finding, rfl, -⟩ := reports_of_readEntry hreported hread
          exact le_rfl
        · exact Nat.zero_le _
      have hcount : ((entry :: entries).filter (reported interp)).length
          = (if reported interp entry then 1 else 0)
            + (entries.filter (reported interp)).length := by
        rw [List.filter_cons]
        split_ifs <;> simp [Nat.add_comm]
      rw [hcount, List.length_append]
      refine ⟨by omega, fun heq => ?_⟩
      have hfirst : found.isSome = reported interp entry := by
        have hlength : found.toList.length = if reported interp entry then 1 else 0 := by omega
        cases found <;> cases hr : reported interp entry <;> simp [hr] at hlength ⊢
      intro raw hraw
      rcases List.mem_cons.1 hraw with heq' | hraw
      · exact harmless_iff entry |>.2 ⟨found, hread, hfirst⟩ raw heq'.symm
      · exact hharmless (by omega) raw hraw

/-- The loop gives one finding for each reported entry exactly when every object is harmless. -/
theorem readEntries_iff (entries : List Json) :
    (∃ findings, readEntries interp tool entries = .ok findings
        ∧ List.Forall₂ (ReportsEntry interp tool) findings (entries.filter (reported interp)))
      ↔ ∀ raw, .object raw ∈ entries → Harmless interp raw := by
  constructor
  · rintro ⟨findings, hread, hall⟩
    exact (harmless_of_readEntries hread).2 hall.length_eq
  · exact readEntries_of_harmless

/-! ## The report -/

/-- Characters and keys are skipped. -/
lemma readEntries_strings (strings : List Str) :
    readEntries interp tool (strings.map .str) = .ok [] := by
  induction strings with
  | nil => rfl
  | cons s strings ih => exact readEntries_cons.2 ⟨none, rfl, [], ih, rfl⟩

/-- Where `results` can be iterated the loop reads its list, or the empty one if it is no list. -/
lemma iterated_of_iterable {payload : List (Str × Json)}
    (h : iterable (Json.get payload "results") = true) :
    ∃ entries, iterated (Json.get payload "results") = .ok entries
      ∧ readEntries interp tool entries = readEntries interp tool (resultsList payload) := by
  cases hresults : Json.get payload "results" with
  | array items => exact ⟨items, rfl, by simp only [resultsList, hresults]⟩
  | object pairs =>
      refine ⟨_, rfl, ?_⟩
      rw [show (pairs.map fun pair => Json.str pair.1) = (pairs.map Prod.fst).map .str by simp,
        readEntries_strings]
      simp only [resultsList, hresults, readEntries]
  | str s =>
      refine ⟨_, rfl, ?_⟩
      rw [show (s.map fun c => Json.str [c]) = (s.map fun c => [c]).map .str by simp,
        readEntries_strings]
      simp only [resultsList, hresults, readEntries]
  | null | bool | int | float | nan | infinity =>
      rw [hresults] at h
      exact ⟨[], by simp_all [iterable, iterated], by simp only [resultsList, hresults]⟩

lemma iterated_of_not_iterable {results : Json} (h : iterable results = false) :
    iterated results = .error .typeError := by
  cases results with
  | array | object | str => cases h
  | null | bool | int | float | nan | infinity => simp_all [iterable, iterated]

/-- On a JSON object the parser returns what is promised exactly when `results` can be iterated
and its objects are harmless. -/
lemma parseObject_iff {text : String} {payload : List (Str × Json)}
    (h : loads interp.limits text.toList = .ok (.object payload)) :
    (∃ findings, parseSemgrepJson interp text tool = .ok (findings, none)
        ∧ List.Forall₂ (ReportsEntry interp tool) findings
          ((resultsList payload).filter (reported interp)))
      ↔ iterable (Json.get payload "results") = true
        ∧ ∀ raw, .object raw ∈ resultsList payload → Harmless interp raw := by
  have hparse : parseSemgrepJson interp text tool = (do
      let entries ← iterated (Json.get payload "results")
      let findings ← readEntries interp tool entries
      .ok (findings, none)) := by
    rw [parseSemgrepJson, h]
  cases hiterable : iterable (Json.get payload "results") with
  | false =>
      refine iff_of_false ?_ (by simp)
      rintro ⟨findings, hok, -⟩
      rw [hparse, iterated_of_not_iterable hiterable] at hok
      cases hok
  | true =>
      obtain ⟨entries, hentries, hread⟩ := @iterated_of_iterable interp tool payload hiterable
      have heq : parseSemgrepJson interp text tool
          = (readEntries interp tool (resultsList payload)).map fun findings =>
            (findings, none) := by
        rw [hparse, hentries, ← hread]
        rfl
      rw [heq, ← @readEntries_iff interp tool]
      simp [map_eq_ok]

/-- On every text the parser returns what is promised exactly when `json.loads` raises nothing
but `JSONDecodeError`, `results` can be iterated and each of its objects is harmless. -/
theorem defensive_iff (interp : Interpreter) (text tool : String) :
    Defensive interp text tool ↔ WellTyped interp text := by
  cases hloads : loads interp.limits text.toList with
  | error e =>
      have hobject : ∀ payload, loads interp.limits text.toList ≠ .ok (.object payload) := by
        simp [hloads]
      constructor
      · intro h
        obtain ⟨message, hparse⟩ := h.invalid hobject
        refine ⟨fun e' he' => ?_, fun payload h' => absurd h' (hobject payload),
          fun payload h' => absurd h' (hobject payload)⟩
        cases Except.error.inj (hloads.symm.trans he')
        rw [parseSemgrepJson, hloads] at hparse
        cases e with
        | decode => rfl
        | digits | recursion => cases hparse
      · intro h
        cases h.loads e hloads
        refine ⟨fun _ => ⟨_, by rw [parseSemgrepJson, hloads]⟩,
          fun payload h' => absurd h' (hobject payload)⟩
  | ok value =>
      have herror : ∀ e, loads interp.limits text.toList = .error e → e = .decode := by
        simp [hloads]
      cases value with
      | object payload =>
          have hpayload : ∀ payload',
              loads interp.limits text.toList = .ok (.object payload') → payload' = payload :=
            fun payload' h' => Json.object.inj (Except.ok.inj (h'.symm.trans hloads))
          have hobject := @parseObject_iff interp tool text payload hloads
          constructor
          · intro h
            obtain ⟨hiterable, hharmless⟩ := hobject.1 (h.object payload hloads)
            refine ⟨herror, fun payload' h' => ?_, fun payload' h' => ?_⟩
            · rw [hpayload payload' h']
              exact hiterable
            · rw [hpayload payload' h']
              exact hharmless
          · intro h
            refine ⟨fun hno => absurd hloads (hno payload), fun payload' h' => ?_⟩
            rw [hpayload payload' h']
            exact hobject.2 ⟨h.results payload hloads, h.entries payload hloads⟩
      | null | bool | int | float | nan | infinity | str | array =>
          have hobject : ∀ payload, loads interp.limits text.toList ≠ .ok (.object payload) := by
            simp [hloads]
          refine iff_of_true ⟨fun _ => ⟨_, by rw [parseSemgrepJson, hloads]⟩,
            fun payload h' => absurd h' (hobject payload)⟩ ⟨herror,
            fun payload h' => absurd h' (hobject payload),
            fun payload h' => absurd h' (hobject payload)⟩

/-- Where the parser keeps its promise it returns. -/
lemma Defensive.returns {text : String} (h : Defensive interp text tool) :
    ∃ result, parseSemgrepJson interp text tool = .ok result := by
  by_cases hobject : ∃ payload, loads interp.limits text.toList = .ok (.object payload)
  · obtain ⟨payload, hpayload⟩ := hobject
    obtain ⟨findings, hok, -⟩ := h.object payload hpayload
    exact ⟨_, hok⟩
  · obtain ⟨message, hok⟩ := h.invalid (not_exists.1 hobject)
    exact ⟨_, hok⟩

/-- An interpreter with the limits Python sets by default. -/
def defaultInterpreter : Interpreter where
  limits := ⟨some 4300, some 1000⟩
  decodeError := id
  str := fun _ => "value"
  lower := id
  isWord := Char.isAlphanum
  sha256 := id

example : parseSemgrepJson defaultInterpreter
    ("\x7b\"results\": [\x7b\"path\": \"src/app.py\", \"start\": \x7b\"line\": 7\x7d, "
      ++ "\"extra\": null\x7d, 5]\x7d")
    "semgrep" = .ok ([⟨"semgrep", "unknown", "app.py", 7, none, "unknown",
      "unknown|src/app.py|7|None|unknown"⟩], none) := by rfl

/-- A list for `start` raises `AttributeError`, and the whole report is lost. -/
theorem not_defensive_start : ¬ Defensive defaultInterpreter
    "\x7b\"results\": [\x7b\"path\": \"app.py\", \"start\": [1]\x7d]\x7d" "semgrep" := by
  intro h
  obtain ⟨result, hok⟩ := h.returns
  cases hok.symm.trans (show _ = Except.error ReportError.attributeError by rfl)

end Sast
