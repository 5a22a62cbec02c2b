import SastEngine.Python.TextFiles
import SastEngine.Remediation.Interleaved
import SastEngine.Remediation.OneScan

/-!
# The bytes around a fix

`apply` decodes the file, splices lines of the text and encodes the text again.  The lines around
the statement come out with the bytes they had iff they are UTF-8 without carriage returns
(`restUntouched_iff`): reading turns `\r\n` and `\r` into `\n` and a malformed sequence into
U+FFFD, and the lines are cut only after that.
-/

namespace Sast

/-- Python on POSIX, with an interpreter. -/
def fileRuntime (py : Stdlib) : Runtime := ⟨py, decodeText, encodeText⟩

/-! ## The lines of a file -/

section Content

variable (content : List UInt8)

/-- The lines of the text of a file. -/
def textLines : List (List Char) := splitlinesKeepends (decodeText content).toList

/-- How many characters the first lines have. -/
def charsAbove (n : Nat) : Nat := ((textLines content).take n).flatten.length

/-- The bytes of the first lines. -/
def bytesAbove (n : Nat) : List UInt8 :=
  unitBytes ((textUnits content).take (charsAbove content n))

/-- The bytes of the lines after the first ones. -/
def bytesBelow (n : Nat) : List UInt8 :=
  unitBytes ((textUnits content).drop (charsAbove content n))

end Content

/-- The lines, from 1, of a statement that has the anchored line among its own. -/
structure StatementLines (line : Nat) where
  first : Nat
  last : Nat
  first_pos : 0 < first
  first_le : first ≤ line
  le_last : line ≤ last

/-- The last line that the patch replaces. -/
def lastReplaced (proposal : RemediationProposal) (content : List UInt8) : Nat :=
  proposal.line + continuation (indentOf (lineAt (decodeText content) proposal.line))
    ((textLines content).drop proposal.line)

/-- What the patch leaves in place of the statement: its lines above the anchored one, the
replacement, and the lines that the patch does not reach. -/
def statementAfter (proposal : RemediationProposal) (content : List UInt8)
    (stmt : StatementLines proposal.line) : List Char :=
  (((textLines content).take (proposal.line - 1)).drop (stmt.first - 1)).flatten
    ++ (replacementLines proposal.after).flatten
    ++ (((textLines content).take stmt.last).drop (lastReplaced proposal content)).flatten

/-- The import line. -/
def importText (proposal : RemediationProposal) : List Char :=
  match proposal.importToAdd with
  | none => []
  | some importLine => importLine.toList ++ ['\n']

/-- The text with the statement replaced, without the import line. -/
def replacedText (proposal : RemediationProposal) (content : List UInt8) : String :=
  patchedText proposal (textLines content) (lineAt (decodeText content) proposal.line)

/-- The text above the import line. -/
def aboveImport (py : Stdlib) (proposal : RemediationProposal) (content : List UInt8) :
    List Char :=
  match py.parse (replacedText proposal content) with
  | .error _ => []
  | .ok tree => ((splitlinesKeepends (replacedText proposal content).toList).take
      (docstringEnd tree.body)).flatten

/-- The bytes outside the statement and the import line are the same before and after. -/
def RestUntouched (py : Stdlib) (proposal : RemediationProposal) (content : List UInt8)
    (stmt : StatementLines proposal.line) (after : List UInt8) : Prop :=
  ∃ head tail, after = head ++ utf8 (importText proposal) ++ tail
    ∧ head.length = (utf8 (aboveImport py proposal content)).length
    ∧ head ++ tail = bytesAbove content (stmt.first - 1)
      ++ utf8 (statementAfter proposal content stmt) ++ bytesBelow content stmt.last

/-! ## What is read and written -/

section Patch

variable {py : Stdlib} {proposal : RemediationProposal} {content : List UInt8} {text : String}

lemma flatten_textLines : (textLines content).flatten = unitChars (textUnits content) := by
  rw [textLines, flatten_splitlinesKeepends, toList_decodeText]

lemma take_textUnits (n : Nat) :
    unitChars ((textUnits content).take (charsAbove content n))
      = ((textLines content).take n).flatten := by
  have htext := @flatten_textLines content
  rw [← List.take_append_drop n (textLines content), List.flatten_append] at htext
  rw [unitChars, List.map_take, ← unitChars, ← htext]
  exact List.take_left' rfl

lemma drop_textUnits (n : Nat) :
    unitChars ((textUnits content).drop (charsAbove content n))
      = ((textLines content).drop n).flatten := by
  have htext := @flatten_textLines content
  rw [← List.take_append_drop n (textLines content), List.flatten_append] at htext
  rw [unitChars, List.map_drop, ← unitChars, ← htext]
  exact List.drop_left' rfl

/-- Plain lines are written with their own bytes. -/
lemma bytesAbove_of_isPlain {n : Nat} (h : IsPlain (bytesAbove content n)) :
    bytesAbove content n = utf8 ((textLines content).take n).flatten := by
  rw [bytesAbove, isPlain_take.1 h, unitBytes_plain, take_textUnits]

lemma bytesBelow_iff {n : Nat} :
    IsPlain (bytesBelow content n)
      ↔ bytesBelow content n = utf8 ((textLines content).drop n).flatten := by
  constructor
  · intro h
    rw [bytesBelow, isPlain_drop.1 h, unitBytes_plain, drop_textUnits]
  · intro h
    refine ⟨_, ?_, h⟩
    rw [← drop_textUnits]
    intro hmem
    exact not_mem_unitChars content (List.map_subset _ (List.drop_subset _ _) hmem)

/-- The first lines, written back, begin like the file only if they are plain. -/
lemma isPlain_bytesAbove {n : Nat} (hn : n < (textLines content).length) {rest tail : List UInt8}
    (h : bytesAbove content n ++ rest = utf8 ((textLines content).take n).flatten ++ tail) :
    IsPlain (bytesAbove content n) := by
  rw [← take_textUnits] at h
  refine isPlain_of_written ?_ h
  intro u hu hchar
  -- the lines end in a line break, which a replacement character is not
  have hlast : ((textLines content).take n).flatten.getLast? = some u.char := by
    rw [← take_textUnits, unitChars, List.getLast?_map, hu, Option.map_some]
  have hbreak := linesEnd_splitlinesKeepends _ n hn _ hlast
  rw [hchar] at hbreak
  exact absurd hbreak (by decide)

/-- The lines of the text with the statement replaced. -/
lemma toList_replacedText : (replacedText proposal content).toList
    = ((textLines content).take (proposal.line - 1)).flatten
      ++ (replacementLines proposal.after).flatten
      ++ ((textLines content).drop (lastReplaced proposal content)).flatten := by
  simp [replacedText, patchedText, spliceLines, lastReplaced]

/-- Where the import line is inserted. -/
lemma exists_belowImport : ∃ below,
    aboveImport py proposal content ++ below = (replacedText proposal content).toList
      ∧ ∀ importLine tree, proposal.importToAdd = some importLine →
        py.parse (replacedText proposal content) = .ok tree →
        (insertImport py (replacedText proposal content) importLine).toList
          = aboveImport py proposal content ++ importText proposal ++ below := by
  unfold aboveImport
  cases hparse : py.parse (replacedText proposal content) with
  | error e => exact ⟨_, rfl, fun _ _ _ h => by cases h⟩
  | ok tree =>
      refine ⟨((splitlinesKeepends (replacedText proposal content).toList).drop
        (docstringEnd tree.body)).flatten, ?_, ?_⟩
      · rw [← List.flatten_append, List.take_append_drop, flatten_splitlinesKeepends]
      · rintro importLine _ himport -
        simp [insertImport, hparse, importText, himport]

/-- A patch that applies is anchored in the file; its text is the replaced one, with the import
line if there is one, and parses. -/
lemma applyProposal_replaced (h : applyProposal py proposal (decodeText content) = .ok text) :
    0 < proposal.line ∧ proposal.line ≤ (textLines content).length
      ∧ text = (match proposal.importToAdd with
        | some importLine => insertImport py (replacedText proposal content) importLine
        | none => replacedText proposal content)
      ∧ ∃ tree, py.parse text = .ok tree := by
  simp only [applyProposal] at h
  split_ifs at h with _ hline hbefore
  rw [not_or] at hline
  refine ⟨by omega, Nat.not_lt.1 hline.2, ?_⟩
  change (match py.parse (match proposal.importToAdd with
    | some importLine => insertImport py (replacedText proposal content) importLine
    | none => replacedText proposal content) with
    | Except.error exc => _
    | Except.ok _ => Except.ok _) = _ at h
  split at h
  · cases h
  · next tree hparse =>
    obtain rfl := Except.ok.inj h
    exact ⟨rfl, tree, hparse⟩

/-- The text of a patch that applies has the spliced lines, and the import line in its place. -/
lemma applyProposal_lines (h : applyProposal py proposal (decodeText content) = .ok text) :
    ∃ below, text.toList = aboveImport py proposal content ++ importText proposal ++ below
      ∧ aboveImport py proposal content ++ below = (replacedText proposal content).toList := by
  obtain ⟨below, hbelow, hinsert⟩ := @exists_belowImport py proposal content
  obtain ⟨-, -, htext, parsed, hparsed⟩ := applyProposal_replaced h
  refine ⟨below, ?_, hbelow⟩
  cases himport : proposal.importToAdd with
  | none => rw [htext, himport, ← hbelow, importText, himport, List.append_nil]
  | some importLine =>
      rw [htext, himport] at hparsed ⊢
      cases hparse : py.parse (replacedText proposal content) with
      | ok tree => exact hinsert importLine tree himport hparse
      | error e =>
          -- then no import is inserted, and the text would not have parsed at the end
          simp only [insertImport, hparse] at hparsed
          cases hparsed

/-- What is written has the rest untouched iff, without the import line, it is the file around the
statement. -/
lemma restUntouched_encode (h : applyProposal py proposal (decodeText content) = .ok text)
    (stmt : StatementLines proposal.line) :
    RestUntouched py proposal content stmt (encodeText text)
      ↔ utf8 (replacedText proposal content).toList = bytesAbove content (stmt.first - 1)
        ++ utf8 (statementAfter proposal content stmt) ++ bytesBelow content stmt.last := by
  obtain ⟨below, htext, hreplaced⟩ := applyProposal_lines h
  have hwritten : encodeText text
      = utf8 (aboveImport py proposal content) ++ utf8 (importText proposal) ++ utf8 below := by
    rw [encodeText, htext, utf8_append, utf8_append]
  rw [← hreplaced, utf8_append]
  constructor
  · rintro ⟨head, tail, hafter, hlength, hrest⟩
    rw [hwritten, List.append_assoc, List.append_assoc] at hafter
    obtain ⟨rfl, htail⟩ := List.append_inj hafter hlength.symm
    obtain rfl := List.append_cancel_left htail
    exact hrest
  · intro hrest
    exact ⟨_, _, hwritten, rfl, hrest⟩

lemma continuation_le (startIndent : Nat) (lines : List (List Char)) :
    continuation startIndent lines ≤ lines.length := by
  induction lines with
  | nil => exact Nat.le_refl 0
  | cons line lines ih =>
      simp only [continuation, List.length_cons]
      split_ifs <;> omega

lemma utf8_eq_nil {cs : List Char} (h : utf8 cs = []) : cs = [] := by
  cases cs with
  | nil => rfl
  | cons c cs => exact absurd (List.append_eq_nil_iff.1 h).1 (utf8EncodeChar_ne_nil c)

/-- Lines that are not the last ones of the file cannot be left out. -/
lemma le_of_written {n m : Nat} (hn : n ≤ (textLines content).length)
    (h : utf8 ((textLines content).drop n).flatten = bytesBelow content m) (hm : m ≤ n) :
    n ≤ m := by
  have hplain : IsPlain (bytesBelow content m) := by
    refine ⟨((textLines content).drop n).flatten, ?_, h.symm⟩
    rw [← drop_textUnits]
    intro hmem
    exact not_mem_unitChars content (List.map_subset _ (List.drop_subset _ _) hmem)
  rw [bytesBelow_iff.1 hplain, ← List.take_append_drop (n - m) ((textLines content).drop m),
    List.drop_drop, Nat.add_sub_cancel' hm, List.flatten_append, utf8_append] at h
  have hnil := utf8_eq_nil (List.self_eq_append_left.1 h)
  by_contra hlt
  cases hbetween : ((textLines content).drop m).take (n - m) with
  | nil =>
      rw [List.take_eq_nil_iff, List.drop_eq_nil_iff] at hbetween
      omega
  | cons line lines =>
      have hline : line ∈ textLines content :=
        List.drop_subset m _ (List.take_subset (n - m) _ (by rw [hbetween]; simp))
      rw [hbetween, List.flatten_cons] at hnil
      exact splitlinesKeepends_ne_nil _ line hline (List.append_eq_nil_iff.1 hnil).1

/-- **A patch leaves the bytes around the statement untouched** iff it does not replace lines
below the statement, and the lines around the statement are UTF-8 without carriage returns. -/
theorem restUntouched_encode_iff
    (h : applyProposal py proposal (decodeText content) = .ok text)
    (stmt : StatementLines proposal.line) :
    RestUntouched py proposal content stmt (encodeText text)
      ↔ lastReplaced proposal content ≤ stmt.last
        ∧ IsPlain (bytesAbove content (stmt.first - 1))
        ∧ IsPlain (bytesBelow content stmt.last) := by
  obtain ⟨hpos, hline, -⟩ := applyProposal_replaced h
  have hreach : lastReplaced proposal content ≤ (textLines content).length := by
    have := continuation_le (indentOf (lineAt (decodeText content) proposal.line))
      ((textLines content).drop proposal.line)
    rw [List.length_drop] at this
    unfold lastReplaced
    omega
  have hfirst := stmt.first_le
  have hfirst_pos := stmt.first_pos
  have habove : ((textLines content).take (proposal.line - 1)).flatten
      = ((textLines content).take (stmt.first - 1)).flatten
        ++ (((textLines content).take (proposal.line - 1)).drop (stmt.first - 1)).flatten := by
    conv_lhs => rw [← List.take_append_drop (stmt.first - 1)
      ((textLines content).take (proposal.line - 1)), List.flatten_append, List.take_take,
      Nat.min_eq_left (by omega)]
  have hleft : lastReplaced proposal content ≤ stmt.last →
      ((textLines content).drop (lastReplaced proposal content)).flatten
        = (((textLines content).take stmt.last).drop (lastReplaced proposal content)).flatten
          ++ ((textLines content).drop stmt.last).flatten := by
    intro hlast
    rw [List.drop_take, ← List.flatten_append]
    conv_lhs => rw [← List.take_append_drop (stmt.last - lastReplaced proposal content)
      ((textLines content).drop (lastReplaced proposal content)), List.drop_drop,
      Nat.add_sub_cancel' hlast]
  rw [restUntouched_encode h stmt, toList_replacedText, statementAfter, habove]
  simp only [utf8_append, List.append_assoc]
  constructor
  · intro hwritten
    have hplain : IsPlain (bytesAbove content (stmt.first - 1)) :=
      isPlain_bytesAbove (by omega) hwritten.symm
    rw [bytesAbove_of_isPlain hplain] at hwritten
    have hbelow := List.append_cancel_left (List.append_cancel_left
      (List.append_cancel_left hwritten))
    by_cases hlast : lastReplaced proposal content ≤ stmt.last
    · rw [hleft hlast, utf8_append] at hbelow
      exact ⟨hlast, hplain, bytesBelow_iff.2 (List.append_cancel_left hbelow).symm⟩
    · -- lines below the statement would be gone
      have hnone : ((textLines content).take stmt.last).drop (lastReplaced proposal content) = [] :=
        List.drop_eq_nil_of_le (by rw [List.length_take]; omega)
      rw [hnone] at hbelow
      exact absurd (le_of_written hreach hbelow (by omega)) hlast
  · rintro ⟨hlast, hplain, hbelow⟩
    rw [bytesAbove_of_isPlain hplain, bytesBelow_iff.1 hbelow, hleft hlast, utf8_append]

end Patch

/-! ## Applying a fix -/

/-- **Applying a fix leaves the rest of the file untouched** iff the patch does not replace lines
below the statement, and the lines around the statement are UTF-8 without carriage returns. -/
theorem restUntouched_iff (py : Stdlib) (env : Surroundings) (world : World) (findingId : String)
    (confirmed : Bool) {adm : Admission} {content after : List UInt8}
    {record : RemediationRecord}
    (hadm : admission env world findingId confirmed = .ok adm)
    (hfile : world.files adm.path = some content)
    (hok : (apply (fileRuntime py) env world findingId confirmed).1 = .ok record)
    (hafter : (apply (fileRuntime py) env world findingId confirmed).2.files adm.path = some after)
    (stmt : StatementLines adm.proposal.line) :
    RestUntouched py adm.proposal content stmt after
      ↔ lastReplaced adm.proposal content ≤ stmt.last
        ∧ IsPlain (bytesAbove content (stmt.first - 1))
        ∧ IsPlain (bytesBelow content stmt.last) := by
  rcases apply_cases (fileRuntime py) env world findingId confirmed with
    ⟨e, he⟩ | ⟨adm', source, message, -, -, he⟩ | ⟨adm', source, patched, hadm', hread, hpatch, he⟩
  · rw [he] at hok
    cases hok
  · rw [he] at hok
    cases hok
  · obtain rfl := Except.ok.inj (hadm.symm.trans hadm')
    obtain ⟨read, hcontent, rfl⟩ := readText_ok hread
    obtain rfl := Option.some.inj (hfile.symm.trans hcontent)
    have hwritten : some (encodeText patched) = some after := by
      rw [he] at hafter
      simpa [World.write, World.putRecord, fileRuntime] using hafter
    rw [← Option.some.inj hwritten]
    exact restUntouched_encode_iff hpatch stmt

/-! ## A file with either line end -/

/-- The first of two command fixes is approved and proposed for a file with this content. -/
def commandWorld (content : List UInt8) : World where
  approvals := commandApprovals
  records := Dict.empty.set "A" (quotingRecord "A" 2 "a")
  files := fun path => if path = samplePath then some content else none

/-- What its application is called with. -/
def commandEnv : Surroundings := (projectCall commandsRuntime "" "" (.apply "A" true) 2 "A").env

/-- What passes its checks. -/
def commandAdmission : Admission where
  record := quotingRecord "A" 2 "a"
  proposal := quotingProposal "A" 2 "a"
  path := samplePath

/-- The command is a statement of one line. -/
def commandStatement : StatementLines commandAdmission.proposal.line :=
  ⟨2, 2, by decide, by decide, by decide⟩

/-- The three lines, ended by line feeds. -/
def unixCommands : List UInt8 := encodeText (commandsText "a" "b")

/-- The three lines, ended by carriage returns and line feeds. -/
def dosCommands : List UInt8 :=
  encodeText "import shlex\r\nos.system(a)\r\nos.system(b)\r\n"

lemma commandWorld_admission (content : List UInt8) :
    admission commandEnv (commandWorld content) "A" true = .ok commandAdmission := rfl

lemma applyProposal_command : applyProposal commandsRuntime.py commandAdmission.proposal
    (commandsText "a" "b") = .ok (commandsText "shlex.quote(a)" "b") := by
  have htext : (applyProposal commandsRuntime.py commandAdmission.proposal
      (commandsText "a" "b")).toOption = some (commandsText "shlex.quote(a)" "b") := by
    decide +kernel
  cases hresult : applyProposal commandsRuntime.py commandAdmission.proposal
      (commandsText "a" "b") with
  | error failure =>
      rw [hresult] at htext
      cases htext
  | ok text =>
      rw [hresult] at htext
      rw [Option.some.inj htext]

/-- The fix is applied to either file. -/
lemma apply_commandWorld {content : List UInt8}
    (h : decodeText content = commandsText "a" "b") :
    apply (fileRuntime commandsRuntime.py) commandEnv (commandWorld content) "A" true
      = (.ok (appliedRecord commandEnv commandAdmission.record),
        ((commandWorld content).write samplePath
          (encodeText (commandsText "shlex.quote(a)" "b"))).putRecord
            (appliedRecord commandEnv commandAdmission.record)) := by
  have hread : readText (fileRuntime commandsRuntime.py) (commandWorld content)
      commandAdmission.path = .ok (commandsText "a" "b") := by
    rw [← h]
    rfl
  unfold apply
  rw [commandWorld_admission]
  simp only [applyAdmitted]
  rw [hread]
  simp only [fileRuntime]
  rw [applyProposal_command]
  rfl

/-- The lines around the fix keep their bytes in the file with line feeds. -/
theorem restUntouched_unixCommands : RestUntouched commandsRuntime.py commandAdmission.proposal
    unixCommands commandStatement (encodeText (commandsText "shlex.quote(a)" "b")) := by
  have happly := @apply_commandWorld unixCommands
    (decodeText_encodeText (by decide +kernel))
  refine (restUntouched_iff commandsRuntime.py commandEnv (commandWorld unixCommands) "A" true
    (commandWorld_admission unixCommands) rfl (congrArg Prod.fst happly) ?_
    commandStatement).2 ⟨?_, ?_, ?_⟩
  · rw [happly]
    rfl
  · decide +kernel
  · refine isPlain_take.2 ?_
    decide +kernel
  · refine isPlain_drop.2 ?_
    decide +kernel

/-- **Applying a fix can change the lines around it**: in the file with carriage returns, those of
the other two lines are gone. -/
theorem not_restUntouched : ∃ record after,
    (apply (fileRuntime commandsRuntime.py) commandEnv (commandWorld dosCommands) "A" true).1
        = .ok record
      ∧ (apply (fileRuntime commandsRuntime.py) commandEnv (commandWorld dosCommands) "A"
          true).2.files samplePath = some after
      ∧ ¬ RestUntouched commandsRuntime.py commandAdmission.proposal dosCommands commandStatement
        after := by
  have hdecode : decodeText dosCommands = commandsText "a" "b" := by decide +kernel
  have happly := apply_commandWorld hdecode
  refine ⟨_, _, congrArg Prod.fst happly, by rw [happly]; rfl, ?_⟩
  rw [restUntouched_encode_iff (by rw [hdecode]; exact applyProposal_command)]
  rintro ⟨-, habove, -⟩
  have hunits := isPlain_take.1 habove
  revert hunits
  decide +kernel

end Sast
