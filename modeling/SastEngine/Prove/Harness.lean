import SastEngine.Lib.Separators
import SastEngine.Prove.Service

/-!
# The harnesses and their readers

The trusted harnesses of `prove/planner.py` print what they observe; `prove/service.py` reads it
with regular expressions.  `prove_printed` says that the two agree: through the sandbox, what a
harness has observed is what the proof reports.
-/

namespace Sast

/-- What a harness observes: how many rows the two constructions select, whether the marker file
appears, what the loopback server answers, which of the two libraries loads the payload. -/
inductive Observation where
  | rows (unsafeRows safeRows : Nat)
  | markerFile (controlHit injectedHit : Bool)
  | answer (port status : Nat) (body : String)
  | loads (pickleOk jsonOk : Bool)

/-- `int(b)`, printed. -/
def printedBit (b : Bool) : String := if b then "1" else "0"

/-- The line with the labels behind `PROVED`. -/
def provedLine (left right a b : String) : String :=
  ("PROVED:" ++ left ++ "=") ++ a ++ ((":" ++ right ++ "=") ++ b)

namespace Observation

/-- The harness that makes the observation. -/
def harness : Observation → String
  | .rows _ _ => "sql_injection_proof"
  | .markerFile _ _ => "command_injection_proof"
  | .answer _ _ _ => "ssrf_proof"
  | .loads _ _ => "deserialization_proof"

/-- The lines that the harness prints before the last one, given its argument. -/
def details (input : String) : Observation → List (String × String)
  | .rows _ _ =>
      [("UNSAFE_QUERY", "SELECT * FROM users WHERE id = " ++ input),
        ("SAFE_QUERY", "SELECT * FROM users WHERE id = ?")]
  | .markerFile _ _ => []
  | .answer port _ _ => [("URL", "http://127.0.0.1:" ++ toString port ++ "/prove")]
  | .loads pickleOk jsonOk =>
      [("PICKLE_OK", printedBit pickleOk), ("PICKLE_MARKER", if pickleOk then input else ""),
        ("JSON_OK", printedBit jsonOk)]

/-- The last line that the harness prints. -/
def proved : Observation → String
  | .rows unsafeRows safeRows =>
      provedLine "unsafe_rows" "safe_rows" (toString unsafeRows) (toString safeRows)
  | .markerFile controlHit injectedHit =>
      provedLine "control_hit" "injected_hit" (printedBit controlHit) (printedBit injectedHit)
  | .answer _ status body => provedLine "status" "body" (toString status) body
  | .loads pickleOk jsonOk =>
      provedLine "pickle_ok" "json_ok" (printedBit pickleOk) (printedBit jsonOk)

/-- The lines that the harness prints. -/
def lines (input : String) (obs : Observation) : List (List Char) :=
  (obs.details input).map (fun d => (d.1 ++ ":" ++ d.2).toList) ++ [obs.proved.toList]

/-- The output of the harness. -/
def printed (input : String) (obs : Observation) : String :=
  String.ofList ((obs.lines input).flatMap fun line => line ++ ['\n'])

/-- The observation shows that input reaches the sink. -/
def Shows (chars : CharTable) : Observation → Prop
  | .rows unsafeRows safeRows => unsafeRows ≠ safeRows
  | .markerFile controlHit injectedHit => controlHit = false ∧ injectedHit = true
  | .answer _ status body => status = 200 ∧ body.toList.takeWhile chars.word = "proved".toList
  | .loads pickleOk jsonOk => pickleOk = true ∧ jsonOk = false

/-- The counts are short enough for `int`, and the answer of the server is one line without a
label of the harness. -/
def Readable : Observation → Prop
  | .rows unsafeRows safeRows =>
      (toString unsafeRows).length ≤ intMaxStrDigits ∧ (toString safeRows).length ≤ intMaxStrDigits
  | .answer _ _ body =>
      (∀ c ∈ body.toList, isLineBreak c = false) ∧ ¬ "PROVED:".toList <:+: body.toList
  | .markerFile _ _ | .loads _ _ => True

/-- The artifacts that a proof reports. -/
def artifacts (input : String) : Observation → List ProofArtifact
  | .markerFile false true =>
      [⟨"marker_file", "marker", "prove_marker.txt (inside sandbox workspace)"⟩]
  | obs => (obs.details input).map fun d => ⟨d.1.map Char.toLower, "observation", d.2⟩

end Observation

/-! ## Digits -/

variable {chars : CharTable}

lemma digit_of_isDigit {c : Char} (h : c.isDigit = true) :
    chars.decimal c = some (c.toNat - '0'.toNat) := by
  have hlt : c.toNat < 128 := by
    simp only [Char.isDigit, Bool.and_eq_true, decide_eq_true_eq] at h
    exact lt_of_le_of_lt (UInt32.le_iff_toNat_le.1 h.2) (by decide)
  rw [chars.decimal_ascii c hlt, if_pos h]

lemma not_digit {c : Char} (hlt : c.toNat < 128) (h : c.isDigit = false) :
    chars.digit c = false := by
  rw [CharTable.digit, chars.decimal_ascii c hlt, h]
  rfl

lemma isDigit_toString {n : Nat} {c : Char} (h : c ∈ (toString n).toList) : c.isDigit = true := by
  rw [Nat.toString_eq_repr, Nat.toList_repr] at h
  exact Nat.isDigit_of_mem_toDigits (by decide) (by decide) h

lemma digit_toString {n : Nat} {c : Char} (h : c ∈ (toString n).toList) :
    chars.digit c = true := by
  rw [CharTable.digit, digit_of_isDigit (isDigit_toString h)]
  rfl

lemma toString_ne_nil (n : Nat) : (toString n).toList ≠ [] := by
  rw [Nat.toString_eq_repr, Nat.toList_repr]
  exact Nat.toDigits_ne_nil

/-- `int` of the digits of a number. -/
lemma int_toString {n : Nat} (h : (toString n).length ≤ intMaxStrDigits) :
    chars.int (toString n).toList = .ok n := by
  have hfold : (toString n).toList.foldl (fun n c => 10 * n + (chars.decimal c).getD 0) 0
      = Nat.ofDigitChars 10 (toString n).toList 0 := by
    rw [Nat.ofDigitChars_eq_foldl]
    refine List.foldl_ext _ _ _ fun m c hc => ?_
    rw [digit_of_isDigit (isDigit_toString hc)]
    rfl
  rw [CharTable.int, if_neg (by rw [String.length_toList]; exact not_lt.2 h), hfold,
    Nat.toString_eq_repr, Nat.toList_repr, Nat.ofDigitChars_ten_toDigits]

/-! ## Lines -/

/-- Lines that are printed are the lines of the output. -/
lemma splitlines_printed {lines : List (List Char)}
    (h : ∀ line ∈ lines, ∀ c ∈ line, isLineBreak c = false) :
    splitlines (lines.flatMap fun line => line ++ ['\n']) = lines := by
  induction lines with
  | nil => rfl
  | cons line lines ih =>
      have hhere := h line List.mem_cons_self
      have hrest := ih fun l hl => h l (List.mem_cons_of_mem _ hl)
      have hafter : ∀ cs, afterBreak '\n' cs = cs := by
        intro cs
        unfold afterBreak
        split <;> rfl
      rw [List.flatMap_cons, List.append_assoc, List.singleton_append,
        splitlines_first hhere (by decide), hafter, hrest]

/-- The artifact of a labelled line. -/
lemma lineArtifact_label {label : String} (hlabel : ':' ∉ label.toList) (text : String)
    {pre : String} (hpre : ':' ∉ pre.toList) :
    lineArtifact (label ++ ":" ++ text).toList pre
      = if label = pre then some ⟨pre.map Char.toLower, "observation", text⟩ else none := by
  have hline : (label ++ ":" ++ text).toList = label.toList ++ ':' :: text.toList := by simp
  rw [lineArtifact, hline]
  split_ifs with heq
  · subst heq
    have hdrop : (label.toList ++ ':' :: text.toList).dropPrefix? (label.toList ++ [':'])
        = some text.toList :=
      List.dropPrefix?_eq_some_iff.2 ⟨label.toList ++ [':'], by simp, beq_self_eq_true _⟩
    rw [hdrop, Option.map_some, String.ofList_toList]
  · rw [Option.map_eq_none_iff, Option.eq_none_iff_forall_ne_some]
    intro rest hrest
    obtain ⟨p, happend, hp⟩ := List.dropPrefix?_eq_some_iff.1 hrest
    rw [eq_of_beq hp, List.append_assoc, List.singleton_append] at happend
    exact heq (String.toList_inj.1 (append_sep_left hlabel hpre happend).1)

lemma filterMap_label {labels : List String} (h : labels.Nodup) {label : String}
    (hmem : label ∈ labels) (f : String → ProofArtifact) :
    (labels.filterMap fun pre => if label = pre then some (f pre) else none) = [f label] := by
  induction labels with
  | nil => cases hmem
  | cons first labels ih =>
      obtain ⟨hfirst, hrest⟩ := List.nodup_cons.1 h
      rcases List.mem_cons.1 hmem with rfl | hlater
      · have hnone :
            (labels.filterMap fun pre => if label = pre then some (f pre) else none) = [] := by
          refine List.filterMap_eq_nil_iff.2 fun pre hpre => if_neg ?_
          rintro rfl
          exact hfirst hpre
        rw [List.filterMap_cons, if_pos rfl, hnone]
      · have hne : label ≠ first := by
          rintro rfl
          exact hfirst hlater
        rw [List.filterMap_cons, if_neg hne]
        exact ih hrest hlater

/-- The artifacts of a printed output are its details. -/
lemma lineArtifacts_printed {details : List (String × String)}
    (hnodup : (details.map Prod.fst).Nodup) (hcolon : ∀ d ∈ details, ':' ∉ d.1.toList)
    (hproved : "PROVED" ∉ details.map Prod.fst) {rest : String}
    (hlines : ∀ line ∈ details.map (fun d => (d.1 ++ ":" ++ d.2).toList)
      ++ [("PROVED" ++ ":" ++ rest).toList], ∀ c ∈ line, isLineBreak c = false) :
    lineArtifacts ((details.map (fun d => (d.1 ++ ":" ++ d.2).toList)
        ++ [("PROVED" ++ ":" ++ rest).toList]).flatMap fun line => line ++ ['\n'])
      (details.map Prod.fst)
      = details.map fun d => ⟨d.1.map Char.toLower, "observation", d.2⟩ := by
  have hlabel : ∀ pre ∈ details.map Prod.fst, ':' ∉ pre.toList := by
    intro pre hpre
    obtain ⟨d, hd, rfl⟩ := List.mem_map.1 hpre
    exact hcolon d hd
  have hlast : (details.map Prod.fst).filterMap (lineArtifact ("PROVED" ++ ":" ++ rest).toList)
      = [] := by
    refine List.filterMap_eq_nil_iff.2 fun pre hpre => ?_
    rw [lineArtifact_label (by decide) rest (hlabel pre hpre), if_neg]
    rintro rfl
    exact hproved hpre
  have hdetails : ∀ d ∈ details,
      (details.map Prod.fst).filterMap (lineArtifact (d.1 ++ ":" ++ d.2).toList)
        = [⟨d.1.map Char.toLower, "observation", d.2⟩] := by
    intro d hd
    rw [List.filterMap_congr fun pre hpre =>
      lineArtifact_label (hcolon d hd) d.2 (hlabel pre hpre)]
    exact filterMap_label hnodup (List.mem_map_of_mem hd) fun pre =>
      ⟨pre.map Char.toLower, "observation", d.2⟩
  rw [lineArtifacts, splitlines_printed hlines, List.flatMap_append, List.flatMap_singleton, hlast,
    List.append_nil, List.flatMap_map, List.flatMap_congr hdetails, List.map_eq_flatMap]

/-! ## The search for the labels -/

section Search

variable {left right a b : String} {value : Char → Bool}

/-- The characters after the second label. -/
lemma matchAt_provedLine (ha : ∀ c ∈ a.toList, chars.digit c = true) (ha' : a.toList ≠ [])
    (hnewline : value '\n' = false) :
    (provedPattern chars left right value).matchAt ((provedLine left right a b).toList ++ ['\n'])
      = if b.toList.takeWhile value = [] then none
        else some (a.toList, b.toList.takeWhile value) := by
  have htext : (provedLine left right a b).toList ++ ['\n']
      = ("PROVED:" ++ left ++ "=").toList ++ (a.toList ++ ((":" ++ right ++ "=").toList
        ++ (b.toList ++ ['\n']))) := by
    simp only [provedLine, String.toList_append, List.append_assoc]
  have htake : (b.toList ++ ['\n']).takeWhile value = b.toList.takeWhile value := by
    rw [List.takeWhile_append, List.takeWhile_cons_of_neg (by simp [hnewline]), List.append_nil]
    split_ifs with hall
    · exact ((List.takeWhile_prefix value).eq_of_length hall).symm
    · rfl
  rw [htext, ← htake]
  refine @PairPattern.matchAt_labelled (provedPattern chars left right value) _ _ ha ha' ?_
  intro c hc
  obtain rfl : ':' = c := by simpa [provedPattern] using hc
  exact not_digit (by decide) (by decide)

/-- A labelled line is found where it begins. -/
lemma search_provedLine (ha : ∀ c ∈ a.toList, chars.digit c = true) (ha' : a.toList ≠ [])
    (hb : b.toList.takeWhile value ≠ []) (hnewline : value '\n' = false) :
    (provedPattern chars left right value).search ((provedLine left right a b).toList ++ ['\n'])
      = some (a.toList, b.toList.takeWhile value) := by
  refine PairPattern.search_of_matchAt ?_
  rw [matchAt_provedLine ha ha' hnewline, if_neg hb]

/-- A labelled line without a value after the second label, where the text there has no label. -/
lemma search_provedLine_eq_none (hleft : 'P' ∉ left.toList)
    (ha : ∀ c ∈ a.toList, chars.digit c = true) (ha' : a.toList ≠ []) (ha'' : 'P' ∉ a.toList)
    (hright : 'P' ∉ right.toList) (hb : b.toList.takeWhile value = [])
    (hlabel : ¬ "PROVED:".toList <:+: b.toList) (hnewline : value '\n' = false) :
    (provedPattern chars left right value).search ((provedLine left right a b).toList ++ ['\n'])
      = none := by
  let lead : List Char := "ROVED:".toList ++ left.toList ++ ['='] ++ a.toList ++ [':']
    ++ right.toList ++ ['=']
  have htext : (provedLine left right a b).toList ++ ['\n']
      = 'P' :: (lead ++ (b.toList ++ ['\n'])) := by
    simp [provedLine, lead]
  have hlead : 'P' ∉ lead := by
    simp [lead, hleft, ha'', hright]
  have hfirst : (provedPattern chars left right value).first
      = 'P' :: ("ROVED:".toList ++ left.toList ++ ['=']) := by
    simp [provedPattern]
  have hhere : (provedPattern chars left right value).matchAt
      ((provedLine left right a b).toList ++ ['\n']) = _ := matchAt_provedLine ha ha' hnewline
  have hlater : (provedPattern chars left right value).search (b.toList ++ ['\n']) = none := by
    refine PairPattern.search_eq_none fun hinfix => hlabel ?_
    have hshort : "PROVED:".toList <:+: b.toList ++ ['\n'] := by
      refine List.IsInfix.trans ?_ hinfix
      simp only [provedPattern, String.toList_append, List.append_assoc]
      exact (List.prefix_append _ _).isInfix
    rcases List.infix_concat_iff.1 hshort with hsuffix | hinner
    · obtain ⟨more, hmore⟩ := hsuffix
      have hlast := congrArg List.getLast? hmore
      simp at hlast
    · exact hinner
  rw [htext, if_pos hb] at hhere
  rw [htext, PairPattern.search_cons, hhere, Option.none_or,
    PairPattern.search_append_of_notMem hfirst hlead, hlater]

end Search

/-! ## What the harnesses print -/

/-- A text on one line. -/
def OneLine (text : String) : Prop := ∀ c ∈ text.toList, isLineBreak c = false

lemma oneLine_append {s t : String} : OneLine (s ++ t) ↔ OneLine s ∧ OneLine t := by
  simp only [OneLine, String.toList_append, List.mem_append, or_imp, forall_and]

lemma oneLine_toString (n : Nat) : OneLine (toString n) := by
  intro c hc
  have hdigit := isDigit_toString hc
  simp only [Char.isDigit, Bool.and_eq_true, decide_eq_true_eq] at hdigit
  have hlow : 48 ≤ c.toNat := UInt32.le_iff_toNat_le.1 hdigit.1
  have hhigh : c.toNat ≤ 57 := UInt32.le_iff_toNat_le.1 hdigit.2
  simp [isLineBreak]
  omega

instance (text : String) : Decidable (OneLine text) :=
  inferInstanceAs (Decidable (∀ c ∈ text.toList, isLineBreak c = false))

lemma oneLine_printedBit (b : Bool) : OneLine (printedBit b) := by
  cases b <;> decide

lemma provedLine_eq (left right a b : String) :
    provedLine left right a b
      = "PROVED" ++ ":" ++ (left ++ "=" ++ a ++ (":" ++ right ++ "=" ++ b)) := by
  simp only [provedLine, ← String.append_assoc]
  rfl

namespace Observation

lemma oneLine_proved {obs : Observation} (hobs : obs.Readable) : OneLine obs.proved := by
  cases obs with
  | rows unsafeRows safeRows =>
      simp only [proved, provedLine, oneLine_append, oneLine_toString, and_true]
      decide
  | markerFile controlHit injectedHit =>
      simp only [proved, provedLine, oneLine_append, oneLine_printedBit, and_true]
      decide
  | answer port status body =>
      have hbody : OneLine body := hobs.1
      simp only [proved, provedLine, oneLine_append, oneLine_toString, hbody, and_true]
      decide
  | loads pickleOk jsonOk =>
      simp only [proved, provedLine, oneLine_append, oneLine_printedBit, and_true]
      decide

lemma oneLine_details {input : String} (hinput : OneLine input) (obs : Observation) :
    ∀ d ∈ obs.details input, OneLine (d.1 ++ ":" ++ d.2) := by
  cases obs with
  | rows unsafeRows safeRows =>
      simp only [details, List.forall_mem_cons, oneLine_append, hinput, and_true]
      decide
  | markerFile controlHit injectedHit => simp [details]
  | answer port status body =>
      simp only [details, List.forall_mem_cons, oneLine_append, oneLine_toString, and_true]
      decide
  | loads pickleOk jsonOk =>
      have hmarker : OneLine (if pickleOk then input else "") := by
        split
        · exact hinput
        · decide
      simp only [details, List.forall_mem_cons, oneLine_append, oneLine_printedBit, hmarker,
        and_true]
      decide

/-- The details are reported. -/
lemma lineArtifacts_eq {input : String} (hinput : OneLine input) {obs : Observation}
    (hobs : obs.Readable) :
    lineArtifacts (obs.printed input).toList ((obs.details input).map Prod.fst)
      = (obs.details input).map fun d => ⟨d.1.map Char.toLower, "observation", d.2⟩ := by
  obtain ⟨rest, hrest⟩ : ∃ rest, obs.proved = "PROVED" ++ ":" ++ rest := by
    cases obs <;> exact ⟨_, provedLine_eq _ _ _ _⟩
  have hlines := oneLine_proved hobs
  rw [printed, String.toList_ofList, lines]
  rw [hrest] at hlines ⊢
  refine lineArtifacts_printed ?_ ?_ ?_ ?_
  · cases obs <;> simp [details]
  · cases obs <;> simp [details]
  · cases obs <;> simp [details]
  · intro line hline
    rcases List.mem_append.1 hline with hdetail | hlast
    · obtain ⟨d, hd, rfl⟩ := List.mem_map.1 hdetail
      exact oneLine_details hinput obs d hd
    · rw [List.mem_singleton.1 hlast]
      exact hlines

/-- The details, and the line with the labels after them. -/
lemma printed_toList (input : String) (obs : Observation) :
    (obs.printed input).toList
      = (obs.details input).flatMap (fun d => (d.1 ++ ":" ++ d.2).toList ++ ['\n'])
        ++ (obs.proved.toList ++ ['\n']) := by
  rw [printed, String.toList_ofList, lines, List.flatMap_append, List.flatMap_singleton,
    List.flatMap_map]

end Observation

/-! ## What the service reads -/

lemma not_word_newline : chars.word '\n' = false := by
  rw [chars.word_ascii '\n' (by decide)]
  decide

lemma not_digit_newline : chars.digit '\n' = false := not_digit (by decide) (by decide)

lemma digit_printedBit {b : Bool} {c : Char} (hc : c ∈ (printedBit b).toList) :
    chars.digit c = true := by
  have hdigit : ∀ b, ∀ c ∈ (printedBit b).toList, c.isDigit = true := by decide
  rw [CharTable.digit, digit_of_isDigit (hdigit b c hc)]
  rfl

lemma printedBit_ne_nil (b : Bool) : (printedBit b).toList ≠ [] := by
  cases b <;> decide

/-- A text in which, and at whose end, no label begins. -/
def Unlabelled (lead : List Char) : Prop :=
  ∀ t ∈ lead.tails, t ≠ [] → ¬ "PROVED:".toList <+: t ∧ ¬ t <+: "PROVED:".toList

instance (lead : List Char) : Decidable (Unlabelled lead) := List.decidableBAll _ _

lemma unlabelled_of_notMem {lead : List Char} (h : 'P' ∉ lead) : Unlabelled lead := by
  intro t ht hne
  have hmem : 'P' ∉ t := fun hc => h (((List.mem_tails t lead).1 ht).subset hc)
  refine ⟨fun hstart => hmem (hstart.subset (by decide)), fun hstart => ?_⟩
  obtain ⟨c, t, rfl⟩ := List.exists_cons_of_ne_nil hne
  exact hmem ((List.cons_prefix_cons.1 hstart).1 ▸ List.mem_cons_self)

section Read

variable {left right a b : String} {value : Char → Bool} {lead : List Char}

lemma search_lead (hlead : Unlabelled lead) (cs : List Char) :
    (provedPattern chars left right value).search (lead ++ cs)
      = (provedPattern chars left right value).search cs := by
  have hfirst : "PROVED:".toList <+: (provedPattern chars left right value).first := by
    simp only [provedPattern, String.toList_append, List.append_assoc]
    exact List.prefix_append _ _
  refine PairPattern.search_append (fun t ht hne => ?_) cs
  obtain ⟨hlonger, hshorter⟩ := hlead t ht hne
  refine ⟨fun hstart => hlonger (hfirst.trans hstart), fun hstart => ?_⟩
  rcases List.prefix_or_prefix_of_prefix hstart hfirst with h | h
  · exact hshorter h
  · exact hlonger h

/-- Two numbers behind their labels are read as they were printed. -/
lemma search_numbers (hlead : Unlabelled lead) (ha : ∀ c ∈ a.toList, chars.digit c = true)
    (ha' : a.toList ≠ []) (hb : ∀ c ∈ b.toList, chars.digit c = true) (hb' : b.toList ≠ []) :
    (provedPattern chars left right chars.digit).search
        (lead ++ ((provedLine left right a b).toList ++ ['\n'])) = some (a.toList, b.toList) := by
  have htake : b.toList.takeWhile chars.digit = b.toList := List.takeWhile_eq_self_iff.2 hb
  rw [search_lead hlead, search_provedLine ha ha' (htake.symm ▸ hb') not_digit_newline, htake]

end Read

/-- What the service reads shows what the harness has observed. -/
def Reading.Of (chars : CharTable) (input : String) (obs : Observation) (reading : Reading) :
    Prop :=
  (reading.status = .verified ∧ obs.Shows chars
    ∨ reading.status = .notVerified ∧ ¬ obs.Shows chars)
  ∧ reading.artifacts = obs.artifacts input

lemma interpretSql_printed {unsafeRows safeRows : Nat}
    (hobs : (Observation.rows unsafeRows safeRows).Readable) :
    ∃ reading, interpretSql chars ((Observation.rows unsafeRows safeRows).printed sqliMarker).toList
        = .ok reading
      ∧ reading.Of chars sqliMarker (.rows unsafeRows safeRows) := by
  have hmarker : OneLine sqliMarker := by decide
  have hlabels : ((Observation.rows unsafeRows safeRows).details sqliMarker).map Prod.fst
      = ["UNSAFE_QUERY", "SAFE_QUERY"] := rfl
  have hartifacts := Observation.lineArtifacts_eq hmarker hobs
  rw [hlabels] at hartifacts
  have hsearch : (sqlPattern chars).search
      ((Observation.rows unsafeRows safeRows).printed sqliMarker).toList
        = some ((toString unsafeRows).toList, (toString safeRows).toList) := by
    rw [Observation.printed_toList, Observation.proved, sqlPattern]
    refine search_numbers (unlabelled_of_notMem ?_) (fun c hc => digit_toString hc)
      (toString_ne_nil _) (fun c hc => digit_toString hc) (toString_ne_nil _)
    simp [Observation.details, sqliMarker]
  simp only [interpretSql, hsearch, int_toString hobs.1, int_toString hobs.2, hartifacts, bind,
    Except.bind]
  by_cases hrows : unsafeRows = safeRows
  · rw [if_neg (not_not.2 hrows)]
    exact ⟨_, rfl, Or.inr ⟨rfl, fun h => h hrows⟩, rfl⟩
  · rw [if_pos hrows]
    exact ⟨_, rfl, Or.inl ⟨rfl, hrows⟩, rfl⟩

lemma interpretCmd_printed (input : String) (controlHit injectedHit : Bool) :
    (interpretCmd chars ((Observation.markerFile controlHit injectedHit).printed input).toList).Of
      chars input (.markerFile controlHit injectedHit) := by
  have hsearch : (cmdPattern chars).search
      ((Observation.markerFile controlHit injectedHit).printed input).toList
        = some ((printedBit controlHit).toList, (printedBit injectedHit).toList) := by
    rw [Observation.printed_toList, Observation.proved, cmdPattern]
    exact search_numbers (unlabelled_of_notMem (by simp [Observation.details]))
      (fun c hc => digit_printedBit hc) (printedBit_ne_nil _)
      (fun c hc => digit_printedBit hc) (printedBit_ne_nil _)
  rw [interpretCmd, hsearch]
  cases controlHit with
  | false =>
      cases injectedHit with
      | false => exact ⟨Or.inr ⟨rfl, fun h => Bool.false_ne_true h.2⟩, rfl⟩
      | true => exact ⟨Or.inl ⟨rfl, rfl, rfl⟩, rfl⟩
  | true => cases injectedHit <;> exact ⟨Or.inr ⟨rfl, fun h => Bool.false_ne_true h.1.symm⟩, rfl⟩

lemma interpretDeser_printed (pickleOk jsonOk : Bool) :
    (interpretDeser chars ((Observation.loads pickleOk jsonOk).printed deserMarker).toList).Of
      chars deserMarker (.loads pickleOk jsonOk) := by
  have hmarker : OneLine deserMarker := by decide
  have hobs : (Observation.loads pickleOk jsonOk).Readable := trivial
  have hlabels : ((Observation.loads pickleOk jsonOk).details deserMarker).map Prod.fst
      = ["PICKLE_OK", "PICKLE_MARKER", "JSON_OK"] := rfl
  have hartifacts := Observation.lineArtifacts_eq hmarker hobs
  rw [hlabels] at hartifacts
  have hsearch : (deserPattern chars).search
      ((Observation.loads pickleOk jsonOk).printed deserMarker).toList
        = some ((printedBit pickleOk).toList, (printedBit jsonOk).toList) := by
    rw [Observation.printed_toList, Observation.proved, deserPattern]
    refine search_numbers ?_ (fun c hc => digit_printedBit hc) (printedBit_ne_nil _)
      (fun c hc => digit_printedBit hc) (printedBit_ne_nil _)
    cases pickleOk <;> cases jsonOk <;> decide
  rw [interpretDeser, hsearch, hartifacts]
  cases pickleOk with
  | true =>
      cases jsonOk with
      | false => exact ⟨Or.inl ⟨rfl, rfl, rfl⟩, rfl⟩
      | true => exact ⟨Or.inr ⟨rfl, fun h => Bool.false_ne_true h.2.symm⟩, rfl⟩
  | false => cases jsonOk <;> exact ⟨Or.inr ⟨rfl, fun h => Bool.false_ne_true h.1⟩, rfl⟩

lemma search_answer {port status : Nat} {body : String} (input : String)
    (hobs : (Observation.answer port status body).Readable) :
    (ssrfPattern chars).search ((Observation.answer port status body).printed input).toList
      = if body.toList.takeWhile chars.word = [] then none
        else some ((toString status).toList, body.toList.takeWhile chars.word) := by
  have hlead : Unlabelled (((Observation.answer port status body).details input).flatMap
      fun d => (d.1 ++ ":" ++ d.2).toList ++ ['\n']) := by
    refine unlabelled_of_notMem ?_
    simpa [Observation.details] using notMem_toString (show 'P'.isDigit = false from rfl) port
  rw [Observation.printed_toList, ssrfPattern, search_lead hlead]
  split_ifs with hrun
  · exact search_provedLine_eq_none (by decide) (fun c hc => digit_toString hc) (toString_ne_nil _)
      (notMem_toString rfl _) (by decide) hrun hobs.2 not_word_newline
  · exact search_provedLine (fun c hc => digit_toString hc) (toString_ne_nil _) hrun
      not_word_newline

lemma interpretSsrf_printed {port status : Nat} {body : String}
    (hobs : (Observation.answer port status body).Readable) :
    (interpretSsrf chars ((Observation.answer port status body).printed "").toList).Of chars ""
      (.answer port status body) := by
  have hmarker : OneLine "" := by decide
  have hlabels : ((Observation.answer port status body).details "").map Prod.fst = ["URL"] := rfl
  have hartifacts := Observation.lineArtifacts_eq hmarker hobs
  rw [hlabels] at hartifacts
  have hshows : (ssrfPattern chars).search
        ((Observation.answer port status body).printed "").toList
          = some ("200".toList, "proved".toList)
      ↔ (Observation.answer port status body).Shows chars := by
    rw [search_answer "" hobs]
    split_ifs with hrun
    · refine iff_of_false (fun h => h) fun h => ?_
      exact absurd (h.2.symm.trans hrun) (by decide)
    · rw [Option.some.injEq, Prod.mk.injEq]
      refine and_congr_left' ⟨fun h => ?_, fun h => ?_⟩
      · exact eq_of_toList_toString (m := 200) h
      · rw [h]
        rfl
  rw [interpretSsrf, hartifacts]
  by_cases hfound : (Observation.answer port status body).Shows chars
  · rw [if_pos (hshows.2 hfound)]
    exact ⟨Or.inl ⟨rfl, hfound⟩, rfl⟩
  · rw [if_neg fun h => hfound (hshows.1 h)]
    exact ⟨Or.inr ⟨rfl, hfound⟩, rfl⟩

/-! ## Proofs -/

/-- The harness ends without an error, and prints what it has observed. -/
structure Prints (env : ProveEnv) (plan : ProofPlan) (obs : Observation) : Prop where
  harness : obs.harness = plan.harness
  workspace : env.host.mkdtemp.isSome
  writes : env.host.writesScript = true
  ends : ∀ launch : Launch, launch.args = [plan.inputValue] →
    ∃ stderr, env.host.subprocess launch = .completed 0 (obs.printed plan.inputValue) stderr

/-- What the harness of a plan prints is interpreted as what it has observed. -/
lemma interpretOutput_printed {repr templates : String → String} {windows : Bool}
    {finding : CandidateFinding} {plan : ProofPlan}
    (hplan : planProof templates windows finding = some plan) {obs : Observation}
    (hharness : obs.harness = plan.harness) (hobs : obs.Readable) :
    ∃ reading, interpretOutput chars repr plan.harness (obs.printed plan.inputValue).toList
        = .ok reading ∧ reading.Of chars plan.inputValue obs := by
  rcases planProof_cases hplan with rfl | rfl | rfl | rfl
  · cases obs with
    | rows unsafeRows safeRows =>
        obtain ⟨reading, hreading, hof⟩ := interpretSql_printed hobs
        exact ⟨reading, by simpa [interpretOutput, sqlPlan] using hreading, hof⟩
    | markerFile _ _ | answer _ _ _ | loads _ _ => simp [Observation.harness, sqlPlan] at hharness
  · cases obs with
    | markerFile controlHit injectedHit =>
        exact ⟨_, by simp [interpretOutput, cmdPlan], interpretCmd_printed _ controlHit injectedHit⟩
    | rows _ _ | answer _ _ _ | loads _ _ => simp [Observation.harness, cmdPlan] at hharness
  · cases obs with
    | answer port status body =>
        exact ⟨_, by simp [interpretOutput, ssrfPlan], interpretSsrf_printed hobs⟩
    | rows _ _ | markerFile _ _ | loads _ _ => simp [Observation.harness, ssrfPlan] at hharness
  · cases obs with
    | loads pickleOk jsonOk =>
        exact ⟨_, by simp [interpretOutput, deserPlan], interpretDeser_printed pickleOk jsonOk⟩
    | rows _ _ | markerFile _ _ | answer _ _ _ => simp [Observation.harness, deserPlan] at hharness

/-- A run that prints little prints all of it. -/
lemma run_prints {env : ProveEnv} {plan : ProofPlan} {obs : Observation}
    {finding : CandidateFinding} (hplan : planProof env.templates env.windows finding = some plan)
    (hshort : (obs.printed plan.inputValue).length ≤ 16 * 1024) (hprints : Prints env plan obs)
    (runner : SandboxRunner) :
    ∃ runner' execution, runner.run env.templates (planCall env plan) = (runner', .result execution)
      ∧ execution.timedOut = false ∧ execution.returncode = some 0
      ∧ execution.stdout = obs.printed plan.inputValue := by
  obtain ⟨happroved, hscript⟩ := planProof_approved hplan
  obtain ⟨workspace, hdir⟩ := Option.isSome_iff_exists.1 hprints.workspace
  have hlimit : plan.policy.maxOutputBytes = 16 * 1024 := by
    rcases planProof_cases hplan with rfl | rfl | rfl | rfl <;> rfl
  let runner' : SandboxRunner := ⟨runner.effective (planCall env plan).policy workspace⟩
  obtain ⟨stderr, hends⟩ := hprints.ends (runner'.launch (planCall env plan) workspace) rfl
  have hrun : runner.run env.templates (planCall env plan)
      = (runner', runner'.execute (planCall env plan) workspace) := by
    have happroved' : (planCall env plan).harnessName ∈ approvedHarnesses := happroved
    have hscript' : (planCall env plan).script = env.templates (planCall env plan).harnessName :=
      hscript
    have hdir' : (planCall env plan).host.mkdtemp = some workspace := hdir
    rw [SandboxRunner.run, if_neg (not_not.2 happroved'), if_neg (not_not.2 hscript'), hdir']
  have hwhole : runner'.truncate (obs.printed plan.inputValue) = obs.printed plan.inputValue := by
    refine if_pos ?_
    have heffective : runner'.policy.maxOutputBytes = plan.policy.maxOutputBytes := rfl
    rw [heffective, hlimit]
    exact_mod_cast hshort
  have hexecute : runner'.execute (planCall env plan) workspace = .result
      { returncode := some 0
        stdout := obs.printed plan.inputValue
        stderr := runner'.truncate stderr
        timedOut := false
        truncated := (obs.printed plan.inputValue).length > runner'.policy.maxOutputBytes
        workspace := workspace } := by
    have hwrites : (planCall env plan).host.writesScript = true := hprints.writes
    have hends' : (planCall env plan).host.subprocess (runner'.launch (planCall env plan) workspace)
        = .completed 0 (obs.printed plan.inputValue) stderr := hends
    simp only [SandboxRunner.execute, if_pos hwrites, hends', hwhole]
  exact ⟨runner', _, hrun.trans (congrArg (Prod.mk runner') hexecute), rfl, rfl, rfl⟩

/-- **What a harness observes is what its proof reports.**  For a finding with a matching verdict of
true positive and a plan, whatever the runner has run before: if the harness of the plan ends
without an error and prints what it has observed, then the proof is verified exactly if the
observation shows that input reaches the sink, it is not verified otherwise, and its artifacts are
the details that were printed. -/
theorem prove_printed (env : ProveEnv) (runner : SandboxRunner) (finding : CandidateFinding)
    (validation : ValidationReport) (hid : validation.findingId = finding.id)
    (hverdict : validation.verdict = .truePositive) (plan : ProofPlan)
    (hplan : planProof env.templates env.windows finding = some plan) (obs : Observation)
    (hobs : obs.Readable) (hshort : (obs.printed plan.inputValue).length ≤ 16 * 1024)
    (hprints : Prints env plan obs) :
    ∃ report, (prove env runner finding (some validation)).2 = .ok report
      ∧ (report.status = .verified ∧ obs.Shows env.chars
        ∨ report.status = .notVerified ∧ ¬ obs.Shows env.chars)
      ∧ report.artifacts = obs.artifacts plan.inputValue ∧ report.error = none := by
  obtain ⟨runner', execution, hrun, htimed, hcode, hout⟩ := run_prints hplan hshort hprints runner
  obtain ⟨reading, hreading, hstatus, hartifacts⟩ :=
    @interpretOutput_printed env.chars env.repr env.templates env.windows finding plan hplan obs
      hprints.harness hobs
  have hinterpret : interpret env.chars env.repr plan execution = .ok reading := by
    rw [interpret, htimed, if_neg Bool.false_ne_true, hcode, if_neg (not_not.2 rfl), hout, hreading]
  refine ⟨proofReport env finding validation (some plan) reading runner'.policy none, ?_, hstatus,
    hartifacts, rfl⟩
  have hgate : proveGate finding (some validation) = .ok validation :=
    proveGate_ok.2 ⟨rfl, hid, hverdict⟩
  simp only [prove, hgate, hplan, provePlanned, hrun, hinterpret]
  rfl

/-! ## A proof by row counts -/

/-- ASCII, without any other digits and letters. -/
def asciiTable : CharTable where
  decimal c := if c.isDigit then some (c.toNat - '0'.toNat) else none
  word c := c.isAlphanum || c == '_'
  decimal_ascii _ _ := rfl
  word_ascii _ _ := rfl

/-- A query with a parameter in it. -/
def queriedFinding : CandidateFinding where
  id := "sqli"
  vulnerabilityType := "sql_injection"
  severity := "high"
  confidence := 9 / 10
  source := ⟨"app.py", 3, "request.args['q']", "request"⟩
  sink := ⟨"app.py", 4, "cursor.execute(query)", "cursor.execute"⟩
  taintPath := []
  evidence := ⟨"request.args['q']", "cursor.execute(query)", [], [3, 4], []⟩

/-- Its verdict. -/
def queriedValidation : ValidationReport where
  findingId := "sqli"
  verdict := .truePositive
  validatedAt := ⟨0, some 0⟩
  confidence := 1
  reasoning := "the parameter is interpolated"
  evidenceUsed := []
  missingEvidence := []
  recommendedNextStep := .prove
  model := none
  evidence := buildValidationEvidence id .empty queriedFinding
  metadata := ⟨"huggingface", none, 1, 0, ""⟩
  confidence_mem := ⟨by decide, by decide⟩

/-- A host on which the unsafe construction selects both rows of the fixture. -/
def bothRows : ProveEnv where
  windows := false
  repr := id
  templates _ := ""
  chars := asciiTable
  host :=
    { mkdtemp := some "/tmp/sast_prove_1"
      writesScript := true
      environ := .empty
      subprocess _ := .completed 0 ((Observation.rows 2 0).printed sqliMarker) "" }
  hostError := ""
  utcnow := ⟨0, some 0⟩
  durationMs := 1

set_option maxRecDepth 4096 in
/-- Two rows against none. -/
theorem prove_printed_bothRows :
    ∃ report, (prove bothRows ⟨{}⟩ queriedFinding (some queriedValidation)).2 = .ok report
      ∧ (report.status = .verified ∧ (Observation.rows 2 0).Shows asciiTable
        ∨ report.status = .notVerified ∧ ¬ (Observation.rows 2 0).Shows asciiTable)
      ∧ report.artifacts = (Observation.rows 2 0).artifacts sqliMarker ∧ report.error = none :=
  prove_printed bothRows ⟨{}⟩ queriedFinding queriedValidation rfl rfl (sqlPlan fun _ => "") rfl
    (.rows 2 0) ⟨by decide, by decide⟩ (by decide)
    ⟨rfl, rfl, rfl, fun _ _ => ⟨"", rfl⟩⟩

end Sast
