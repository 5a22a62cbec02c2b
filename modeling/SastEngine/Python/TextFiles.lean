import Mathlib.Data.List.Basic
import Mathlib.Data.List.Infix
import Mathlib.Tactic.Lemma
import Mathlib.Tactic.SplitIfs

/-!
# Text files

`Path.read_text(encoding="utf-8", errors="replace")` and `Path.write_text(encoding="utf-8")` on
POSIX.  Reading replaces each malformed sequence by one U+FFFD and each `\r\n` and each other `\r`
by `\n`; writing does neither.  A file is read as a list of units, each a character of the text
with the bytes it was read from.
-/

namespace Sast

/-! ## UTF-8 -/

/-- `text.encode("utf-8")`. -/
def utf8 (cs : List Char) : List UInt8 := cs.flatMap String.utf8EncodeChar

/-- The character whose bytes come first, if they are well formed. -/
def utf8Char? (bytes : List UInt8) : Option Char := bytes.toByteArray.utf8DecodeChar? 0

/-- What a lead byte announces: how many continuation bytes, and the bounds of the first one. -/
def announced (lead : UInt8) : Option (Nat × UInt8 × UInt8) :=
  if 0xC2 ≤ lead ∧ lead ≤ 0xDF then some (1, 0x80, 0xBF)
  else if lead = 0xE0 then some (2, 0xA0, 0xBF)
  else if lead = 0xED then some (2, 0x80, 0x9F)
  else if 0xE1 ≤ lead ∧ lead ≤ 0xEF then some (2, 0x80, 0xBF)
  else if lead = 0xF0 then some (3, 0x90, 0xBF)
  else if lead = 0xF4 then some (3, 0x80, 0x8F)
  else if 0xF1 ≤ lead ∧ lead ≤ 0xF3 then some (3, 0x80, 0xBF)
  else none

/-- The length of a malformed sequence: the lead byte and the continuation bytes that fit it. -/
def malformedLength (lead : UInt8) (rest : List UInt8) : Nat :=
  match announced lead, rest with
  | some (count, low, high), second :: more =>
      if low ≤ second ∧ second ≤ high then
        2 + ((more.take (count - 1)).takeWhile fun b => 0x80 ≤ b ∧ b ≤ 0xBF).length
      else 1
  | _, _ => 1

@[simp] lemma utf8_nil : utf8 [] = [] := rfl

@[simp] lemma utf8_cons (c : Char) (cs : List Char) :
    utf8 (c :: cs) = String.utf8EncodeChar c ++ utf8 cs := rfl

@[simp] lemma utf8_append (cs ds : List Char) : utf8 (cs ++ ds) = utf8 cs ++ utf8 ds :=
  List.flatMap_append

lemma utf8EncodeChar_ne_nil (c : Char) : String.utf8EncodeChar c ≠ [] := by
  intro h
  have hlength := congrArg List.length h
  rw [String.length_utf8EncodeChar] at hlength
  have := c.utf8Size_pos
  simp at hlength
  omega

/-- A character is read iff its bytes come first. -/
lemma utf8Char?_eq_some {bytes : List UInt8} {c : Char} :
    utf8Char? bytes = some c ↔ String.utf8EncodeChar c <+: bytes := by
  constructor
  · intro h
    obtain ⟨rest, hrest⟩ := ByteArray.exists_of_utf8DecodeChar?_eq_some h
    refine ⟨rest.data.toList, ?_⟩
    have hdata := congrArg (fun b : ByteArray => b.data.toList) hrest
    simpa using hdata.symm
  · rintro ⟨rest, rfl⟩
    rw [utf8Char?, List.toByteArray_append]
    exact ByteArray.utf8DecodeChar?_utf8EncodeChar_append

/-! ## Reading and writing -/

/-- A character of a text, with the bytes of the file it was read from. -/
structure TextUnit where
  bytes : List UInt8
  char : Char
deriving DecidableEq

/-- A character read from its own UTF-8 bytes. -/
def TextUnit.plain (c : Char) : TextUnit := ⟨String.utf8EncodeChar c, c⟩

/-- The first character of bytes that are decoded with `errors="replace"`. -/
def decodedUnit (b : UInt8) (rest : List UInt8) : TextUnit :=
  match utf8Char? (b :: rest) with
  | some c => .plain c
  | none => ⟨(b :: rest).take (malformedLength b rest), '\uFFFD'⟩

/-- The first unit of a file that is not empty. -/
def firstUnit (b : UInt8) (rest : List UInt8) : TextUnit :=
  if b = 0x0D then
    if rest.head? = some 0x0A then ⟨[0x0D, 0x0A], '\n'⟩ else ⟨[0x0D], '\n'⟩
  else decodedUnit b rest

/-- The first units of a file. -/
def unitsFrom : Nat → List UInt8 → List TextUnit
  | 0, _ => []
  | _ + 1, [] => []
  | n + 1, b :: rest =>
      firstUnit b rest
        :: unitsFrom n ((b :: rest).drop (firstUnit b rest).bytes.length)

/-- The units of a file: each of them is at least one byte long. -/
def textUnits (content : List UInt8) : List TextUnit := unitsFrom content.length content

/-- The first characters of decoded bytes. -/
def decodedFrom : Nat → List UInt8 → List Char
  | 0, _ => []
  | _ + 1, [] => []
  | n + 1, b :: rest =>
      (decodedUnit b rest).char
        :: decodedFrom n ((b :: rest).drop (decodedUnit b rest).bytes.length)

/-- `content.decode("utf-8", errors="replace")`. -/
def decodeBytes (content : List UInt8) : String :=
  String.ofList (decodedFrom content.length content)

/-- `read_text(encoding="utf-8", errors="replace")`. -/
def decodeText (content : List UInt8) : String :=
  String.ofList ((textUnits content).map TextUnit.char)

/-- `write_text(text, encoding="utf-8")`. -/
def encodeText (text : String) : List UInt8 := utf8 text.toList

/-- The bytes of some units. -/
def unitBytes (units : List TextUnit) : List UInt8 := units.flatMap TextUnit.bytes

/-- The characters of some units. -/
def unitChars (units : List TextUnit) : List Char := units.map TextUnit.char

@[simp] lemma unitBytes_cons (u : TextUnit) (us : List TextUnit) :
    unitBytes (u :: us) = u.bytes ++ unitBytes us := rfl

@[simp] lemma unitBytes_append (us vs : List TextUnit) :
    unitBytes (us ++ vs) = unitBytes us ++ unitBytes vs := List.flatMap_append

@[simp] lemma unitChars_cons (u : TextUnit) (us : List TextUnit) :
    unitChars (u :: us) = u.char :: unitChars us := rfl

@[simp] lemma unitBytes_plain (cs : List Char) : unitBytes (cs.map .plain) = utf8 cs := by
  simp [unitBytes, utf8, List.flatMap_map, TextUnit.plain]

@[simp] lemma unitChars_plain (cs : List Char) : unitChars (cs.map .plain) = cs := by
  simp [unitChars, TextUnit.plain, Function.comp_def]

lemma toList_decodeText (content : List UInt8) :
    (decodeText content).toList = unitChars (textUnits content) := by
  simp [decodeText, unitChars]

lemma malformedLength_pos (b : UInt8) (rest : List UInt8) : 0 < malformedLength b rest := by
  unfold malformedLength
  split
  · split_ifs
    · omega
    · exact Nat.one_pos
  · exact Nat.one_pos

/-- The first unit is a part of the file, and not an empty one. -/
lemma firstUnit_bytes (b : UInt8) (rest : List UInt8) :
    (firstUnit b rest).bytes <+: b :: rest ∧ (firstUnit b rest).bytes ≠ [] := by
  unfold firstUnit
  split_ifs with hb hnext
  · subst hb
    cases rest with
    | nil => simp at hnext
    | cons next more =>
        obtain rfl : next = 0x0A := by simpa using hnext
        exact ⟨⟨more, rfl⟩, by simp⟩
  · subst hb
    exact ⟨⟨rest, rfl⟩, by simp⟩
  · unfold decodedUnit
    cases hchar : utf8Char? (b :: rest) with
    | some c => exact ⟨utf8Char?_eq_some.1 hchar, utf8EncodeChar_ne_nil c⟩
    | none =>
        refine ⟨List.take_prefix _ _, ?_⟩
        have := malformedLength_pos b rest
        simp
        omega

/-- A unit is read from a carriage return, from its own bytes, or from malformed ones. -/
lemma firstUnit_cases (b : UInt8) (rest : List UInt8) :
    (b = 0x0D ∧ (firstUnit b rest).char = '\n') ∨ (∃ c, c ≠ '\r' ∧ firstUnit b rest = .plain c)
      ∨ (utf8Char? (b :: rest) = none ∧ (firstUnit b rest).char = '\uFFFD') := by
  unfold firstUnit
  split_ifs with hb hnext
  · exact Or.inl ⟨hb, rfl⟩
  · exact Or.inl ⟨hb, rfl⟩
  · unfold decodedUnit
    cases hchar : utf8Char? (b :: rest) with
    | some c =>
        refine Or.inr (Or.inl ⟨c, ?_, rfl⟩)
        rintro rfl
        obtain ⟨more, hmore⟩ := utf8Char?_eq_some.1 hchar
        exact hb (List.cons.inj hmore).1.symm
    | none => exact Or.inr (Or.inr ⟨rfl, rfl⟩)

lemma unitsFrom_of_le {n : Nat} {content : List UInt8} (h : content.length ≤ n) :
    unitsFrom n content = textUnits content := by
  unfold textUnits
  induction n using Nat.strong_induction_on generalizing content with
  | _ n ih =>
    cases content with
    | nil => cases n <;> rfl
    | cons b rest =>
        obtain ⟨m, rfl⟩ : ∃ m, n = m + 1 := ⟨n - 1, by simp at h; omega⟩
        have hpos := List.length_pos_iff.2 (firstUnit_bytes b rest).2
        simp only [List.length_cons] at h
        rw [unitsFrom, List.length_cons, unitsFrom]
        congr 1
        by_cases hm : rest.length = m
        · rw [hm]
        · rw [ih m (by omega) (by simp; omega), ih rest.length (by omega) (by simp; omega)]

@[simp] lemma textUnits_nil : textUnits [] = [] := rfl

lemma textUnits_cons (b : UInt8) (rest : List UInt8) :
    textUnits (b :: rest)
      = firstUnit b rest :: textUnits ((b :: rest).drop (firstUnit b rest).bytes.length) := by
  have hpos := List.length_pos_iff.2 (firstUnit_bytes b rest).2
  rw [textUnits, List.length_cons, unitsFrom, unitsFrom_of_le (by simp; omega)]

/-- Induction along the units of a file. -/
theorem textUnits_induction {P : List UInt8 → Prop} (nil : P [])
    (cons : ∀ b rest, P ((b :: rest).drop (firstUnit b rest).bytes.length) → P (b :: rest))
    (content : List UInt8) : P content := by
  induction hn : content.length using Nat.strong_induction_on generalizing content with
  | _ n ih =>
    cases content with
    | nil => exact nil
    | cons b rest =>
        have hpos := List.length_pos_iff.2 (firstUnit_bytes b rest).2
        refine cons b rest (ih _ ?_ _ rfl)
        simp at hn ⊢
        omega

lemma firstUnit_append (b : UInt8) (rest : List UInt8) :
    (firstUnit b rest).bytes ++ (b :: rest).drop (firstUnit b rest).bytes.length = b :: rest := by
  obtain ⟨more, hmore⟩ := (firstUnit_bytes b rest).1
  rw [← hmore, List.drop_left]

/-- The units take the file apart. -/
theorem unitBytes_textUnits (content : List UInt8) : unitBytes (textUnits content) = content := by
  induction content using textUnits_induction with
  | nil => rfl
  | cons b rest ih => rw [textUnits_cons, unitBytes_cons, ih, firstUnit_append]

/-- No character that is read is a carriage return. -/
lemma not_mem_unitChars (content : List UInt8) : '\r' ∉ unitChars (textUnits content) := by
  induction content using textUnits_induction with
  | nil => simp [unitChars]
  | cons b rest ih =>
      rw [textUnits_cons, unitChars_cons, List.mem_cons, not_or]
      refine ⟨?_, ih⟩
      rcases firstUnit_cases b rest with ⟨-, hchar⟩ | ⟨c, hc, hunit⟩ | ⟨-, hchar⟩
      · rw [hchar]
        decide
      · rw [hunit]
        exact hc.symm
      · rw [hchar]
        decide

/-- The units from some unit on are those of the rest of the file. -/
lemma exists_drop_textUnits (content : List UInt8) (k : Nat) :
    (textUnits content).drop k = textUnits (unitBytes ((textUnits content).drop k)) := by
  induction content using textUnits_induction generalizing k with
  | nil => simp [unitBytes]
  | cons b rest ih =>
      cases k with
      | zero => rw [List.drop_zero, unitBytes_textUnits]
      | succ k => rw [textUnits_cons, List.drop_succ_cons, ← ih k]

/-- What was written without carriage returns is read from its own bytes. -/
theorem textUnits_utf8_append {cs : List Char} (h : '\r' ∉ cs) (rest : List UInt8) :
    textUnits (utf8 cs ++ rest) = cs.map .plain ++ textUnits rest := by
  induction cs with
  | nil => rfl
  | cons c cs ih =>
      rw [List.mem_cons, not_or] at h
      rw [utf8_cons, List.append_assoc]
      have hread : utf8Char? (String.utf8EncodeChar c ++ (utf8 cs ++ rest)) = some c :=
        utf8Char?_eq_some.2 (List.prefix_append _ _)
      cases hbytes : String.utf8EncodeChar c with
      | nil => exact absurd hbytes (utf8EncodeChar_ne_nil c)
      | cons b more =>
          have hunit : firstUnit b (more ++ (utf8 cs ++ rest)) = .plain c := by
            rw [hbytes, List.cons_append] at hread
            unfold firstUnit decodedUnit
            rw [if_neg, hread]
            rintro rfl
            -- a first byte 0x0D is that of a carriage return
            have hcr : utf8Char? (0x0D :: (more ++ (utf8 cs ++ rest))) = some '\r' :=
              utf8Char?_eq_some.2 ⟨more ++ (utf8 cs ++ rest), rfl⟩
            exact h.1 (Option.some.inj (hcr.symm.trans hread))
          rw [List.cons_append, textUnits_cons, hunit, TextUnit.plain, hbytes, ← List.cons_append,
            List.drop_left, ih h.2, List.map_cons, List.cons_append, TextUnit.plain, hbytes]

/-- **What was written without carriage returns is read back.** -/
theorem decodeText_encodeText {text : String} (h : '\r' ∉ text.toList) :
    decodeText (encodeText text) = text := by
  have hunits := textUnits_utf8_append h []
  rw [List.append_nil, textUnits_nil, List.append_nil] at hunits
  rw [decodeText, encodeText, hunits]
  have hchars := unitChars_plain text.toList
  rw [unitChars] at hchars
  rw [hchars, String.ofList_toList]

/-! ## Files that are read as they are -/

/-- The bytes are UTF-8 without carriage returns. -/
def IsPlain (bytes : List UInt8) : Prop := ∃ cs : List Char, '\r' ∉ cs ∧ bytes = utf8 cs

/-- Units with the same bytes are as many. -/
lemma take_eq_of_unitBytes {units : List TextUnit} (h : ∀ u ∈ units, u.bytes ≠ []) {k m : Nat}
    (hbytes : unitBytes (units.take k) = unitBytes (units.take m)) :
    units.take k = units.take m := by
  induction units generalizing k m with
  | nil => simp
  | cons u us ih =>
      have hu : u.bytes ≠ [] := h u (by simp)
      cases k with
      | zero =>
          cases m with
          | zero => rfl
          | succ m => simp [unitBytes, hu] at hbytes
      | succ k =>
          cases m with
          | zero => simp [unitBytes, hu] at hbytes
          | succ m =>
              simp only [List.take_succ_cons, unitBytes_cons, List.append_cancel_left_eq] at hbytes
              simp only [List.take_succ_cons]
              rw [ih (fun v hv => h v (List.mem_cons_of_mem _ hv)) hbytes]

lemma textUnits_bytes_ne_nil (content : List UInt8) : ∀ u ∈ textUnits content, u.bytes ≠ [] := by
  induction content using textUnits_induction with
  | nil => simp
  | cons b rest ih =>
      rw [textUnits_cons]
      exact List.forall_mem_cons.2 ⟨(firstUnit_bytes b rest).2, ih⟩

lemma unitBytes_take_ne_nil {content : List UInt8} {k : Nat}
    (h : (textUnits content).take k ≠ []) : unitBytes ((textUnits content).take k) ≠ [] := by
  obtain ⟨u, us, htake⟩ := List.exists_cons_of_ne_nil h
  have hu : u ∈ textUnits content := List.take_subset k _ (by rw [htake]; simp)
  rw [htake, unitBytes_cons]
  intro hnil
  exact textUnits_bytes_ne_nil content u hu (List.append_eq_nil_iff.1 hnil).1

/-- The beginning of a file is read as it is iff it is plain. -/
lemma isPlain_take {content : List UInt8} {k : Nat} :
    IsPlain (unitBytes ((textUnits content).take k))
      ↔ (textUnits content).take k = (unitChars ((textUnits content).take k)).map .plain := by
  constructor
  · rintro ⟨cs, hcs, hbytes⟩
    have hcontent := unitBytes_textUnits content
    rw [← List.take_append_drop k (textUnits content), unitBytes_append, hbytes] at hcontent
    have hunits := textUnits_utf8_append hcs (unitBytes ((textUnits content).drop k))
    rw [hcontent] at hunits
    have hplain : (textUnits content).take cs.length = cs.map .plain := by
      rw [hunits]
      exact List.take_left' (by simp)
    have htake : (textUnits content).take k = cs.map .plain := by
      rw [← hplain]
      refine take_eq_of_unitBytes (textUnits_bytes_ne_nil content) ?_
      rw [hbytes, hplain, unitBytes_plain]
    rw [htake, unitChars_plain]
  · intro h
    refine ⟨unitChars ((textUnits content).take k), ?_, ?_⟩
    · intro hmem
      exact not_mem_unitChars content (List.map_subset _ (List.take_subset k _) hmem)
    · conv_lhs => rw [h, unitBytes_plain]

/-- The end of a file is read as it is iff it is plain. -/
lemma isPlain_drop {content : List UInt8} {k : Nat} :
    IsPlain (unitBytes ((textUnits content).drop k))
      ↔ (textUnits content).drop k = (unitChars ((textUnits content).drop k)).map .plain := by
  constructor
  · rintro ⟨cs, hcs, hbytes⟩
    have hunits := textUnits_utf8_append hcs []
    rw [List.append_nil, textUnits_nil, List.append_nil, ← hbytes, ← exists_drop_textUnits]
      at hunits
    rw [hunits, unitChars_plain]
  · intro h
    refine ⟨unitChars ((textUnits content).drop k), ?_, ?_⟩
    · intro hmem
      exact not_mem_unitChars content (List.map_subset _ (List.drop_subset k _) hmem)
    · conv_lhs => rw [h, unitBytes_plain]

/-- Units that begin with a continuation byte and do not end in a replacement character. -/
lemma two_le_of_continuation {file rest tail : List UInt8} {k : Nat}
    (hne : (textUnits file).take k ≠ [])
    (hend : ∀ u, ((textUnits file).take k).getLast? = some u → u.char ≠ '\uFFFD')
    (h : unitBytes ((textUnits file).take k) ++ rest = 0xBF :: tail) :
    2 ≤ (unitBytes ((textUnits file).take k)).length := by
  cases file with
  | nil => simp at hne
  | cons b more =>
      cases k with
      | zero => simp at hne
      | succ k =>
          obtain ⟨more', hmore⟩ := (firstUnit_bytes b more).1
          have hpos := List.length_pos_iff.2 (firstUnit_bytes b more).2
          rw [textUnits_cons, List.take_succ_cons] at hend h ⊢
          rw [unitBytes_cons] at h ⊢
          generalize hfile : (b :: more).drop (firstUnit b more).bytes.length = file at hend h ⊢
          cases hbytes : (firstUnit b more).bytes with
          | nil => exact absurd hbytes (firstUnit_bytes b more).2
          | cons first others =>
              rw [hbytes] at hmore h
              obtain rfl : first = b := (List.cons.inj hmore).1
              obtain rfl : first = 0xBF := (List.cons.inj h).1
              by_contra hshort
              simp only [List.length_append, List.length_cons] at hshort
              obtain rfl : others = [] := List.length_eq_zero_iff.1 (by omega)
              have hlast : (textUnits file).take k = [] := by
                by_contra hunits
                have := List.length_pos_iff.2 (unitBytes_take_ne_nil hunits)
                omega
              have hchar := hend (firstUnit 0xBF more) (by rw [hlast]; rfl)
              rcases firstUnit_cases 0xBF more with ⟨hcr, -⟩ | ⟨c, -, hunit⟩ | ⟨-, hreplaced⟩
              · exact absurd hcr (by decide)
              · rw [hunit] at hbytes
                have hread : utf8Char? [0xBF] = some c :=
                  utf8Char?_eq_some.2 ⟨[], by rw [List.append_nil]; exact hbytes⟩
                have hnone : utf8Char? [0xBF] = none := by decide +kernel
                cases hnone.symm.trans hread
              · exact hchar hreplaced

/-- **The beginning of a file, written back, begins like the file** only if it is read as it is.
It must not end in a replacement character, whose bytes the rest could complete. -/
theorem isPlain_of_written {content : List UInt8} {k : Nat} {rest tail : List UInt8}
    (hend : ∀ u, ((textUnits content).take k).getLast? = some u → u.char ≠ '\uFFFD')
    (h : unitBytes ((textUnits content).take k) ++ rest
      = utf8 (unitChars ((textUnits content).take k)) ++ tail) :
    IsPlain (unitBytes ((textUnits content).take k)) := by
  rw [isPlain_take]
  induction content using textUnits_induction generalizing k with
  | nil => simp [unitChars]
  | cons b more ih =>
      cases k with
      | zero => simp [unitChars]
      | succ k =>
          have hfirst := firstUnit_append b more
          rw [textUnits_cons, List.take_succ_cons] at hend h ⊢
          generalize hfile : (b :: more).drop (firstUnit b more).bytes.length = file
            at ih hend h hfirst ⊢
          rw [unitBytes_cons, unitChars_cons, utf8_cons, List.append_assoc, List.append_assoc] at h
          rcases firstUnit_cases b more with ⟨rfl, hchar⟩ | ⟨c, -, hunit⟩ | ⟨hnone, hchar⟩
          · -- a line feed is written for the carriage return
            rw [hchar] at h
            obtain ⟨more', hmore⟩ := (firstUnit_bytes 0x0D more).1
            cases hbytes : (firstUnit 0x0D more).bytes with
            | nil => exact absurd hbytes (firstUnit_bytes 0x0D more).2
            | cons first others =>
                rw [hbytes, List.cons_append] at hmore h
                obtain rfl := (List.cons.inj hmore).1
                exact absurd (List.cons.inj h).1 (by decide)
          · rw [hunit] at h hend ⊢
            have hrest := ih (k := k) ?_ (List.append_cancel_left h)
            · rw [unitChars_cons, List.map_cons]
              conv_lhs => rw [hrest]
              rfl
            · intro u hu
              refine hend u ?_
              rw [List.getLast?_cons, hu, Option.getD_some]
          · -- the replacement character is written, so the file would begin with it
            exfalso
            rw [hchar] at h
            have hpos := List.length_pos_iff.2 (firstUnit_bytes b more).2
            have hprefix : (firstUnit b more).bytes ++ unitBytes ((textUnits file).take k)
                <+: b :: more := by
              have hall := unitBytes_textUnits file
              rw [← List.take_append_drop k (textUnits file), unitBytes_append] at hall
              refine ⟨unitBytes ((textUnits file).drop k), ?_⟩
              rw [List.append_assoc, hall, hfirst]
            have hne : (textUnits file).take k ≠ [] := by
              intro hnil
              exact hend (firstUnit b more) (by rw [hnil]; rfl) hchar
            have hlong : 3 ≤ ((firstUnit b more).bytes
                ++ unitBytes ((textUnits file).take k)).length := by
              have hcharacter : String.utf8EncodeChar '\uFFFD' = [0xEF, 0xBF, 0xBD] := by decide
              rw [hcharacter] at h
              cases hbytes : (firstUnit b more).bytes with
              | nil => exact absurd hbytes (firstUnit_bytes b more).2
              | cons first others =>
                  rw [hbytes] at h
                  cases others with
                  | nil =>
                      have htwo := two_le_of_continuation hne ?_ (List.cons.inj h).2
                      · simp only [List.length_append, List.length_cons, List.length_nil]
                        omega
                      · intro u hu
                        refine hend u ?_
                        rw [List.getLast?_cons, hu, Option.getD_some]
                  | cons second others =>
                      have hone := List.length_pos_iff.2 (unitBytes_take_ne_nil hne)
                      simp only [List.length_append, List.length_cons]
                      omega
            have hreplacement : String.utf8EncodeChar '\uFFFD' <+: (firstUnit b more).bytes
                ++ unitBytes ((textUnits file).take k) := by
              rw [← List.append_assoc] at h
              refine List.prefix_of_prefix_length_le ⟨_, h.symm⟩ (List.prefix_append _ rest) ?_
              rw [String.length_utf8EncodeChar]
              exact hlong
            have hread := utf8Char?_eq_some.2 (hreplacement.trans hprefix)
            rw [hnone] at hread
            cases hread

end Sast
