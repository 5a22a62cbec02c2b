import Mathlib.Data.Set.Lattice
import SastEngine.Scan.TaintEngine

/-!
# Which names taint an expression

Whether `_taint_of` yields a taint depends on the keys of the taint map only, and on each of them
separately: an expression is tainted iff it contains a source or one of the names it reads is
tainted.  `tokens` lists what it reads.
-/

namespace Sast

variable (ctx : FileContext)

/-- The token of an expression that is itself a source. -/
def sourceTokens (expr : Expr) : List (Option String) :=
  if (sourceTaint ctx expr).isSome then [none] else []

mutual

/-- What taints an expression: `some x` for a variable whose taint it takes over, `none` for a
source. -/
def tokens : Expr → List (Option String)
  | .name _ id _ => [some id]
  | .joinedStr _ values => partTokens values
  | .binOp _ left op right => if op = .add ∨ op = .mod then tokens left ++ tokens right else []
  | .call loc func args keywords =>
      sourceTokens ctx (.call loc func args keywords) ++
        (match func, args with
          | .name _ id _, arg :: _ =>
              if id = "str" ∨ id = "repr" ∨ id = "bytes" then tokens arg else []
          | .attribute _ value attr _, args =>
              if attr = "format" then tokens value ++ listTokens args else []
          | _, _ => [])
  | .attribute loc value attr c => sourceTokens ctx (.attribute loc value attr c) ++ tokens value
  | .subscript loc value slice c =>
      sourceTokens ctx (.subscript loc value slice c) ++ tokens value
  | .list _ elts _ | .tuple _ elts _ | .set _ elts => listTokens elts
  | .dict _ keys values => optTokens keys ++ listTokens values
  | .ifExp _ test body orelse => tokens test ++ tokens body ++ tokens orelse
  | _ => []

def listTokens : List Expr → List (Option String)
  | [] => []
  | e :: es => tokens e ++ listTokens es

def optTokens : List (Option Expr) → List (Option String)
  | [] => []
  | none :: es => optTokens es
  | some e :: es => tokens e ++ optTokens es

def partTokens : List Expr → List (Option String)
  | [] => []
  | .formattedValue _ value _ _ :: es => tokens value ++ partTokens es
  | _ :: es => partTokens es

end

/-- The tainted variables of a map. -/
def keySet (t : Taints) : Set String := {x | (t.get? x).isSome}

/-- One of the tokens is a source or a tainted variable. -/
def AnyTainted (names : Set String) (ts : List (Option String)) : Prop :=
  ∃ a ∈ ts, ∀ x, a = some x → x ∈ names

variable {ctx} {names : Set String}

lemma mem_keySet {t : Taints} {x : String} : x ∈ keySet t ↔ (t.get? x).isSome := Iff.rfl

@[simp] lemma keySet_empty : keySet Dict.empty = ∅ := by
  ext x
  simp [mem_keySet]

lemma keySet_set (t : Taints) (x : String) (v : Taint) :
    keySet (t.set x v) = insert x (keySet t) := by
  ext y
  rw [Set.mem_insert_iff, mem_keySet, mem_keySet, Dict.get?_set]
  split_ifs with h
  · simp [h]
  · simp [h]

lemma keySet_update (t other : Taints) : keySet (t.update other) = keySet t ∪ keySet other := by
  ext y
  simp only [Set.mem_union, mem_keySet, Dict.get?_isSome_iff, Dict.mem_keys_update, or_comm]

@[simp] lemma not_anyTainted_nil : ¬ AnyTainted names [] := by
  simp [AnyTainted]

lemma anyTainted_append {as bs : List (Option String)} :
    AnyTainted names (as ++ bs) ↔ AnyTainted names as ∨ AnyTainted names bs := by
  simp only [AnyTainted, List.mem_append, or_and_right, exists_or]

@[simp] lemma anyTainted_name {x : String} : AnyTainted names [some x] ↔ x ∈ names := by
  simp [AnyTainted]

lemma anyTainted_source {expr : Expr} :
    AnyTainted names (sourceTokens ctx expr) ↔ (sourceTaint ctx expr).isSome := by
  unfold sourceTokens
  split_ifs with h
  · simp [AnyTainted, h]
  · simp [h]

/-- A property of token lists that a union has iff one of its members has it. -/
lemma anyTainted_sUnion (ts : List (Option String)) (F : Set (Set String)) (hF : F.Nonempty) :
    AnyTainted (⋃₀ F) ts ↔ ∃ names ∈ F, AnyTainted names ts := by
  constructor
  · rintro ⟨a, ha, hx⟩
    cases a with
    | none =>
        obtain ⟨names, hnames⟩ := hF
        exact ⟨names, hnames, none, ha, by simp⟩
    | some x =>
        obtain ⟨names, hnames, hmem⟩ := hx x rfl
        refine ⟨names, hnames, some x, ha, ?_⟩
        intro y hy
        obtain rfl := Option.some.inj hy
        exact hmem
  · rintro ⟨names, hnames, a, ha, hx⟩
    exact ⟨a, ha, fun x h => ⟨names, hnames, hx x h⟩⟩

/-! ## The taint of an expression -/

lemma isSome_combine {parts : List Taint} {step : TaintStep} :
    (combine parts step).isSome ↔ parts ≠ [] := by
  unfold combine
  split_ifs with h <;> simp_all

lemma isSome_or {a b : Option Taint} : (a.or b).isSome ↔ a.isSome ∨ b.isSome := by
  cases a <;> simp

lemma toList_ne_nil {a : Option Taint} : a.toList ≠ [] ↔ a.isSome := by
  cases a <;> simp

lemma append_ne_nil {as bs : List Taint} : as ++ bs ≠ [] ↔ as ≠ [] ∨ bs ≠ [] := by
  cases as <;> simp

mutual

/-- **An expression is tainted iff one of its tokens is.** -/
theorem isSome_taintOf (t : Taints) :
    ∀ e : Expr, (taintOf ctx t e).isSome ↔ AnyTainted (keySet t) (tokens ctx e)
  | .name _ id _ => by simp [taintOf, tokens, mem_keySet]
  | .joinedStr _ values => by
      rw [taintOf, tokens, isSome_combine, taintParts_ne_nil t values]
  | .binOp _ left op right => by
      rw [taintOf, tokens]
      split_ifs with h
      · rw [isSome_combine, append_ne_nil, toList_ne_nil, toList_ne_nil, isSome_taintOf t left,
          isSome_taintOf t right, anyTainted_append]
      · simp
  | .call _ (.name _ id _) [] _ => by
      simp only [taintOf, tokens, isSome_or, anyTainted_append, anyTainted_source]
      simp
  | .call _ (.name _ id _) (arg :: _) _ => by
      simp only [taintOf, tokens, isSome_or, anyTainted_append, anyTainted_source]
      refine or_congr_right ?_
      split_ifs with h
      · rw [Option.isSome_map, isSome_taintOf t arg]
      · simp
  | .call _ (.attribute _ value attr _) args _ => by
      simp only [taintOf, tokens, isSome_or, anyTainted_append, anyTainted_source]
      refine or_congr_right ?_
      split_ifs with h
      · rw [isSome_combine, append_ne_nil, toList_ne_nil, isSome_taintOf t value,
          taintList_ne_nil t args, anyTainted_append]
      · simp
  | .call _ (.joinedStr ..) _ _ | .call _ (.binOp ..) _ _ | .call _ (.call ..) _ _
  | .call _ (.subscript ..) _ _ | .call _ (.list ..) _ _ | .call _ (.tuple ..) _ _
  | .call _ (.set ..) _ _ | .call _ (.dict ..) _ _ | .call _ (.ifExp ..) _ _
  | .call _ (.boolOp ..) _ _ | .call _ (.namedExpr ..) _ _ | .call _ (.unaryOp ..) _ _
  | .call _ (.lambda ..) _ _ | .call _ (.listComp ..) _ _ | .call _ (.setComp ..) _ _
  | .call _ (.dictComp ..) _ _ | .call _ (.generatorExp ..) _ _ | .call _ (.await ..) _ _
  | .call _ (.yield ..) _ _ | .call _ (.yieldFrom ..) _ _ | .call _ (.compare ..) _ _
  | .call _ (.formattedValue ..) _ _ | .call _ (.constant ..) _ _ | .call _ (.starred ..) _ _
  | .call _ (.slice ..) _ _ => by
      simp only [taintOf, tokens, isSome_or, anyTainted_append, anyTainted_source]
      simp
  | .attribute loc value attr c => by
      rw [taintOf, tokens, isSome_or, Option.isSome_map, anyTainted_append, anyTainted_source,
        isSome_taintOf t value]
  | .subscript loc value slice c => by
      rw [taintOf, tokens, isSome_or, Option.isSome_map, anyTainted_append, anyTainted_source,
        isSome_taintOf t value]
  | .list _ elts _ | .tuple _ elts _ | .set _ elts => by
      rw [taintOf, tokens, isSome_combine, taintList_ne_nil t elts]
  | .dict _ keys values => by
      rw [taintOf, tokens, isSome_combine, append_ne_nil, taintOpts_ne_nil t keys,
        taintList_ne_nil t values, anyTainted_append]
  | .ifExp _ test body orelse => by
      rw [taintOf, tokens, isSome_combine, append_ne_nil, append_ne_nil, toList_ne_nil,
        toList_ne_nil, toList_ne_nil, isSome_taintOf t test, isSome_taintOf t body,
        isSome_taintOf t orelse, anyTainted_append, anyTainted_append]
  | .boolOp .. | .namedExpr .. | .unaryOp .. | .lambda .. | .listComp .. | .setComp ..
  | .dictComp .. | .generatorExp .. | .await .. | .yield .. | .yieldFrom .. | .compare ..
  | .formattedValue .. | .constant .. | .starred .. | .slice .. => by simp [taintOf, tokens]

lemma taintList_ne_nil (t : Taints) :
    ∀ es : List Expr, taintList ctx t es ≠ [] ↔ AnyTainted (keySet t) (listTokens ctx es)
  | [] => by simp [taintList, listTokens]
  | e :: es => by
      rw [taintList, listTokens, append_ne_nil, toList_ne_nil, isSome_taintOf t e,
        taintList_ne_nil t es, anyTainted_append]

lemma taintOpts_ne_nil (t : Taints) :
    ∀ es : List (Option Expr), taintOpts ctx t es ≠ [] ↔ AnyTainted (keySet t) (optTokens ctx es)
  | [] => by simp [taintOpts, optTokens]
  | none :: es => by rw [taintOpts, optTokens, taintOpts_ne_nil t es]
  | some e :: es => by
      rw [taintOpts, optTokens, append_ne_nil, toList_ne_nil, isSome_taintOf t e,
        taintOpts_ne_nil t es, anyTainted_append]

lemma taintParts_ne_nil (t : Taints) :
    ∀ es : List Expr, taintParts ctx t es ≠ [] ↔ AnyTainted (keySet t) (partTokens ctx es)
  | [] => by simp [taintParts, partTokens]
  | .formattedValue _ value _ _ :: es => by
      rw [taintParts, partTokens, append_ne_nil, toList_ne_nil, isSome_taintOf t value,
        taintParts_ne_nil t es, anyTainted_append]
  | .name .. :: es | .joinedStr .. :: es | .binOp .. :: es | .call .. :: es | .attribute .. :: es
  | .subscript .. :: es | .list .. :: es | .tuple .. :: es | .set .. :: es | .dict .. :: es
  | .ifExp .. :: es | .boolOp .. :: es | .namedExpr .. :: es | .unaryOp .. :: es
  | .lambda .. :: es | .listComp .. :: es | .setComp .. :: es | .dictComp .. :: es
  | .generatorExp .. :: es | .await .. :: es | .yield .. :: es | .yieldFrom .. :: es
  | .compare .. :: es | .constant .. :: es | .starred .. :: es | .slice .. :: es => by
      simp only [taintParts, partTokens]
      exact taintParts_ne_nil t es

end

end Sast
