import Mathlib.Data.List.Induction
import Mathlib.Data.List.Nodup
import Mathlib.Tactic.Lemma

/-!
# Insertion-ordered dictionaries

A finite map that remembers the order in which its keys were first inserted.  Overwriting a key
keeps its place, a new key goes to the end, and the values are enumerated in that order.  The
uniqueness of keys is a field of the structure, so a dictionary with a repeated key cannot be
built and the lookups below need no side condition.
-/

namespace Sast

/-- A finite map whose keys keep their insertion order. -/
structure Dict (α β : Type) where
  entries : List (α × β)
  nodup : (entries.map Prod.fst).Nodup

namespace Dict

variable {α β : Type}

/-- The dictionary without entries. -/
def empty : Dict α β := ⟨[], List.nodup_nil⟩

instance : Inhabited (Dict α β) := ⟨empty⟩

/-- Dictionaries with the same list of entries are the same. -/
lemma ext_entries : ∀ {d e : Dict α β}, d.entries = e.entries → d = e
  | ⟨_, _⟩, ⟨_, _⟩, rfl => rfl

/-- The keys, in insertion order. -/
def keys (d : Dict α β) : List α := d.entries.map Prod.fst

/-- The values, in insertion order of their keys. -/
def values (d : Dict α β) : List β := d.entries.map Prod.snd

/-- Every value replaced by its image. -/
def mapValues {γ : Type} (f : β → γ) (d : Dict α β) : Dict α γ :=
  ⟨d.entries.map fun e => (e.1, f e.2), by simpa [Function.comp_def] using d.nodup⟩

/-- The values that `f` keeps, replaced by their images. -/
def filterMapValues {γ : Type} (f : β → Option γ) (d : Dict α β) : Dict α γ :=
  ⟨d.entries.filterMap fun e => (f e.2).map fun v => (e.1, v), by
    refine List.Nodup.sublist ?_ d.nodup
    induction d.entries with
    | nil => exact List.Sublist.refl _
    | cons e es ih =>
        cases hf : f e.2 with
        | none => simpa [hf] using ih.cons e.1
        | some v => simpa [hf] using ih.cons_cons e.1⟩

/-- The entries that pass a test. -/
def filter (p : α → β → Bool) (d : Dict α β) : Dict α β :=
  ⟨d.entries.filter fun e => p e.1 e.2, d.nodup.sublist (List.filter_sublist.map _)⟩

lemma filter_filter (p q : α → β → Bool) (d : Dict α β) :
    (d.filter p).filter q = d.filter fun k v => p k v && q k v := by
  simp only [filter, List.filter_filter, Bool.and_comm]

variable [DecidableEq α]

/-- First value recorded for `k` in a list of entries. -/
def getEntry (k : α) : List (α × β) → Option β
  | [] => none
  | e :: es => if e.1 = k then some e.2 else getEntry k es

/-- Overwrite the entry of `k` in place, or append a new one. -/
def setEntry (k : α) (v : β) : List (α × β) → List (α × β)
  | [] => [(k, v)]
  | e :: es => if e.1 = k then (k, v) :: es else e :: setEntry k v es

lemma mem_keys_setEntry (k : α) (v : β) (es : List (α × β)) (x : α) :
    x ∈ (setEntry k v es).map Prod.fst ↔ x = k ∨ x ∈ es.map Prod.fst := by
  induction es with
  | nil => simp [setEntry]
  | cons e es ih =>
      simp only [setEntry]
      split_ifs with h
      · subst h; simp
      · simp only [List.map_cons, List.mem_cons, ih]; tauto

lemma nodup_setEntry (k : α) (v : β) :
    ∀ es : List (α × β), (es.map Prod.fst).Nodup → ((setEntry k v es).map Prod.fst).Nodup
  | [], _ => by simp [setEntry]
  | e :: es, h => by
      simp only [List.map_cons, List.nodup_cons] at h
      simp only [setEntry]
      split_ifs with hk
      · subst hk; simpa using h
      · simp only [List.map_cons, List.nodup_cons, mem_keys_setEntry, not_or]
        exact ⟨⟨hk, h.1⟩, nodup_setEntry k v es h.2⟩

/-- `d.get(k)`. -/
def get? (d : Dict α β) (k : α) : Option β := getEntry k d.entries

/-- `d[k] = v`. -/
def set (d : Dict α β) (k : α) (v : β) : Dict α β :=
  ⟨setEntry k v d.entries, nodup_setEntry k v d.entries d.nodup⟩

/-- `d.pop(k, None)`. -/
def erase (d : Dict α β) (k : α) : Dict α β :=
  ⟨d.entries.filter fun e => e.1 ≠ k, d.nodup.sublist (List.filter_sublist.map _)⟩

/-- `d.pop(k, None)` for every key of a list. -/
def eraseAll (d : Dict α β) (ks : List α) : Dict α β := ks.foldl erase d

/-- The entries under other keys. -/
def without (d : Dict α β) (ks : List α) : Dict α β := d.filter fun k _ => k ∉ ks

/-- The entries whose values have other images. -/
def withoutBy {γ : Type} [DecidableEq γ] (f : β → γ) (d : Dict α β) (xs : List γ) : Dict α β :=
  d.filter fun _ v => f v ∉ xs

/-- `d.update(other)`: the entries of `other` are written one by one. -/
def update (d other : Dict α β) : Dict α β :=
  other.entries.foldl (fun acc e => acc.set e.1 e.2) d

/-! ## Lookups -/

lemma getEntry_setEntry (k : α) (v : β) (es : List (α × β)) (x : α) :
    getEntry x (setEntry k v es) = if x = k then some v else getEntry x es := by
  induction es with
  | nil =>
      by_cases h : x = k
      · simp [setEntry, getEntry, h]
      · simp [setEntry, getEntry, h, Ne.symm h]
  | cons e es ih =>
      simp only [setEntry]
      by_cases hk : e.1 = k
      · subst hk
        by_cases hx : x = e.1
        · simp [getEntry, hx]
        · simp [getEntry, hx, Ne.symm hx]
      · by_cases hx : e.1 = x
        · subst hx; simp [getEntry, hk]
        · simp [getEntry, hk, hx, ih]

@[simp] lemma get?_empty (x : α) : (empty : Dict α β).get? x = none := rfl

lemma get?_set (d : Dict α β) (k : α) (v : β) (x : α) :
    (d.set k v).get? x = if x = k then some v else d.get? x :=
  getEntry_setEntry k v d.entries x

@[simp] lemma get?_set_self (d : Dict α β) (k : α) (v : β) : (d.set k v).get? k = some v := by
  rw [get?_set, if_pos rfl]

lemma get?_set_ne (d : Dict α β) {k x : α} (v : β) (h : x ≠ k) :
    (d.set k v).get? x = d.get? x := by
  rw [get?_set, if_neg h]

lemma getEntry_eq_some {es : List (α × β)} (hn : (es.map Prod.fst).Nodup) {k : α} {v : β} :
    getEntry k es = some v ↔ (k, v) ∈ es := by
  induction es with
  | nil => simp [getEntry]
  | cons e es ih =>
      simp only [List.map_cons, List.nodup_cons] at hn
      simp only [getEntry, List.mem_cons]
      split_ifs with h
      · subst h
        constructor
        · rintro h'; left; simpa [Prod.ext_iff, eq_comm] using h'
        · rintro (h' | h')
          · rw [← h']
          · exact absurd (List.mem_map_of_mem (f := Prod.fst) h') hn.1
      · rw [ih hn.2]
        constructor
        · exact Or.inr
        · rintro (h' | h')
          · exact absurd (by rw [← h']) h
          · exact h'

/-- A lookup succeeds exactly on the recorded entries. -/
lemma get?_eq_some_iff (d : Dict α β) {k : α} {v : β} :
    d.get? k = some v ↔ (k, v) ∈ d.entries :=
  getEntry_eq_some d.nodup

lemma mem_values_iff (d : Dict α β) {v : β} : v ∈ d.values ↔ ∃ k, d.get? k = some v := by
  simp only [values, List.mem_map, get?_eq_some_iff]
  constructor
  · rintro ⟨⟨k, w⟩, h, rfl⟩; exact ⟨k, h⟩
  · rintro ⟨k, h⟩; exact ⟨(k, v), h, rfl⟩

lemma getEntry_isSome (k : α) (es : List (α × β)) :
    (getEntry k es).isSome ↔ k ∈ es.map Prod.fst := by
  induction es with
  | nil => simp [getEntry]
  | cons e es ih =>
      simp only [getEntry, List.map_cons, List.mem_cons]
      split_ifs with h
      · simp [h]
      · rw [ih]; simp [Ne.symm h]

/-- A key is recorded exactly when its lookup succeeds. -/
lemma get?_isSome_iff (d : Dict α β) (k : α) : (d.get? k).isSome ↔ k ∈ d.keys :=
  getEntry_isSome k d.entries

lemma mem_keys_set (d : Dict α β) (k : α) (v : β) (x : α) :
    x ∈ (d.set k v).keys ↔ x = k ∨ x ∈ d.keys :=
  mem_keys_setEntry k v d.entries x

lemma setEntry_of_not_mem (k : α) (v : β) :
    ∀ es : List (α × β), k ∉ es.map Prod.fst → setEntry k v es = es ++ [(k, v)]
  | [], _ => rfl
  | e :: es, h => by
      simp only [List.map_cons, List.mem_cons, not_or] at h
      simp only [setEntry, if_neg (Ne.symm h.1), setEntry_of_not_mem k v es h.2, List.cons_append]

/-- A new key goes to the end. -/
lemma values_set_new (d : Dict α β) (k : α) (v : β) (h : d.get? k = none) :
    (d.set k v).values = d.values ++ [v] := by
  have hk : k ∉ d.entries.map Prod.fst := by
    intro hmem
    have := (d.get?_isSome_iff k).2 hmem
    simp [h] at this
  simp [values, set, setEntry_of_not_mem k v _ hk]

lemma setEntry_of_mem (k : α) (v : β) :
    ∀ es : List (α × β), (es.map Prod.fst).Nodup → k ∈ es.map Prod.fst →
      setEntry k v es = es.map fun e => if e.1 = k then (k, v) else e
  | [], _, hk => by simp at hk
  | e :: es, hn, hk => by
      simp only [List.map_cons, List.nodup_cons] at hn
      simp only [setEntry, List.map_cons]
      split_ifs with h
      · have hrest : ∀ x ∈ es, (if x.1 = k then (k, v) else x) = x := by
          intro x hx
          rw [if_neg]
          rintro hxk
          exact hn.1 (h ▸ hxk ▸ List.mem_map_of_mem hx)
        rw [List.map_congr_left hrest, List.map_id']
      · rw [setEntry_of_mem k v es hn.2 (by simpa [Ne.symm h] using hk)]

/-- Overwriting a key keeps its place. -/
lemma values_set_of_mem (d : Dict α β) (k : α) (v : β) (h : (d.get? k).isSome) :
    (d.set k v).values = d.entries.map fun e => if e.1 = k then v else e.2 := by
  have hk : k ∈ d.entries.map Prod.fst := (d.get?_isSome_iff k).1 h
  simp only [values, set, setEntry_of_mem k v _ d.nodup hk, List.map_map]
  refine List.map_congr_left fun e _ => ?_
  simp only [Function.comp]
  split_ifs <;> rfl

lemma mem_keys_update (d other : Dict α β) (x : α) :
    x ∈ (d.update other).keys ↔ x ∈ other.keys ∨ x ∈ d.keys := by
  have h : ∀ (es : List (α × β)) (d : Dict α β),
      x ∈ (es.foldl (fun acc e => acc.set e.1 e.2) d).keys
        ↔ x ∈ es.map Prod.fst ∨ x ∈ d.keys := by
    intro es
    induction es with
    | nil => simp
    | cons e es ih =>
        intro d
        simp only [List.foldl_cons, ih, mem_keys_set, List.map_cons, List.mem_cons]
        tauto
  exact h other.entries d

lemma get?_mapValues {γ : Type} (f : β → γ) (d : Dict α β) (k : α) :
    (d.mapValues f).get? k = (d.get? k).map f := by
  have h : ∀ es : List (α × β),
      getEntry k (es.map fun e => (e.1, f e.2)) = (getEntry k es).map f := by
    intro es
    induction es with
    | nil => rfl
    | cons e es ih =>
        simp only [List.map_cons, getEntry]
        split_ifs
        · rfl
        · exact ih
  exact h d.entries

omit [DecidableEq α] in
/-- Values that are their own images. -/
lemma mapValues_eq_self {f : β → β} {d : Dict α β} (h : ∀ v ∈ d.values, f v = v) :
    d.mapValues f = d := by
  have hentries : d.entries.map (fun e => (e.1, f e.2)) = d.entries := by
    refine (List.map_congr_left fun e he => ?_).trans (List.map_id' _)
    rw [h e.2 (List.mem_map_of_mem he)]
  cases d
  simp only [mapValues, mk.injEq]
  exact hentries

lemma get?_erase (d : Dict α β) (k x : α) :
    (d.erase k).get? x = if x = k then none else d.get? x := by
  have h : ∀ es : List (α × β), getEntry x (es.filter fun e => e.1 ≠ k)
      = if x = k then none else getEntry x es := by
    intro es
    induction es with
    | nil => simp [getEntry]
    | cons e es ih =>
        by_cases hk : e.1 = k
        · subst hk
          rw [List.filter_cons_of_neg (by simp), ih]
          split_ifs with hx
          · rfl
          · rw [getEntry, if_neg (Ne.symm hx)]
        · rw [List.filter_cons_of_pos (by simpa using hk), getEntry, getEntry, ih]
          split_ifs with hx hxk
          · exact absurd (hx.trans hxk) hk
          · rfl
          · rfl
          · rfl
  exact h d.entries

lemma get?_eraseAll (d : Dict α β) (ks : List α) (x : α) :
    (d.eraseAll ks).get? x = if x ∈ ks then none else d.get? x := by
  induction ks generalizing d with
  | nil => simp [eraseAll]
  | cons k ks ih =>
      have hstep : d.eraseAll (k :: ks) = (d.erase k).eraseAll ks := rfl
      rw [hstep, ih, get?_erase]
      by_cases hx : x = k
      · simp [hx]
      · simp [hx]

lemma get?_filter (p : α → β → Bool) (d : Dict α β) (x : α) :
    (d.filter p).get? x = (d.get? x).filter (p x) := by
  have h : ∀ es : List (α × β), (es.map Prod.fst).Nodup →
      getEntry x (es.filter fun e => p e.1 e.2) = (getEntry x es).filter (p x) := by
    intro es hn
    induction es with
    | nil => rfl
    | cons e es ih =>
        rw [List.map_cons, List.nodup_cons] at hn
        rw [List.filter_cons]
        by_cases hk : e.1 = x
        · subst hk
          have habsent : getEntry e.1 es = none := by
            rw [← Option.not_isSome_iff_eq_none, getEntry_isSome]
            exact hn.1
          have hrest := ih hn.2
          split_ifs with hp
          · simp [getEntry, Option.filter, hp]
          · simp [hrest, habsent, getEntry, Option.filter, hp]
        · have hrest := ih hn.2
          split_ifs with hp
          · simp [getEntry, hk, hrest]
          · simp [getEntry, hk, hrest]
  exact h d.entries d.nodup

lemma filter_eq_self {p : α → β → Bool} {d : Dict α β}
    (h : ∀ k v, d.get? k = some v → p k v = true) : d.filter p = d := by
  have hentries : d.entries.filter (fun e => p e.1 e.2) = d.entries :=
    List.filter_eq_self.2 fun e he => h e.1 e.2 ((getEntry_eq_some d.nodup).2 he)
  cases d
  simp only [filter, mk.injEq]
  exact hentries

lemma filter_congr {p q : α → β → Bool} {d : Dict α β}
    (h : ∀ k v, d.get? k = some v → p k v = q k v) : d.filter p = d.filter q := by
  have hentries : d.entries.filter (fun e => p e.1 e.2) = d.entries.filter fun e => q e.1 e.2 :=
    List.filter_congr fun e he => h e.1 e.2 ((getEntry_eq_some d.nodup).2 he)
  simp only [filter, mk.injEq]
  exact hentries

lemma filter_eq_empty {p : α → β → Bool} {d : Dict α β}
    (h : ∀ k v, d.get? k = some v → p k v = false) : d.filter p = .empty := by
  have hentries : d.entries.filter (fun e => p e.1 e.2) = [] := by
    refine List.filter_eq_nil_iff.2 fun e he => ?_
    rw [h e.1 e.2 ((getEntry_eq_some d.nodup).2 he)]
    exact Bool.false_ne_true
  simp only [filter, empty, mk.injEq]
  exact hentries

/-- A test that spares what is asked for. -/
lemma filter_filter_of_imp {p q : α → β → Bool} {d : Dict α β}
    (h : ∀ k v, d.get? k = some v → q k v = true → p k v = true) :
    (d.filter p).filter q = d.filter q := by
  rw [filter_filter]
  refine filter_congr fun k v hk => ?_
  cases hq : q k v with
  | false => rw [Bool.and_false]
  | true => rw [h k v hk hq, Bool.and_true]

/-- A test that removes all that is asked for. -/
lemma filter_filter_eq_empty {p q : α → β → Bool} {d : Dict α β}
    (h : ∀ k v, d.get? k = some v → q k v = true → p k v = false) :
    (d.filter p).filter q = .empty := by
  rw [filter_filter]
  refine filter_eq_empty fun k v hk => ?_
  cases hq : q k v with
  | false => rw [Bool.and_false]
  | true => rw [h k v hk hq, Bool.false_and]

lemma get?_without (d : Dict α β) (ks : List α) (x : α) :
    (d.without ks).get? x = if x ∈ ks then none else d.get? x := by
  rw [without, get?_filter]
  split_ifs with hx
  · cases d.get? x <;> simp [Option.filter, hx]
  · cases d.get? x <;> simp [Option.filter, hx]

lemma without_without (d : Dict α β) (ks ls : List α) :
    (d.without ks).without ls = d.without (ks ++ ls) := by
  simp only [without, filter_filter, List.mem_append, not_or, Bool.decide_and]

lemma without_congr {ks ls : List α} (h : ∀ k, k ∈ ks ↔ k ∈ ls) (d : Dict α β) :
    d.without ks = d.without ls := by
  simp only [without, h]

@[simp] lemma without_nil (d : Dict α β) : d.without [] = d :=
  filter_eq_self fun _ _ _ => by simp

lemma erase_eq_without (d : Dict α β) (k : α) : d.erase k = d.without [k] := by
  simp only [erase, without, filter, List.mem_singleton]

lemma eraseAll_eq_without (d : Dict α β) (ks : List α) : d.eraseAll ks = d.without ks := by
  induction ks generalizing d with
  | nil => exact (without_nil d).symm
  | cons k ks ih =>
      have hstep : d.eraseAll (k :: ks) = (d.erase k).eraseAll ks := rfl
      rw [hstep, ih, erase_eq_without, without_without]
      rfl

lemma get?_withoutBy {γ : Type} [DecidableEq γ] (f : β → γ) (d : Dict α β) (xs : List γ) (x : α) :
    (d.withoutBy f xs).get? x = (d.get? x).filter fun v => f v ∉ xs :=
  get?_filter (fun _ v => f v ∉ xs) d x

omit [DecidableEq α] in
lemma withoutBy_withoutBy {γ : Type} [DecidableEq γ] (f : β → γ) (d : Dict α β)
    (xs ys : List γ) : (d.withoutBy f xs).withoutBy f ys = d.withoutBy f (xs ++ ys) := by
  simp only [withoutBy, filter_filter, List.mem_append, not_or, Bool.decide_and]

omit [DecidableEq α] in
lemma withoutBy_congr {γ : Type} [DecidableEq γ] (f : β → γ) {xs ys : List γ}
    (h : ∀ x, x ∈ xs ↔ x ∈ ys) (d : Dict α β) : d.withoutBy f xs = d.withoutBy f ys := by
  simp only [withoutBy, h]

@[simp] lemma withoutBy_nil {γ : Type} [DecidableEq γ] (f : β → γ) (d : Dict α β) :
    d.withoutBy f [] = d :=
  filter_eq_self fun _ _ _ => by simp

lemma filter_without_of_imp {q : α → β → Bool} {d : Dict α β} {ks : List α}
    (h : ∀ k v, d.get? k = some v → q k v = true → k ∉ ks) :
    (d.without ks).filter q = d.filter q :=
  filter_filter_of_imp fun k v hk hq => decide_eq_true (h k v hk hq)

lemma filter_without_eq_empty {q : α → β → Bool} {d : Dict α β} {ks : List α}
    (h : ∀ k v, d.get? k = some v → q k v = true → k ∈ ks) :
    (d.without ks).filter q = .empty :=
  filter_filter_eq_empty fun k v hk hq => decide_eq_false (not_not.2 (h k v hk hq))

lemma filter_withoutBy_of_imp {γ : Type} [DecidableEq γ] {f : β → γ} {q : α → β → Bool}
    {d : Dict α β} {xs : List γ} (h : ∀ k v, d.get? k = some v → q k v = true → f v ∉ xs) :
    (d.withoutBy f xs).filter q = d.filter q :=
  filter_filter_of_imp fun k v hk hq => decide_eq_true (h k v hk hq)

lemma filter_withoutBy_eq_empty {γ : Type} [DecidableEq γ] {f : β → γ} {q : α → β → Bool}
    {d : Dict α β} {xs : List γ} (h : ∀ k v, d.get? k = some v → q k v = true → f v ∈ xs) :
    (d.withoutBy f xs).filter q = .empty :=
  filter_filter_eq_empty fun k v hk hq => decide_eq_false (not_not.2 (h k v hk hq))

lemma without_of_get?_eq_none {d : Dict α β} {ks : List α} (h : ∀ k ∈ ks, d.get? k = none) :
    d.without ks = d := by
  refine filter_eq_self fun k v hk => decide_eq_true fun hmem => ?_
  rw [h k hmem] at hk
  cases hk

lemma get?_filterMapValues {γ : Type} (f : β → Option γ) (d : Dict α β) (k : α) :
    (d.filterMapValues f).get? k = (d.get? k).bind f := by
  have h : ∀ es : List (α × β), (es.map Prod.fst).Nodup →
      getEntry k (es.filterMap fun e => (f e.2).map fun v => (e.1, v)) = (getEntry k es).bind f := by
    intro es hn
    induction es with
    | nil => rfl
    | cons e es ih =>
        rw [List.map_cons, List.nodup_cons] at hn
        have hrest := ih hn.2
        cases hf : f e.2 with
        | some v =>
            simp only [List.filterMap_cons, hf, Option.map_some, getEntry]
            split_ifs
            · exact hf.symm
            · exact hrest
        | none =>
            simp only [List.filterMap_cons, hf, Option.map_none, getEntry]
            split_ifs with hk
            · subst hk
              have habsent : getEntry e.1 es = none := by
                rw [← Option.not_isSome_iff_eq_none, getEntry_isSome]
                exact hn.1
              rw [hrest, habsent, Option.bind_some, hf]
              rfl
            · exact hrest
  exact h d.entries d.nodup

omit [DecidableEq α] in
lemma filterMapValues_eq_self {f : β → Option β} {d : Dict α β}
    (h : ∀ v ∈ d.values, f v = some v) : d.filterMapValues f = d := by
  have hentries : d.entries.filterMap (fun e => (f e.2).map fun v => (e.1, v)) = d.entries := by
    have hsome : d.entries.filterMap (fun e => (f e.2).map fun v => (e.1, v))
        = d.entries.filterMap some :=
      List.filterMap_congr fun e he => by rw [h e.2 (List.mem_map_of_mem he)]; rfl
    rw [hsome, List.filterMap_some]
  cases d
  simp only [filterMapValues, mk.injEq]
  exact hentries

/-- Writing the images of the entries of another dictionary, each computed from what is recorded
under its key so far. -/
lemma get?_foldl_entries {γ : Type} (f : Option β → α → γ → β) (d : Dict α β) (other : Dict α γ)
    (k : α) :
    (other.entries.foldl (fun d e => d.set e.1 (f (d.get? e.1) e.1 e.2)) d).get? k
      = match other.get? k with
        | none => d.get? k
        | some v => some (f (d.get? k) k v) := by
  have h : ∀ (es : List (α × γ)) (d : Dict α β), (es.map Prod.fst).Nodup →
      (es.foldl (fun d e => d.set e.1 (f (d.get? e.1) e.1 e.2)) d).get? k
        = match getEntry k es with
          | none => d.get? k
          | some v => some (f (d.get? k) k v) := by
    intro es
    induction es with
    | nil =>
        intro d _
        rfl
    | cons e es ih =>
        intro d hn
        rw [List.map_cons, List.nodup_cons] at hn
        rw [List.foldl_cons, ih _ hn.2, getEntry]
        by_cases hk : e.1 = k
        · subst hk
          have habsent : getEntry e.1 es = none := by
            rw [← Option.not_isSome_iff_eq_none, getEntry_isSome]
            exact hn.1
          simp [habsent]
        · simp [hk, get?_set_ne d _ (Ne.symm hk)]
  exact h other.entries d other.nodup

/-- Writing a list of entries with different keys. -/
lemma get?_foldl_set (es : List (α × β)) (hn : (es.map Prod.fst).Nodup) (d : Dict α β) (k : α) :
    (es.foldl (fun d e => d.set e.1 e.2) d).get? k = (getEntry k es).or (d.get? k) := by
  have h := get?_foldl_entries (fun _ _ v => v) d ⟨es, hn⟩ k
  rw [h]
  show (match getEntry k es with | none => d.get? k | some v => some v) = _
  cases getEntry k es with
  | none => rfl
  | some v => rfl

/-- The last entry for a key counts. -/
lemma get?_foldl_set_empty_eq_some {es : List (α × β)} {k : α} {v : β} :
    (es.foldl (fun d e => d.set e.1 e.2) empty).get? k = some v
      ↔ ∃ before after, es = before ++ (k, v) :: after ∧ k ∉ after.map Prod.fst := by
  induction es using List.reverseRecOn with
  | nil => simp
  | append_singleton es e ih =>
      rw [List.foldl_append, List.foldl_cons, List.foldl_nil, get?_set]
      split_ifs with hk
      · constructor
        · rintro h
          obtain rfl := Option.some.inj h
          exact ⟨es, [], by rw [hk], by simp⟩
        · rintro ⟨before, after, heq, hafter⟩
          rcases List.eq_nil_or_concat after with rfl | ⟨after, last, rfl⟩
          · obtain ⟨-, hlast⟩ := List.append_inj' heq rfl
            rw [(List.cons.inj hlast).1]
          · rw [List.concat_eq_append, ← List.cons_append, ← List.append_assoc] at heq
            obtain ⟨-, hlast⟩ := List.append_inj' heq rfl
            obtain rfl := List.singleton_inj.1 hlast
            exact absurd (by simp [hk]) hafter
      · rw [ih]
        constructor
        · rintro ⟨before, after, rfl, hafter⟩
          exact ⟨before, after ++ [e], by simp, by simp [hafter, hk]⟩
        · rintro ⟨before, after, heq, hafter⟩
          rcases List.eq_nil_or_concat after with rfl | ⟨after, last, rfl⟩
          · obtain ⟨-, hlast⟩ := List.append_inj' heq rfl
            exact absurd (by rw [(List.cons.inj hlast).1]) hk
          · rw [List.concat_eq_append, ← List.cons_append, ← List.append_assoc] at heq
            obtain ⟨hes, -⟩ := List.append_inj' heq rfl
            exact ⟨before, after, hes, fun hmem => hafter (by simp [hmem])⟩

lemma get?_update (d other : Dict α β) (k : α) :
    (d.update other).get? k = (other.get? k).or (d.get? k) :=
  get?_foldl_set other.entries other.nodup d k

/-- Dictionaries with the same lookups have the same entries. -/
lemma perm_entries {d e : Dict α β} (h : ∀ k, d.get? k = e.get? k) : d.entries.Perm e.entries := by
  rw [List.perm_ext_iff_of_nodup (List.Nodup.of_map _ d.nodup) (List.Nodup.of_map _ e.nodup)]
  rintro ⟨k, v⟩
  rw [← get?_eq_some_iff, ← get?_eq_some_iff, h]

/-- Entries in another order are looked up alike. -/
lemma getEntry_perm {es : List (α × β)} {d : Dict α β} (h : es.Perm d.entries) (k : α) :
    getEntry k es = d.get? k := by
  have hn : (es.map Prod.fst).Nodup := ((h.map Prod.fst).nodup_iff).2 d.nodup
  ext v
  rw [getEntry_eq_some hn, get?_eq_some_iff, h.mem_iff]

/-! ## Grouping -/

/-- The items of a list gathered under their keys: the first item of a key starts its value, each
later one is added to it. -/
def groupInto {ι : Type} (key : ι → α) (start : ι → β) (add : β → ι → β) (items : List ι) :
    Dict α β :=
  items.foldl (fun d item =>
    match d.get? (key item) with
    | none => d.set (key item) (start item)
    | some v => d.set (key item) (add v item)) empty

/-- The value gathered from the items of one key. -/
def gathered {ι : Type} (start : ι → β) (add : β → ι → β) : List ι → Option β
  | [] => none
  | item :: items => some (items.foldl add (start item))

lemma gathered_concat {ι : Type} (start : ι → β) (add : β → ι → β) (items : List ι) (item : ι) :
    gathered start add (items ++ [item])
      = some (match gathered start add items with
        | none => start item
        | some v => add v item) := by
  cases items with
  | nil => rfl
  | cons first items => simp [gathered]

/-- Items gathered from the first one on, or from a start that stands for none. -/
lemma getD_gathered {ι : Type} {start : ι → β} {add : β → ι → β} {init : β}
    (h : ∀ item, start item = add init item) (items : List ι) :
    (gathered start add items).getD init = items.foldl add init := by
  cases items with
  | nil => rfl
  | cons item items => rw [gathered, Option.getD_some, h, List.foldl_cons]

/-- **A group holds the items of its key**, in their order. -/
lemma get?_groupInto {ι : Type} (key : ι → α) (start : ι → β) (add : β → ι → β)
    (items : List ι) (k : α) :
    (groupInto key start add items).get? k
      = gathered start add (items.filter fun item => key item = k) := by
  induction items using List.reverseRecOn with
  | nil => rfl
  | append_singleton items item ih =>
      have hstep : groupInto key start add (items ++ [item])
          = (groupInto key start add items).set (key item)
            (match (groupInto key start add items).get? (key item) with
              | none => start item
              | some v => add v item) := by
        simp only [groupInto, List.foldl_append, List.foldl_cons, List.foldl_nil]
        split <;> simp_all
      rw [hstep, get?_set, List.filter_append]
      by_cases hk : key item = k
      · subst hk
        simp [ih, gathered_concat]
      · rw [if_neg (Ne.symm hk), ih]
        simp [hk]

/-- The values of a list, in their order, each filed under its key. -/
def collect {ι : Type} (key : ι → α) (value : ι → β) (items : List ι) : Dict α (List β) :=
  groupInto key (fun item => [value item]) (fun values item => values ++ [value item]) items

lemma getD_get?_collect {ι : Type} (key : ι → α) (value : ι → β) (items : List ι) (k : α) :
    ((collect key value items).get? k).getD []
      = (items.filter fun item => key item = k).map value := by
  have h : ∀ (items : List ι) (values : List β),
      items.foldl (fun values item => values ++ [value item]) values
        = values ++ items.map value := by
    intro items
    induction items with
    | nil => simp
    | cons item items ih =>
        intro values
        rw [List.foldl_cons, ih, List.map_cons, List.append_assoc, List.singleton_append]
  have hstart : ∀ item : ι, [value item] = [] ++ [value item] := fun _ => rfl
  rw [collect, get?_groupInto]
  exact (getD_gathered hstart _).trans ((h _ []).trans (List.nil_append _))

end Dict

end Sast
