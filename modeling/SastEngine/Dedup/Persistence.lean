import SastEngine.Api.Deletion
import SastEngine.Lib.Run

/-!
# The rows of the groups

A run or a removal puts the new registry in memory and then writes it as one commit that deletes
all rows and one commit for each group.  A failure after the first commit leaves a part of the new
registry in the database, and a failure of the first one leaves the old one there, while the memory
is new.
-/

namespace Sast

/-- A registry in which every group is filed under its fingerprint. -/
structure FiledRegistry where
  groups : GroupRegistry
  filed : ∀ value group, groups.get? value = some group → group.fingerprint = value

/-- The changes of `_persist_groups` and of the end of `remove_findings`. -/
inductive GroupWrite where
  | replace (next : GroupRegistry)
  | insert (group : DeduplicationGroup)

/-- A change, in memory and in the database: the registry is replaced before all rows are
deleted. -/
def GroupWrite.commit : GroupWrite → Commit GroupRegistry GroupRegistry
  | .replace next => { remember := fun _ => next, write := fun _ _ => some .empty }
  | .insert group =>
      { remember := id, write := fun _ rows => some (rows.set group.fingerprint group) }

/-- A run of `deduplicate`, a call of `remove_findings` or a restart, with the finding store at
that time and the commit that fails, if one does. -/
inductive RegistryOp where
  | deduplicate (store : FindingStore) (findings : List CandidateFinding) (fails : Option Nat)
  | remove (store : FindingStore) (findingIds : List String) (fails : Option Nat)
  | restart

/-- The two copies of the registry. -/
abbrev GroupCopies := GroupRegistry × GroupRegistry

section Run

variable (build : FingerprintBuilder)

/-- The new registry of an operation. -/
def RegistryOp.next (memory : GroupRegistry) : RegistryOp → GroupRegistry
  | .deduplicate store findings _ => nextRegistry build store memory findings
  | .remove store findingIds _ => removeFindings store findingIds memory
  | .restart => memory

/-- Whether an operation writes its registry. -/
def RegistryOp.writes (memory : GroupRegistry) : RegistryOp → Bool
  | .deduplicate .. => true
  | .remove _ findingIds _ => regroups memory findingIds
  | .restart => false

/-- The commit that fails. -/
def RegistryOp.fails : RegistryOp → Option Nat
  | .deduplicate _ _ fails | .remove _ _ fails => fails
  | .restart => none

/-- Replace the registry and write it anew; the commit with the given number fails. -/
def persistGroups (next : GroupRegistry) (s : GroupCopies) (fails : Option Nat) : GroupCopies :=
  let session := (performAll () GroupWrite.commit
    (.replace next :: next.values.map .insert) ⟨s.1, s.2, fails⟩).2
  (session.memory, session.database)

/-- One operation on both copies; a restart loads the rows. -/
def registryStep (s : GroupCopies) : RegistryOp → GroupCopies
  | .deduplicate store findings fails =>
      persistGroups (nextRegistry build store s.1 findings) s fails
  | .remove store findingIds fails =>
      if regroups s.1 findingIds then persistGroups (removeFindings store findingIds s.1) s fails
      else s
  | .restart => (s.2, s.2)

/-- The rows are the complete old registry or the complete new one, and the process serves what a
restart would load. -/
def AllOrNothing (s : GroupCopies) (op : RegistryOp) : Prop :=
  ((registryStep build s op).2 = s.1 ∨ (registryStep build s op).2 = op.next build s.1)
    ∧ (registryStep build s op).1 = (registryStep build s op).2

/-- No commit of the operation fails, or the first one does and the registry does not change. -/
def WritesWhole (s : GroupCopies) (op : RegistryOp) : Prop :=
  op.writes s.1 = true → ∀ n ∈ op.fails,
    (op.next build s.1).values.length < n ∨ (n = 0 ∧ op.next build s.1 = s.1)

end Run

/-! ## Writing a registry -/

/-- The rows of some groups. -/
def insertedRows (groups : List DeduplicationGroup) (rows : GroupRegistry) : GroupRegistry :=
  groups.foldl (fun rows group => rows.set group.fingerprint group) rows

/-- The inserts before the failing one reach the database. -/
lemma performAll_inserts (groups : List DeduplicationGroup) (memory rows : GroupRegistry)
    (fuse : Option Nat) :
    (performAll () GroupWrite.commit (groups.map .insert) ⟨memory, rows, fuse⟩).2.memory = memory
      ∧ (performAll () GroupWrite.commit (groups.map .insert) ⟨memory, rows, fuse⟩).2.database
        = insertedRows (groups.take (fuse.getD groups.length)) rows := by
  induction groups generalizing rows fuse with
  | nil => exact ⟨rfl, by simp [performAll, insertedRows]; rfl⟩
  | cons group groups ih =>
      rw [List.map_cons, performAll]
      rcases fuse with _ | _ | n
      · have hstep : (GroupWrite.commit (.insert group)).perform () ⟨memory, rows, none⟩
            = (.ok (), ⟨memory, rows.set group.fingerprint group, none⟩) := rfl
        rw [bind_of_ok hstep]
        exact ih _ none
      · have hstep : (GroupWrite.commit (.insert group)).perform () ⟨memory, rows, some 0⟩
            = (.error (), ⟨memory, rows, none⟩) := rfl
        rw [bind_of_error hstep]
        exact ⟨rfl, rfl⟩
      · have hstep : (GroupWrite.commit (.insert group)).perform () ⟨memory, rows, some (n + 1)⟩
            = (.ok (), ⟨memory, rows.set group.fingerprint group, some n⟩) := rfl
        rw [bind_of_ok hstep]
        exact ih _ (some n)

/-- Rows with different keys that are not there yet are added at the end. -/
lemma entries_insertedRows (groups : List DeduplicationGroup) (rows : GroupRegistry)
    (hnodup : (rows.entries.map Prod.fst ++ groups.map (·.fingerprint)).Nodup) :
    (insertedRows groups rows).entries
      = rows.entries ++ groups.map fun group => (group.fingerprint, group) := by
  induction groups generalizing rows with
  | nil => simp [insertedRows]
  | cons group groups ih =>
      have hnew : group.fingerprint ∉ rows.entries.map Prod.fst := by
        intro hmem
        exact (List.nodup_append.1 hnodup).2.2 _ hmem _ (by simp) rfl
      have hset : (rows.set group.fingerprint group).entries
          = rows.entries ++ [(group.fingerprint, group)] :=
        Dict.setEntry_of_not_mem _ _ _ hnew
      have hrest := ih (rows.set group.fingerprint group) (by simpa [hset] using hnodup)
      rw [hset, List.append_assoc] at hrest
      exact hrest

/-- The entries of a filed registry are its groups under their fingerprints. -/
lemma entries_of_filed {groups : GroupRegistry}
    (hfiled : ∀ value group, groups.get? value = some group → group.fingerprint = value) :
    groups.values.map (fun group => (group.fingerprint, group)) = groups.entries := by
  rw [Dict.values, List.map_map]
  refine (List.map_congr_left ?_).trans (List.map_id _)
  intro entry hentry
  have hkey := hfiled entry.1 entry.2 ((groups.get?_eq_some_iff).2 hentry)
  exact Prod.ext hkey rfl

/-- Writing the first groups of a filed registry makes its first entries. -/
lemma entries_insertedRows_take {groups : GroupRegistry}
    (hfiled : ∀ value group, groups.get? value = some group → group.fingerprint = value)
    (n : Nat) : (insertedRows (groups.values.take n) .empty).entries = groups.entries.take n := by
  have hentries := entries_of_filed hfiled
  have hkeys : groups.values.map (·.fingerprint) = groups.keys := by
    rw [Dict.keys, ← hentries, List.map_map]
    rfl
  have hempty : (Dict.empty : GroupRegistry).entries = [] := rfl
  rw [entries_insertedRows, hempty, List.nil_append, ← hentries, List.map_take]
  rw [hempty, List.map_nil, List.nil_append, List.map_take, hkeys]
  exact groups.nodup.sublist (List.take_sublist _ _)

/-- What is in memory and in the database after the writes of a registry. -/
lemma persistGroups_eq (next : GroupRegistry) (s : GroupCopies) (fails : Option Nat) :
    persistGroups next s fails
      = (next, match fails with
        | some 0 => s.2
        | some (n + 1) => insertedRows (next.values.take n) .empty
        | none => insertedRows next.values .empty) := by
  rw [persistGroups, performAll]
  rcases fails with _ | _ | n
  · have hstep : (GroupWrite.commit (.replace next)).perform () ⟨s.1, s.2, none⟩
        = (.ok (), ⟨next, .empty, none⟩) := rfl
    obtain ⟨hmemory, hrows⟩ := performAll_inserts next.values next .empty none
    rw [bind_of_ok hstep, hmemory, hrows, Option.getD_none, List.take_length]
  · have hstep : (GroupWrite.commit (.replace next)).perform () ⟨s.1, s.2, some 0⟩
        = (.error (), ⟨next, s.2, none⟩) := rfl
    rw [bind_of_error hstep]
  · have hstep : (GroupWrite.commit (.replace next)).perform () ⟨s.1, s.2, some (n + 1)⟩
        = (.ok (), ⟨next, .empty, some n⟩) := rfl
    obtain ⟨hmemory, hrows⟩ := performAll_inserts next.values next .empty (some n)
    rw [bind_of_ok hstep, hmemory, hrows, Option.getD_some]

/-! ## Registries stay filed -/

section Filed

variable {build : FingerprintBuilder}

lemma filed_next {memory : GroupRegistry}
    (hfiled : ∀ value group, memory.get? value = some group → group.fingerprint = value)
    (op : RegistryOp) {value : String} {group : DeduplicationGroup}
    (h : (op.next build memory).get? value = some group) : group.fingerprint = value := by
  cases op with
  | deduplicate store findings fails =>
      rw [RegistryOp.next, get?_nextRegistry] at h
      split at h
      · exact hfiled value group h
      · rw [← Option.some.inj h]
        rfl
  | remove store findingIds fails =>
      rw [RegistryOp.next, get?_removeFindings] at h
      obtain ⟨old, hold, hnew⟩ := Option.bind_eq_some_iff.1 h
      rw [← hfiled value old hold]
      rw [removeFromGroup] at hnew
      split_ifs at hnew
      · rw [← Option.some.inj hnew]
      · split at hnew
        · cases hnew
        · rw [← Option.some.inj hnew]
  | restart => exact hfiled value group h

/-- Both copies are the same filed registry. -/
structure InStep (s : GroupCopies) : Prop where
  same : s.1 = s.2
  filed : ∀ value group, s.1.get? value = some group → group.fingerprint = value

/-- A step is all or nothing exactly when it writes its registry as a whole. -/
lemma allOrNothing_iff_writesWhole {s : GroupCopies} (h : InStep s) (op : RegistryOp) :
    AllOrNothing build s op ↔ WritesWhole build s op := by
  by_cases hwrites : op.writes s.1 = true
  · have hstep : registryStep build s op = persistGroups (op.next build s.1) s op.fails := by
      cases op with
      | deduplicate store findings fails => rfl
      | remove store findingIds fails => exact if_pos hwrites
      | restart => cases hwrites
    have hentries := fun n => entries_insertedRows_take
      (fun value group hget => @filed_next build _ h.filed op value group hget) n
    have hlength : (op.next build s.1).values.length = (op.next build s.1).entries.length := by
      rw [Dict.values, List.length_map]
    rw [AllOrNothing, WritesWhole, hstep, persistGroups_eq]
    rcases hfails : op.fails with _ | _ | n
    · have hwhole : insertedRows (op.next build s.1).values .empty = op.next build s.1 := by
        have hall := hentries (op.next build s.1).values.length
        rw [List.take_length, hlength, List.take_length] at hall
        exact Dict.ext_entries hall
      simp [hwhole]
    · simp [hwrites, ← h.same, eq_comm]
    · simp only [hwrites, Option.mem_some_iff, forall_eq', forall_true_left, Nat.succ_ne_zero,
        false_and, or_false]
      constructor
      · rintro ⟨-, hmemory⟩
        have hcut := congrArg (fun rows : GroupRegistry => rows.entries.length) hmemory
        simp only [hentries n, List.length_take] at hcut
        omega
      · intro hle
        have hall := hentries n
        rw [List.take_of_length_le (by omega), List.take_of_length_le (by omega)] at hall
        have hwhole : insertedRows (op.next build s.1).values .empty = op.next build s.1 :=
          Dict.ext_entries hall
        rw [List.take_of_length_le (by omega)]
        exact ⟨Or.inr hwhole, hwhole.symm⟩
  · have hstep : (registryStep build s op).1 = (registryStep build s op).2
        ∧ (registryStep build s op).2 = s.1 := by
      cases op with
      | deduplicate store findings fails => exact absurd rfl hwrites
      | remove store findingIds fails =>
          have hskip : registryStep build s (.remove store findingIds fails) = s := if_neg hwrites
          rw [hskip]
          exact ⟨h.same, h.same.symm⟩
      | restart => exact ⟨rfl, h.same.symm⟩
    exact ⟨fun _ hyes => absurd hyes hwrites, fun _ => ⟨Or.inl hstep.2, hstep.1⟩⟩

/-- What is all or nothing keeps both copies the same. -/
lemma InStep.step {s : GroupCopies} (h : InStep s) {op : RegistryOp}
    (hall : AllOrNothing build s op) : InStep (registryStep build s op) where
  same := hall.2
  filed value group hget := by
    rw [hall.2] at hget
    rcases hall.1 with hold | hnew
    · exact h.filed value group (hold ▸ hget)
    · exact filed_next h.filed op (hnew ▸ hget)

/-- From any registry, the operations of a run are all or nothing exactly when in each of them no
commit fails, or only the first one does and the registry does not change. -/
theorem allOrNothing_iff (build : FingerprintBuilder) (start : FiledRegistry)
    (ops : List RegistryOp) :
    Throughout (registryStep build) (AllOrNothing build) (start.groups, start.groups) ops
      ↔ Throughout (registryStep build) (WritesWhole build) (start.groups, start.groups) ops :=
  throughout_congr InStep (fun _ op h _ => allOrNothing_iff_writesWhole h op)
    (fun _ _ h _ hall => h.step hall) ⟨rfl, start.filed⟩ (throughout_true ops)

end Filed

/-! ## A failing insert -/

/-- A finding on its own. -/
def loneFinding (id : String) : CandidateFinding where
  id := id
  vulnerabilityType := "sql_injection"
  severity := "high"
  confidence := 0
  source := ⟨"app.py", 1, id, "request_param"⟩
  sink := ⟨"app.py", 2, "", "sql_execute"⟩
  taintPath := []
  evidence := ⟨"", "", [], [], []⟩

/-- A builder that tells findings apart by their source. -/
def snippetBuild : FingerprintBuilder := fun finding =>
  { value := finding.source.snippet
    structuralSignature := finding.source.snippet
    vulnerabilityType := finding.vulnerabilityType
    sourceCategory := finding.source.kind
    sinkCategory := finding.sink.kind
    normalizedSource := ""
    normalizedSink := ""
    taintStructure := "" }

/-- The registry without groups. -/
def FiledRegistry.empty : FiledRegistry where
  groups := .empty
  filed _ _ h := by cases h

/-- The second of two runs fails at its first insert: the rows of both groups are gone, and both
are still served. -/
theorem not_allOrNothing_insert : ¬ Throughout (registryStep snippetBuild)
    (AllOrNothing snippetBuild) (FiledRegistry.empty.groups, FiledRegistry.empty.groups)
    [.deduplicate .empty [loneFinding "a"] none,
      .deduplicate .empty [loneFinding "b"] (some 1)] := by
  rintro ⟨-, hsecond, -⟩
  have hrows := hsecond.2
  have hserved := congrArg (fun groups : GroupRegistry => groups.keys) hrows
  revert hserved
  decide +kernel

end Sast
