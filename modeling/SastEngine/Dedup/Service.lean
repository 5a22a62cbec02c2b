import Mathlib.Data.List.Dedup
import Mathlib.Data.List.Sort
import Mathlib.Data.String.Basic
import SastEngine.Dedup.Fingerprint
import SastEngine.Validate.Store

/-!
# The deduplication service

`dedup/service.py`: findings are grouped by fingerprint, a run merges its findings into the groups
of earlier runs, and deleted findings are taken out of their groups.  Members that a run does not
submit are read again from the finding store.
-/

namespace Sast

/-- `MATCH_REASONS`. -/
def matchReasons : List String :=
  ["same vulnerability type", "same source category", "same sink category",
    "same normalized source pattern", "same normalized sink pattern",
    "same normalized taint structure"]

/-- `DeduplicationGroup`. -/
structure DeduplicationGroup where
  fingerprint : String
  structuralSignature : String
  canonicalFindingId : String
  memberFindingIds : List String
  occurrenceCount : Nat
  repositories : List String
  vulnerabilityType : String
  representativeFinding : CandidateFinding
  matchReasons : List String
deriving DecidableEq

/-- `DeduplicationResult`. -/
structure DeduplicationResult where
  totalFindings : Nat
  uniqueFindings : Nat
  duplicateFindings : Nat
  groups : List DeduplicationGroup

/-- `_GROUPS`, by fingerprint. -/
abbrev GroupRegistry := Dict String DeduplicationGroup

/-- The components of a path, cut at the slashes. -/
def pathComponents : List Char → List (List Char)
  | [] => [[]]
  | c :: cs =>
      match pathComponents cs with
      | [] => [[c]]
      | part :: parts => if c = '/' then [] :: part :: parts else (c :: part) :: parts

/-- `Path(path).parts`: empty components and `.` are left out, and the root comes first. -/
def pathParts (path : String) : List String :=
  let cs := path.toList
  let root := if cs.take 2 = ['/', '/'] ∧ cs.take 3 ≠ ['/', '/', '/'] then ["//"]
    else if cs.take 1 = ['/'] then ["/"] else []
  root ++ ((pathComponents cs).filter fun part => part ≠ [] ∧ part ≠ ['.']).map String.ofList

/-- `repo_label_for_file`. -/
def repoLabelForFile (path : String) : String :=
  match (pathParts path).reverse with
  | [] => "unknown"
  | [name] => name
  | _ :: directory :: _ => directory

/-- `sorted(members, key=lambda f: f.id)`. -/
def sortById (members : List CandidateFinding) : List CandidateFinding :=
  members.insertionSort fun f g => f.id ≤ g.id

/-- `sorted({repo_label_for_file(f.source.file) for f in members})`. -/
def repositoryLabels (members : List CandidateFinding) : List String :=
  (members.map fun f => repoLabelForFile f.source.file).dedup.insertionSort (· ≤ ·)

/-! ## Merging -/

/-- An entry of `buckets`: the findings of one fingerprint, of which there is a first. -/
structure Bucket where
  fingerprint : FindingFingerprint
  first : CandidateFinding
  rest : List CandidateFinding

/-- The builder of the service. -/
abbrev FingerprintBuilder := CandidateFinding → FindingFingerprint

/-- The first loop of `deduplicate`. -/
def buckets (build : FingerprintBuilder) (findings : List CandidateFinding) : Dict String Bucket :=
  Dict.groupInto (fun finding => (build finding).value)
    (fun finding => ⟨build finding, finding, []⟩)
    (fun bucket finding => { bucket with rest := bucket.rest ++ [finding] }) findings

/-- The members of the group that are not submitted, as the finding store has them now. -/
def keptMembers (store : FindingStore) (submitted : List String)
    (existing : Option DeduplicationGroup) : List CandidateFinding :=
  match existing with
  | none => []
  | some group => (group.memberFindingIds.filter fun id => id ∉ submitted).filterMap store.get

/-- The group that `deduplicate` makes of a bucket. -/
def mergeGroup (store : FindingStore) (submitted : List String)
    (existing : Option DeduplicationGroup) (value : String) (bucket : Bucket) :
    DeduplicationGroup :=
  let ordered := sortById (bucket.first :: bucket.rest ++ keptMembers store submitted existing)
  let canonical := ordered.head?.getD bucket.first
  { fingerprint := value
    structuralSignature := bucket.fingerprint.structuralSignature
    canonicalFindingId := canonical.id
    memberFindingIds := ordered.map CandidateFinding.id
    occurrenceCount := ordered.length
    repositories := repositoryLabels ordered
    vulnerabilityType := bucket.fingerprint.vulnerabilityType
    representativeFinding := canonical
    matchReasons := Sast.matchReasons }

/-- The registry that `deduplicate` leaves. -/
def nextRegistry (build : FingerprintBuilder) (store : FindingStore) (registry : GroupRegistry)
    (findings : List CandidateFinding) : GroupRegistry :=
  (buckets build findings).entries.foldl (fun next entry =>
    next.set entry.1 (mergeGroup store (findings.map CandidateFinding.id) (next.get? entry.1)
      entry.1 entry.2)) registry

/-- `deduplicate`. -/
def deduplicate (build : FingerprintBuilder) (store : FindingStore) (registry : GroupRegistry)
    (findings : List CandidateFinding) : DeduplicationResult × GroupRegistry :=
  let next := nextRegistry build store registry findings
  let groups := (buckets build findings).keys.filterMap next.get?
  ({ totalFindings := findings.length
     uniqueFindings := groups.length
     duplicateFindings := findings.length - groups.length
     groups := groups }, next)

/-- `deduplicate_findings` of the routes: `none` where a finding is not in the store. -/
def deduplicateFindings (build : FingerprintBuilder) (store : FindingStore)
    (registry : GroupRegistry) (findingIds : List String) :
    Option (DeduplicationResult × GroupRegistry) :=
  if findingIds.all fun id => (store.get id).isSome then
    some (deduplicate build store registry (findingIds.filterMap store.get))
  else none

/-! ## Removal -/

/-- What `remove_findings` makes of a group: nothing, where no member is left. -/
def removeFromGroup (store : FindingStore) (removed : List String) (group : DeduplicationGroup) :
    Option DeduplicationGroup :=
  let remaining := group.memberFindingIds.filter fun id => id ∉ removed
  if remaining.length = group.memberFindingIds.length then some group
  else
    match sortById (remaining.filterMap store.get) with
    | [] => none
    | canonical :: rest =>
        some { group with
          canonicalFindingId := canonical.id
          memberFindingIds := (canonical :: rest).map CandidateFinding.id
          occurrenceCount := (canonical :: rest).length
          repositories := repositoryLabels (canonical :: rest)
          representativeFinding := canonical }

/-- `remove_findings`. -/
def removeFindings (store : FindingStore) (removed : List String) (registry : GroupRegistry) :
    GroupRegistry :=
  registry.filterMapValues (removeFromGroup store removed)

/-! ## Reading the registry -/

lemma sortById_perm (members : List CandidateFinding) : (sortById members).Perm members :=
  List.perm_insertionSort _ members

/-- The findings of a bucket. -/
lemma get?_buckets (build : FingerprintBuilder) (findings : List CandidateFinding)
    (value : String) :
    (buckets build findings).get? value
      = match findings.filter fun f => (build f).value = value with
        | [] => none
        | first :: rest => some ⟨build first, first, rest⟩ := by
  have hgather : ∀ (rest : List CandidateFinding) (bucket : Bucket),
      rest.foldl (fun bucket f => { bucket with rest := bucket.rest ++ [f] }) bucket
        = { bucket with rest := bucket.rest ++ rest } := by
    intro rest
    induction rest with
    | nil => simp
    | cons f rest ih =>
        intro bucket
        simp [ih]
  rw [buckets, Dict.get?_groupInto]
  cases findings.filter fun f => (build f).value = value with
  | nil => rfl
  | cons first rest => simp [Dict.gathered, hgather]

/-- **A run changes the groups of the submitted fingerprints**, and no others. -/
lemma get?_nextRegistry (build : FingerprintBuilder) (store : FindingStore)
    (registry : GroupRegistry) (findings : List CandidateFinding) (value : String) :
    (nextRegistry build store registry findings).get? value
      = match findings.filter fun f => (build f).value = value with
        | [] => registry.get? value
        | first :: rest => some (mergeGroup store (findings.map CandidateFinding.id)
            (registry.get? value) value ⟨build first, first, rest⟩) := by
  rw [nextRegistry, Dict.get?_foldl_entries (fun existing value bucket =>
    mergeGroup store (findings.map CandidateFinding.id) existing value bucket), get?_buckets]
  cases findings.filter fun f => (build f).value = value <;> rfl

lemma get?_removeFindings (store : FindingStore) (removed : List String)
    (registry : GroupRegistry) (value : String) :
    (removeFindings store removed registry).get? value
      = (registry.get? value).bind (removeFromGroup store removed) :=
  registry.get?_filterMapValues (removeFromGroup store removed) value

end Sast
