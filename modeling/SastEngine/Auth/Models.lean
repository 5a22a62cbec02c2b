import SastEngine.Core.Time
import SastEngine.Lib.Dict

/-!
# Users, roles and permissions

`auth/models.py`, with the rows of `db/models.py` that keep users and sessions, and the permission
matrix of `auth/rbac.py`.
-/

namespace Sast

/-- `Role`. -/
inductive Role where
  | analyst
  | manager
  | developer
  | auditor
deriving DecidableEq

/-- `Permission`. -/
inductive Permission where
  | viewDashboard
  | viewRepositories
  | viewFindings
  | viewScanRuns
  | viewValidation
  | viewProof
  | viewRisk
  | viewApprovals
  | viewRemediation
  | viewBenchmark
  | scan
  | deduplicate
  | validate
  | prove
  | assessRisk
  | startSla
  | checkSla
  | requestApproval
  | approve
  | reject
  | requestChanges
  | resubmit
  | viewApprovalQueue
  | proposeRemediation
  | applyRemediation
  | verifyRemediation
  | reprepare
  | createRepository
  | deleteRepository
  | runBenchmark
deriving DecidableEq

/-- The value of a permission. -/
def Permission.text : Permission → String
  | .viewDashboard => "view_dashboard"
  | .viewRepositories => "view_repositories"
  | .viewFindings => "view_findings"
  | .viewScanRuns => "view_scan_runs"
  | .viewValidation => "view_validation"
  | .viewProof => "view_proof"
  | .viewRisk => "view_risk"
  | .viewApprovals => "view_approvals"
  | .viewRemediation => "view_remediation"
  | .viewBenchmark => "view_benchmark"
  | .scan => "scan"
  | .deduplicate => "deduplicate"
  | .validate => "validate"
  | .prove => "prove"
  | .assessRisk => "assess_risk"
  | .startSla => "start_sla"
  | .checkSla => "check_sla"
  | .requestApproval => "request_approval"
  | .approve => "approve"
  | .reject => "reject"
  | .requestChanges => "request_changes"
  | .resubmit => "resubmit"
  | .viewApprovalQueue => "view_approval_queue"
  | .proposeRemediation => "propose_remediation"
  | .applyRemediation => "apply_remediation"
  | .verifyRemediation => "verify_remediation"
  | .reprepare => "reprepare"
  | .createRepository => "create_repository"
  | .deleteRepository => "delete_repository"
  | .runBenchmark => "run_benchmark"

/-- `_AUDITOR_PERMISSIONS`. -/
def auditorPermissions : List Permission :=
  [.viewDashboard, .viewRepositories, .viewFindings, .viewScanRuns, .viewValidation, .viewProof,
    .viewRisk, .viewApprovals, .viewRemediation, .viewBenchmark]

/-- `_ANALYST_PERMISSIONS`. -/
def analystPermissions : List Permission :=
  [.viewDashboard, .viewRepositories, .viewFindings, .viewScanRuns, .viewValidation, .viewProof,
    .viewRisk, .viewApprovals, .viewRemediation, .viewBenchmark, .scan, .deduplicate, .validate,
    .prove, .assessRisk, .startSla, .checkSla, .requestApproval, .createRepository, .runBenchmark]

/-- `_MANAGER_PERMISSIONS`. -/
def managerPermissions : List Permission :=
  analystPermissions ++ [.approve, .reject, .requestChanges, .resubmit, .viewApprovalQueue,
    .proposeRemediation, .applyRemediation, .verifyRemediation, .reprepare, .deleteRepository]

/-- `_DEVELOPER_PERMISSIONS`. -/
def developerPermissions : List Permission :=
  [.viewDashboard, .viewRepositories, .viewFindings, .viewScanRuns, .viewValidation, .viewProof,
    .viewRisk, .viewApprovals, .viewRemediation, .viewBenchmark, .proposeRemediation,
    .applyRemediation, .verifyRemediation, .reprepare, .scan, .createRepository]

/-- `ROLE_PERMISSIONS`. -/
def rolePermissions : Role → List Permission
  | .analyst => analystPermissions
  | .manager => managerPermissions
  | .developer => developerPermissions
  | .auditor => auditorPermissions

/-- `has_permission`. -/
def hasPermission (role : Role) (permission : Permission) : Bool :=
  permission ∈ rolePermissions role

/-- `User`, and the row it is kept in. -/
structure User where
  id : String
  username : String
  displayName : String
  passwordHash : String
  role : Role
  isActive : Bool := true
  createdAt : DateTime
deriving DecidableEq

/-- `UserPublic`. -/
structure UserPublic where
  id : String
  username : String
  displayName : String
  role : Role
  isActive : Bool
deriving DecidableEq

/-- `SessionRow`, beside its key, and the `Session` it is read as. -/
structure SessionRow where
  userId : String
  createdAt : DateTime
  expiresAt : DateTime
  revokedAt : Option DateTime := none
deriving DecidableEq

/-- The rows of `users`, by id.  User names are unique. -/
structure UserTable where
  rows : Dict String User
  keyed : ∀ id user, rows.get? id = some user → user.id = id
  unique : ∀ id user id' user', rows.get? id = some user → rows.get? id' = some user' →
    user.username = user'.username → id = id'

namespace UserTable

/-- The table without users. -/
def empty : UserTable where
  rows := .empty
  keyed _ _ h := by cases h
  unique _ _ _ _ h := by cases h

variable (table : UserTable)

/-- `session.get(UserRow, id)`. -/
def get (userId : String) : Option User := table.rows.get? userId

/-- The row with the user name. -/
def byUsername (username : String) : Option User :=
  table.rows.values.find? (·.username = username)

lemma byUsername_eq_some {username : String} {user : User} :
    table.byUsername username = some user
      ↔ table.get user.id = some user ∧ user.username = username := by
  constructor
  · intro h
    obtain ⟨id, hid⟩ := (table.rows.mem_values_iff).1 (List.mem_of_find?_eq_some h)
    rw [table.keyed id user hid]
    have hname := List.find?_some h
    exact ⟨hid, by simpa using hname⟩
  · rintro ⟨hget, hname⟩
    have hmem : user ∈ table.rows.values := (table.rows.mem_values_iff).2 ⟨user.id, hget⟩
    cases hfound : table.byUsername username with
    | none => exact absurd (decide_eq_true hname) (List.find?_eq_none.1 hfound user hmem)
    | some other =>
        obtain ⟨id, hid⟩ := (table.rows.mem_values_iff).1 (List.mem_of_find?_eq_some hfound)
        have hother := List.find?_some hfound
        have hother : other.username = username := by simpa using hother
        have hsame := table.unique id other user.id user hid hget (hother.trans hname.symm)
        rw [hsame] at hid
        exact hid.symm.trans hget

lemma byUsername_eq_none {username : String} :
    table.byUsername username = none
      ↔ ∀ id user, table.get id = some user → user.username ≠ username := by
  rw [byUsername, List.find?_eq_none]
  constructor
  · intro h id user hget hname
    exact h user ((table.rows.mem_values_iff).2 ⟨id, hget⟩) (decide_eq_true hname)
  · intro h user hmem hname
    obtain ⟨id, hid⟩ := (table.rows.mem_values_iff).1 hmem
    exact h id user hid (of_decide_eq_true hname)

/-- A new row, unless its id or its user name is taken. -/
def insert (user : User) : Option UserTable :=
  if h : table.get user.id = none ∧ table.byUsername user.username = none then
    some
      { rows := table.rows.set user.id user
        keyed := by
          intro id u hget
          rw [Dict.get?_set] at hget
          split_ifs at hget with hid
          · rw [← Option.some.inj hget, hid]
          · exact table.keyed id u hget
        unique := by
          have hfree := table.byUsername_eq_none.1 h.2
          intro id u id' u' hget hget' hname
          rw [Dict.get?_set] at hget hget'
          split_ifs at hget with hid <;> split_ifs at hget' with hid'
          · rw [hid, hid']
          · rw [← Option.some.inj hget] at hname
            exact absurd hname.symm (hfree id' u' hget')
          · rw [← Option.some.inj hget'] at hname
            exact absurd hname (hfree id u hget)
          · exact table.unique id u id' u' hget hget' hname }
  else none

/-- The row with the user name gets the password hash. -/
def setPasswordHash (username passwordHash : String) : UserTable where
  rows := table.rows.mapValues fun user =>
    if user.username = username then { user with passwordHash := passwordHash } else user
  keyed := by
    intro id user h
    rw [Dict.get?_mapValues] at h
    obtain ⟨old, hold, rfl⟩ := Option.map_eq_some_iff.1 h
    rw [← table.keyed id old hold]
    split_ifs <;> rfl
  unique := by
    intro id user id' user' h h' hname
    rw [Dict.get?_mapValues] at h h'
    obtain ⟨old, hold, rfl⟩ := Option.map_eq_some_iff.1 h
    obtain ⟨old', hold', rfl⟩ := Option.map_eq_some_iff.1 h'
    refine table.unique id old id' old' hold hold' ?_
    split_ifs at hname <;> exact hname

/-! ### Reading the table -/

variable {table} {table' : UserTable}

lemma insert_of_free (user : User) (hid : table.get user.id = none)
    (hname : table.byUsername user.username = none) :
    ∃ table', table.insert user = some table' := by
  rw [insert, dif_pos ⟨hid, hname⟩]
  exact ⟨_, rfl⟩

lemma get_insert {user : User} (h : table.insert user = some table') (id : String) :
    table'.get id = if id = user.id then some user else table.get id := by
  rw [insert] at h
  split_ifs at h
  cases h
  exact table.rows.get?_set user.id user id

lemma byUsername_insert {user : User} (h : table.insert user = some table') (username : String) :
    table'.byUsername username
      = if username = user.username then some user else table.byUsername username := by
  have hget := get_insert h
  have hself : table'.byUsername user.username = some user :=
    (table'.byUsername_eq_some).2 ⟨by rw [hget, if_pos rfl], rfl⟩
  split_ifs with hname
  · rw [hname, hself]
  · have hfree : table.get user.id = none := by
      rw [insert] at h
      split_ifs at h with hok
      exact hok.1
    refine Option.ext fun other => ?_
    rw [byUsername_eq_some, byUsername_eq_some, hget]
    split_ifs with hid
    · refine iff_of_false ?_ ?_
      · rintro ⟨hsame, hother⟩
        cases hsame
        exact hname hother.symm
      · rintro ⟨hsome, -⟩
        rw [hid, hfree] at hsome
        cases hsome
    · rfl

lemma get_setPasswordHash (username passwordHash id : String) :
    (table.setPasswordHash username passwordHash).get id
      = (table.get id).map fun user =>
          if user.username = username then { user with passwordHash := passwordHash } else user :=
  Dict.get?_mapValues _ _ _

lemma byUsername_setPasswordHash (username passwordHash name : String) :
    (table.setPasswordHash username passwordHash).byUsername name
      = (table.byUsername name).map fun user =>
          if user.username = username then { user with passwordHash := passwordHash }
          else user := by
  refine Option.ext fun other => ?_
  rw [byUsername_eq_some, get_setPasswordHash, Option.map_eq_some_iff, Option.map_eq_some_iff]
  constructor
  · rintro ⟨⟨old, hold, rfl⟩, hname⟩
    have hkeyed := table.keyed _ old hold
    refine ⟨old, (table.byUsername_eq_some).2 ⟨hkeyed.symm ▸ hold, ?_⟩, rfl⟩
    split_ifs at hname <;> exact hname
  · rintro ⟨old, hold, rfl⟩
    obtain ⟨hget, hname⟩ := (table.byUsername_eq_some).1 hold
    split_ifs with hsame
    · exact ⟨⟨old, hget, if_pos hsame⟩, hname⟩
    · exact ⟨⟨old, hget, if_neg hsame⟩, hname⟩

end UserTable

/-- The tables of users and sessions; sessions are kept by the hash of their id. -/
structure AuthTables where
  users : UserTable
  sessions : Dict String SessionRow

/-- `HTTPException`. -/
structure HttpError where
  statusCode : Nat
  detail : String
deriving DecidableEq

end Sast
