import SastEngine.Auth.Models
import SastEngine.Lib.Except
import SastEngine.Lib.Run

/-!
# Authentication

`auth/service.py`, the dependencies of `auth/dependencies.py` and `auth/rbac.py`, the endpoints of
`auth/routes.py`, and the seeding of `auth/seed.py`.  `bcrypt`, `hashlib` and the generators of
random ids are not part of the repository: the functions are parameters, and what is drawn is an
input of the call that draws it.
-/

namespace Sast

/-- `bcrypt` and `hashlib.sha256`. -/
structure Crypto where
  /-- `bcrypt.hashpw(password, salt)` -/
  hashpw : String → String → Except String String
  /-- `bcrypt.checkpw(password, password_hash)`; nothing where it raises -/
  checkpw : String → String → Option Bool
  /-- `hashlib.sha256(text.encode("utf-8")).hexdigest()` -/
  sha256 : String → String

/-- `SESSION_LIFETIME`: seven days, in microseconds. -/
def sessionLifetime : Int := 7 * 24 * 60 * 60 * 1000000

/-- `_GENERIC_AUTH_ERROR`. -/
def genericAuthError : String := "Invalid username or password"

/-- The text of an `IntegrityError`: a commit whose row has the key of another row. -/
def integrityError : String := "UNIQUE constraint failed"

/-- What `create_user` draws: `uuid4().hex[:16]`, `bcrypt.gensalt()` and the time. -/
structure Draw where
  userId : String
  salt : String
  utcnow : DateTime

variable (crypto : Crypto)

/-- `verify_password`. -/
def verifyPassword (password passwordHash : String) : Bool :=
  (crypto.checkpw password passwordHash).getD false

/-- `to_public`. -/
def User.toPublic (user : User) : UserPublic where
  id := user.id
  username := user.username
  displayName := user.displayName
  role := user.role
  isActive := user.isActive

namespace AuthTables

variable (tables : AuthTables)

/-- `get_user_by_username`. -/
def getUserByUsername (username : String) : Option User := tables.users.byUsername username

/-- `get_user_by_id`. -/
def getUserById (userId : String) : Option User := tables.users.get userId

/-- `create_user`. -/
def createUser (draw : Draw) (username displayName password : String) (role : Role)
    (isActive : Bool) : Except String (User × AuthTables) := do
  let passwordHash ← crypto.hashpw password draw.salt
  let user : User :=
    { id := draw.userId
      username := username
      displayName := displayName
      passwordHash := passwordHash
      role := role
      isActive := isActive
      createdAt := draw.utcnow }
  match tables.users.insert user with
  | none => .error integrityError
  | some users => return (user, { tables with users := users })

/-- `create_session`, for the raw id that is drawn; only its hash is stored. -/
def createSession (userId rawId : String) (utcnow : DateTime) :
    Except String (SessionRow × AuthTables) :=
  let session : SessionRow :=
    { userId := userId
      createdAt := utcnow
      expiresAt := { utcnow with clock := utcnow.clock + sessionLifetime } }
  if (tables.sessions.get? (crypto.sha256 rawId)).isSome then .error integrityError
  else .ok (session, { tables with sessions := tables.sessions.set (crypto.sha256 rawId) session })

/-- `get_session`. -/
def getSession (rawId : String) (utcnow : DateTime) : Option SessionRow :=
  match tables.sessions.get? (crypto.sha256 rawId) with
  | none => none
  | some session =>
      if session.revokedAt.isSome then none
      else if session.expiresAt.instant < utcnow.instant then none
      else some session

/-- The row of a session after its revocation. -/
def revoked (utcnow : DateTime) (row : SessionRow) : SessionRow :=
  { row with revokedAt := some utcnow }

/-- `revoke_session`. -/
def revokeSession (rawId : String) (utcnow : DateTime) : AuthTables :=
  match tables.sessions.get? (crypto.sha256 rawId) with
  | none => tables
  | some row =>
      if row.revokedAt = none then
        { tables with sessions := tables.sessions.set (crypto.sha256 rawId) (revoked utcnow row) }
      else tables

/-- `revoke_all_user_sessions`. -/
def revokeAllUserSessions (userId : String) (utcnow : DateTime) : AuthTables :=
  { tables with
    sessions := tables.sessions.mapValues fun row =>
      if row.userId = userId ∧ row.revokedAt = none then revoked utcnow row else row }

/-- `authenticate_user`. -/
def authenticateUser (username password : String) : Option User :=
  match tables.getUserByUsername username with
  | none => none
  | some user =>
      if verifyPassword crypto password user.passwordHash then
        if user.isActive then some user else none
      else none

/-! ## The endpoints -/

/-- `POST /api/auth/login`: the cookie, which is the raw id drawn, and the user. -/
def login (username password rawId : String) (utcnow : DateTime) :
    Except HttpError ((String × UserPublic) × AuthTables) :=
  match tables.authenticateUser crypto username password with
  | none => .error ⟨401, genericAuthError⟩
  | some user =>
      match tables.createSession crypto user.id rawId utcnow with
      | .error _ => .error ⟨500, "Internal Server Error"⟩
      | .ok (_, tables) => .ok ((rawId, user.toPublic), tables)

/-- `POST /api/auth/logout`. -/
def logout (cookie : Option String) (utcnow : DateTime) : AuthTables :=
  match cookie with
  | none => tables
  | some rawId => if rawId = "" then tables else tables.revokeSession crypto rawId utcnow

/-- `get_current_user`. -/
def getCurrentUser (cookie : Option String) (utcnow : DateTime) : Except HttpError User :=
  match cookie with
  | none => .error ⟨401, "Not authenticated"⟩
  | some rawId =>
      if rawId = "" then .error ⟨401, "Not authenticated"⟩
      else
        match tables.getSession crypto rawId utcnow with
        | none => .error ⟨401, "Invalid or expired session"⟩
        | some session =>
            match tables.getUserById session.userId with
            | none => .error ⟨401, "User not found"⟩
            | some user =>
                if user.isActive then .ok user
                else .error ⟨401, "User account is inactive"⟩

/-- `require_permission`. -/
def requirePermission (permission : Permission) (cookie : Option String) (utcnow : DateTime) :
    Except HttpError User := do
  let user ← tables.getCurrentUser crypto cookie utcnow
  if hasPermission user.role permission then return user
  else .error ⟨403, "Permission denied: " ++ permission.text⟩

/-! ## Seeding -/

/-- `DEMO_PASSWORD`. -/
def demoPassword : String := "demo123"

/-- An entry of `_DEMO_USERS`. -/
structure DemoUser where
  username : String
  displayName : String
  role : Role

/-- `_DEMO_USERS`. -/
def demoUsers : List DemoUser :=
  [⟨"analyst", "Security Analyst", .analyst⟩, ⟨"manager", "Security Manager", .manager⟩,
    ⟨"developer", "Developer", .developer⟩, ⟨"auditor", "Auditor", .auditor⟩]

/-- One round of the loop of `seed_demo_users`. -/
def seedUser (draw : String → Draw) (demo : DemoUser) : Except String AuthTables :=
  match tables.getUserByUsername demo.username with
  | some existing =>
      if verifyPassword crypto demoPassword existing.passwordHash then .ok tables
      else do
        let passwordHash ← crypto.hashpw demoPassword (draw demo.username).salt
        return { tables with
          users := tables.users.setPasswordHash demo.username passwordHash }
  | none => do
      let (_, tables) ← tables.createUser crypto (draw demo.username) demo.username
        demo.displayName demoPassword demo.role true
      return tables

/-- The loop of `seed_demo_users`; what it commits before it raises stays committed. -/
def seedUsers (draw : String → Draw) : AuthTables → List DemoUser → AuthTables × Except String Unit
  | tables, [] => (tables, .ok ())
  | tables, demo :: demos =>
      match tables.seedUser crypto draw demo with
      | .error e => (tables, .error e)
      | .ok tables => seedUsers draw tables demos

/-- `seed_demo_users`. -/
def seedDemoUsers (draw : String → Draw) : AuthTables × Except String Unit :=
  seedUsers crypto draw tables demoUsers

end AuthTables

/-! ## Calls -/

/-- What changes the tables: logins, logouts, and the functions that administrators call.  The
demo users are seeded at every start of the application. -/
inductive AuthOp where
  | login (username password rawId : String)
  | logout (cookie : Option String)
  | createUser (draw : Draw) (username displayName password : String) (role : Role)
      (isActive : Bool)
  | revokeAll (userId : String)
  | startup (draw : String → Draw)

/-- A call, and when it is made. -/
structure AuthCall where
  op : AuthOp
  utcnow : DateTime

/-- The tables after a call; what raises changes nothing, except for the commits of a seeding. -/
def authStep (tables : AuthTables) (call : AuthCall) : AuthTables :=
  match call.op with
  | .login username password rawId =>
      match tables.login crypto username password rawId call.utcnow with
      | .error _ => tables
      | .ok (_, tables) => tables
  | .logout cookie => tables.logout crypto cookie call.utcnow
  | .createUser draw username displayName password role isActive =>
      match tables.createUser crypto draw username displayName password role isActive with
      | .error _ => tables
      | .ok (_, tables) => tables
  | .revokeAll userId => tables.revokeAllUserSessions userId call.utcnow
  | .startup draw => (tables.seedDemoUsers crypto draw).1

/-! ## What leaves the sessions alone -/

variable {crypto} {tables tables' : AuthTables}

lemma createUser_sessions {draw : Draw} {username displayName password : String} {role : Role}
    {isActive : Bool} {user : User}
    (h : tables.createUser crypto draw username displayName password role isActive
      = .ok (user, tables')) : tables'.sessions = tables.sessions := by
  obtain ⟨passwordHash, -, h⟩ := bind_eq_ok.1 h
  dsimp only at h
  split at h
  · cases h
  · cases h
    rfl

lemma seedUser_sessions {draw : String → Draw} {demo : AuthTables.DemoUser}
    (h : tables.seedUser crypto draw demo = .ok tables') : tables'.sessions = tables.sessions := by
  rw [AuthTables.seedUser] at h
  split at h
  · split_ifs at h
    · cases h
      rfl
    · obtain ⟨passwordHash, -, h⟩ := bind_eq_ok.1 h
      cases h
      rfl
  · obtain ⟨⟨user, created⟩, hcreate, h⟩ := bind_eq_ok.1 h
    cases h
    exact createUser_sessions hcreate

/-- Seeding leaves the sessions alone. -/
lemma seedUsers_sessions (draw : String → Draw) (demos : List AuthTables.DemoUser)
    (tables : AuthTables) :
    (AuthTables.seedUsers crypto draw tables demos).1.sessions = tables.sessions := by
  induction demos generalizing tables with
  | nil => rfl
  | cons demo demos ih =>
      rw [AuthTables.seedUsers]
      cases h : tables.seedUser crypto draw demo with
      | error e => rfl
      | ok seeded => exact (ih seeded).trans (seedUser_sessions h)

end Sast
