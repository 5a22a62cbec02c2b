import SastEngine.Auth.Service

/-!
# Who a cookie stands for

Sessions are rows that a login adds, a logout or an administrator revokes, and time expires.
`getCurrentUser_ok_iff` says of every run of these calls, restarts of the application in between,
which cookies are accepted at its end and whom each of them stands for.
-/

namespace Sast

variable {crypto : Crypto} {tables tables' : AuthTables}

/-- A session with the id is open for the user until the time. -/
def OpenUntil (crypto : Crypto) (cookie userId : String) (expiry : Int) (tables : AuthTables) :
    Prop :=
  ∃ row, tables.sessions.get? (crypto.sha256 cookie) = some row ∧ row.userId = userId
    ∧ row.revokedAt = none ∧ row.expiresAt.instant = expiry

/-- The call is a login of the user that succeeds and hands out an id of the same hash. -/
def HandsOut (crypto : Crypto) (cookie userId : String) (tables : AuthTables) (call : AuthCall) :
    Prop :=
  ∃ username password rawId user tables', call.op = .login username password rawId
    ∧ tables.login crypto username password rawId call.utcnow = .ok ((rawId, user), tables')
    ∧ user.id = userId ∧ crypto.sha256 rawId = crypto.sha256 cookie

/-- The call is a logout with an id of the same hash, or revokes all sessions of the user. -/
def EndsSession (crypto : Crypto) (cookie userId : String) (call : AuthCall) : Prop :=
  match call.op with
  | .logout (some rawId) => rawId ≠ "" ∧ crypto.sha256 rawId = crypto.sha256 cookie
  | .revokeAll revokedId => revokedId = userId
  | _ => False

instance (crypto : Crypto) (cookie userId : String) (call : AuthCall) :
    Decidable (EndsSession crypto cookie userId call) := by
  unfold EndsSession
  split <;> infer_instance

/-! ## What one call does to the sessions -/

/-- A login that succeeds adds the row of its session. -/
lemma login_ok {username password rawId : String} {utcnow : DateTime}
    {reply : String × UserPublic}
    (h : tables.login crypto username password rawId utcnow = .ok (reply, tables')) :
    reply.1 = rawId ∧ tables.sessions.get? (crypto.sha256 rawId) = none
      ∧ tables' = { tables with
          sessions := tables.sessions.set (crypto.sha256 rawId)
            { userId := reply.2.id
              createdAt := utcnow
              expiresAt := { utcnow with clock := utcnow.clock + sessionLifetime } } } := by
  rw [AuthTables.login] at h
  split at h
  · cases h
  · rw [AuthTables.createSession] at h
    split_ifs at h with htaken
    cases h
    exact ⟨rfl, Option.not_isSome_iff_eq_none.1 htaken, rfl⟩

/-- An expiry is a lifetime after the login, whatever time zone its time is read in. -/
lemma instant_add_clock (utcnow : DateTime) (duration : Int) :
    ({ utcnow with clock := utcnow.clock + duration } : DateTime).instant
      = utcnow.instant + duration := by
  obtain ⟨clock, utcoffset⟩ := utcnow
  cases utcoffset with
  | none => rfl
  | some offset =>
      show clock + duration - offset = clock - offset + duration
      omega

lemma get?_revokeSession (tables : AuthTables) (rawId key : String) (utcnow : DateTime) :
    (tables.revokeSession crypto rawId utcnow).sessions.get? key
      = (tables.sessions.get? key).map fun row =>
          if key = crypto.sha256 rawId ∧ row.revokedAt = none then AuthTables.revoked utcnow row
          else row := by
  rw [AuthTables.revokeSession]
  by_cases hkey : key = crypto.sha256 rawId
  · subst hkey
    cases hrow : tables.sessions.get? (crypto.sha256 rawId) with
    | none => simp [hrow]
    | some row =>
        by_cases hopen : row.revokedAt = none
        · simp [hopen]
        · simp [hopen, hrow]
  · have hsame : ∀ row : SessionRow, (if key = crypto.sha256 rawId ∧ row.revokedAt = none
        then AuthTables.revoked utcnow row else row) = row := fun row => if_neg fun h => hkey h.1
    simp only [hsame, Option.map_id']
    split
    · rfl
    · split_ifs
      · exact Dict.get?_set_ne _ _ hkey
      · rfl

variable {cookie userId : String} {expiry : Int}

/-- Revoking sessions ends the session if it is one of them. -/
lemma openUntil_of_revoked (utcnow : DateTime) {P : SessionRow → Prop} [DecidablePred P] {Q : Prop}
    (h : tables'.sessions.get? (crypto.sha256 cookie)
      = (tables.sessions.get? (crypto.sha256 cookie)).map fun row =>
          if P row ∧ row.revokedAt = none then AuthTables.revoked utcnow row else row)
    (hPQ : ∀ row : SessionRow, row.userId = userId → (P row ↔ Q)) :
    OpenUntil crypto cookie userId expiry tables'
      ↔ OpenUntil crypto cookie userId expiry tables ∧ ¬ Q := by
  constructor
  · rintro ⟨row, hrow, huser, hopen, htime⟩
    rw [h] at hrow
    obtain ⟨old, hold, rfl⟩ := Option.map_eq_some_iff.1 hrow
    split_ifs at huser hopen htime with hrevoked
    · cases hopen
    · exact ⟨⟨old, hold, huser, hopen, htime⟩,
        fun hq => hrevoked ⟨(hPQ old huser).2 hq, hopen⟩⟩
  · rintro ⟨⟨row, hrow, huser, hopen, htime⟩, hne⟩
    have hkept : ¬ (P row ∧ row.revokedAt = none) := fun hp => hne ((hPQ row huser).1 hp.1)
    exact ⟨row, by rw [h, hrow, Option.map_some, if_neg hkept], huser, hopen, htime⟩

/-- A call that is no login and leaves the sessions alone opens and ends none. -/
lemma openUntil_of_sessions_eq (h : tables'.sessions = tables.sessions) :
    OpenUntil crypto cookie userId expiry tables'
      ↔ OpenUntil crypto cookie userId expiry tables := by
  rw [OpenUntil, h]
  rfl

lemma not_handsOut {call : AuthCall}
    (h : ∀ username password rawId, call.op ≠ .login username password rawId) :
    ¬ (HandsOut crypto cookie userId tables call
      ∧ call.utcnow.instant + sessionLifetime = expiry) := by
  rintro ⟨⟨username, password, rawId, -, -, hlogin, -⟩, -⟩
  exact h _ _ _ hlogin

/-- A login opens the session it hands out, and no other. -/
lemma openUntil_login {username password rawId : String} {utcnow : DateTime} :
    OpenUntil crypto cookie userId expiry
        (authStep crypto tables ⟨.login username password rawId, utcnow⟩)
      ↔ (HandsOut crypto cookie userId tables ⟨.login username password rawId, utcnow⟩
          ∧ utcnow.instant + sessionLifetime = expiry)
        ∨ OpenUntil crypto cookie userId expiry tables := by
  rw [authStep]
  dsimp only
  cases h : tables.login crypto username password rawId utcnow with
  | error e =>
      refine ⟨Or.inr, ?_⟩
      rintro (⟨⟨_, _, _, user, _, hop, hlogin, -⟩, -⟩ | hopen)
      · cases hop
        rw [h] at hlogin
        cases hlogin
      · exact hopen
  | ok result =>
      obtain ⟨⟨handed, user⟩, after⟩ := result
      obtain ⟨hraw, hfree, hafter⟩ := login_ok h
      obtain rfl : handed = rawId := hraw
      have hexpiry := instant_add_clock utcnow sessionLifetime
      have hget := Dict.get?_set tables.sessions (crypto.sha256 handed)
        { userId := user.id
          createdAt := utcnow
          expiresAt := { utcnow with clock := utcnow.clock + sessionLifetime } }
        (crypto.sha256 cookie)
      rw [hafter, OpenUntil]
      dsimp only
      rw [hget]
      by_cases hhash : crypto.sha256 cookie = crypto.sha256 handed
      · rw [if_pos hhash]
        constructor
        · rintro ⟨row, hrow, huser, -, htime⟩
          cases hrow
          exact Or.inl ⟨⟨username, password, handed, user, after, rfl, h, huser, hhash.symm⟩,
            hexpiry.symm.trans htime⟩
        · rintro (⟨⟨_, _, _, user', _, hop, hlogin, huser, -⟩, htime⟩ | ⟨row, hrow, -⟩)
          · cases hop
            rw [h] at hlogin
            cases hlogin
            exact ⟨_, rfl, huser, rfl, hexpiry.trans htime⟩
          · rw [hhash, hfree] at hrow
            cases hrow
      · rw [if_neg hhash]
        refine ⟨Or.inr, ?_⟩
        rintro (⟨⟨_, _, _, user', _, hop, -, -, hsame⟩, -⟩ | hopen)
        · cases hop
          exact absurd hsame.symm hhash
        · exact hopen

/-- **What one call does to a session**: a login opens it, and it stays open as long as no call
ends it. -/
lemma openUntil_authStep (call : AuthCall) :
    OpenUntil crypto cookie userId expiry (authStep crypto tables call)
      ↔ (HandsOut crypto cookie userId tables call
          ∧ call.utcnow.instant + sessionLifetime = expiry)
        ∨ (OpenUntil crypto cookie userId expiry tables
          ∧ ¬ EndsSession crypto cookie userId call) := by
  obtain ⟨op, utcnow⟩ := call
  cases op with
  | login username password rawId =>
      rw [openUntil_login, and_iff_left (show ¬ EndsSession _ _ _ _ from id)]
  | logout sent =>
      rw [or_iff_right (not_handsOut (by simp))]
      cases sent with
      | none => rw [and_iff_left (show ¬ EndsSession _ _ _ _ from id)]; rfl
      | some rawId =>
          by_cases hempty : rawId = ""
          · have hkept : ¬ EndsSession crypto cookie userId ⟨.logout (some rawId), utcnow⟩ :=
              fun h => h.1 hempty
            have hstep : authStep crypto tables ⟨.logout (some rawId), utcnow⟩ = tables :=
              if_pos hempty
            rw [and_iff_left hkept, hstep]
          · have hstep : authStep crypto tables ⟨.logout (some rawId), utcnow⟩
                = tables.revokeSession crypto rawId utcnow := if_neg hempty
            rw [hstep]
            refine openUntil_of_revoked utcnow (get?_revokeSession tables rawId _ utcnow)
              fun row _ => ?_
            exact eq_comm.trans (and_iff_right hempty).symm
  | createUser draw username displayName password role isActive =>
      rw [or_iff_right (not_handsOut (by simp)),
        and_iff_left (show ¬ EndsSession _ _ _ _ from id), authStep]
      cases h : tables.createUser crypto draw username displayName password role isActive with
      | error e => simp only [h]
      | ok result =>
          simp only [h]
          exact openUntil_of_sessions_eq (createUser_sessions h)
  | revokeAll revokedId =>
      rw [or_iff_right (not_handsOut (by simp))]
      refine openUntil_of_revoked utcnow (P := fun row => row.userId = revokedId)
        (Dict.get?_mapValues _ _ _) fun row huser => ?_
      rw [huser]
      exact eq_comm
  | startup draw =>
      rw [or_iff_right (not_handsOut (by simp)),
        and_iff_left (show ¬ EndsSession _ _ _ _ from id)]
      exact openUntil_of_sessions_eq (seedUsers_sessions draw _ tables)

/-! ## Runs -/

/-- A session is accepted until it is revoked, and up to its expiry. -/
lemma getSession_eq_some {cookie : String} {utcnow : DateTime} {session : SessionRow} :
    tables.getSession crypto cookie utcnow = some session
      ↔ tables.sessions.get? (crypto.sha256 cookie) = some session ∧ session.revokedAt = none
        ∧ utcnow.instant ≤ session.expiresAt.instant := by
  rw [AuthTables.getSession]
  split
  · next hnone => simp [hnone]
  · next row hrow =>
      rw [hrow]
      split_ifs with hrevoked hexpired
      · refine iff_of_false (by simp) ?_
        rintro ⟨hsame, hopen, -⟩
        cases hsame
        rw [hopen] at hrevoked
        cases hrevoked
      · refine iff_of_false (by simp) ?_
        rintro ⟨hsame, -, htime⟩
        cases hsame
        exact absurd htime (not_le.2 hexpired)
      · constructor
        · intro hsame
          cases hsame
          exact ⟨rfl, Option.not_isSome_iff_eq_none.1 hrevoked, not_lt.1 hexpired⟩
        · exact And.left

/-- A cookie is accepted for an active user with an open session. -/
lemma getCurrentUser_eq_ok {cookie : String} {utcnow : DateTime} {user : User} :
    tables.getCurrentUser crypto (some cookie) utcnow = .ok user
      ↔ cookie ≠ "" ∧ (∃ expiry, OpenUntil crypto cookie user.id expiry tables
          ∧ utcnow.instant ≤ expiry)
        ∧ tables.users.get user.id = some user ∧ user.isActive = true := by
  rw [AuthTables.getCurrentUser.eq_def]
  dsimp only
  split_ifs with hempty
  · simp [hempty]
  · cases hsession : tables.getSession crypto cookie utcnow with
    | none =>
        refine iff_of_false (by simp) ?_
        rintro ⟨-, ⟨expiry, ⟨row, hrow, -, hopen, rfl⟩, htime⟩, -⟩
        rw [getSession_eq_some.2 ⟨hrow, hopen, htime⟩] at hsession
        cases hsession
    | some session =>
        obtain ⟨hrow, hopen, htime⟩ := getSession_eq_some.1 hsession
        have honly : ∀ {userId expiry}, OpenUntil crypto cookie userId expiry tables →
            session.userId = userId := by
          rintro userId expiry ⟨row, hrow', huser, -⟩
          rw [hrow] at hrow'
          cases hrow'
          exact huser
        dsimp only
        cases huser : tables.getUserById session.userId with
        | none =>
            refine iff_of_false (by simp) ?_
            rintro ⟨-, ⟨expiry, hopen, -⟩, hget, -⟩
            rw [← honly hopen] at hget
            exact absurd (hget.symm.trans huser) (by simp)
        | some found =>
            have hid : found.id = session.userId := tables.users.keyed _ _ huser
            dsimp only
            constructor
            · intro h
              split_ifs at h with hactive
              cases h
              exact ⟨hempty, ⟨_, ⟨session, hrow, hid.symm, hopen, rfl⟩, htime⟩,
                hid ▸ huser, hactive⟩
            · rintro ⟨-, ⟨expiry, hopen, -⟩, hget, hactive⟩
              rw [← honly hopen] at hget
              obtain rfl : found = user := Option.some.inj (huser.symm.trans hget)
              rw [if_pos hactive]

/-- **Who a cookie stands for.**  After every run of logins, logouts, revocations, new users and
restarts, a cookie is accepted for a user exactly if an earlier login of that user handed it out
(up to a collision of the hash), no logout with it and no revocation of the user's sessions came
after that login, at most seven days have passed since, and the user is active. -/
theorem getCurrentUser_ok_iff (crypto : Crypto) (users : UserTable) (calls : List AuthCall)
    (cookie : String) (utcnow : DateTime) (user : User) :
    (exec (authStep crypto) ⟨users, .empty⟩ calls).getCurrentUser crypto (some cookie) utcnow
        = .ok user
      ↔ cookie ≠ ""
        ∧ (∃ pre login post, calls = pre ++ login :: post
          ∧ HandsOut crypto cookie user.id (exec (authStep crypto) ⟨users, .empty⟩ pre) login
          ∧ (∀ call ∈ post, ¬ EndsSession crypto cookie user.id call)
          ∧ utcnow.instant ≤ login.utcnow.instant + sessionLifetime)
        ∧ (exec (authStep crypto) ⟨users, .empty⟩ calls).users.get user.id = some user
        ∧ user.isActive = true := by
  rw [getCurrentUser_eq_ok]
  refine and_congr_right fun _ => and_congr_left' ?_
  have hempty : ∀ expiry, ¬ OpenUntil crypto cookie user.id expiry ⟨users, .empty⟩ := by
    rintro expiry ⟨row, hrow, -⟩
    cases hrow
  simp only [exec_since (fun _ => True) (fun _ _ _ => trivial)
    (fun _ call _ => openUntil_authStep call) trivial (hempty _), throughout_ops]
  constructor
  · rintro ⟨_, ⟨pre, login, post, heq, ⟨hlogin, rfl⟩, hkept⟩, htime⟩
    exact ⟨pre, login, post, heq, hlogin, hkept, htime⟩
  · rintro ⟨pre, login, post, heq, hlogin, hkept, htime⟩
    exact ⟨_, ⟨pre, login, post, heq, ⟨hlogin, rfl⟩, hkept⟩, htime⟩

end Sast
