import SastEngine.Auth.Service

/-!
# Seeding the demo users

`seed_demo_users` runs at every start of the application.  It creates the demo users that are
missing, and gives the demo password back to those whose hash does not verify it.  Nobody else is
affected, and seeding again changes nothing.
-/

namespace Sast

open AuthTables

/-- The demo password can be hashed, and its hashes verify it. -/
structure HashesDemoPassword (crypto : Crypto) : Prop where
  hashes : ∀ salt, ∃ passwordHash, crypto.hashpw demoPassword salt = .ok passwordHash
  verifies : ∀ salt passwordHash, crypto.hashpw demoPassword salt = .ok passwordHash →
    crypto.checkpw demoPassword passwordHash = some true

/-- The account of a demo user after a seeding of the tables: the account it had, with a hash that
verifies the demo password, or a new one. -/
structure Seeded (crypto : Crypto) (tables : AuthTables) (demo : DemoUser) (user : User) :
    Prop where
  verifies : verifyPassword crypto demoPassword user.passwordHash = true
  kept : ∀ old, tables.getUserByUsername demo.username = some old →
    user = { old with passwordHash := user.passwordHash }
      ∧ (verifyPassword crypto demoPassword old.passwordHash = true → user = old)
  created : tables.getUserByUsername demo.username = none →
    user.displayName = demo.displayName ∧ user.role = demo.role ∧ user.isActive = true

variable {crypto : Crypto} {tables : AuthTables} {draw : String → Draw}

/-! ## One demo user -/

/-- A demo user whose hash verifies the demo password is left alone. -/
lemma seedUser_of_verifies {demo : DemoUser} {user : User}
    (huser : tables.getUserByUsername demo.username = some user)
    (h : verifyPassword crypto demoPassword user.passwordHash = true) :
    tables.seedUser crypto draw demo = .ok tables := by
  rw [AuthTables.seedUser, huser]
  exact if_pos h

/-- **Seeding one demo user** changes that user's row only. -/
lemma seedUser_ok (hcrypto : HashesDemoPassword crypto) {demo : DemoUser}
    (hfree : tables.users.get (draw demo.username).userId = none) :
    ∃ tables' user, tables.seedUser crypto draw demo = .ok tables'
      ∧ Seeded crypto tables demo user
      ∧ (∀ username, tables'.getUserByUsername username
        = if username = demo.username then some user else tables.getUserByUsername username)
      ∧ ∀ id, id ≠ (draw demo.username).userId → tables.users.get id = none →
        tables'.users.get id = none := by
  obtain ⟨passwordHash, hhash⟩ := hcrypto.hashes (draw demo.username).salt
  have hverify : verifyPassword crypto demoPassword passwordHash = true := by
    rw [verifyPassword, hcrypto.verifies _ _ hhash]
    rfl
  cases hold : tables.getUserByUsername demo.username with
  | some old =>
      by_cases hok : verifyPassword crypto demoPassword old.passwordHash = true
      · refine ⟨tables, old, seedUser_of_verifies hold hok, ⟨hok, ?_, ?_⟩, ?_, fun _ _ h => h⟩
        · intro old' hold'
          cases hold.symm.trans hold'
          exact ⟨rfl, fun _ => rfl⟩
        · intro hnone
          cases hold.symm.trans hnone
        · intro username
          split_ifs with hname
          · rw [hname, hold]
          · rfl
      · refine ⟨{ tables with users := tables.users.setPasswordHash demo.username passwordHash },
          { old with passwordHash := passwordHash }, ?_, ⟨hverify, ?_, ?_⟩, ?_, ?_⟩
        · rw [AuthTables.seedUser, hold]
          dsimp only
          rw [if_neg hok, hhash]
          rfl
        · intro old' hold'
          cases hold.symm.trans hold'
          exact ⟨rfl, fun hok' => absurd hok' hok⟩
        · intro hnone
          cases hold.symm.trans hnone
        · intro username
          have hnameOld := ((tables.users.byUsername_eq_some).1 hold).2
          rw [AuthTables.getUserByUsername, UserTable.byUsername_setPasswordHash]
          split_ifs with hname
          · have hget : tables.users.byUsername username = some old := hname ▸ hold
            rw [hget, Option.map_some, if_pos hnameOld]
          · cases hget : tables.users.byUsername username with
            | none => exact hget.symm
            | some user =>
                have huser := ((tables.users.byUsername_eq_some).1 hget).2
                rw [Option.map_some, if_neg (huser ▸ hname)]
                exact hget.symm
        · intro id _ hnone
          rw [UserTable.get_setPasswordHash, hnone]
          rfl
  | none =>
      set user : User :=
        { id := (draw demo.username).userId
          username := demo.username
          displayName := demo.displayName
          passwordHash := passwordHash
          role := demo.role
          isActive := true
          createdAt := (draw demo.username).utcnow } with huser
      obtain ⟨users, hinsert⟩ := UserTable.insert_of_free user hfree hold
      refine ⟨{ tables with users := users }, user, ?_, ⟨hverify, ?_, fun _ => ⟨rfl, rfl, rfl⟩⟩,
        UserTable.byUsername_insert hinsert, ?_⟩
      · have hcreate : tables.createUser crypto (draw demo.username) demo.username
            demo.displayName demoPassword demo.role true
              = .ok (user, { tables with users := users }) := by
          simp only [AuthTables.createUser, hhash, bind, Except.bind, ← huser, hinsert, pure,
            Except.pure]
        rw [AuthTables.seedUser, hold]
        dsimp only
        rw [hcreate]
        rfl
      · intro old' hold'
        cases hold.symm.trans hold'
      · intro id hid hnone
        rw [UserTable.get_insert hinsert, if_neg hid]
        exact hnone

/-! ## All of them -/

/-- Seeding leaves tables alone in which every demo user has the demo password. -/
lemma seedUsers_of_verifies {demos : List DemoUser}
    (h : ∀ demo ∈ demos, ∃ user, tables.getUserByUsername demo.username = some user
      ∧ verifyPassword crypto demoPassword user.passwordHash = true) :
    seedUsers crypto draw tables demos = (tables, .ok ()) := by
  induction demos with
  | nil => rfl
  | cons demo demos ih =>
      obtain ⟨user, huser, hok⟩ := h demo List.mem_cons_self
      rw [seedUsers, seedUser_of_verifies huser hok]
      exact ih fun other hother => h other (List.mem_cons_of_mem demo hother)

lemma seedUsers_ok (hcrypto : HashesDemoPassword crypto) {demos : List DemoUser}
    (hnodup : (demos.map DemoUser.username).Nodup)
    (hdraw : (demos.map fun demo => (draw demo.username).userId).Nodup)
    (hfree : ∀ demo ∈ demos, tables.users.get (draw demo.username).userId = none) :
    ∃ tables', seedUsers crypto draw tables demos = (tables', .ok ())
      ∧ (∀ demo ∈ demos, ∃ user, tables'.getUserByUsername demo.username = some user
        ∧ Seeded crypto tables demo user)
      ∧ ∀ username, username ∉ demos.map DemoUser.username →
        tables'.getUserByUsername username = tables.getUserByUsername username := by
  induction demos generalizing tables with
  | nil => exact ⟨tables, rfl, by simp, fun _ _ => rfl⟩
  | cons demo demos ih =>
      rw [List.map_cons, List.nodup_cons] at hnodup hdraw
      obtain ⟨seeded, user, hstep, huser, hnames, hids⟩ :=
        seedUser_ok hcrypto (hfree demo List.mem_cons_self)
      have hfree' : ∀ other ∈ demos, seeded.users.get (draw other.username).userId = none := by
        intro other hother
        refine hids _ (fun hid => hdraw.1 ?_) (hfree other (List.mem_cons_of_mem demo hother))
        exact List.mem_map.2 ⟨other, hother, hid⟩
      obtain ⟨tables', hrest, hseeded, hothers⟩ :=
        ih hnodup.2 hdraw.2 hfree'
      refine ⟨tables', by rw [seedUsers, hstep]; exact hrest, ?_, ?_⟩
      · intro other hother
        rcases List.mem_cons.1 hother with rfl | hother
        · exact ⟨user, by rw [hothers _ hnodup.1, hnames, if_pos rfl], huser⟩
        · obtain ⟨found, hfound, hof⟩ := hseeded other hother
          have hne : other.username ≠ demo.username := fun h =>
            hnodup.1 (h ▸ List.mem_map_of_mem hother)
          have hold := (hnames other.username).trans (if_neg hne)
          exact ⟨found, hfound, hof.verifies, hold ▸ hof.kept, hold ▸ hof.created⟩
      · intro username hname
        rw [List.map_cons, List.mem_cons, not_or] at hname
        rw [hothers username hname.2, hnames, if_neg hname.1]

/-- Hashing that keeps the password behind the salt. -/
def suffixCrypto : Crypto where
  hashpw password salt := .ok (salt ++ password)
  checkpw password passwordHash := some (password.toList.isSuffixOf passwordHash.toList)
  sha256 := id

lemma hashesDemoPassword_suffixCrypto : HashesDemoPassword suffixCrypto where
  hashes salt := ⟨_, rfl⟩
  verifies salt passwordHash h := by
    cases h
    simp [suffixCrypto]

end Sast
