import MvpApi.Runs.System

/-!
# Accounts along a run

An account is opened by registration, or by the first request of someone who has signed in
elsewhere. It keeps its email, in lower case, as long as it exists.
-/

set_option autoImplicit false

namespace MvpApi

/-- The transaction opens an account with an email. -/
inductive Work.Opens (sub email : String) : Work → Prop
  | register (displayName : String) (invitationToken : Option String) :
      Opens sub email (.register sub email displayName invitationToken)
  | ensureAccount : Opens sub email (.ensureAccount sub email)

/-- The account is there with the same email. -/
def Db.HasAccount (db : Db) (user' : User) : Prop :=
  ∃ user ∈ db.users, user.id = user'.id ∧ user.email = user'.email

/-- The account is not there, and the transaction opens it. -/
def Work.NewAccount (env : Env) (db : Db) (work : Work) (user' : User) : Prop :=
  db.users.get user'.id = none ∧ ∃ email, work.Opens user'.id email ∧ user'.email = env.lower email

variable {env : Env} {s s' : Session} {work : Work}

/-- Writing an account with the email it had. -/
theorem hasAccount_put {db : Db} {user user' : User} (hu : user ∈ db.users) (id : user'.id = user.id)
    (email : user'.email = user.email) :
  ∀ other ∈ db.users.put user', db.HasAccount other
  := by
  intro other hother
  rcases Table.mem_put.mp hother with rfl | ⟨hother, _⟩
  · exact ⟨user, hu, id.symm, email.symm⟩
  · exact ⟨other, hother, rfl, rfl⟩

/-- Sending accounts back to the workspace step. -/
theorem hasAccount_returned {db db' : Db} (users : db'.users = db.users) {userIds : List String} :
  ∀ other ∈ (db'.returned userIds).users, db.HasAccount other
  := by
  intro other hother
  have hmap : other ∈ db'.users.map _ fun user => user.returned_id db'.belongsToAny userIds :=
    hother
  obtain ⟨user, hu, rfl⟩ := Table.mem_map.mp hmap
  rw [users] at hu
  refine ⟨user, hu, (user.returned_id _ _).symm, ?_⟩
  unfold User.returned
  split
  · rfl
  · rfl

/-- Adding an account that is not there. -/
theorem account_addUnlessTaken {db : Db} {sub email displayName : String} {now : Time}
    (opens : work.Opens sub email) :
  ∀ other ∈ (db.addUnlessTaken (.new env.lower sub email displayName now)).users,
    db.HasAccount other ∨ work.NewAccount env db other
  := by
  intro other hother
  obtain ⟨users', hdb, husers⟩ := db.addUnlessTaken_eq (.new env.lower sub email displayName now)
  rw [hdb] at hother
  rcases husers with rfl | ⟨hfree, _, rfl⟩
  · exact Or.inl ⟨other, hother, rfl, rfl⟩
  · rcases Table.mem_put.mp hother with rfl | ⟨hother, _⟩
    · exact Or.inr ⟨hfree, email, opens, rfl⟩
    · exact Or.inl ⟨other, hother, rfl, rfl⟩

theorem Joins.accounts {token userId : String} (h : Joins env token userId s s') :
  ∀ other ∈ s'.db.users, s.db.HasAccount other
  := by
  obtain ⟨user, _, _, _, _, _, _, account, _, _, _, _, _, _, _, _, _, _, _, _, db⟩ := h
  obtain ⟨hu, _⟩ := Table.get_eq_some_iff.mp account
  rw [db]
  exact hasAccount_put hu rfl rfl

/-- Every account after a transaction was there with the same email, or was opened by it. -/
theorem Effect.accounts (h : Effect env s s' work) :
  ∀ user ∈ s'.db.users, s.db.HasAccount user ∨ work.NewAccount env s.db user
  := by
  have kept : (∀ user ∈ s'.db.users, s.db.HasAccount user) →
      ∀ user ∈ s'.db.users, s.db.HasAccount user ∨ work.NewAccount env s.db user :=
    fun h user hu => Or.inl (h user hu)
  have same : s'.db.users = s.db.users →
      ∀ user ∈ s'.db.users, s.db.HasAccount user ∨ work.NewAccount env s.db user := by
    intro husers user hu
    exact Or.inl ⟨user, husers ▸ hu, rfl, rfl⟩
  cases h with
  | create user _ _ _ _ _ _ _ account _ _ _ _ _ _ _ _ _ _ _ db _ =>
      obtain ⟨hu, _⟩ := Table.get_eq_some_iff.mp account
      exact kept (by rw [db]; exact hasAccount_put hu rfl rfl)
  | update _ _ _ _ db => exact same (by rw [db])
  | replaceLogo _ _ _ _ db => exact same (by rw [db])
  | delete _ _ _ _ _ _ _ _ db =>
      exact kept (by rw [db]; exact hasAccount_returned rfl)
  | addRole _ _ _ _ _ _ _ db => exact same (by rw [db])
  | renameRole _ _ _ _ _ _ _ _ _ db => exact same (by rw [db])
  | deleteRole _ _ _ _ _ _ _ _ _ _ _ db => exact same (by rw [db])
  | setPermissions _ _ _ _ _ _ _ _ _ db => exact same (by rw [db])
  | setMemberRole _ _ _ _ _ _ _ _ _ _ _ db => exact same (by rw [db])
  | removeMember _ _ _ _ _ _ _ db =>
      exact kept (by rw [db]; exact hasAccount_returned rfl)
  | transfer _ _ _ _ _ _ _ _ _ _ _ _ _ _ db _ => exact same (by rw [db])
  | issue _ _ _ _ _ _ _ _ _ _ _ _ _ _ _ _ _ _ _ _ _ _ db => exact same (by rw [db])
  | revoke _ _ _ _ _ _ _ _ _ db => exact same (by rw [db])
  | accept joins => exact kept joins.accounts
  | @register sub email displayName token now _ db =>
      rw [db]
      exact account_addUnlessTaken (.register displayName token)
  | @registerAndJoin sub email displayName token now s₁ db _ _ joins =>
      intro user hu
      obtain ⟨old, hold, hid, hemail⟩ := joins.accounts user hu
      rw [db] at hold
      have hopened : s.db.HasAccount old
          ∨ (Work.register sub email displayName (some token)).NewAccount env s.db old :=
        account_addUnlessTaken (.register displayName (some token)) old hold
      rw [Db.HasAccount, Work.NewAccount, hid, hemail] at hopened
      exact hopened
  | @ensureAccount sub email now _ db =>
      rw [db]
      exact account_addUnlessTaken .ensureAccount
  | rename user _ account _ db =>
      obtain ⟨hu, _⟩ := Table.get_eq_some_iff.mp account
      exact kept (by rw [db]; exact hasAccount_put hu rfl rfl)
  | replaceAvatar user account _ db =>
      obtain ⟨hu, _⟩ := Table.get_eq_some_iff.mp account
      exact kept (by rw [db]; exact hasAccount_put hu rfl rfl)
  | deleteAccount _ _ _ _ _ db =>
      rw [db]
      exact fun user hu => Or.inl ⟨user, (Table.mem_erase.mp hu).1, rfl, rfl⟩
  | deleteBatch _ db => exact same (by rw [db]; rfl)
  | purgeNothing _ same' => exact same (by rw [same'])
  | purgeRows _ _ _ _ db => exact same (by rw [db]; rfl)
  | createProduct _ _ _ _ db => exact same (by rw [db])
  | updateProduct _ _ _ _ _ _ db => exact same (by rw [db])
  | deleteProduct _ _ _ _ db => exact same (by rw [db])
  | attachImage _ _ _ _ _ _ _ _ db => exact same (by rw [db])
  | removeImage _ _ _ _ _ _ db => exact same (by rw [db])
  | reorderImages _ _ _ _ _ _ db => exact same (by rw [db])

/-- Accounts that were there with a lower-case email have one, and so do new ones. -/
theorem lower_email_of_account (lawful : env.Lawful) {db : Db}
    (lower : ∀ user ∈ db.users, env.lower user.email = user.email) {user : User}
    (h : db.HasAccount user ∨ work.NewAccount env db user) :
  env.lower user.email = user.email
  := by
  rcases h with ⟨old, hold, _, hemail⟩ | ⟨_, email, _, hemail⟩
  · rw [← hemail]
    exact lower old hold
  · rw [hemail]
    exact lawful.lower_lower email

/-- In every reachable session the emails are in lower case. -/
theorem Reachable.lower_email {ok : Work → Prop} (lawful : env.Lawful) (h : Reachable env ok s) :
  ∀ user ∈ s.db.users, env.lower user.email = user.email
  := by
  refine h.invariant (P := fun db => ∀ user ∈ db.users, env.lower user.email = user.email)
    (by simp [Db.empty]) fun _ lower _ effect _ user hu => ?_
  exact lower_email_of_account lawful lower (effect.accounts user hu)

end MvpApi
