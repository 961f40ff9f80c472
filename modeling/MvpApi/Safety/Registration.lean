import MvpApi.Presentation.Schemas
import MvpApi.Runs.Calls

/-!
# Registration

A registration creates an account in the user pool and its row, and joins a workspace with an
invitation if it can. Joining is atomic: it fails before it changes anything, so a registration
that goes on without it commits the account alone.

The answer to a registration is meant to be the same whether or not the address has an account
already. It is so exactly if the pool accepts the password, because the pool judges the password
of new addresses only.
-/

set_option autoImplicit false

namespace MvpApi

open Exec Tx Program

variable {env : Env} {s s' : Session}

/-! ### Joining is atomic -/

/-- From `db` to `db'` an account has joined a workspace with an invitation. One member was
added, one invitation was pending and is accepted, and of the account at most the onboarding
status has changed. -/
def Db.Joined (db db' : Db) (userId : String) : Prop :=
  ∃ user ∈ db.users, ∃ invitation ∈ db.invitations, ∃ joinedAt status,
    user.id = userId ∧ invitation.status = .pending
      ∧ db.member invitation.workspaceId userId = none
      ∧ db' = { db with
          users := db.users.put { user with onboardingStatus := status }
          members := db.members.put
            ⟨invitation.workspaceId, userId, invitation.roleId, joinedAt⟩
          invitations := db.invitations.put
            { invitation with status := .accepted, acceptedBy := some userId } }

theorem Joins.joined {token userId : String} (h : Joins env token userId s s') :
  s.db.Joined s'.db userId
  := by
  obtain ⟨user, invitation, _, _, _, joinedAt, _, account, stored, _, _, _, usable, _, _, _, _, _,
    outside, _, db⟩ := h
  obtain ⟨hmem, hid⟩ := Table.get_eq_some_iff.mp account
  exact ⟨user, hmem, invitation, stored, joinedAt, _, hid, usable.1, outside, db⟩

/-- A registration commits the account alone, or the account that has joined a workspace. -/
theorem register_returns {sub email displayName : String} {token : Option String} {u : Unit}
    (h : Returns (AccountTx.register sub email displayName token) env s u s') :
  ∃ now, s'.db = s.db.addUnlessTaken (.new env.lower sub email displayName now)
    ∨ (s.db.addUnlessTaken (.new env.lower sub email displayName now)).Joined s'.db sub
  := by
  obtain ⟨effect, _⟩ := AccountTx.register_effect h
  cases effect with
  | register now _ db => exact ⟨now, Or.inl db⟩
  | registerAndJoin now s₁ db _ _ joins => exact ⟨now, Or.inr (db ▸ joins.joined)⟩

/-- Whatever the world does meanwhile, a registration commits nothing, the account alone, or the
account that has joined a workspace. -/
theorem AccountService.register_commits {μ : Type → Type} {X : Type} {m : Setting μ X}
    {service : AccountService μ} {email password displayName : String} {token : Option String}
    {w w' : World X} {y : Except Failure Unit}
    (run : Ends m.machine (service.register email password displayName token) w y w') :
  w'.commits = w.commits
    ∨ ∃ before after sub now, w'.commits = (before, after) :: w.commits
      ∧ (after = before.addUnlessTaken
          (.new m.env.lower sub (service.lower email) displayName now)
        ∨ (before.addUnlessTaken
          (.new m.env.lower sub (service.lower email) displayName now)).Joined after sub)
  := by
  unfold register at run
  rw [ends_bind] at run
  simp only [ends_outcome, ends_perform] at run
  obtain ⟨z, w₁, ⟨z', answer, hz⟩, run⟩ | ⟨_, ⟨_, _, hz⟩, _⟩ := run
  · obtain rfl := Except.ok.inj hz
    have hcommits : w₁.commits = w.commits := by
      obtain ⟨_, s, _, ⟨x, _, rfl⟩ | ⟨_, rfl, _⟩⟩ := Setting.answers_outside id answer
      · rfl
      · rfl
    cases z with
    | ok sub =>
        cases Setting.ends_transaction run with
        | fail meanwhile => exact Or.inl hcommits
        | @commit before after _ meanwhile returns unique =>
            obtain ⟨now, h⟩ := register_returns returns
            exact Or.inr ⟨before.db, after.db, sub, now, by rw [← hcommits]; rfl, h⟩
    | error e =>
        refine Or.inl ?_
        rw [← hcommits]
        cases e with
        | emailTaken => rw [(ends_done.mp run).2]
        | passwordRejected message => rw [(ends_fail.mp run).2]
        | _ => rw [(ends_fail.mp run).2]
  · cases hz

/-- Joining with an invitation changes nothing if it fails with an error of the domain, however
the clock goes on while it runs. If it returns, the account has joined. So whatever the world
does meanwhile, a registration commits nothing, the account alone, or the account that has
joined a workspace. -/
theorem join_atomic {token userId : String} :
  (∀ error, Raises (joinWithInvitation token userId) env s (.domain error) s' → s'.db = s.db)
    ∧ (∀ view, Returns (joinWithInvitation token userId) env s view s' →
        s.db.Joined s'.db userId)
    ∧ ∀ {μ : Type → Type} {X : Type} {m : Setting μ X} {service : AccountService μ}
        {email password displayName : String} {invitationToken : Option String} {w w' : World X}
        {y : Except Failure Unit},
        Ends m.machine (service.register email password displayName invitationToken) w y w' →
        w'.commits = w.commits
          ∨ ∃ before after sub now, w'.commits = (before, after) :: w.commits
            ∧ (after = before.addUnlessTaken
                (.new m.env.lower sub (service.lower email) displayName now)
              ∨ (before.addUnlessTaken
                (.new m.env.lower sub (service.lower email) displayName now)).Joined after sub)
  := by
  refine ⟨fun error h => ?_, fun view h => (joinWithInvitation_effect h).1.joined,
    AccountService.register_commits⟩
  rcases joinWithInvitation_raises h with ⟨_, hdb, _⟩ | ⟨hdup, _⟩
  · exact hdb
  · cases hdup

/-- An invitation that is accepted, and fails to be accepted when it expires between the two
readings of the clock. -/
theorem join_atomic_of_expiry :
  ∃ (env : Env) (s s₁ s' : Session) (error : DomainError) (view : WorkspaceView),
    Returns (joinWithInvitation "t" "bob") .sample s view s₁ ∧ s.db.Joined s₁.db "bob"
      ∧ Raises (joinWithInvitation "t" "bob") env s (.domain error) s' ∧ s'.ticks = s.ticks + 2
      ∧ s'.db = s.db
  := by
  -- The clock jumps a week ahead after the first check of the invitation.
  obtain ⟨env, s, hok, herror, hticks⟩ : ∃ (env : Env) (s : Session),
      ((joinWithInvitation "t" "bob").run .sample s).1.toOption.isSome = true
        ∧ ((joinWithInvitation "t" "bob").run env s).1
          = .error (.domain (.gone invitationUnusable))
        ∧ ((joinWithInvitation "t" "bob").run env s).2.ticks = s.ticks + 2 :=
    ⟨{ Env.sample with clock := fun i => if i ≤ 6 then (i : ℤ) else (i : ℤ) + invitationLifetime },
      .after .sample [.register "ada" "ada@acme.test" "Ada" none, .create "Acme" "acme" "ada",
        .issue "i" "Bob@acme.test" "iiii" "ada", .register "bob" "bob@acme.test" "Bob" none],
      by decide +kernel, by decide +kernel, by decide +kernel⟩
  obtain ⟨view, hview⟩ : ∃ view, ((joinWithInvitation "t" "bob").run .sample s).1 = .ok view := by
    cases h : ((joinWithInvitation "t" "bob").run .sample s).1 with
    | ok view => exact ⟨view, rfl⟩
    | error e =>
        rw [h] at hok
        cases hok
  have joins : Returns (joinWithInvitation "t" "bob") .sample s view
      ((joinWithInvitation "t" "bob").run .sample s).2 :=
    .of_run hview
  have expires : Raises (joinWithInvitation "t" "bob") env s (.domain (.gone invitationUnusable))
      ((joinWithInvitation "t" "bob").run env s).2 := Prod.ext herror rfl
  exact ⟨env, s, _, _, _, view, joins, join_atomic.2.1 view joins, expires, hticks,
    join_atomic.1 _ expires⟩

/-! ### The answer to a registration -/

/-- The subjects of the accounts of a user pool, by their addresses. -/
abbrev Pool := String → Option String

/-- How a user pool answers, with a policy that says what is wrong with a password. A taken
address is reported before the password is judged. -/
inductive Pool.Answers {μ : Type → Type} (policy : String → Option String) :
    {β : Type} → Request μ β → Pool → Except Failure β → Pool → Prop
  | taken {email password sub : String} {pool : Pool} (taken : pool email = some sub) :
      Answers policy (.createAccount email password) pool (.error .emailTaken) pool
  | rejected {email password message : String} {pool : Pool} (free : pool email = none)
      (rejected : policy password = some message) :
      Answers policy (.createAccount email password) pool (.error (.passwordRejected message)) pool
  | created {email password sub : String} {pool : Pool} (free : pool email = none)
      (accepted : policy password = none) :
      Answers policy (.createAccount email password) pool (.ok sub)
        (Function.update pool email (some sub))

/-- The setting of registrations: the pool answers by its policy, and the transactions commit. -/
def registering {μ : Type → Type} (env : Env) (policy : String → Option String) : Setting μ Pool :=
  .alone env (Pool.Answers policy)

/-- In the world `w` the call is answered with `y`, and never otherwise. -/
def Setting.Gives {μ : Type → Type} {X α : Type} (m : Setting μ X) (x : Service μ α) (w : World X)
    (y : Except Failure α) : Prop :=
  (∃ w', Ends m.machine x w y w') ∧ ∀ z w', Ends m.machine x w z w' → z = y

theorem Setting.Gives.unique {μ : Type → Type} {X α : Type} {m : Setting μ X} {x : Service μ α}
    {w : World X} {y z : Except Failure α} (h : m.Gives x w y) (h' : m.Gives x w z) :
  y = z
  := by
  obtain ⟨w', run⟩ := h.1
  exact h'.2 y w' run

/-- The worlds `w` and `w'` differ only in whether an address has an account: it has one in `w`,
in the pool and possibly in the tables, and none in `w'`. -/
structure DifferIn (email : String) (w w' : World Pool) : Prop where
  taken : (w.outside email).isSome
  free : w'.outside email = none
  pool : ∀ other, other ≠ email → w.outside other = w'.outside other
  unregistered : ∀ user ∈ w'.db.users, user.email ≠ email
  users : ∀ user, user.email ≠ email → (user ∈ w.db.users ↔ user ∈ w'.db.users)
  tables : w.db = { w'.db with users := w.db.users }

/-- The unique constraints hold after an account is added. -/
theorem Db.Unique.addUnlessTaken {db : Db} (h : db.Unique) (user : User) :
  (db.addUnlessTaken user).Unique
  := by
  obtain ⟨users, hdb, rfl | ⟨_, hfree, rfl⟩⟩ := db.addUnlessTaken_eq user
  · rw [hdb]
    exact h
  · rw [hdb]
    refine { h with email := fun row hrow row' hrow' hemail => ?_ }
    rcases Table.mem_put.mp hrow with rfl | ⟨hold, _⟩
    · rcases Table.mem_put.mp hrow' with rfl | ⟨hold', _⟩
      · rfl
      · exact absurd hemail.symm (hfree row' hold')
    · rcases Table.mem_put.mp hrow' with rfl | ⟨hold', _⟩
      · exact absurd hemail (hfree row hold)
      · exact h.email row hold row' hold' hemail

/-- The transaction of a registration always returns: what may fail is to join, which it
ignores. -/
theorem register_always (unique : s.db.Unique) {sub email displayName : String}
    {token : Option String} :
  ∃ s', Returns (AccountTx.register sub email displayName token) env s () s' ∧ s'.db.Unique
  := by
  cases h : (AccountTx.register sub email displayName token).run env s with
  | mk y s' =>
      cases y with
      | ok u =>
          have hreturns : Returns (AccountTx.register sub email displayName token) env s () s' := h
          refine ⟨s', hreturns, ?_⟩
          obtain ⟨effect, _⟩ := AccountTx.register_effect hreturns
          cases effect with
          | register now _ db => exact db ▸ unique.addUnlessTaken _
          | registerAndJoin now s₁ db _ _ joins =>
              exact joins.unique (db ▸ unique.addUnlessTaken _)
      | error e =>
          have hraises : Raises (AccountTx.register sub email displayName token) env s e s' := h
          exfalso
          unfold AccountTx.register Users.addUnlessTaken at hraises
          simp only [raises_bind, not_raises_platform, not_raises_now, not_raises_write,
            raises_flush, returns_platform, returns_now, returns_write, returns_flush,
            false_or] at hraises
          obtain ⟨_, _, ⟨rfl, rfl⟩, _, _, ⟨rfl, rfl⟩, _, _, rfl, h⟩ := hraises
          have hadded := unique.addUnlessTaken (.new env.lower sub email displayName
            (env.clock s.ticks))
          rcases h with ⟨hviolates, _⟩ | ⟨_, _, ⟨_, rfl⟩, h⟩
          · exact hviolates hadded
          · split at h
            · simp at h
            · unfold swallowDomainErrors at h
              rcases raises_handle.mp h with ⟨h, hnone⟩ | ⟨e', s₁, x, _, hsome, h⟩
              · simp only [raises_bind, not_raises_pure, and_false, exists_false, or_false] at h
                rcases joinWithInvitation_raises h with ⟨⟨error, rfl⟩, _⟩ | ⟨_, hviolates⟩
                · cases hnone
                · exact hviolates hadded
              · cases e' with
                | domain error =>
                    obtain rfl := Option.some.inj hsome
                    simp at h
                | _ => cases hsome

section Answers

variable {μ : Type → Type} {policy : String → Option String} {service : AccountService μ}
  {email password displayName : String} {token : Option String} {w : World Pool}

/-- What a registration does once the pool has answered. -/
def AccountService.registered (service : AccountService μ) (email displayName : String)
    (token : Option String) : Except Failure String → Service μ Unit
  | .error .emailTaken => return ()
  | .error (.passwordRejected message) => .fail (.domain (.invalid message))
  | .error e => .fail e
  | .ok sub => transaction (AccountTx.register sub (service.lower email) displayName token)

/-- A registration asks the pool, and goes on from the answer. -/
theorem ends_register {y : Except Failure Unit} {w' : World Pool} :
  Ends (registering env policy).machine
      (service.register email password displayName token) w y w'
    ↔ ∃ z s pool, Reaches env (fun _ => False) w.session s
      ∧ Pool.Answers policy (Request.createAccount (μ := μ) (service.lower email) password)
          w.outside z pool
      ∧ Ends (registering env policy).machine
          (service.registered email displayName token z) ⟨s, pool, w.commits⟩ y w'
  := by
  have split : service.register email password displayName token
      = (perform (.createAccount (service.lower email) password)).outcome
        >>= service.registered email displayName token := rfl
  rw [split, ends_bind]
  simp only [ends_outcome, ends_perform]
  constructor
  · rintro (⟨z, w₁, ⟨z', answer, hz⟩, run⟩ | ⟨_, ⟨_, _, hz⟩, _⟩)
    · obtain rfl := Except.ok.inj hz
      obtain ⟨_, s, meanwhile, ⟨pool, hpool, rfl⟩ | ⟨hfails, _⟩⟩ :=
        Setting.answers_outside id answer
      · exact ⟨z, s, pool, meanwhile, hpool, run⟩
      · exact hfails.elim
    · cases hz
  · rintro ⟨z, s, pool, meanwhile, hpool, run⟩
    exact Or.inl ⟨z, _, ⟨z, ⟨trivial, .outside meanwhile id hpool⟩, rfl⟩, run⟩

/-- A registration of a taken address is answered as if it had succeeded. -/
theorem register_taken (taken : (w.outside (service.lower email)).isSome) :
  (registering env policy).Gives (service.register email password displayName token) w (.ok ())
  := by
  obtain ⟨sub, hsub⟩ := Option.isSome_iff_exists.mp taken
  constructor
  · exact ⟨_, ends_register.mpr ⟨_, _, _, .refl, .taken hsub, .done () _⟩⟩
  · intro z w' run
    obtain ⟨_, s, pool, _, answer, run⟩ := ends_register.mp run
    cases answer with
    | taken => exact (ends_done.mp run).1
    | rejected free => rw [hsub] at free; cases free
    | created free => rw [hsub] at free; cases free

/-- A registration of a new address with a password that the pool rejects is refused. -/
theorem register_rejected {message : String} (free : w.outside (service.lower email) = none)
    (rejected : policy password = some message) :
  (registering env policy).Gives (service.register email password displayName token) w
    (.error (.domain (.invalid message)))
  := by
  constructor
  · exact ⟨_, ends_register.mpr ⟨_, _, _, .refl, .rejected free rejected, .fail _ _⟩⟩
  · intro z w' run
    obtain ⟨_, s, pool, _, answer, run⟩ := ends_register.mp run
    cases answer with
    | taken taken => rw [free] at taken; cases taken
    | rejected _ rejected' =>
        obtain rfl := Option.some.inj (rejected.symm.trans rejected')
        exact (ends_fail.mp run).1
    | created _ accepted => rw [rejected] at accepted; cases accepted

/-- A registration of a new address with a password that the pool accepts succeeds, whatever
becomes of the invitation. -/
theorem register_created (free : w.outside (service.lower email) = none)
    (accepted : policy password = none) (unique : w.db.Unique) :
  (registering env policy).Gives (service.register email password displayName token) w (.ok ())
  := by
  constructor
  · obtain ⟨s', returns, unique'⟩ :=
      @register_always env w.session unique "" (service.lower email) displayName token
    exact ⟨_, ends_register.mpr ⟨_, _, _, .refl, .created free accepted,
      Setting.commits trivial .refl returns unique'⟩⟩
  · intro z w' run
    obtain ⟨_, s, pool, meanwhile, answer, run⟩ := ends_register.mp run
    have idle : s.db = w.db := meanwhile.idle fun _ => id
    cases answer with
    | taken taken => rw [free] at taken; cases taken
    | rejected _ rejected => rw [accepted] at rejected; cases rejected
    | created _ _ =>
        obtain ⟨u, hu⟩ := Setting.ends_transaction_ok run id fun s₁ meanwhile₁ => by
          have idle₁ : s₁.db = s.db := meanwhile₁.idle fun _ => id
          obtain ⟨s', returns, unique'⟩ := register_always (idle₁.trans idle ▸ unique)
          exact ⟨(), s', returns, unique'⟩
        exact hu

/-- Between two worlds that differ only in whether the address has an account, a registration is
answered alike exactly if the pool accepts the password. -/
theorem registration_answer {w' : World Pool} (differ : DifferIn (service.lower email) w w')
    (unique : w'.db.Unique) :
  (∃ y, (registering env policy).Gives (service.register email password displayName token) w y
      ∧ (registering env policy).Gives (service.register email password displayName token) w' y)
    ↔ policy password = none
  := by
  have answer : (registering env policy).Gives
      (service.register email password displayName token) w (.ok ()) := register_taken differ.taken
  cases accepted : policy password with
  | none =>
      exact ⟨fun _ => rfl, fun _ => ⟨_, answer, register_created differ.free accepted unique⟩⟩
  | some message =>
      have answer' : (registering env policy).Gives
          (service.register email password displayName token) w'
          (.error (.domain (.invalid message))) := register_rejected differ.free accepted
      constructor
      · rintro ⟨y, h, h'⟩
        cases (answer.unique h).trans (h'.unique answer')
      · intro h
        cases h

end Answers

/-! ### Two worlds -/

/-- A pool that asks for passwords with a digit. -/
def withDigit (password : String) : Option String :=
  if password.toList.any Char.isDigit then none
  else some "Password did not conform with policy: Password must have numeric characters"

/-- The account of Ada, at the address `ada@acme.test`. -/
def User.ada : User := .new Env.sample.lower "ada" "ada@acme.test" "Ada" 0

/-- Nobody has an account. -/
def World.vacant : World Pool := ⟨.start, fun _ => none, []⟩

/-- Ada has an account. -/
def World.withAda : World Pool where
  session := { Session.start with db := Db.empty.addUnlessTaken .ada }
  outside := Function.update (fun _ => none) "ada@acme.test" (some "ada")
  commits := []

/-- The worlds with and without the account of Ada differ only in that. -/
theorem World.differIn :
  DifferIn "ada@acme.test" .withAda .vacant
  where
  taken := by simp [withAda]
  free := rfl
  pool other hother := by simp [withAda, vacant, hother]
  unregistered user hu := absurd hu (Table.not_mem_empty user)
  users user huser := by
    obtain ⟨users, hdb, husers⟩ := Db.empty.addUnlessTaken_eq .ada
    have hnone : user ∉ Db.empty.users := Table.not_mem_empty user
    show user ∈ (Db.empty.addUnlessTaken .ada).users ↔ user ∈ Db.empty.users
    rw [hdb]
    rcases husers with rfl | ⟨_, _, rfl⟩
    · rfl
    · refine iff_of_false (fun hmem => ?_) hnone
      rcases Table.mem_put.mp hmem with rfl | ⟨hmem, _⟩
      · exact huser (by decide +kernel)
      · exact hnone hmem
  tables := by
    obtain ⟨users, hdb, _⟩ := Db.empty.addUnlessTaken_eq .ada
    show Db.empty.addUnlessTaken .ada
      = { Db.empty with users := (Db.empty.addUnlessTaken .ada).users }
    rw [hdb]

/-- The password `long enough` has no digit. The request that sends it is valid, but of a pool
that asks for one it shows whether Ada has an account: the registration of her address succeeds
if she has one, and is refused if she has none. -/
theorem registration_reveals :
  ∃ (policy : String → Option String) (service : AccountService MediaRequest)
    (body : RegisterInput) (w w' : World Pool),
    body.validate some service.lower = some body ∧ body.password = "long enough"
      ∧ DifferIn (service.lower body.email) w w' ∧ w.db.Unique ∧ w'.db.Unique
      ∧ (registering .sample policy).Gives
          (service.register body.email body.password body.displayName body.invitationToken)
          w (.ok ())
      ∧ (registering .sample policy).Gives
          (service.register body.email body.password body.displayName body.invitationToken)
          w' (.error (.domain (.invalid
            "Password did not conform with policy: Password must have numeric characters")))
  :=
  ⟨withDigit, ⟨.port id, id⟩, ⟨"ada@acme.test", "long enough", "Eve", none⟩, .withAda, .vacant,
    by decide +kernel, rfl, World.differIn, Db.empty_unique.addUnlessTaken .ada, Db.empty_unique,
    register_taken World.differIn.taken,
    register_rejected World.differIn.free (by decide +kernel)⟩

/-- With the password `long enough 1` it succeeds in both cases. -/
theorem registration_answer_of_digit :
  ∃ y, (registering .sample withDigit).Gives (AccountService.register
      (⟨.port id, id⟩ : AccountService MediaRequest) "ada@acme.test" "long enough 1" "Eve" none)
        .withAda y
    ∧ (registering .sample withDigit).Gives (AccountService.register
      (⟨.port id, id⟩ : AccountService MediaRequest) "ada@acme.test" "long enough 1" "Eve" none)
        .vacant y
  := (registration_answer World.differIn (show World.vacant.db.Unique from Db.empty_unique)).mpr
    (by decide +kernel)

end MvpApi
