import MvpApi.Runs.Threads
import MvpApi.Safety.Registration

/-!
# Addresses of deleted accounts

A deleted account is meant to free its address. Its row goes first, and its account in the user
pool last. In between, a request that is made with one of its tokens finds no row, asks the pool
for the address, and creates the row again; then the address is held by an account that nobody
can sign in to.

If no row of the account is created after the deletion of its row is committed, the address is
free when the deletion has returned, however it overlaps with the requests of the account.
-/

set_option autoImplicit false

namespace MvpApi

open Program Exec

variable {μ : Type → Type} {X : Type}

/-! ### What is kept -/

/-- A transaction has committed that removes the account. -/
def World.Removed (w : World X) (userId : String) : Prop :=
  ∃ c ∈ w.commits, (c.1.users.get userId).isSome ∧ c.2.users.get userId = none

/-- The account has the address while it is there, and when it has been removed neither the
account nor its address is there. -/
structure World.Frees (w : World X) (userId email : String) : Prop where
  unique : w.db.Unique
  address : ∀ user ∈ w.db.users, user.id = userId → user.email = email
  free : w.Removed userId → ∀ user ∈ w.db.users, user.id ≠ userId ∧ user.email ≠ email

/-- What a deletion and requests that run at once rely on, and guarantee. -/
structure Vacates (userId email : String) (w w' : World X) : Prop where
  removed : w.Removed userId → w'.Removed userId
  frees : w.Frees userId email → w'.Frees userId email

/-- No row of the account is created after its row has been removed. -/
def Setting.OpensInTime (m : Setting μ X) (userId : String) : Prop :=
  ∀ {α : Type} {body : Tx α} {w : World X} {a : α},
    m.Allows (Request.attempt (μ := μ) body) w (.ok a) →
      ∀ email, Tx.run' body = (Work.ensureAccount userId email).body → ¬ w.Removed userId

section Vacates

variable {w : World X} {userId email : String} {s s' : Session}

theorem vacates_common (userId email : String) : Setting.Common (Vacates (X := X) userId email)
  where
  refl w := ⟨id, id⟩
  trans h h' := ⟨h'.removed ∘ h.removed, h'.frees ∘ h.frees⟩
  idle {w w'} same commits := by
    have removed : w'.Removed userId ↔ w.Removed userId := by rw [World.Removed, commits]; rfl
    refine ⟨removed.mpr, fun h => ⟨same ▸ h.unique, same ▸ h.address, fun hremoved => ?_⟩⟩
    rw [same]
    exact h.free (removed.mp hremoved)

/-- An account has been removed if it had been before, or by the latest transaction. -/
theorem World.removed_commit :
  (w.commit s s').Removed userId
    ↔ ((s.db.users.get userId).isSome ∧ s'.db.users.get userId = none) ∨ w.Removed userId
  := by
  rw [Removed, World.commit_commits, List.exists_mem_cons_iff]
  rfl

/-- A transaction that leaves the accounts as they are. -/
theorem Vacates.same (same : s.db = w.db) (users : s'.db.users = s.db.users)
    (unique : s'.db.Unique) :
  Vacates userId email w (w.commit s s')
  := by
  refine ⟨fun h => World.removed_commit.mpr (Or.inr h), fun h => ⟨unique, ?_, fun hremoved => ?_⟩⟩
  · show ∀ user ∈ s'.db.users, _
    rw [users, same]
    exact h.address
  · show ∀ user ∈ s'.db.users, _
    rw [users, same]
    rcases World.removed_commit.mp hremoved with ⟨hsome, hnone⟩ | hremoved
    · rw [← users, hnone] at hsome
      cases hsome
    · exact h.free hremoved

/-- A transaction that creates the row of the account in time, if it is not there. -/
theorem Vacates.opened {env : Env} {address displayName : String} {now : Time}
    (intime : ¬ w.Removed userId) (same : s.db = w.db) (own : env.lower address = email)
    (db : s'.db = s.db.addUnlessTaken (.new env.lower userId address displayName now))
    (unique : s'.db.Unique) :
  Vacates userId email w (w.commit s s')
  := by
  obtain ⟨users, hdb, husers⟩ :=
    s.db.addUnlessTaken_eq (.new env.lower userId address displayName now)
  have husers' : s'.db.users = users := by rw [db, hdb]
  have kept : ¬ ((s.db.users.get userId).isSome ∧ s'.db.users.get userId = none) := by
    rintro ⟨hsome, hnone⟩
    rw [husers'] at hnone
    rcases husers with rfl | ⟨hfree, _⟩
    · rw [hnone] at hsome
      cases hsome
    · rw [show s.db.users.get userId = none from hfree] at hsome
      cases hsome
  refine ⟨fun h => absurd h intime, fun h =>
    ⟨unique, fun user huser hid => ?_, fun hremoved => ?_⟩⟩
  · have huser : user ∈ s'.db.users := huser
    rw [husers'] at huser
    rcases husers with rfl | ⟨_, _, rfl⟩
    · exact h.address user (same ▸ huser) hid
    · rcases Table.mem_put.mp huser with rfl | ⟨huser, _⟩
      · exact own
      · exact h.address user (same ▸ huser) hid
  · rcases World.removed_commit.mp hremoved with hkept | hremoved
    · exact absurd hkept kept
    · exact absurd hremoved intime

/-- The transaction that removes the account. -/
theorem Vacates.erased {user : User} (same : s.db = w.db)
    (account : s.db.users.get userId = some user)
    (users : s'.db.users = s.db.users.erase userId) (unique : s'.db.Unique) :
  Vacates userId email w (w.commit s s') ∧ (w.commit s s').Removed userId
  := by
  have gone : (w.commit s s').Removed userId := by
    refine World.removed_commit.mpr (Or.inl ⟨by rw [account]; rfl, ?_⟩)
    rw [users, Table.get_erase, if_pos rfl]
  obtain ⟨hmem, hid⟩ := Table.get_eq_some_iff.mp account
  refine ⟨⟨fun _ => gone, fun h => ?_⟩, gone⟩
  have left : ∀ other ∈ (w.commit s s').db.users, other ∈ w.db.users ∧ other.id ≠ userId := by
    intro other hother
    have hother : other ∈ s'.db.users := hother
    rw [users, same] at hother
    exact Table.mem_erase.mp hother
  refine ⟨unique, fun other hother => h.address other (left other hother).1,
    fun _ other hother => ?_⟩
  obtain ⟨hother, hne⟩ := left other hother
  refine ⟨hne, fun hemail => hne ?_⟩
  rw [same] at hmem
  rw [h.unique.email other hother user hmem (hemail.trans (h.address user hmem hid).symm)]
  exact hid

end Vacates

/-! ### Requests and deletions -/

/-- The calls that run at once: one deletes the account, and the others are requests of it. -/
def closing {ι : Type} (userId : String) (tokens : ι → String) : Option ι → Call
  | none => .deleteAccount userId
  | some i => .ensureAccount userId (tokens i)

section Runs

variable {m : Setting μ X} {services : Services μ} {w : World X} {userId email : String}

/-- A request of the account that the pool has answered creates the row of the account. -/
theorem holds_open (closed : m.Closed) (guarded : m.OpensInTime userId) {sub address : String}
    (own : sub = userId → m.env.lower address = email) :
  (do
    ofExcept (if sub = userId then .ok ()
      else .error (.accountLookup "The user pool answered for a different subject"))
    transaction (AccountTx.ensureAccount userId address)
    match ← read (Users.get userId) with
    | some _ => return address
    | none => .fail (.domain (.conflict emailHeldByAnotherAccount)) : Service μ String).Holds
      m.machine (Vacates userId email) (Vacates userId email) (fun _ _ => True) w
  := by
  have common := vacates_common (X := X) userId email
  refine Holds.bind common.toStable (Holds.ofExcept fun w₁ _ => ?_)
  by_cases heq : sub = userId
  · rw [if_pos heq]
    refine Holds.bind common.toStable (closed.holds_transaction common ?_ fun _ _ _ => trivial)
    intro w₂ s s' u _ same allows returns unique
    have intime := guarded allows address bind_pure_unit
    cases (AccountTx.ensureAccount_effect returns).1 with
    | ensureAccount now _ db =>
        refine ⟨.opened intime same (own heq) db unique, fun w₃ _ => ?_⟩
        refine closed.holds_quiet common (Asks.bind (Asks.perform id) fun found => ?_)
          fun _ _ _ => trivial
        cases found with
        | some user => trivial
        | none => trivial
  · rw [if_neg heq]
    trivial

/-- A request of the account creates its row, with the address that the pool answers. -/
theorem holds_ensureAccount (closed : m.Closed) (guarded : m.OpensInTime userId)
    (own : ∀ {token address : String} {x x' : X},
      m.Outside (Request.emailOf (μ := μ) token) x (.ok (userId, address)) x' →
        m.env.lower address = email) (token : String) :
  ((Call.ensureAccount userId token).program services).Holds m.machine (Vacates userId email)
    (Vacates userId email) (fun _ _ => True) w
  := by
  have common := vacates_common (X := X) userId email
  have asks : (AccountService.ensureAccount userId token : Service μ String).Holds m.machine
      (Vacates userId email) (Vacates userId email) (fun _ _ => True) w := by
    unfold AccountService.ensureAccount
    refine Holds.bind common.toStable (closed.holds_read common ?_ fun _ _ _ => trivial)
    intro w₁ s _ _ w₂ _
    cases ((Users.get userId).run m.env s).1 with
    | error e => trivial
    | ok found =>
        cases found with
        | some user => exact fun _ _ => trivial
        | none =>
            refine Holds.bind common.toStable (Holds.perform fun w₃ _ y w₄ answer => ?_)
            obtain ⟨same, commits⟩ := closed.quiet id answer
            refine ⟨common.idle same commits, fun w₅ _ => ?_⟩
            cases y with
            | error e => trivial
            | ok answered =>
                obtain ⟨sub, address⟩ := answered
                obtain ⟨_, _, _, ⟨x, outside, _⟩ | ⟨_, _, _, he⟩⟩ :=
                  Setting.answers_outside id answer
                · exact holds_open closed guarded fun heq => own (heq ▸ outside)
                · cases he
  exact Holds.bind common.toStable (asks.mono fun y w' _ => by
    cases y with
    | ok found => exact fun _ _ => trivial
    | error e => trivial)

/-- A purge leaves the accounts as they are. -/
theorem vacates_purge (closed : m.Closed) {β : Type} {request : Request μ β} {workspaceId : String}
    (runs : request.RunsPurge workspaceId) {y : Except Failure β} {w' : World X}
    (answer : m.machine.Answers request w y w') :
  Vacates userId email w w'
  := by
  have common := vacates_common (X := X) userId email
  by_cases attempts : request.Attempts
  · cases request with
    | attempt body =>
        obtain ⟨_, s, meanwhile, ⟨a, s', rfl, returns, unique, rfl⟩ | ⟨_, _, rfl, _⟩⟩ :=
          Setting.answers_attempt answer
        · have returns' : Returns (Tx.run' body) m.env s () s' := Tx.returns_run'.mpr ⟨a, returns⟩
          refine .same (meanwhile.idle closed) ?_ unique
          rcases runs with hbody | hbody
          · rw [hbody] at returns'
            cases (Work.effect returns').1 with
            | deleteBatch _ db => rw [db]; rfl
          · rw [hbody] at returns'
            cases (Work.effect returns').1 with
            | purgeNothing _ same => rw [same]
            | purgeRows _ _ _ _ db => rw [db]; rfl
        · exact common.idle (meanwhile.idle closed) rfl
    | _ => exact attempts.elim
  · obtain ⟨same, commits⟩ := closed.quiet attempts answer
    exact common.idle same commits

/-- When the transaction of a deletion has committed, the account has been removed, and the rest of
the deletion leaves the rows as they are. -/
theorem holds_removal (closed : m.Closed) (proper : services.media.Proper) :
  (do
    let user ← transaction (AccountTx.delete userId)
    services.accounts.media.deleteSome user.avatarKey
    let _ ← (perform (.deleteAccount user.id)).outcome
    return () : Service μ Unit).Holds m.machine (Vacates userId email) (Vacates userId email)
      (fun y w' => y = .ok () → w'.Removed userId) w
  := by
  have common := vacates_common (X := X) userId email
  refine Holds.bind common.toStable (closed.holds_transaction common ?_ ?_)
  · intro w₁ s s' user _ same _ returns unique
    cases (AccountTx.delete_effect returns).1 with
    | deleteAccount user' _ account _ _ db =>
        obtain ⟨vacates, gone⟩ : Vacates userId email w₁ (w₁.commit s s')
            ∧ (w₁.commit s s').Removed userId :=
          Vacates.erased same account (by rw [db]) unique
        refine ⟨vacates, fun w₂ later => ?_⟩
        refine closed.holds_quiet common (Asks.bind ?_ fun _ => ?_)
          fun _ w₃ later' _ => later'.removed (later.removed gone)
        · exact (proper.deleteSome _).mono Request.OfMedia.quiet
        · exact (Asks.outcome (Asks.perform id)).bind fun _ => trivial
  · intro e w' _ h
    cases h

/-- A deletion that returns has removed the account. -/
theorem holds_deleteAccount (closed : m.Closed) (proper : services.media.Proper) :
  ((Call.deleteAccount userId).program services).Holds m.machine (Vacates userId email)
    (Vacates userId email) (fun y w' => y = .ok () → w'.Removed userId) w
  := by
  have common := vacates_common (X := X) userId email
  have fails : ∀ e (w' : World X), (.error e : Except Failure Unit) = .ok () →
      w'.Removed userId := fun e w' h => by cases h
  show (services.accounts.delete services.rounds userId).Holds _ _ _ _ _
  unfold AccountService.delete
  refine Holds.bind common.toStable (closed.holds_read common ?_ fun e w' _ => fails e w')
  intro _ s _ _ w₁ _
  cases ((AccountTx.ensureDeletable userId).run m.env s).1 with
  | error e => exact fails e w₁
  | ok u =>
      refine Holds.bind common.toStable (closed.holds_read common ?_ fun e w' _ => fails e w')
      intro _ s _ _ w₂ _
      cases ((Workspaces.deletedIds (some userId)).run m.env s).1 with
      | error e => exact fails e w₂
      | ok workspaceIds =>
          have asks : (WorkspacePurge.purgeEach services.media services.rounds workspaceIds).Asks
              fun request => ∃ workspaceId, request.RunsPurge workspaceId :=
            asks_purgeEach fun workspaceId _ =>
              (asks_runsPurge proper services.rounds workspaceId).mono fun runs =>
                ⟨workspaceId, runs⟩
          refine Holds.bind common.toStable (Holds.of_asks common.toStable
            asks (fun _ _ h => h)
            (fun ⟨_, runs⟩ _ answer => vacates_purge closed runs answer) fun y w₃ _ => ?_)
          cases y with
          | error e => exact fails e w₃
          | ok u => exact holds_removal closed proper

/-- An account is added if neither its id nor its email is taken. -/
theorem Db.addUnlessTaken_of_free {db : Db} {user : User} (absent : db.users.get user.id = none)
    (free : ∀ other ∈ db.users, other.email ≠ user.email) :
  db.addUnlessTaken user = { db with users := db.users.put user }
  := by
  have untaken : ((db.users.get user.id).isSome || db.users.any (·.email = user.email)) = false := by
    rw [absent, Option.isSome_none, Bool.false_or, Table.any_eq_false]
    exact fun other hother => decide_eq_false (free other hother)
  rw [Db.addUnlessTaken, if_neg (ne_true_of_eq_false untaken)]

/-- A registration with an address that is free adds the row of its subject. -/
theorem register_adds {env : Env} {s : Session} (unique : s.db.Unique)
    {sub address displayName : String} {token : Option String}
    (absent : s.db.users.get sub = none)
    (free : ∀ user ∈ s.db.users, user.email ≠ env.lower address) :
  ∃ s', Returns (AccountTx.register sub address displayName token) env s () s'
    ∧ s'.db.Unique ∧ (s'.db.users.get sub).isSome
  := by
  obtain ⟨s', returns, unique'⟩ : ∃ s', Returns (AccountTx.register sub address displayName token)
      env s () s' ∧ s'.db.Unique := register_always unique
  refine ⟨s', returns, unique', ?_⟩
  have added : ∀ now, ((s.db.addUnlessTaken
      (.new env.lower sub address displayName now)).users.get sub).isSome := by
    intro now
    rw [Db.addUnlessTaken_of_free absent free]
    exact Option.isSome_iff_exists.mpr ⟨_, Table.get_put_self _ _⟩
  obtain ⟨now, hdb | hjoined⟩ := register_returns returns
  · rw [hdb]
    exact added now
  · obtain ⟨user, _, _, _, _, _, _, _, _, hdb⟩ := hjoined
    rw [hdb]
    exact Table.isSome_get_put _ (added now)

/-- A deleted account frees its address, if no row of the account is created after its row has been
removed: when the deletion has returned, neither the account nor its address is there, and a
registration of the address gets a row. -/
theorem address_freed (closed : m.Closed) (guarded : m.OpensInTime userId)
    (proper : services.media.Proper) {address : String}
    (own : ∀ {token answered : String} {x x' : X},
      m.Outside (Request.emailOf (μ := μ) token) x (.ok (userId, answered)) x' →
        answered = address)
    {ok : Work → Prop} {w₀ : World X} (reachable : Reachable m.env ok w₀.session)
    (fresh : w₀.commits = [])
    (held : ∀ user ∈ w₀.db.users, user.id = userId → user.email = m.env.lower address)
    {ι : Type} [DecidableEq ι] (tokens : ι → String) {x : Option ι → Service μ Unit}
    (run : Interleaved (fun _ => m.machine)
      (fun i => (closing userId tokens i).program services) w₀ x w)
    (ended : x none = .done ()) :
  (∀ user ∈ w.db.users, user.id ≠ userId ∧ user.email ≠ m.env.lower address)
    ∧ ∀ sub email displayName token, w.db.users.get sub = none →
        m.env.lower email = m.env.lower address →
        ∃ s', Returns (AccountTx.register sub email displayName token) m.env w.session () s'
          ∧ s'.db.Unique ∧ (s'.db.users.get sub).isSome
  := by
  have common := vacates_common (X := X) userId (m.env.lower address)
  have start : w₀.Frees userId (m.env.lower address) := by
    refine ⟨reachable.unique, held, ?_⟩
    rintro ⟨c, hc, _⟩
    rw [fresh] at hc
    cases hc
  have calls : ∀ i, ((closing userId tokens i).program services).Holds m.machine
      (Vacates userId (m.env.lower address)) (Vacates userId (m.env.lower address))
      (fun y w' => i = none → y = .ok () → w'.Removed userId) w₀ := by
    intro i
    cases i with
    | none => exact (holds_deleteAccount closed proper).mono fun _ _ h _ => h
    | some i =>
        refine (holds_ensureAccount closed guarded (fun answer => ?_) (tokens i)).mono
          fun _ _ _ h => by cases h
        rw [own answer]
  obtain ⟨holds, frees⟩ := run.holds (fun _ => common.toStable) (fun _ _ _ _ _ h => h) calls start
    fun _ _ _ vacates h => vacates.frees h
  have deleted := holds none
  rw [ended] at deleted
  have free := frees.free (deleted w (common.refl w) rfl rfl)
  refine ⟨free, fun sub email displayName token absent same => ?_⟩
  refine register_adds frees.unique absent fun user huser => ?_
  rw [same]
  exact (free user huser).2

end Runs

/-! ### A request before the deletion -/

/-- Whose the tokens are, and the addresses of the accounts of a user pool. -/
structure Directory where
  holder : String → String
  address : String → String

/-- How a user pool answers in which some subjects have an account: it knows the address of the
holder of a token as long as the holder has one. -/
def Directory.Answers (directory : Directory) {β : Type} (request : Request MediaRequest β)
    (accounts : List String) (y : Except Failure β) (accounts' : List String) : Prop :=
  match β, request, y with
  | _, .emailOf token, .ok (sub, email) =>
      sub = directory.holder token ∧ email = directory.address sub ∧ sub ∈ accounts
        ∧ accounts' = accounts
  | _, .emailOf token, .error (.accountLookup _) =>
      directory.holder token ∉ accounts ∧ accounts' = accounts
  | _, .deleteAccount sub, .ok _ => accounts' = accounts.filter (· ≠ sub)
  | _, .media (.delete _), .ok _ => accounts' = accounts
  | _, _, _ => False

/-- A deletion and requests run at once, and nobody else does. -/
def vacating (env : Env) (directory : Directory) : Setting MediaRequest (List String) :=
  .alone env directory.Answers

/-- The same, if no row of the account is created after its row has been removed. -/
def vacatingInTime (env : Env) (directory : Directory) (userId : String) :
    Setting MediaRequest (List String) :=
  { vacating env directory with
    Allows := fun request w y => match request, y with
      | .attempt body, .ok _ =>
          ∀ email, Tx.run' body = (Work.ensureAccount userId email).body → ¬ w.Removed userId
      | _, _ => True }

/-- The user pool in which every token is the subject of its holder, all of whom have the address
of Ada. -/
def adaDirectory : Directory := ⟨id, fun _ => "ada@acme.test"⟩

/-- Ada's row is created at her first request, and she deletes her account after that. -/
theorem exists_vacating :
  ∃ (s s₁ s₂ : Session) (user : User),
    Reachable .sample (fun _ => True) s ∧ s.db.users.get "ada" = none
    ∧ ((Users.get "ada").run .sample s).1 = .ok none
    ∧ Returns (AccountTx.ensureAccount "ada" "ada@acme.test") .sample s () s₁ ∧ s₁.db.Unique
    ∧ ((AccountTx.ensureDeletable "ada").run .sample s₁.done).1 = .ok ()
    ∧ ((Workspaces.deletedIds (some "ada")).run .sample s₁.done).1 = .ok []
    ∧ (s₁.db.users.get "ada").isSome
    ∧ Returns (AccountTx.delete "ada") .sample s₁.done user s₂ ∧ s₂.db.Unique
    ∧ s₂.db.users.get "ada" = none ∧ user.id = "ada" ∧ user.avatarKey = none
  := by
  let s : Session := .after .sample []
  let s₁ := ((AccountTx.ensureAccount "ada" "ada@acme.test").run .sample s).2
  obtain ⟨user, deleted, huser⟩ := Except.map_eq_ok.mp (show
    (fun user : User => (user.id, user.avatarKey)) <$>
      ((AccountTx.delete "ada").run .sample s₁.done).1 = .ok ("ada", none) by decide +kernel)
  refine ⟨s, s₁, ((AccountTx.delete "ada").run .sample s₁.done).2, user, .after (by simp), ?_, ?_,
    .of_run ?_, ?_, ?_, ?_, ?_, .of_run deleted, ?_, ?_, congrArg Prod.fst huser,
    congrArg Prod.snd huser⟩
  all_goals decide +kernel

/-- A request of Ada creates her row before she deletes her account. -/
theorem address_freed_of_vacating :
  ∃ (s : Session) (x : Option Unit → Service MediaRequest Unit) (w : World (List String)),
    Interleaved (fun _ => (vacatingInTime .sample adaDirectory "ada").machine)
        (fun i => (closing "ada" (fun _ => "ada") i).program portServices) ⟨s, ["ada"], []⟩ x w
    ∧ x none = .done () ∧ w.Removed "ada"
    ∧ (∀ user ∈ w.db.users, user.id ≠ "ada" ∧ user.email ≠ Env.sample.lower "ada@acme.test")
    ∧ ∀ sub email displayName token, w.db.users.get sub = none →
        Env.sample.lower email = Env.sample.lower "ada@acme.test" →
        ∃ s', Returns (AccountTx.register sub email displayName token) .sample w.session () s'
          ∧ s'.db.Unique ∧ (s'.db.users.get sub).isSome
  := by
  obtain ⟨s, s₁, s₂, user, reachable, absent, missed, opened, unique₁, deletable, listed, present,
    deleted, unique₂, gone, hid, havatar⟩ := exists_vacating
  cases user
  obtain rfl : _ = "ada" := hid
  obtain rfl : _ = none := havatar
  let m := vacatingInTime .sample adaDirectory "ada"
  let w : World (List String) := ⟨s, ["ada"], []⟩
  let w₁ := w.commit s s₁
  let w₂ := w₁.commit s₁.done s₂
  have start : ¬ w.Removed "ada" := by
    rintro ⟨c, hc, _⟩
    cases hc
  have still : ¬ w₁.Removed "ada" := by
    rw [World.removed_commit, absent]
    rintro (⟨hsome, _⟩ | hremoved)
    · cases hsome
    · exact start hremoved
  have told : m.machine.Answers (.emailOf "ada") w (.ok ("ada", "ada@acme.test")) w :=
    Setting.answers_of_outside id ⟨rfl, rfl, List.mem_cons_self, rfl⟩ trivial
  let calls : Option Unit → Service MediaRequest Unit := fun i =>
    (closing "ada" (fun _ => "ada") i).program portServices
  have missing : Interleaved (fun _ => m.machine) calls w _ w :=
    .step (i := some ()) .start rfl (Setting.answers_of_run missed trivial)
  have asked : Interleaved (fun _ => m.machine) calls w _ w :=
    .step (i := some ()) missing rfl told
  have created : Interleaved (fun _ => m.machine) calls w _ w₁ :=
    .step (i := some ()) asked rfl (Setting.answers_of_returns opened unique₁ fun _ _ => start)
  have checked : Interleaved (fun _ => m.machine) calls w _ w₁ :=
    .step (i := none) created rfl (Setting.answers_of_run deletable trivial)
  have found : Interleaved (fun _ => m.machine) calls w _ w₁ :=
    .step (i := none) checked rfl (Setting.answers_of_run listed trivial)
  have removed : Interleaved (fun _ => m.machine) calls w _ w₂ :=
    .step (i := none) found rfl (Setting.answers_of_returns deleted unique₂ fun _ _ => still)
  let w₃ : World (List String) := ⟨w₂.session, [], w₂.commits⟩
  have last : Interleaved (fun _ => m.machine) calls w _ w₃ :=
    .step (i := none) removed rfl (Setting.answers_of_outside (y := .ok ()) id rfl trivial)
  have held : ∀ user ∈ w.db.users, user.id = "ada" →
      user.email = Env.sample.lower "ada@acme.test" := by
    intro user huser hid
    have hsome := Table.mem_def.mp huser
    rw [show _ = "ada" from hid, show w.db.users.get "ada" = none from absent] at hsome
    cases hsome
  have begun : Reachable m.env (fun _ => True) w.session := reachable
  have own : ∀ {token answered : String} {accounts accounts' : List String},
      m.Outside (.emailOf token) accounts (.ok ("ada", answered)) accounts' →
        answered = "ada@acme.test" :=
    fun told => told.2.1
  exact ⟨s, _, w₃, last, rfl, ⟨_, List.mem_cons_self, present, gone⟩,
    address_freed (fun _ h => h) (fun allows => allows) (MediaStorage.port_proper _) own begun
      rfl held (fun _ => "ada") last rfl⟩

/-! ### A request during the deletion -/

/-- The row of Ada's account is removed and created again, and then nobody else can have a row with
her address. -/
theorem exists_revived :
  ∃ (s s₁ s₂ s₃ : Session) (user user' : User),
    Reachable .sample (fun _ => True) s
    ∧ (∀ row ∈ s.db.users, row.email = Env.sample.lower "ada@acme.test")
    ∧ ((AccountTx.ensureDeletable "ada").run .sample s).1 = .ok ()
    ∧ ((Workspaces.deletedIds (some "ada")).run .sample s).1 = .ok []
    ∧ Returns (AccountTx.delete "ada") .sample s user s₁ ∧ s₁.db.Unique
    ∧ user.id = "ada" ∧ user.avatarKey = none
    ∧ ((Users.get "ada").run .sample s₁.done).1 = .ok none
    ∧ Returns (AccountTx.ensureAccount "ada" "ada@acme.test") .sample s₁.done () s₂ ∧ s₂.db.Unique
    ∧ ((Users.get "ada").run .sample s₂.done).1 = .ok (some user')
    ∧ (s₂.db.users.get "ada").isSome
    ∧ Returns (AccountTx.register "eve" "ada@acme.test" "Ada" none) .sample s₂.done () s₃
    ∧ s₃.db.users.get "eve" = none
  := by
  let s : Session := .after .sample [.register "ada" "ada@acme.test" "Ada" none]
  let s₁ := ((AccountTx.delete "ada").run .sample s).2
  let s₂ := ((AccountTx.ensureAccount "ada" "ada@acme.test").run .sample s₁.done).2
  let register := AccountTx.register "eve" "ada@acme.test" "Ada" none
  obtain ⟨user, deleted, huser⟩ := Except.map_eq_ok.mp (show
    (fun user : User => (user.id, user.avatarKey)) <$>
      ((AccountTx.delete "ada").run .sample s).1 = .ok ("ada", none) by decide +kernel)
  obtain ⟨found, hfound, hsome⟩ := Except.map_eq_ok.mp (show
    Option.isSome <$> ((Users.get "ada").run .sample s₂.done).1 = .ok true by decide +kernel)
  obtain ⟨user', rfl⟩ := Option.isSome_iff_exists.mp hsome
  refine ⟨s, s₁, s₂, (register.run .sample s₂.done).2, user, user', .after (by simp), ?_, ?_, ?_,
    .of_run deleted, ?_, congrArg Prod.fst huser, congrArg Prod.snd huser, ?_, .of_run ?_, ?_,
    hfound, ?_, .of_run ?_, ?_⟩
  all_goals decide +kernel

/-- A request finds that Ada has no row any more, and asks the pool for her address before her
account is deleted there. When both have ended the row is there, and the address has no account in
the pool: a new account with it gets no row. -/
theorem account_revived :
  ∃ (s s' : Session) (x : Option Unit → Service MediaRequest Unit) (w : World (List String)),
    Reachable .sample (fun _ => True) s
    ∧ (∀ row ∈ s.db.users, row.email = Env.sample.lower "ada@acme.test")
    ∧ Interleaved (fun _ => (vacating .sample adaDirectory).machine)
        (fun i => (closing "ada" (fun _ => "ada") i).program portServices) ⟨s, ["ada"], []⟩ x w
    ∧ x none = .done () ∧ x (some ()) = .done () ∧ w.outside = []
    ∧ (w.db.users.get "ada").isSome
    ∧ Returns (AccountTx.register "eve" "ada@acme.test" "Ada" none) .sample w.session () s'
    ∧ s'.db.users.get "eve" = none
  := by
  obtain ⟨s, s₁, s₂, s₃, user, user', reachable, held, deletable, listed, deleted, unique₁, hid,
    havatar, missed, opened, unique₂, found, present, registered, absent⟩ := exists_revived
  cases user
  obtain rfl : _ = "ada" := hid
  obtain rfl : _ = none := havatar
  let m := vacating .sample adaDirectory
  let w : World (List String) := ⟨s, ["ada"], []⟩
  let w₁ := w.commit s s₁
  let w₂ : World (List String) := ⟨w₁.session, [], w₁.commits⟩
  let w₃ := w₂.commit s₁.done s₂
  let calls : Option Unit → Service MediaRequest Unit := fun i =>
    (closing "ada" (fun _ => "ada") i).program portServices
  have told : m.machine.Answers (.emailOf "ada") w₁ (.ok ("ada", "ada@acme.test")) w₁ :=
    Setting.answers_of_outside id ⟨rfl, rfl, List.mem_cons_self, rfl⟩ trivial
  have checked : Interleaved (fun _ => m.machine) calls w _ w :=
    .step (i := none) .start rfl (Setting.answers_of_run deletable trivial)
  have purged : Interleaved (fun _ => m.machine) calls w _ w :=
    .step (i := none) checked rfl (Setting.answers_of_run listed trivial)
  have removed : Interleaved (fun _ => m.machine) calls w _ w₁ :=
    .step (i := none) purged rfl (Setting.answers_of_returns deleted unique₁ trivial)
  have missing : Interleaved (fun _ => m.machine) calls w _ w₁ :=
    .step (i := some ()) removed rfl (Setting.answers_of_run missed trivial)
  have asked : Interleaved (fun _ => m.machine) calls w _ w₁ :=
    .step (i := some ()) missing rfl told
  have ended : Interleaved (fun _ => m.machine) calls w _ w₂ :=
    .step (i := none) asked rfl (Setting.answers_of_outside (y := .ok ()) id rfl trivial)
  have revived : Interleaved (fun _ => m.machine) calls w _ w₃ :=
    .step (i := some ()) ended rfl (Setting.answers_of_returns opened unique₂ trivial)
  have last : Interleaved (fun _ => m.machine) calls w _ w₃ :=
    .step (i := some ()) revived rfl (Setting.answers_of_run found trivial)
  exact ⟨s, s₃, _, w₃, reachable, held, last, rfl, rfl, rfl, present, registered, absent⟩

end MvpApi
