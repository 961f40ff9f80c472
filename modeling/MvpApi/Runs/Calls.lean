import MvpApi.Application.Services
import MvpApi.Runs.System

/-!
# Calls and the world they run in

A `Call` is a call of one of the use cases with its arguments. It runs in a `World`: the session
of the database, the services outside, and what it has committed so far. A `Setting` says what
the world may do between the requests of a call and in answer to them: time passes and others
run transactions, requests may fail, and an attempt at a transaction commits, or leaves the rows
as they were.

For each kind of request there is one rule, which says what holds of a call that asks for it.
-/

set_option autoImplicit false

namespace MvpApi

open Program Exec

variable {μ : Type → Type} {X α β : Type}

/-! ### Calls -/

/-- What all the use cases work with. The rounds bound the number of batches of a purge. -/
structure Services (μ : Type → Type) where
  media : MediaStorage μ
  quotas : ProductQuotas
  webBaseUrl : String
  lower : String → String
  rounds : ℕ

namespace Services

variable (services : Services μ)

def products : ProductService μ := ⟨services.media, services.quotas⟩
def workspaces : WorkspaceService μ := ⟨services.media, services.webBaseUrl⟩
def accounts : AccountService μ := ⟨services.media, services.lower⟩

end Services

/-- The calls of the use cases that change something. -/
inductive Call where
  | createWorkspace (name slug userId : String)
  | updateWorkspace (workspaceId name slug userId : String)
  | setLogo (workspaceId : String) (uploadKey : Option String) (userId : String)
  | deleteWorkspace (workspaceId userId : String)
  | saveRole (workspaceId : String) (roleId : Option String) (name userId : String)
  | deleteRole (workspaceId roleId userId : String)
  | setPermissions (workspaceId roleId : String) (permissions : List String) (userId : String)
  | setMemberRole (workspaceId memberId roleId userId : String)
  | removeMember (workspaceId memberId userId : String)
  | transfer (workspaceId targetId userId : String)
  | invite (workspaceId email roleId userId : String)
  | revokeInvitation (workspaceId invitationId userId : String)
  | acceptInvitation (token userId : String)
  | createProduct (workspaceId name : String) (sku : Option String) (price : Price)
      (status : ProductStatus) (description : Option String)
  | updateProduct (workspaceId productId : String) (changes : ProductChanges)
      (ifMatch : Option Time)
  | deleteProduct (workspaceId productId : String)
  | confirmImage (workspaceId productId uploadKey : String)
  | removeImage (workspaceId productId imageId : String)
  | reorderImages (workspaceId productId : String) (imageIds : List String)
  | purge (workspaceId : String)
  | purgeAll
  | register (email password displayName : String) (invitationToken : Option String)
  | ensureAccount (sub accessToken : String)
  | rename (userId displayName : String)
  | setAvatar (userId : String) (uploadKey : Option String)
  | deleteAccount (userId : String)
deriving DecidableEq, Repr

/-- The program of a call, without what it returns. -/
def Call.program (services : Services μ) : Call → Service μ Unit
  | createWorkspace name slug userId => discarded (WorkspaceService.create name slug userId)
  | updateWorkspace workspaceId name slug userId =>
      discarded (WorkspaceService.update workspaceId name slug userId)
  | setLogo workspaceId uploadKey userId =>
      discarded (services.workspaces.setLogo workspaceId uploadKey userId)
  | deleteWorkspace workspaceId userId => WorkspaceService.delete workspaceId userId
  | saveRole workspaceId roleId name userId =>
      discarded (WorkspaceService.saveRole workspaceId roleId name userId)
  | deleteRole workspaceId roleId userId => WorkspaceService.deleteRole workspaceId roleId userId
  | setPermissions workspaceId roleId permissions userId =>
      WorkspaceService.setPermissions workspaceId roleId permissions userId
  | setMemberRole workspaceId memberId roleId userId =>
      WorkspaceService.setMemberRole workspaceId memberId roleId userId
  | removeMember workspaceId memberId userId =>
      WorkspaceService.removeMember workspaceId memberId userId
  | transfer workspaceId targetId userId => WorkspaceService.transfer workspaceId targetId userId
  | invite workspaceId email roleId userId =>
      discarded (services.workspaces.invite workspaceId email roleId userId)
  | revokeInvitation workspaceId invitationId userId =>
      WorkspaceService.revokeInvitation workspaceId invitationId userId
  | acceptInvitation token userId => discarded (WorkspaceService.acceptInvitation token userId)
  | createProduct workspaceId name sku price status description =>
      discarded (services.products.create workspaceId name sku price status description)
  | updateProduct workspaceId productId changes ifMatch =>
      discarded (ProductService.update workspaceId productId changes ifMatch)
  | deleteProduct workspaceId productId => services.products.delete workspaceId productId
  | confirmImage workspaceId productId uploadKey =>
      discarded (services.products.confirmImage workspaceId productId uploadKey)
  | removeImage workspaceId productId imageId =>
      services.products.removeImage workspaceId productId imageId
  | reorderImages workspaceId productId imageIds =>
      discarded (ProductService.reorderImages workspaceId productId imageIds)
  | purge workspaceId => WorkspacePurge.purge services.media services.rounds workspaceId
  | purgeAll => discarded (WorkspacePurge.purgeAll services.media services.rounds)
  | register email password displayName invitationToken =>
      services.accounts.register email password displayName invitationToken
  | ensureAccount sub accessToken => discarded (AccountService.ensureAccount sub accessToken)
  | rename userId displayName => discarded (AccountService.rename userId displayName)
  | setAvatar userId uploadKey => discarded (services.accounts.setAvatar userId uploadKey)
  | deleteAccount userId => services.accounts.delete services.rounds userId
where
  /-- A program without what it returns. -/
  discarded {α : Type} (x : Service μ α) : Service μ Unit := do
    let _ ← x
    return ()

/-! ### The world -/

/-- The world of a call: the session of the database, the services outside, and the rows before
and after each transaction that the call has committed, the latest first. -/
@[ext]
structure World (X : Type) where
  session : Session
  outside : X
  commits : List (Db × Db)

namespace World

/-- The rows as they are committed. -/
def db (w : World X) : Db := w.session.db

/-- The world when the session has moved on. -/
@[simps]
def wait (w : World X) (s : Session) : World X := { w with session := s }

/-- The world after the call has committed a transaction, run from `s` to `s'`. -/
@[simps]
def commit (w : World X) (s s' : Session) : World X :=
  ⟨s'.done, w.outside, (s.db, s'.db) :: w.commits⟩

end World

/-- The requests to the database. -/
def Request.OfDatabase : Request μ β → Prop
  | .read _ => True
  | .attempt _ => True
  | _ => False

/-- The requests that may commit. -/
def Request.Attempts : Request μ β → Prop
  | .attempt _ => True
  | _ => False

/-- The requests to the storage of media. -/
def Request.OfMedia : Request μ β → Prop
  | .media _ => True
  | _ => False

/-- What the world may do while a call runs. -/
structure Setting (μ : Type → Type) (X : Type) where
  env : Env
  /-- The transactions that others run between the requests. -/
  Others : Work → Prop
  /-- The requests that may fail in any way, and change nothing then. -/
  Fails : {β : Type} → Request μ β → Prop
  /-- How the services outside answer. -/
  Outside : {β : Type} → Request μ β → X → Except Failure β → X → Prop
  /-- The steps that are taken. -/
  Allows : {β : Type} → Request μ β → World X → Except Failure β → Prop

namespace Setting

/-- Nobody else runs transactions, no request fails but as the services outside answer it, and
every step is taken. -/
def alone (env : Env)
    (Outside : {β : Type} → Request μ β → X → Except Failure β → X → Prop) : Setting μ X :=
  ⟨env, fun _ => False, fun _ => False, Outside, fun _ _ _ => True⟩

variable (m : Setting μ X)

/-- How a request is answered. Before that, others may run their transactions. -/
inductive Answers : {β : Type} → Request μ β → World X → Except Failure β → World X → Prop
  /-- A query reads the rows as they are committed. -/
  | read {α : Type} {query : Tx α} {w : World X} {s : Session}
      (meanwhile : Reaches m.env m.Others w.session s) :
      Answers (.read query) w (query.run m.env s).1 (w.wait s)
  /-- The body returns and its changes are committed. -/
  | commit {α : Type} {body : Tx α} {w : World X} {s s' : Session} {a : α}
      (meanwhile : Reaches m.env m.Others w.session s) (returns : Returns body m.env s a s')
      (unique : s'.db.Unique) : Answers (.attempt body) w (.ok a) (w.commit s s')
  /-- The body fails. -/
  | raise {α : Type} {body : Tx α} {w : World X} {s s' : Session} {e : Failure}
      (meanwhile : Reaches m.env m.Others w.session s) (raises : Raises body m.env s e s') :
      Answers (.attempt body) w (.error e) (w.wait s)
  /-- The body returns, and the commit breaks a unique constraint. -/
  | violate {α : Type} {body : Tx α} {w : World X} {s s' : Session} {a : α}
      (meanwhile : Reaches m.env m.Others w.session s) (returns : Returns body m.env s a s')
      (violates : ¬ s'.db.Unique) : Answers (.attempt body) w (.error .integrity) (w.wait s)
  | outside {β : Type} {request : Request μ β} {w : World X} {s : Session} {y : Except Failure β}
      {x : X} (meanwhile : Reaches m.env m.Others w.session s) (outside : ¬ request.OfDatabase)
      (answer : m.Outside request w.outside y x) :
      Answers request w y ⟨s, x, w.commits⟩
  | fault {β : Type} {request : Request μ β} {w : World X} {s : Session} {e : Failure}
      (meanwhile : Reaches m.env m.Others w.session s) (fails : m.Fails request) :
      Answers request w (.error e) (w.wait s)

/-- The machine that answers in a setting. -/
def machine : Machine (Request μ) Failure (World X) where
  Answers request w y w' := m.Allows request w y ∧ m.Answers request w y w'

variable {m} {w w' : World X}

/-- What a query is answered with. -/
theorem answers_read {query : Tx α} {y : Except Failure α}
    (h : m.machine.Answers (.read query) w y w') :
  ∃ s, Reaches m.env m.Others w.session s ∧ w' = w.wait s
    ∧ (y = (query.run m.env s).1 ∨ m.Fails (Request.read (μ := μ) query) ∧ ∃ e, y = .error e)
  := by
  obtain ⟨_, h⟩ := h
  cases h with
  | read meanwhile => exact ⟨_, meanwhile, rfl, Or.inl rfl⟩
  | outside _ outside _ => exact absurd trivial outside
  | fault meanwhile fails => exact ⟨_, meanwhile, rfl, Or.inr ⟨fails, _, rfl⟩⟩

/-- Why an attempt at a transaction does not commit. -/
inductive Refused (env : Env) (s : Session) (body : Tx α) (Fault : Prop) : Failure → Prop
  | raise {e : Failure} {s' : Session} (raises : Raises body env s e s') :
      Refused env s body Fault e
  | violate {a : α} {s' : Session} (returns : Returns body env s a s')
      (violates : ¬ s'.db.Unique) : Refused env s body Fault .integrity
  | fault {e : Failure} (fault : Fault) : Refused env s body Fault e

/-- What an attempt at a transaction is answered with: it has committed, or the rows are as they
were. -/
theorem answers_attempt {body : Tx α} {y : Except Failure α}
    (h : m.machine.Answers (.attempt body) w y w') :
  m.Allows (Request.attempt (μ := μ) body) w y
    ∧ ∃ s, Reaches m.env m.Others w.session s
      ∧ ((∃ a s', y = .ok a ∧ Returns body m.env s a s' ∧ s'.db.Unique ∧ w' = w.commit s s')
        ∨ ∃ e, y = .error e ∧ w' = w.wait s
            ∧ Refused m.env s body (m.Fails (Request.attempt (μ := μ) body)) e)
  := by
  obtain ⟨allows, h⟩ := h
  refine ⟨allows, ?_⟩
  cases h with
  | commit meanwhile returns unique =>
      exact ⟨_, meanwhile, Or.inl ⟨_, _, rfl, returns, unique, rfl⟩⟩
  | raise meanwhile raises => exact ⟨_, meanwhile, Or.inr ⟨_, rfl, rfl, .raise raises⟩⟩
  | violate meanwhile returns violates =>
      exact ⟨_, meanwhile, Or.inr ⟨_, rfl, rfl, .violate returns violates⟩⟩
  | outside _ outside _ => exact absurd trivial outside
  | fault meanwhile fails => exact ⟨_, meanwhile, Or.inr ⟨_, rfl, rfl, .fault fails⟩⟩

/-- What another request is answered with: the rows are as others leave them. -/
theorem answers_outside {request : Request μ β} (outside : ¬ request.OfDatabase)
    {y : Except Failure β} (h : m.machine.Answers request w y w') :
  m.Allows request w y
    ∧ ∃ s, Reaches m.env m.Others w.session s
      ∧ ((∃ x, m.Outside request w.outside y x ∧ w' = ⟨s, x, w.commits⟩)
        ∨ m.Fails request ∧ w' = w.wait s ∧ ∃ e, y = .error e)
  := by
  obtain ⟨allows, h⟩ := h
  refine ⟨allows, ?_⟩
  cases h with
  | read => exact absurd trivial outside
  | commit => exact absurd trivial outside
  | raise => exact absurd trivial outside
  | violate => exact absurd trivial outside
  | outside meanwhile _ answer => exact ⟨_, meanwhile, Or.inl ⟨_, answer, rfl⟩⟩
  | fault meanwhile fails => exact ⟨_, meanwhile, Or.inr ⟨fails, rfl, _, rfl⟩⟩

/-! ### A call that runs alone -/

/-- What a transaction ends with: it has committed, or the rows are as others leave them. -/
inductive Transacts (m : Setting μ X) (body : Tx α) (w : World X) :
    Except Failure α → World X → Prop
  | commit {s s' : Session} {a : α} (meanwhile : Reaches m.env m.Others w.session s)
      (returns : Returns body m.env s a s') (unique : s'.db.Unique) :
      Transacts m body w (.ok a) (w.commit s s')
  | fail {s : Session} {e : Failure} (meanwhile : Reaches m.env m.Others w.session s) :
      Transacts m body w (.error e) (w.wait s)

/-- A transaction that others have gone before. -/
theorem Transacts.later {body : Tx α} {s : Session} {y : Except Failure α}
    (h : m.Transacts body (w.wait s) y w') (meanwhile : Reaches m.env m.Others w.session s) :
  m.Transacts body w y w'
  := by
  cases h with
  | commit meanwhile' returns unique => exact .commit (meanwhile.trans meanwhile') returns unique
  | fail meanwhile' => exact .fail (meanwhile.trans meanwhile')

/-- A transaction commits once, in one of its attempts, or not at all. -/
theorem ends_transaction {body : Tx α} {y : Except Failure α}
    (h : Ends m.machine (transaction body : Service μ α) w y w') :
  m.Transacts body w y w'
  := by
  unfold transaction at h
  generalize UnitOfWork.attempts = left at h
  induction left generalizing w with
  | zero =>
      obtain ⟨rfl, rfl⟩ := ends_fail.mp h
      exact .fail .refl
  | succ left ih =>
      unfold UnitOfWork.transactionIn at h
      rw [ends_bind] at h
      simp only [ends_outcome, ends_perform] at h
      obtain ⟨z, w₁, ⟨z', answer, hz⟩, h⟩ | ⟨e, ⟨z', answer, hz⟩, rfl⟩ := h
      · obtain rfl := Except.ok.inj hz
        obtain ⟨_, s, meanwhile, ⟨a, s', rfl, returns, unique, rfl⟩ | ⟨e, rfl, rfl, _⟩⟩ :=
          answers_attempt answer
        · obtain ⟨rfl, rfl⟩ := ends_done.mp h
          exact .commit meanwhile returns unique
        · have other : Ends m.machine (.fail e : Service μ α) (w.wait s) y w' →
              m.Transacts body w y w' := by
            intro h
            obtain ⟨rfl, rfl⟩ := ends_fail.mp h
            exact .fail meanwhile
          cases e with
          | integrity =>
              obtain ⟨rfl, rfl⟩ := ends_fail.mp h
              exact .fail meanwhile
          | database sqlstate cause =>
              dsimp only at h
              split at h
              · exact other h
              · split at h
                · obtain ⟨rfl, rfl⟩ := ends_fail.mp h
                  exact .fail meanwhile
                · exact (ih h).later meanwhile
          | _ => exact other h
      · cases hz

/-- Queries leave the rows as others leave them. -/
theorem ends_read {query : Tx α} {y : Except Failure α}
    (h : Ends m.machine (read query : Service μ α) w y w') :
  ∃ s, Reaches m.env m.Others w.session s ∧ w' = w.wait s
    ∧ (y = (query.run m.env s).1 ∨ m.Fails (Request.read (μ := μ) query) ∧ ∃ e, y = .error e)
  := answers_read (ends_perform.mp h)

/-- A query reads the rows of a session that others have reached. -/
theorem reads {query : Tx α} {s : Session} {y : Except Failure α} (hy : (query.run m.env s).1 = y)
    (allows : m.Allows (Request.read (μ := μ) query) w y)
    (meanwhile : Reaches m.env m.Others w.session s) :
  Ends m.machine (read query : Service μ α) w y (w.wait s)
  := by
  subst hy
  exact ends_perform.mpr ⟨allows, .read meanwhile⟩

/-- A transaction whose body returns commits in its first attempt. -/
theorem commits {body : Tx α} {s s' : Session} {a : α}
    (allows : m.Allows (Request.attempt (μ := μ) body) w (.ok a))
    (meanwhile : Reaches m.env m.Others w.session s) (returns : Returns body m.env s a s')
    (unique : s'.db.Unique) :
  Ends m.machine (transaction body : Service μ α) w (.ok a) (w.commit s s')
  := by
  refine ends_bind.mpr (Or.inl ⟨.ok a, w.commit s s', ends_outcome.mpr ⟨_, ?_, rfl⟩, .done a _⟩)
  exact ends_perform.mpr ⟨allows, .commit meanwhile returns unique⟩

/-- A transaction commits if no attempt at it fails, and its body always returns and leaves the
unique constraints satisfied. -/
theorem ends_transaction_ok {body : Tx α} {y : Except Failure α}
    (h : Ends m.machine (transaction body : Service μ α) w y w')
    (sound : ¬ m.Fails (Request.attempt (μ := μ) body))
    (returns : ∀ s, Reaches m.env m.Others w.session s →
      ∃ a s', Returns body m.env s a s' ∧ s'.db.Unique) :
  ∃ a, y = .ok a
  := by
  unfold transaction UnitOfWork.attempts UnitOfWork.transactionIn at h
  rw [ends_bind] at h
  simp only [ends_outcome, ends_perform] at h
  obtain ⟨z, w₁, ⟨z', answer, hz⟩, h⟩ | ⟨e, ⟨z', answer, hz⟩, rfl⟩ := h
  · obtain rfl := Except.ok.inj hz
    obtain ⟨_, s, meanwhile, ⟨a, s', rfl, _⟩ | ⟨e, rfl, rfl, refused⟩⟩ := answers_attempt answer
    · exact ⟨a, (ends_done.mp h).1⟩
    · obtain ⟨a, s', hreturns, unique⟩ := returns s meanwhile
      cases refused with
      | raise raises => exact absurd raises hreturns.not_raises
      | violate returns' violates =>
          obtain ⟨-, rfl⟩ := hreturns.unique returns'
          exact absurd unique violates
      | fault failed => exact absurd failed sound
  · cases hz

/-- A request other than an attempt leaves the rows as others leave them. -/
theorem answers_quiet {request : Request μ β} (quiet : ¬ request.Attempts) {y : Except Failure β}
    (h : m.machine.Answers request w y w') :
  Reaches m.env m.Others w.session w'.session ∧ w'.commits = w.commits
  := by
  obtain ⟨_, h⟩ := h
  cases h with
  | read meanwhile => exact ⟨meanwhile, rfl⟩
  | commit => exact absurd trivial quiet
  | raise => exact absurd trivial quiet
  | violate => exact absurd trivial quiet
  | outside meanwhile _ _ => exact ⟨meanwhile, rfl⟩
  | fault meanwhile _ => exact ⟨meanwhile, rfl⟩

/-- A program that attempts no transaction leaves the rows as others leave them. -/
theorem ends_quiet {x : Service μ α} (quiet : x.Asks fun request => ¬ request.Attempts)
    {y : Except Failure α} (h : Ends m.machine x w y w') :
  Reaches m.env m.Others w.session w'.session ∧ w'.commits = w.commits
  := by
  induction h with
  | done => exact ⟨.refl, rfl⟩
  | fail => exact ⟨.refl, rfl⟩
  | ask answer _ ih =>
      obtain ⟨reaches, same⟩ := ih (quiet.2 _)
      obtain ⟨meanwhile, same'⟩ := answers_quiet quiet.1 answer
      exact ⟨meanwhile.trans reaches, same.trans same'⟩

/-- What a call has committed stays. -/
theorem ends_commits {x : Service μ α} {y : Except Failure α} (h : Ends m.machine x w y w') :
  ∃ recent, w'.commits = recent ++ w.commits
  := by
  induction h with
  | done => exact ⟨[], rfl⟩
  | fail => exact ⟨[], rfl⟩
  | @ask _ _ _ w w₁ _ _ _ answer _ ih =>
      obtain ⟨recent, hrecent⟩ := ih
      obtain ⟨new, hnew⟩ : ∃ new, w₁.commits = new ++ w.commits := by
        obtain ⟨_, answer⟩ := answer
        cases answer with
        | commit => exact ⟨[_], rfl⟩
        | _ => exact ⟨[], rfl⟩
      exact ⟨recent ++ new, by rw [hrecent, hnew, List.append_assoc]⟩

/-- A call of which the value is dropped. -/
theorem ends_discarded {x : Service μ α} {y : Except Failure Unit} :
  Ends m.machine (Call.program.discarded x) w y w'
    ↔ ∃ z, Ends m.machine x w z w' ∧ y = z.map fun _ => ()
  := by
  unfold Call.program.discarded
  rw [ends_bind]
  constructor
  · rintro (⟨a, w₁, hx, hy⟩ | ⟨e, hx, rfl⟩)
    · obtain ⟨rfl, rfl⟩ := ends_done.mp hy
      exact ⟨_, hx, rfl⟩
    · exact ⟨_, hx, rfl⟩
  · rintro ⟨z, hx, rfl⟩
    cases z with
    | ok a => exact Or.inl ⟨a, w', hx, .done () _⟩
    | error e => exact Or.inr ⟨e, hx, rfl⟩

theorem ends_discarded_error {x : Service μ α} {e : Failure}
    (run : Ends m.machine (Call.program.discarded x) w (.error e) w') :
  Ends m.machine x w (.error e) w'
  := by
  obtain ⟨z, hx, hz⟩ := ends_discarded.mp run
  cases z with
  | ok a => cases hz
  | error e' =>
      obtain rfl := Except.error.inj hz
      exact hx

/-- Reporting a unique violation as a conflict changes only the error. -/
theorem ends_duplicateAs {x : Service μ α} {message : String} {y : Except Failure α}
    (h : Ends m.machine (duplicateAs message x) w y w') :
  ∃ z, Ends m.machine x w z w' ∧ ∀ a, y = .ok a ↔ z = .ok a
  := by
  unfold duplicateAs at h
  rw [ends_bind] at h
  simp only [ends_outcome] at h
  obtain ⟨z, w₁, ⟨_, hx, hz⟩, h⟩ | ⟨e, ⟨_, _, hz⟩, _⟩ := h
  · obtain rfl := Except.ok.inj hz
    cases z with
    | ok a =>
        obtain ⟨rfl, rfl⟩ := ends_done.mp h
        exact ⟨_, hx, fun a => Iff.rfl⟩
    | error e =>
        have failed : ∃ e, y = .error e ∧ w' = w₁ := by
          split at h
          · cases ‹Except.error _ = Except.ok _›
          · exact ⟨_, ends_fail.mp h⟩
          · exact ⟨_, ends_fail.mp h⟩
        obtain ⟨_, rfl, rfl⟩ := failed
        exact ⟨_, hx, by simp⟩
  · cases hz

/-- The worlds that calls reach, one after another. -/
inductive Served (m : Setting μ X) (services : Services μ) (w₀ : World X) : World X → Prop
  | start : Served m services w₀ w₀
  | call {w w' : World X} {call : Call} {y : Except Failure Unit} (run : Served m services w₀ w)
      (ends : Ends m.machine (call.program services) w y w') : Served m services w₀ w'

end Setting

/-! ### What calls ask for -/

section Asks

variable {p : {β : Type} → Request μ β → Prop} {x : Service μ α}

/-- A transaction asks for attempts. -/
theorem asks_transaction {body : Tx α} (h : p (.attempt body)) :
  (transaction body : Service μ α).Asks p
  := by
  unfold transaction
  generalize UnitOfWork.attempts = left
  induction left with
  | zero => trivial
  | succ left ih =>
      unfold UnitOfWork.transactionIn
      refine Asks.bind (.outcome (.perform h)) fun outcome => ?_
      split
      · trivial
      · trivial
      · split
        · trivial
        · split
          · trivial
          · exact ih
      · trivial

theorem asks_duplicateAs {message : String} (h : x.Asks p) :
  (duplicateAs message x).Asks p
  := by
  refine Asks.bind h.outcome fun outcome => ?_
  split
  · trivial
  · trivial
  · trivial

theorem asks_discarded (h : x.Asks p) :
  (Call.program.discarded x).Asks p
  := h.bind fun _ => trivial

end Asks

/-! ### Storages of media -/

/-- A storage that asks for nothing but media. -/
structure MediaStorage.Proper (media : MediaStorage μ) : Prop where
  pendingSize : ∀ uploadKey, (media.pendingSize uploadKey).Asks Request.OfMedia
  storeImage : ∀ uploadKey, (media.storeImage uploadKey).Asks Request.OfMedia
  storeSquare : ∀ uploadKey, (media.storeSquare uploadKey).Asks Request.OfMedia
  delete : ∀ key, (media.delete key).Asks Request.OfMedia

theorem MediaStorage.port_proper (urlFor : String → String) :
  (MediaStorage.port urlFor).Proper
  where
  pendingSize _ := .perform trivial
  storeImage _ := .perform trivial
  storeSquare _ := .perform trivial
  delete _ := .perform trivial

/-- Asking for media attempts no transaction. -/
theorem Request.OfMedia.quiet {request : Request μ β} (h : request.OfMedia) :
  ¬ request.Attempts
  := by
  cases request with
  | attempt body => exact h.elim
  | _ => exact not_false

namespace MediaStorage

variable {media : MediaStorage μ}

theorem Proper.storeSome (proper : media.Proper) (uploadKey : Option String) :
  (media.storeSome uploadKey).Asks Request.OfMedia
  := by
  unfold MediaStorage.storeSome
  split
  · exact (proper.storeSquare _).bind fun _ => trivial
  · trivial

/-- Deleting the file of a key. -/
theorem deleteSome_some {key : String} (h : key ≠ "") :
  media.deleteSome (some key) = media.delete key
  := by
  rw [MediaStorage.deleteSome, Option.filter_some, if_pos (decide_eq_true h)]

/-- Deleting files asks for nothing but media. -/
theorem Proper.deleteAll (proper : media.Proper) (keys : List String) :
  (media.deleteAll keys).Asks Request.OfMedia
  := by
  induction keys with
  | nil => trivial
  | cons key keys ih => exact (proper.delete key).bind fun _ => ih

theorem Proper.deleteSome (proper : media.Proper) (key : Option String) :
  (media.deleteSome key).Asks Request.OfMedia
  := by
  unfold MediaStorage.deleteSome
  split
  · exact proper.delete _
  · trivial

end MediaStorage

/-- A storage and limits to try a purge with. -/
def portServices : Services MediaRequest := ⟨.port id, ⟨1, 100⟩, "https://app.test", id, 2⟩

/-! ### Purges -/

/-- The requests of a purge: its transactions delete a batch, or remove the workspace. -/
def Request.RunsPurge (workspaceId : String) : Request μ β → Prop
  | .attempt body => Tx.run' body = (Work.deleteBatch workspaceId).body
      ∨ Tx.run' body = (Work.purgeRows workspaceId).body
  | _ => True

/-- Asking for media is asking for no transaction. -/
theorem Request.OfMedia.runsPurge {request : Request μ β} {workspaceId : String}
    (h : request.OfMedia) :
  request.RunsPurge workspaceId
  := by
  cases request with
  | attempt body => exact h.elim
  | _ => trivial

/-- All transactions of a purge are such. -/
theorem asks_runsPurge {media : MediaStorage μ} (proper : media.Proper) (rounds : ℕ)
    (workspaceId : String) :
  (WorkspacePurge.purge media rounds workspaceId).Asks (Request.RunsPurge workspaceId)
  := by
  refine Asks.bind ?_ fun _ => (asks_transaction (Or.inr rfl)).bind fun key =>
    (proper.deleteSome key).mono Request.OfMedia.runsPurge
  induction rounds with
  | zero => trivial
  | succ rounds ih =>
      refine (asks_transaction (Or.inl rfl)).bind fun result => Asks.bind ?_ fun _ => ?_
      · exact (proper.deleteAll _).mono Request.OfMedia.runsPurge
      · split
        · trivial
        · exact ih

/-- A purge of several workspaces asks for what the purges of each ask for. -/
theorem asks_purgeEach {media : MediaStorage μ} {rounds : ℕ} {workspaceIds : List String}
    {p : {β : Type} → Request μ β → Prop}
    (each : ∀ workspaceId ∈ workspaceIds, (WorkspacePurge.purge media rounds workspaceId).Asks p) :
  (WorkspacePurge.purgeEach media rounds workspaceIds).Asks p
  := by
  induction workspaceIds with
  | nil => trivial
  | cons workspaceId workspaceIds ih =>
      obtain ⟨first, others⟩ := List.forall_mem_cons.mp each
      exact first.bind fun _ => ih others

end MvpApi
