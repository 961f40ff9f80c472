import MvpApi.Runs.Requests

/-!
# Who is admitted

A request passes the checks of its route in turn, and what it asks for in between is answered
while others run their transactions. Here it is shown of the whole request what the checks promise:
a request that succeeds has sent a token that speaks for an account, and at the moment at which its
route has done what it does, the rows permitted that to the account. A route on products asks the
rows once, when the account is let into the workspace.
-/

set_option autoImplicit false

namespace MvpApi

open Exec Program Tx

variable {X α β : Type}

/-! ### Requests that have come by the network -/

/-- A request that has come by the network is served by its route. -/
theorem serve_origin {api : Api} {incoming : Incoming}
    (origin : ∀ secret, api.settings.originGuard = some secret →
      incoming.path ∈ unguardedPaths ∨ incoming.origin = secret) (route : Route) :
  route.serve api incoming = Route.handled (route.program api incoming)
  := by
  unfold Route.serve Route.verifyOrigin
  split
  · rfl
  · next secret guard =>
      refine if_neg fun refused => ?_
      obtain unguarded | same := origin secret guard
      · exact refused.1 unguarded
      · exact refused.2 same

/-- A request that has not come by the network is refused. -/
theorem serve_forbidden {api : Api} {incoming : Incoming}
    (outside : ¬ ∀ secret, api.settings.originGuard = some secret →
      incoming.path ∈ unguardedPaths ∨ incoming.origin = secret) (route : Route) :
  route.serve api incoming = .done ⟨403, [], .error (.text "Forbidden")⟩
  := by
  simp only [not_forall, not_or] at outside
  obtain ⟨secret, guard, guarded, other⟩ := outside
  unfold Route.serve Route.verifyOrigin
  rw [guard]
  exact if_pos ⟨guarded, other⟩

/-! ### What has been found -/

/-- A moment of a run from `w` to `w'` that commits transactions of `ok`, and the change of the
rows that the run has committed then, if it has. -/
structure Moment {μ : Type → Type} (m : Setting μ X) (ok : Work → Prop) (w w' : World X)
    (s : Session) (change : Option (Db × Db)) : Prop where
  before : Reaches m.env (fun work => m.Others work ∨ ok work) w.session s
  after : Reaches m.env (fun work => m.Others work ∨ ok work) s w'.session
  committed : ∃ recent, w'.commits = recent ++ w.commits ∧ ∀ pair ∈ change, pair ∈ recent

/-- The program runs transactions of `ok` only. If it returns, then there was a moment while it
ran of which `P` holds, with what was committed then and what is returned. -/
def Service.Finds {μ : Type → Type} (m : Setting μ X) (ok : Work → Prop) (x : Service μ α)
    (P : Session → Option (Db × Db) → α → Prop) : Prop :=
  x.Runs ok (fun _ => True) → ∀ {w : World X} {a : α} {w' : World X},
    Ends m.machine x w (.ok a) w' → ∃ s change, Moment m ok w w' s change ∧ P s change a

/-- The change is the one that the transaction makes if it is run from `s`. -/
def Work.Applied (env : Env) (work : Work) (s : Session) (change : Option (Db × Db)) : Prop :=
  ∃ s', Returns work.body env s () s' ∧ change = some (s.db, s'.db)

namespace Service

variable {μ : Type → Type} {m : Setting μ X} {ok : Work → Prop} {x : Service μ α}
  {f : α → Service μ β} {w w' : World X}

/-- A program leads from one session to another by transactions of its own or of others. -/
theorem Runs.reaches {good : α → Prop} (runs : x.Runs ok good) {y : Except Failure α}
    (run : Ends m.machine x w y w') :
  Reaches m.env (fun work => m.Others work ∨ ok work) w.session w'.session
  := by
  induction run with
  | done => exact .refl
  | fail => exact .refl
  | ask answer _ ih => exact (Request.Within.reaches runs.1 answer).trans (ih (runs.2 _))

/-- The first part of a program runs nothing that the whole does not. -/
theorem Runs.first {good : β → Prop} (runs : Service.Runs (x >>= f) ok good) :
  x.Runs ok fun _ => True
  := by
  induction x with
  | done => exact .done trivial
  | fail => exact .fail
  | ask request next ih => exact ⟨runs.1, fun z => ih z (runs.2 z)⟩

/-- A program of which the outcome is taken runs what it would run. -/
theorem Runs.of_outcome {good : Except Failure α → Prop}
    (runs : Service.Runs (x.outcome : Service μ (Except Failure α)) ok good) :
  x.Runs ok fun _ => True
  := by
  induction x with
  | done => exact .done trivial
  | fail => exact .fail
  | ask request next ih => exact ⟨runs.1, fun z => ih z (runs.2 z)⟩

/-- What comes after the first part of a program runs nothing that the whole does not. -/
theorem Runs.rest {good : β → Prop} (runs : Service.Runs (x >>= f) ok good) {a : α}
    (run : Ends m.machine x w (.ok a) w') :
  (f a).Runs ok good
  := by
  induction x generalizing w with
  | done b =>
      obtain ⟨hreturned, _⟩ := ends_done.mp run
      cases hreturned
      exact runs
  | fail e =>
      obtain ⟨hreturned, _⟩ := ends_fail.mp run
      cases hreturned
  | ask request next ih =>
      obtain ⟨z, w₁, _, run⟩ := ends_ask.mp run
      exact ih z (runs.2 z) run

end Service

namespace Moment

variable {μ : Type → Type} {m : Setting μ X} {ok : Work → Prop} {x : Service μ α}
  {w w₁ w' : World X} {s : Session} {change : Option (Db × Db)}

/-- A moment of the first part of a run. -/
theorem first (h : Moment m ok w w₁ s change) {good : α → Prop} (runs : x.Runs ok good)
    {y : Except Failure α} (run : Ends m.machine x w₁ y w') :
  Moment m ok w w' s change
  := by
  obtain ⟨recent, hrecent, hchange⟩ := h.committed
  obtain ⟨later, hlater⟩ := Setting.ends_commits run
  refine ⟨h.before, h.after.trans (runs.reaches run), later ++ recent, ?_, ?_⟩
  · rw [hlater, hrecent, List.append_assoc]
  · intro pair hpair
    exact List.mem_append_right _ (hchange pair hpair)

/-- A moment of the last part of a run. -/
theorem last (h : Moment m ok w₁ w' s change) {good : α → Prop} (runs : x.Runs ok good)
    {y : Except Failure α} (run : Ends m.machine x w y w₁) :
  Moment m ok w w' s change
  := by
  obtain ⟨recent, hrecent, hchange⟩ := h.committed
  obtain ⟨earlier, hearlier⟩ := Setting.ends_commits run
  refine ⟨(runs.reaches run).trans h.before, h.after, recent ++ earlier, ?_, ?_⟩
  · rw [hrecent, hearlier, List.append_assoc]
  · intro pair hpair
    exact List.mem_append_left _ (hchange pair hpair)

/-- The moment at which a run begins. -/
theorem start {good : α → Prop} (runs : x.Runs ok good) {y : Except Failure α}
    (run : Ends m.machine x w y w') :
  Moment m ok w w' w.session none
  := by
  obtain ⟨recent, hrecent⟩ := Setting.ends_commits run
  exact ⟨.refl, runs.reaches run, recent, hrecent, nofun⟩

end Moment

namespace Service.Finds

variable {μ : Type → Type} {m : Setting μ X} {ok : Work → Prop} {x : Service μ α}
  {f : α → Service μ β} {P : Session → Option (Db × Db) → α → Prop}
  {Q : Session → Option (Db × Db) → β → Prop}

/-- What a program finds is found by one of which it is the first part. -/
theorem bind (h : x.Finds m ok P)
    (next : ∀ {s change a b} {w w' : World X}, P s change a →
      Ends m.machine (f a) w (.ok b) w' → Q s change b) :
  Service.Finds m ok (x >>= f) Q
  := by
  intro runs w b w' run
  obtain ⟨a, w₁, hx, hf⟩ | ⟨e, _, failed⟩ := ends_bind.mp run
  · obtain ⟨s, change, moment, hP⟩ := h runs.first hx
    exact ⟨s, change, moment.first (runs.rest hx) hf, next hP hf⟩
  · cases failed

/-- What a program finds is found by one of which it is the last part. -/
theorem next (h : ∀ a, (f a).Finds m ok Q) :
  Service.Finds m ok (x >>= f) Q
  := by
  intro runs w b w' run
  obtain ⟨a, w₁, hx, hf⟩ | ⟨e, _, failed⟩ := ends_bind.mp run
  · obtain ⟨s, change, moment, hQ⟩ := h a (runs.rest hx) hf
    exact ⟨s, change, moment.last runs.first hx, hQ⟩
  · cases failed

/-- The last part of a program, if the first part returns only what is good. -/
theorem nextOf {good : α → Prop} (returns : x.Runs (fun _ => True) good)
    (h : ∀ a, good a → (f a).Finds m ok Q) :
  Service.Finds m ok (x >>= f) Q
  := by
  intro runs w b w' run
  obtain ⟨a, w₁, hx, hf⟩ | ⟨e, _, failed⟩ := ends_bind.mp run
  · obtain ⟨s, change, moment, hQ⟩ := h a (returns.ends hx a rfl) (runs.rest hx) hf
    exact ⟨s, change, moment.last runs.first hx, hQ⟩
  · cases failed

/-- A program that goes on only if the first part has not failed. -/
theorem outcome {g : Except Failure α → Service μ β} (h : x.Finds m ok P)
    (next : ∀ {s change a b} {w w' : World X}, P s change a →
      Ends m.machine (g (.ok a)) w (.ok b) w' → Q s change b)
    (failed : ∀ e, ∀ {b} {w w' : World X}, ¬ Ends m.machine (g (.error e)) w (.ok b) w') :
  Service.Finds m ok (x.outcome >>= g) Q
  := by
  intro runs w b w' run
  obtain ⟨y, w₁, hx, hg⟩ := ends_outcome_bind.mp run
  have hx' : Ends m.machine x.outcome w (.ok y) w₁ := ends_outcome.mpr ⟨y, hx, rfl⟩
  cases y with
  | ok a =>
      obtain ⟨s, change, moment, hP⟩ := h runs.first.of_outcome hx
      exact ⟨s, change, moment.first (runs.rest hx') hg, next hP hg⟩
  | error e => exact absurd hg (failed e)

/-- A query finds the rows that it reads. -/
theorem read {query : Tx α} :
  Service.Finds m ok (MvpApi.read query : Service μ α) fun s _ a =>
    ∃ s', Returns query m.env s a s'
  := by
  intro _ w a w' run
  obtain ⟨s, meanwhile, rfl, hread | ⟨_, e, failed⟩⟩ := Setting.ends_read run
  · exact ⟨s, none, ⟨meanwhile.mono fun _ => Or.inl, .refl, [], rfl, nofun⟩, _,
      .of_run hread.symm⟩
  · cases failed

/-- A transaction finds the rows that it starts from. -/
theorem transaction {body : Tx α} (work : Work) (does : work.body = body.run') :
  Service.Finds m ok (MvpApi.transaction body : Service μ α) fun s change _ =>
    work.Applied m.env s change
  := by
  intro runs w a w' run
  cases Setting.ends_transaction run with
  | @commit s s' a meanwhile returns unique =>
      have applied : Returns work.body m.env s () s' := does ▸ Tx.returns_run'.mpr ⟨a, returns⟩
      obtain ⟨work', hok, hbody⟩ : Request.Within ok (.attempt body : Request μ α) := runs.1
      have committed : Returns work'.body m.env s () s' :=
        hbody ▸ Tx.returns_run'.mpr ⟨a, returns⟩
      refine ⟨s, some (s.db, s'.db), ⟨meanwhile.mono fun _ => Or.inl,
        .commit .refl (Or.inr hok) committed unique, [(s.db, s'.db)], rfl, ?_⟩, s', applied, rfl⟩
      intro pair hpair
      obtain rfl := Option.some.inj hpair
      exact List.mem_singleton_self _

/-- A transaction that returns nothing. -/
theorem transaction' {body : Tx Unit} (work : Work) (does : work.body = body) :
  Service.Finds m ok (MvpApi.transaction body : Service μ Unit) fun s change _ =>
    work.Applied m.env s change
  := transaction work (does.trans (bind_pure body).symm)

theorem duplicateAs {message : String} (h : x.Finds m ok P) :
  Service.Finds m ok (MvpApi.duplicateAs message x) P
  := by
  intro runs w a w' run
  obtain ⟨z, hx, same⟩ := Setting.ends_duplicateAs run
  obtain rfl := (same a).mp rfl
  have first : Service.Runs (x.outcome : Service μ (Except Failure α)) ok fun _ => True :=
    Service.Runs.first runs
  exact h first.of_outcome hx

end Service.Finds

/-! ### Deeds -/

/-- An answer that is no error. -/
def Response.Succeeds (response : Response Reply) : Prop := ∃ body, response.content = .ok body

/-- What a route does with the rows: a query reads them, and what it returns is shown, or a
transaction changes them. -/
inductive Deed where
  | reads {α : Type} (query : Tx α) (shows : α → Response Reply → Prop)
  | commits (work : Work)

/-- The deed is done with the rows of `s`, with the change that is committed there and the
answer. -/
def Deed.Done (env : Env) (s : Session) (change : Option (Db × Db)) (response : Response Reply) :
    Deed → Prop
  | .reads query shows => ∃ a s', Returns query env s a s' ∧ shows a response
  | .commits work => work.Applied env s change

/-- If the handler succeeds, then it has done one of the deeds `D`, when `Q` held of the rows. -/
def Handler.Finds (m : Setting BucketRequest X) (ok : Work → Prop) (x : Handler)
    (D : Deed → Prop) (Q : Db → Prop) : Prop :=
  Service.Finds m ok x fun s change response => response.Succeeds →
    ∃ deed, D deed ∧ deed.Done m.env s change response ∧ Q s.db

namespace Handler.Finds

variable {m : Setting BucketRequest X} {ok : Work → Prop} {D : Deed → Prop} {Q : Db → Prop}
  {x : Service BucketRequest α} {f : α → Handler}

/-- A handler that shows what its query returns. -/
theorem shows {query : Tx α} {shows : α → Response Reply → Prop} (does : D (.reads query shows))
    (permits : ∀ {s s' a}, Returns query m.env s a s' → Q s.db)
    (shown : ∀ {a response} {w w' : World X}, Ends m.machine (f a) w (.ok response) w' →
      shows a response) :
  Handler.Finds m ok (read query >>= f) D Q
  := by
  apply Service.Finds.bind .read
  rintro s change a response w w' ⟨s', returns⟩ run _
  exact ⟨_, does, ⟨a, s', returns, shown run⟩, permits returns⟩

/-- A handler behind a check. -/
theorem checked {query : Tx β} (does : D (.reads query fun _ _ => True))
    (permits : ∀ {s s' a}, Returns query m.env s a s' → Q s.db)
    {g : β → Service BucketRequest α} :
  Handler.Finds m ok (read query >>= g >>= f) D Q
  := by
  have found : Service.Finds m ok (read query >>= g) fun s _ _ =>
      ∃ b s', Returns query m.env s b s' := by
    apply Service.Finds.bind .read
    rintro s change b a w w' ⟨s', returns⟩ _
    exact ⟨b, s', returns⟩
  apply Service.Finds.bind found
  rintro s change a response w w' ⟨b, s', returns⟩ _ _
  exact ⟨_, does, ⟨b, s', returns, trivial⟩, permits returns⟩

/-- A handler that commits a transaction. -/
theorem commits {work : Work} (does : D (.commits work))
    (permits : ∀ {s s'}, Effect m.env s s' work → Q s.db)
    (h : x.Finds m ok fun s change _ => work.Applied m.env s change) :
  Handler.Finds m ok (x >>= f) D Q
  := by
  apply Service.Finds.bind h
  rintro s change a response w w' ⟨s', returns, rfl⟩ _ _
  exact ⟨_, does, ⟨s', returns, rfl⟩, permits (Work.effect returns).1⟩

/-- A valid body. -/
theorem validated {body : Option α} (h : ∀ a, body = some a → Handler.Finds m ok (f a) D Q) :
  Handler.Finds m ok (Route.validated body f) D Q
  := by
  unfold Route.validated
  cases body with
  | some a => exact h a rfl
  | none =>
      intro runs w response w' run
      refine ⟨w.session, none, .start runs run, fun success => ?_⟩
      obtain ⟨hreturned, _⟩ := ends_done.mp run
      cases hreturned
      obtain ⟨_, hcontent⟩ := success
      cases hcontent

end Handler.Finds

/-- What a query that begins with an access check has found. -/
theorem allows_of_require {env : Env} {s s' : Session} {userId action resource : String}
    {rest : Unit → Tx α} {a : α}
    (h : Returns (require userId action resource >>= rest) env s a s') :
  s.db.Allows userId action resource
  := by
  obtain ⟨_, _, required, _⟩ := returns_bind.mp h
  exact (returns_require.mp required).1

/-! ### Routes -/

/-- The action that a route on a workspace needs. -/
def Route.workspaceAction : WorkspaceRoute → String
  | .get => "workspace.read"
  | .update _ => "workspace.update"
  | .presignLogo _ => "workspace.update"
  | .confirmLogo _ => "workspace.update"
  | .deleteLogo => "workspace.update"
  | .delete => "workspace.delete"
  | .roles => "workspace.read"
  | .createRole _ => "roles.manage"
  | .updateRole .. => "roles.manage"
  | .deleteRole _ => "roles.manage"
  | .setPermissions .. => "roles.manage"
  | .permissions => "workspace.read"
  | .members => "workspace.read"
  | .setMemberRole .. => "roles.manage"
  | .removeMember _ => "members.remove"
  | .transferOwnership _ => "workspace.transfer"
  | .invitations => "workspace.read"
  | .invite _ => "members.invite"
  | .revokeInvitation _ => "invitations.revoke"

/-- The action that a route on an account needs. -/
def Route.accountAction : AccountRoute → String
  | .me => "profile.read"
  | .updateMe _ => "profile.update"
  | .presignAvatar _ => "profile.update"
  | .confirmAvatar _ => "profile.update"
  | .deleteAvatar => "profile.update"
  | .deleteMe => "profile.delete"
  | .workspaces => "workspaces.list"
  | .createWorkspace _ => "workspaces.create"
  | .slugAvailability _ => "workspaces.availability"
  | .acceptInvitation _ => "invitations.accept"

/-- What a route on a workspace does: it shows what it reads, or commits its transaction. A ticket
for an upload is given when the account has been checked. -/
inductive WorkspaceRoute.Does (api : Api) (workspaceId userId : String) :
    WorkspaceRoute → Deed → Prop
  | commits {route : WorkspaceRoute} {work : Work}
      (commits : route.Commits api workspaceId userId work) :
      Does api workspaceId userId route (.commits work)
  | get : Does api workspaceId userId .get
      (.reads (WorkspaceTx.get workspaceId userId) fun view response =>
        response = Route.reply 200 (.workspace (.of view)))
  | presignLogo {body : UploadRequest} : Does api workspaceId userId (.presignLogo body)
      (.reads (require userId "workspace.update" workspaceId) fun _ _ => True)
  | roles : Does api workspaceId userId .roles
      (.reads (WorkspaceTx.roles workspaceId userId) fun views response =>
        response = Route.reply 200 (.roles (views.map RoleRead.of)))
  | permissions : Does api workspaceId userId .permissions
      (.reads (WorkspaceTx.permissionCatalog workspaceId userId) fun entries response =>
        response = Route.reply 200 (.permissions entries))
  | members : Does api workspaceId userId .members
      (.reads (WorkspaceTx.members workspaceId userId) fun views response =>
        response = Route.reply 200 (.members (views.map MemberRead.ofMember)))
  | invitations : Does api workspaceId userId .invitations
      (.reads (WorkspaceTx.invitations workspaceId userId) fun views response =>
        ∃ times : List Time, times.length = views.length
          ∧ response = Route.reply 200 (.invitations (List.zipWith InvitationRead.of times views)))

/-- What another route that needs an account does. -/
inductive AccountRoute.Does (api : Api) (userId : String) : AccountRoute → Deed → Prop
  | commits {route : AccountRoute} {work : Work} (commits : route.Commits api userId work) :
      Does api userId route (.commits work)
  | me : Does api userId .me
      (.reads (AccountTx.profile userId) fun view response =>
        response = Route.reply 200 (.profile (.of view)))
  | presignAvatar {body : UploadRequest} : Does api userId (.presignAvatar body)
      (.reads (require userId "profile.update" userId) fun _ _ => True)
  | workspaces : Does api userId .workspaces
      (.reads (WorkspaceTx.listMine userId) fun views response =>
        response = Route.reply 200 (.workspaces (views.map WorkspaceRead.of)))
  | slugAvailability {slug : String} : Does api userId (.slugAvailability slug)
      (.reads (WorkspaceTx.slugAvailable slug userId) fun available response =>
        response = Route.reply 200 (.availability available))

section Routes

variable (api : Api) {m : Setting BucketRequest X} {ok : Work → Prop}

/-- A pure answer is what the handler answers. -/
theorem ends_reply {body : Reply} {status : ℕ} {response : Response Reply} {w w' : World X}
    (run : Ends m.machine (return Route.reply status body : Handler) w (.ok response) w') :
  response = Route.reply status body
  := Except.ok.inj (ends_done.mp run).1

/-- The invitations of a list are shown, each at a time of its own. -/
theorem ends_readInvitations {views : List InvitationView} {shown : List InvitationRead}
    {w w' : World X} (run : Ends m.machine (Route.readInvitations views) w (.ok shown) w') :
  ∃ times : List Time, times.length = views.length
    ∧ shown = List.zipWith InvitationRead.of times views
  := by
  induction views generalizing shown w w' with
  | nil =>
      obtain ⟨hshown, _⟩ := ends_done.mp run
      cases hshown
      exact ⟨[], rfl, rfl⟩
  | cons view views ih =>
      obtain ⟨now, w₁, _, run⟩ | ⟨_, _, failed⟩ := ends_bind.mp run
      · obtain ⟨rest, w₂, hrest, run⟩ | ⟨_, _, failed⟩ := ends_bind.mp run
        · obtain ⟨times, hlength, rfl⟩ := ih hrest
          obtain ⟨hshown, _⟩ := ends_done.mp run
          cases hshown
          exact ⟨now :: times, congrArg (· + 1) hlength, rfl⟩
        · cases failed
      · cases failed

/-- A logo is replaced by the picture that the upload was stored as. -/
theorem finds_setLogo (workspaceId : String) (uploadKey : Option String) (userId : String) :
  Service.Finds m ok (api.services.workspaces.setLogo workspaceId uploadKey userId)
    fun s change _ => ∃ key url, IsPicture api key url ∧ (uploadKey = none → key = none)
      ∧ (Work.replaceLogo workspaceId key url userId).Applied m.env s change
  := by
  refine .next fun _ => .nextOf (api.storage.runs_storeSome uploadKey) fun newKey stored => ?_
  apply Service.Finds.outcome (.transaction (.replaceLogo workspaceId newKey _ userId) rfl)
  · intro s change replaced view w w' applied _
    exact ⟨newKey, _, isPicture stored.1, stored.2, applied⟩
  · intro e view w w' run
    obtain ⟨_, _, _, run⟩ | ⟨_, _, failed⟩ := ends_bind.mp run
    · cases (ends_fail.mp run).1
    · cases failed

/-- An avatar is replaced by the picture that the upload was stored as. -/
theorem finds_setAvatar (userId : String) (uploadKey : Option String) :
  Service.Finds m ok (api.services.accounts.setAvatar userId uploadKey)
    fun s change _ => ∃ key url, IsPicture api key url ∧ (uploadKey = none → key = none)
      ∧ (Work.replaceAvatar userId key url).Applied m.env s change
  := by
  refine .next fun _ => .nextOf (api.storage.runs_storeSome uploadKey) fun newKey stored => ?_
  apply Service.Finds.outcome (.transaction (.replaceAvatar userId newKey _) rfl)
  · intro s change replaced view w w' applied _
    exact ⟨newKey, _, isPicture stored.1, stored.2, applied⟩
  · intro e view w w' run
    obtain ⟨_, _, _, run⟩ | ⟨_, _, failed⟩ := ends_bind.mp run
    · cases (ends_fail.mp run).1
    · cases failed

/-- Whoever has an account may change its profile. -/
theorem allows_profileUpdate {db : Db} {userId : String} {user : User}
    (account : db.users.get userId = some user) :
  db.Allows userId "profile.update" userId
  := by
  have status : ∀ status : OnboardingStatus,
      status ∈ onboardingNeededFor "profile.update" := by
    intro status
    cases status with
    | _ => decide
  refine ⟨⟨user, account, status _⟩, ?_⟩
  have own : isOnOwnAccount "profile.update" = true := by decide
  rw [Db.permits, if_pos own]
  exact decide_eq_true rfl

/-- A route on an account that succeeds has done what it does, when the rows permitted it. -/
theorem finds_accountRoute (user : CurrentUser) (route : AccountRoute) :
  Handler.Finds m ok (Route.accountRoute api user route) (route.Does api user.id)
    fun db => db.Allows user.id (Route.accountAction route) user.id
  := by
  cases route with
  | me => exact .shows .me allows_of_require ends_reply
  | updateMe body =>
      refine .validated fun input valid => .commits (.commits (.updateMe valid)) ?_
        (.bind (.transaction _ rfl) fun applied _ => applied)
      intro s s' effect
      cases effect with
      | rename _ allowed => exact allowed
  | presignAvatar body =>
      exact .validated fun body _ => .checked .presignAvatar fun h => (returns_require.mp h).1
  | confirmAvatar body =>
      refine .validated fun input valid => Service.Finds.bind (finds_setAvatar api user.id _) ?_
      rintro s change view response w w' ⟨key, url, picture, _, s', returns, rfl⟩ _ _
      refine ⟨_, .commits (.confirmAvatar valid picture), ⟨s', returns, rfl⟩, ?_⟩
      cases (Work.effect returns).1 with
      | replaceAvatar _ account => exact allows_profileUpdate account
  | deleteAvatar =>
      refine Service.Finds.bind (finds_setAvatar api user.id _) ?_
      rintro s change view response w w' ⟨key, url, picture, removed, s', returns, rfl⟩ _ _
      obtain rfl := removed rfl
      obtain rfl := picture.served
      refine ⟨_, .commits .deleteAvatar, ⟨s', returns, rfl⟩, ?_⟩
      cases (Work.effect returns).1 with
      | replaceAvatar _ account => exact allows_profileUpdate account
  | deleteMe =>
      refine .commits (.commits .deleteMe) ?_ (.next fun _ => .next fun _ => .next fun _ =>
        .bind (.transaction _ rfl) fun applied _ => applied)
      intro s s' effect
      cases effect with
      | deleteAccount _ allowed => exact allowed
  | workspaces => exact .shows .workspaces allows_of_require ends_reply
  | createWorkspace body =>
      refine .validated fun input valid => .commits (.commits (.createWorkspace valid)) ?_
        (.duplicateAs (.transaction _ rfl))
      intro s s' effect
      cases effect with
      | create _ _ _ _ _ _ _ allowed => exact allowed
  | slugAvailability slug => exact .shows .slugAvailability allows_of_require ends_reply
  | acceptInvitation body =>
      refine .validated fun input valid => .commits (.commits (.acceptInvitation valid)) ?_
        (.transaction _ rfl)
      intro s s' effect
      cases effect with
      | accept joins =>
          cases joins with
          | intro _ _ _ _ _ _ allowed => exact allowed

/-- A route on a workspace that succeeds has done what it does, when the rows permitted it. -/
theorem finds_workspaceRoute (workspace : CurrentWorkspace) (user : CurrentUser)
    (route : WorkspaceRoute) :
  Handler.Finds m ok (Route.workspaceRoute api workspace user route)
    (route.Does api workspace.id user.id)
    fun db => db.Allows user.id (Route.workspaceAction route) workspace.id
  := by
  cases route with
  | get => exact .shows .get allows_of_require ends_reply
  | update body =>
      refine .validated fun input valid => .commits (.commits (.update valid)) ?_
        (.duplicateAs (.transaction _ rfl))
      intro s s' effect
      cases effect with
      | update _ _ allowed => exact allowed
  | presignLogo body =>
      exact .validated fun body _ => .checked .presignLogo fun h => (returns_require.mp h).1
  | confirmLogo body =>
      refine .validated fun input valid => Service.Finds.bind (finds_setLogo api workspace.id _ user.id) ?_
      rintro s change view response w w' ⟨key, url, picture, _, s', returns, rfl⟩ _ _
      refine ⟨_, .commits (.confirmLogo valid picture), ⟨s', returns, rfl⟩, ?_⟩
      cases (Work.effect returns).1 with
      | replaceLogo _ _ allowed => exact allowed
  | deleteLogo =>
      refine Service.Finds.bind (finds_setLogo api workspace.id _ user.id) ?_
      rintro s change view response w w' ⟨key, url, picture, removed, s', returns, rfl⟩ _ _
      obtain rfl := removed rfl
      obtain rfl := picture.served
      refine ⟨_, .commits .deleteLogo, ⟨s', returns, rfl⟩, ?_⟩
      cases (Work.effect returns).1 with
      | replaceLogo _ _ allowed => exact allowed
  | delete =>
      refine .commits (.commits .delete) ?_ (.transaction' _ rfl)
      intro s s' effect
      cases effect with
      | delete _ _ _ _ _ allowed => exact allowed
  | roles => exact .shows .roles allows_of_require ends_reply
  | createRole body =>
      refine .validated fun input valid => .commits (.commits (.createRole valid)) ?_
        (.duplicateAs (.transaction _ rfl))
      intro s s' effect
      cases effect with
      | addRole _ _ _ allowed => exact allowed
  | updateRole roleId body =>
      refine .validated fun input valid => .commits (.commits (.updateRole valid)) ?_
        (.duplicateAs (.transaction _ rfl))
      intro s s' effect
      cases effect with
      | renameRole _ _ _ allowed => exact allowed
  | deleteRole roleId =>
      refine .commits (.commits .deleteRole) ?_ (.transaction' _ rfl)
      intro s s' effect
      cases effect with
      | deleteRole _ _ _ _ allowed => exact allowed
  | setPermissions roleId body =>
      refine .validated fun input valid => .commits (.commits (.setPermissions valid)) ?_
        (.transaction' _ rfl)
      intro s s' effect
      cases effect with
      | setPermissions _ _ _ allowed => exact allowed
  | permissions => exact .shows .permissions allows_of_require ends_reply
  | members => exact .shows .members allows_of_require ends_reply
  | setMemberRole memberId body =>
      refine .commits (.commits .setMemberRole) ?_ (.transaction' _ rfl)
      intro s s' effect
      cases effect with
      | setMemberRole _ _ _ _ allowed => exact allowed
  | removeMember memberId =>
      refine .commits (.commits .removeMember) ?_ (.transaction' _ rfl)
      intro s s' effect
      cases effect with
      | removeMember _ _ _ allowed => exact allowed
  | transferOwnership body =>
      refine .commits (.commits .transferOwnership) ?_ (.transaction' _ rfl)
      intro s s' effect
      cases effect with
      | transfer _ _ _ _ _ _ _ allowed => exact allowed
  | invitations =>
      apply Handler.Finds.shows .invitations allows_of_require
      intro views response w w' run
      obtain ⟨shown, _, hshown, run⟩ | ⟨_, _, failed⟩ := ends_bind.mp run
      · obtain ⟨times, hlength, rfl⟩ := ends_readInvitations hshown
        exact ⟨times, hlength, ends_reply run⟩
      · cases failed
  | invite body =>
      refine .validated fun input valid => .commits (.commits (.invite valid)) ?_
        (.bind (.transaction _ rfl) fun applied _ => applied)
      intro s s' effect
      cases effect with
      | issue _ _ _ _ _ _ _ _ allowed => exact allowed
  | revokeInvitation invitationId =>
      refine .commits (.commits .revokeInvitation) ?_ (.transaction' _ rfl)
      intro s s' effect
      cases effect with
      | revoke _ _ _ _ allowed => exact allowed

end Routes

/-! ### Workspaces -/

/-- The account is onboarded, and belongs to the live workspace at the slug. -/
structure Db.Admits (db : Db) (userId slug : String) (workspace : Workspace) : Prop where
  account : ∃ user, db.users.get userId = some user ∧ user.onboardingStatus ∈ onboarded
  stored : db.live workspace.id = some workspace
  slug : workspace.slug = slug
  member : (db.member workspace.id userId).isSome

/-- The check of access to a workspace finds that the account is admitted. -/
theorem AccessService.admits_of_returns {env : Env} {s s' : Session} {userId slug : String}
    {action : Option String} {workspace : Workspace}
    (h : Returns (AccessService.workspace userId slug action) env s workspace s') :
  s.db.Admits userId slug workspace
    ∧ ∀ a ∈ action, s.db.permits userId a workspace.id = true
  := by
  unfold AccessService.workspace Users.get Workspaces.bySlug Members.get at h
  simp only [returns_bind, returns_select, returns_check, returns_refuseUnless, existing_eq_ok,
    User.ensureOnboarded_eq_ok, found_eq_ok] at h
  obtain ⟨_, _, ⟨rfl, rfl⟩, user, _, ⟨account, rfl⟩, _, _, ⟨complete, rfl⟩, _, _, ⟨rfl, rfl⟩,
    found, _, ⟨hfind, rfl⟩, _, _, ⟨rfl, rfl⟩, _, _, ⟨belongs, rfl⟩, rest⟩ := h
  obtain ⟨hentered, hpermitted⟩ : found = workspace
      ∧ ∀ a ∈ action, s.db.permits userId a found.id = true := by
    cases action with
    | none =>
        simp only [returns_bind, returns_pure, returns_refuseUnless] at rest
        obtain ⟨_, _, _, _, _, _, hentered, _⟩ := rest
        exact ⟨hentered, fun a ha => by cases ha⟩
    | some action =>
        simp only [returns_bind, returns_pure, returns_refuseUnless, returns_permits] at rest
        obtain ⟨_, _, ⟨rfl, rfl⟩, _, _, ⟨hpermitted, _⟩, hentered, _⟩ := rest
        exact ⟨hentered, fun a ha => by cases ha; exact hpermitted⟩
  obtain rfl := hentered
  obtain ⟨hmem, hslug⟩ := Table.mem_of_find?_eq_some hfind
  simp only [Bool.and_eq_true, decide_eq_true_eq, Bool.not_eq_true'] at hslug
  have live : s.db.live found.id = some found := by
    refine Db.live_eq_some.mpr ⟨hmem, rfl, ?_⟩
    have undeleted := hslug.2
    rwa [Workspace.isDeleted, Option.isSome_eq_false_iff, Option.isNone_iff_eq_none] at undeleted
  exact ⟨⟨⟨user, account, complete⟩, live, hslug.1, belongs⟩, hpermitted⟩

/-! ### Requests -/

/-- What a request that has succeeded, in a run from `w` to `w'`, has found the rows to permit to an
account. A route on an account has done what it does when the rows permitted it. So has a route on
a workspace, after the check that has let the account in. A route on products runs in the workspace
from when its check has found that the rows permit it. -/
def Route.Permitted (api : Api) (m : Setting BucketRequest X) (ok : Work → Prop) (w w' : World X)
    (response : Response Reply) (userId : String) : Route → Prop
  | .account route => ∃ s change deed, Moment m ok w w' s change
      ∧ route.Does api userId deed ∧ deed.Done m.env s change response
      ∧ s.db.Allows userId (accountAction route) userId
  | .workspace slug route => ∃ (w₁ : World X) (workspace : Workspace) (s' s : Session)
      (change : Option (Db × Db)) (deed : Deed),
      Reaches m.env (fun work => m.Others work ∨ ok work) w.session w₁.session
        ∧ Returns (AccessService.workspace userId slug none) m.env w₁.session workspace s'
        ∧ w₁.db.Admits userId slug workspace ∧ Moment m ok w₁ w' s change
        ∧ route.Does api workspace.id userId deed ∧ deed.Done m.env s change response
        ∧ s.db.Allows userId (workspaceAction route) workspace.id
  | .products slug route => ∃ (w₁ : World X) (workspace : Workspace) (s' : Session),
      Reaches m.env (fun work => m.Others work ∨ ok work) w.session w₁.session
        ∧ Returns (AccessService.workspace userId slug (some (productAction route))) m.env
            w₁.session workspace s'
        ∧ w₁.db.Admits userId slug workspace
        ∧ w₁.db.Allows userId (productAction route) workspace.id
        ∧ Ends m.machine (productRoute api ⟨workspace.id, workspace.slug⟩ route) w₁ (.ok response)
            w'
  | _ => True

section Requests

variable {api : Api} {incoming : Incoming} {m : Setting BucketRequest X} {ok : Work → Prop}

/-- What an account that passes the check of a route on products is allowed. -/
theorem allows_productAction {db : Db} {userId slug : String} {workspace : Workspace}
    (admits : db.Admits userId slug workspace) (route : ProductRoute)
    (permits : db.permits userId (Route.productAction route) workspace.id = true) :
  db.Allows userId (Route.productAction route) workspace.id
  := by
  have needed : onboardingNeededFor (Route.productAction route) = onboarded := by
    have all : ∀ action ∈ ["products.read", "products.create", "products.update",
        "products.delete"], onboardingNeededFor action = onboarded := by decide
    refine all _ ?_
    cases route with
    | _ => simp [Route.productAction]
  exact ⟨needed ▸ admits.account, permits⟩

/-- An answer that succeeds has passed a check that asks for nothing. -/
theorem ends_gated {check : Except HttpException α} {next : α → Handler} {w w' : World X}
    {response : Response Reply} (run : Ends m.machine (Route.gated check next) w (.ok response) w')
    (success : response.Succeeds) :
  ∃ a, check = .ok a ∧ Route.gated check next = next a
  := by
  cases check with
  | ok a => exact ⟨a, rfl, rfl⟩
  | error exception =>
      obtain ⟨hreturned, _⟩ := ends_done.mp run
      cases hreturned
      obtain ⟨_, hcontent⟩ := success
      cases hcontent

/-- An answer that succeeds was within its limit. -/
theorem ends_limitedIn {bucket : Option String} {identity : String} {next : Handler}
    {w w' : World X} {response : Response Reply}
    (run : Ends m.machine (Route.limitedIn incoming bucket identity next) w (.ok response) w')
    (success : response.Succeeds) :
  Route.limitedIn incoming bucket identity next = next
  := by
  cases bucket with
  | none => rfl
  | some bucket =>
      obtain ⟨_, _, hgated⟩ := ends_gated run success
      exact hgated

/-- An answer that succeeds behind the check of the token is given to the subject of a token that
was sent. -/
theorem ends_authenticated {next : CurrentUser → Handler} {w w' : World X}
    {response : Response Reply}
    (runs : Service.Runs (Route.authenticated api.settings incoming next) ok fun _ => True)
    (run : Ends m.machine (Route.authenticated api.settings incoming next) w (.ok response) w')
    (success : response.Succeeds) :
  ∃ user token w₁, incoming.credentials = some token
    ∧ SpeaksFor api.settings incoming.decode token user.id
    ∧ Reaches m.env (fun work => m.Others work ∨ ok work) w.session w₁.session
    ∧ (∀ s change, Moment m ok w₁ w' s change → Moment m ok w w' s change)
    ∧ (next user).Runs ok (fun _ => True) ∧ Ends m.machine (next user) w₁ (.ok response) w'
  := by
  unfold Route.authenticated at runs run
  obtain ⟨token, htoken, hgated⟩ := ends_gated run success
  obtain ⟨sent, speaks⟩ := Incoming.verifiedToken_eq_ok htoken
  rw [hgated] at runs run
  obtain ⟨outcome, w₁, hensured, run⟩ | ⟨_, _, failed⟩ := ends_bind.mp run
  · have rest := runs.rest hensured
    cases outcome with
    | ok email =>
        refine ⟨⟨token.sub, email⟩, token.raw, w₁, sent, speaks, runs.first.reaches hensured, ?_,
          rest, run⟩
        intro s change moment
        exact moment.last runs.first hensured
    | error e =>
        cases e with
        | accountLookup message =>
            obtain ⟨hreturned, _⟩ := ends_done.mp run
            cases hreturned
            obtain ⟨_, hcontent⟩ := success
            cases hcontent
        | _ => cases (ends_fail.mp run).1
  · cases failed

/-- What comes behind the check of access to a workspace runs there. -/
theorem ends_workspaceAccess {action : Option String} {slug : String} {user : CurrentUser}
    {next : CurrentWorkspace → Handler} {w w' : World X} {response : Response Reply}
    (runs : Service.Runs (Route.workspaceAccess action slug user next : Handler) ok fun _ => True)
    (run : Ends m.machine (Route.workspaceAccess action slug user next) w (.ok response) w') :
  ∃ (w₁ : World X) (workspace : Workspace) (s' : Session),
    Reaches m.env (fun work => m.Others work ∨ ok work) w.session w₁.session
      ∧ Returns (AccessService.workspace user.id slug action) m.env w₁.session workspace s'
      ∧ (next ⟨workspace.id, workspace.slug⟩).Runs ok (fun _ => True)
      ∧ Ends m.machine (next ⟨workspace.id, workspace.slug⟩) w₁ (.ok response) w'
  := by
  obtain ⟨workspace, w₁, hread, run⟩ | ⟨_, _, failed⟩ := ends_bind.mp run
  · have rest := runs.rest hread
    obtain ⟨s, meanwhile, rfl, hrun | ⟨_, _, failed⟩⟩ := Setting.ends_read hread
    · exact ⟨_, workspace, _, meanwhile.mono fun _ => Or.inl, .of_run hrun.symm, rest, run⟩
    · cases failed
  · cases failed

/-- What a route that needs an account has found, if it succeeds. -/
theorem program_permitted {route : Route} (needs : route.needsAccount = true) {w w' : World X}
    {response : Response Reply} (runs : (route.program api incoming).Runs ok fun _ => True)
    (run : Ends m.machine (route.program api incoming) w (.ok response) w')
    (success : response.Succeeds) :
  ∃ token sub, incoming.credentials = some token
    ∧ SpeaksFor api.settings incoming.decode token sub
    ∧ route.Permitted api m ok w w' response sub
  := by
  cases route with
  | account route =>
      unfold Route.program at runs run
      obtain ⟨user, token, w₁, sent, speaks, _, earlier, runs, run⟩ :=
        ends_authenticated runs run success
      obtain ⟨s, change, moment, found⟩ := finds_accountRoute api user route runs run
      obtain ⟨deed, does, done, allows⟩ := found success
      exact ⟨token, user.id, sent, speaks, s, change, deed, earlier s change moment, does, done,
        allows⟩
  | workspace slug route =>
      unfold Route.program at runs run
      obtain ⟨user, token, w₁, sent, speaks, before, _, runs, run⟩ :=
        ends_authenticated runs run success
      obtain ⟨w₂, workspace, s', between, entered, runs, run⟩ := ends_workspaceAccess runs run
      obtain ⟨s, change, moment, found⟩ :=
        finds_workspaceRoute api ⟨workspace.id, workspace.slug⟩ user route runs run
      obtain ⟨deed, does, done, allows⟩ := found success
      exact ⟨token, user.id, sent, speaks, w₂, workspace, s', s, change, deed,
        before.trans between, entered, (AccessService.admits_of_returns entered).1, moment, does,
        done, allows⟩
  | products slug route =>
      unfold Route.program at runs run
      obtain ⟨user, token, w₁, sent, speaks, before, _, runs, run⟩ :=
        ends_authenticated runs run success
      rw [ends_limitedIn run success] at runs run
      obtain ⟨w₂, workspace, s', between, entered, _, run⟩ := ends_workspaceAccess runs run
      obtain ⟨admits, permits⟩ := AccessService.admits_of_returns entered
      exact ⟨token, user.id, sent, speaks, w₂, workspace, s', before.trans between, entered, admits,
        allows_productAction admits route (permits _ rfl), run⟩
  | _ => cases needs

/-- A request that needs an account succeeds only if its token speaks for one that the rows have
permitted what its route has done. -/
theorem served_permitted {route : Route} (needs : route.needsAccount = true) {w w' : World X}
    {response : Response Reply} (run : Ends m.machine (route.serve api incoming) w (.ok response) w')
    (success : response.Succeeds) :
  ∃ token sub, incoming.credentials = some token
    ∧ SpeaksFor api.settings incoming.decode token sub
    ∧ route.Permitted api m (Work.Requested api incoming route) w w' response sub
  := by
  by_cases origin : ∀ secret, api.settings.originGuard = some secret →
      incoming.path ∈ unguardedPaths ∨ incoming.origin = secret
  · have runs := runs_serve api incoming route
    rw [serve_origin origin] at run runs
    have ran : (route.program api incoming).Runs (Work.Requested api incoming route)
        fun _ => True :=
      (Service.Runs.first runs).of_outcome
    obtain ⟨y, w₁, hprogram, answered⟩ := ends_outcome_bind.mp run
    cases y with
    | ok reply =>
        obtain ⟨hreturned, rfl⟩ := ends_done.mp answered
        cases hreturned
        exact program_permitted needs ran hprogram success
    | error e =>
        obtain ⟨hreturned, _⟩ := ends_done.mp answered
        cases hreturned
        obtain ⟨_, hcontent⟩ := success
        cases e with
        | _ => cases hcontent
  · rw [serve_forbidden origin] at run
    obtain ⟨hreturned, _⟩ := ends_done.mp run
    cases hreturned
    obtain ⟨_, hcontent⟩ := success
    cases hcontent

end Requests

/-! ### The workspace of Ada -/

/-- Ada reads her workspace. -/
theorem serves_workspace :
  ∃ (w w' : World Unit) (view : WorkspaceView),
    Ends (Setting.alone .sample fun _ _ _ _ => False).machine
      ((Route.workspace "acme" .get).serve .sample .sample) w
      (.ok (Route.reply 200 (.workspace (.of view)))) w'
  := by
  let m : Setting BucketRequest Unit := .alone .sample fun _ _ _ _ => False
  let s : Session := .after .sample [.register "ada" "ada@acme.test" "Ada" none,
    .create "Acme" "acme" "ada"]
  let w : World Unit := ⟨s, (), []⟩
  have known : ((Users.get "ada").run .sample s).1.map (Option.map User.email)
      = .ok (some "ada@acme.test") := by decide +kernel
  have entered : ((AccessService.workspace "ada" "acme" none).run .sample s).1.map
      (fun workspace => (workspace.id, workspace.slug)) = .ok ("i", "acme") := by decide +kernel
  have viewed : (((WorkspaceTx.get "i" "ada").run .sample s).1.map fun _ => ()) = .ok () := by
    decide +kernel
  obtain ⟨account, hknown, hemail⟩ := Except.map_eq_ok.mp known
  obtain ⟨user, rfl, hemail⟩ := Option.map_eq_some_iff.mp hemail
  obtain ⟨workspace, hentered, hworkspace⟩ := Except.map_eq_ok.mp entered
  obtain ⟨view, hviewed, _⟩ := Except.map_eq_ok.mp viewed
  refine ⟨w, w, view, ?_⟩
  have reads {α : Type} {query : Tx α} {a : α} (h : (query.run .sample s).1 = .ok a) :
      Ends m.machine (read query : Service BucketRequest α) w (.ok a) w :=
    Setting.reads h trivial .refl
  have origin : ∀ secret, Api.sample.settings.originGuard = some secret →
      Incoming.sample.path ∈ unguardedPaths ∨ Incoming.sample.origin = secret := by
    intro secret guard
    obtain rfl : "secret" = secret := Option.some.inj guard
    exact Or.inr (by decide +kernel)
  have verified : Incoming.sample.verifiedToken Api.sample.settings = .ok ⟨"ada", "ada"⟩ := by
    decide +kernel
  have ensured : Ends m.machine (AccountService.ensureAccount "ada" "ada" :
      Service BucketRequest String) w (.ok user.email) w :=
    ends_bind.mpr (Or.inl ⟨some user, w, reads hknown, .done _ _⟩)
  obtain ⟨hid, hslug⟩ := Prod.mk.inj hworkspace
  have program : Ends m.machine ((Route.workspace "acme" .get).program .sample .sample) w
      (.ok (Route.reply 200 (.workspace (.of view)))) w := by
    unfold Route.program Route.authenticated Route.gated
    dsimp only
    rw [verified]
    refine ends_bind.mpr (Or.inl ⟨.ok user.email, w, ends_outcome.mpr ⟨_, ensured, rfl⟩, ?_⟩)
    refine ends_bind.mpr (Or.inl ⟨workspace, w, reads hentered, ?_⟩)
    rw [hid]
    exact ends_bind.mpr (Or.inl ⟨view, w, reads hviewed, .done _ _⟩)
  rw [serve_origin origin]
  exact ends_bind.mpr (Or.inl ⟨_, w, ends_outcome.mpr ⟨_, program, rfl⟩, .done _ _⟩)

/-- Ada reads her workspace with a token that speaks for somebody whom the rows let do it. -/
theorem served_permitted_of_workspace :
  ∃ (m : Setting BucketRequest Unit) (w w' : World Unit) (view : WorkspaceView) (token sub : String),
    Incoming.sample.credentials = some token
      ∧ SpeaksFor Api.sample.settings Incoming.sample.decode token sub
      ∧ (Route.workspace "acme" .get).Permitted .sample m
          (Work.Requested .sample .sample (.workspace "acme" .get)) w w'
          (Route.reply 200 (.workspace (.of view))) sub
  := by
  obtain ⟨w, w', view, run⟩ := serves_workspace
  obtain ⟨token, sub, sent, speaks, permitted⟩ := served_permitted rfl run ⟨_, rfl⟩
  exact ⟨_, w, w', view, token, sub, sent, speaks, permitted⟩

end MvpApi
