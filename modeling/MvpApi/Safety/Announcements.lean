import MvpApi.Infrastructure.Realtime
import MvpApi.Runs.Catalogue
import MvpApi.Runs.Threads

/-!
# Live updates

Calls that change products announce the change to the members of the workspace. However calls run
at once, one request at a time, and whatever fails on the way: a call announces nothing, or it tells
each person at most once, on their own channel, of a change that was committed before. Those it
tells were members of the workspace after that change. A call that returns has told all who were
members then, but for those whom the delivery did not reach.
-/

set_option autoImplicit false

namespace MvpApi

open Program Exec AppSyncEventPublisher

variable {μ : Type → Type} {ι α β : Type}

/-! ### What there is to tell -/

/-- What happens to a product of a workspace between two states of the rows. -/
inductive Changes (workspaceId productId : String) (db db' : Db) : String → Prop
  | created (fresh : db.products.get productId = none) {row : ProductRow}
      (stored : db'.products.get productId = some row) (own : row.workspaceId = workspaceId) :
      Changes workspaceId productId db db' "created"
  | updated {row row' : ProductRow} (stored : db.products.get productId = some row)
      (own : row.workspaceId = workspaceId) (stored' : db'.products.get productId = some row')
      (own' : row'.workspaceId = workspaceId) : Changes workspaceId productId db db' "updated"
  | deleted {row : ProductRow} (stored : db.products.get productId = some row)
      (own : row.workspaceId = workspaceId) (gone : db'.products.get productId = none) :
      Changes workspaceId productId db db' "deleted"

/-- The event tells what was committed. -/
def ChangeEvent.Tells (event : ChangeEvent) (change : Db × Db) : Prop :=
  Changes event.ownerId event.id change.1 change.2 event.action

/-- A change was committed, and the rows were such right after it or after a later one. -/
def Since (commits : List (Db × Db)) (change : Db × Db) (db : Db) : Prop :=
  ∃ older latest rest, change :: older <:+ latest :: rest ∧ latest :: rest <:+ commits
    ∧ latest.2 = db

theorem Since.later {commits commits' : List (Db × Db)} {change : Db × Db} {db : Db}
    (h : Since commits change db) (more : commits <:+ commits') :
  Since commits' change db
  := by
  obtain ⟨older, latest, rest, before, after, same⟩ := h
  exact ⟨older, latest, rest, before, after.trans more, same⟩

/-- The requests for people, all sent by one call: each of them is for someone who was a member
after the change, and no two are for the same person. -/
structure Told (Offline : String → Prop) (commits : List (Db × Db)) (bodies : List (List Char))
    (event : ChangeEvent) (change : Db × Db) (db : Db) (told : List String) : Prop where
  since : Since commits change db
  tells : event.Tells change
  inRange : Calendar.InRange event.time
  distinct : told.Nodup
  members : ∀ userId ∈ told, (db.member event.ownerId userId).isSome
  others : ∀ userId, (db.member event.ownerId userId).isSome → userId ∈ told ∨ Offline userId
  sent : bodies = told.map (body event)

/-- What was sent announces a change. -/
def Announced (Offline : String → Prop) (commits : List (Db × Db)) (bodies : List (List Char)) :
    Prop :=
  ∃ event change db told, Told Offline commits bodies event change db told

theorem Announced.later {Offline : String → Prop} {commits commits' : List (Db × Db)}
    {bodies : List (List Char)} (h : Announced Offline commits bodies)
    (more : commits <:+ commits') :
  Announced Offline commits' bodies
  := by
  obtain ⟨event, change, db, told, h⟩ := h
  exact ⟨event, change, db, told, { h with since := h.since.later more }⟩

/-! ### Calls that run at once -/

/-- What has been sent for each call. -/
abbrev Air (ι : Type) := ι → List (List Char)

/-- How the services outside answer a call. Its requests for different people are sent at once: they
arrive in any order, or they do not. -/
def Broadcasts [DecidableEq ι] (Offline : String → Prop) (i : ι) (request : Request μ β) (air : Air ι)
    (y : Except Failure β) (air' : Air ι) : Prop :=
  match β, request, y with
  | _, .publish event recipients, y => y = .ok () ∧ ∃ told : List String,
      told.Subperm recipients ∧ (∀ userId ∈ recipients, userId ∈ told ∨ Offline userId)
      ∧ air' = Function.update air i (air i ++ told.map (body event))
  | _, .now, y => (∃ time, Calendar.InRange time ∧ y = .ok time) ∧ air' = air
  | _, _, _ => air' = air

/-- One of many calls, which are the only ones; any request may fail. -/
def live [DecidableEq ι] (env : Env) (Offline : String → Prop) (i : ι) : Setting μ (Air ι) where
  env := env
  Others _ := False
  Fails _ := True
  Outside := Broadcasts Offline i
  Allows _ _ _ := True

/-- The requests that tell people of a change. -/
def Request.Publishes : Request μ β → Prop
  | .publish .. => True
  | _ => False

namespace World

/-- The rows are those that the latest commit has left. -/
def Current {X : Type} (w : World X) : Prop := ∀ latest ∈ w.commits.head?, w.db = latest.2

/-- More is committed. -/
structure Grows {X : Type} (w w' : World X) : Prop where
  commits : w.commits <:+ w'.commits
  current : w.Current → w'.Current

theorem Grows.refl {X : Type} (w : World X) :
  w.Grows w
  := ⟨List.suffix_rfl, id⟩

theorem Grows.trans {X : Type} {w w₁ w₂ : World X} (h : w.Grows w₁) (h' : w₁.Grows w₂) :
  w.Grows w₂
  := ⟨h.commits.trans h'.commits, h'.current ∘ h.current⟩

theorem Grows.idle {X : Type} {w w' : World X} (same : w'.db = w.db)
    (commits : w'.commits = w.commits) :
  w.Grows w'
  := by
  refine ⟨commits ▸ List.suffix_rfl, fun current latest hlatest => ?_⟩
  rw [commits] at hlatest
  exact same.trans (current latest hlatest)

theorem Grows.commit {X : Type} (w : World X) (s s' : Session) :
  w.Grows (w.commit s s')
  := by
  refine ⟨⟨[_], rfl⟩, fun _ latest hlatest => ?_⟩
  obtain rfl := Option.some.inj hlatest
  rfl

end World

/-- What a call may rely on: nobody else sends anything for it. -/
def Leaves (i : ι) (w w' : World (Air ι)) : Prop :=
  w.Grows w' ∧ w'.outside i = w.outside i

/-- What has been sent for a call is nothing, or it announces a change. -/
def Fine (Offline : String → Prop) (i : ι) (w : World (Air ι)) : Prop :=
  w.outside i = [] ∨ Announced Offline w.commits (w.outside i)

/-- What a call guarantees: it sends nothing for others, and nothing but announcements. -/
def Behaves (Offline : String → Prop) (i : ι) (w w' : World (Air ι)) : Prop :=
  w.Grows w' ∧ (∀ j ≠ i, w'.outside j = w.outside j) ∧ (Fine Offline i w → Fine Offline i w')

theorem stable_leaves (i : ι) :
  Stable (Leaves i)
  := ⟨fun w => ⟨.refl w, rfl⟩, fun h h' => ⟨h.1.trans h'.1, h'.2.trans h.2⟩⟩

section Rules

variable {env : Env} {Offline : String → Prop} {i : ι} {w w₁ w' : World (Air ι)}

theorem Fine.later (h : Fine Offline i w) (leaves : Leaves i w w') :
  Fine Offline i w'
  := by
  unfold Fine at h ⊢
  rw [leaves.2]
  exact h.imp id fun announced => announced.later leaves.1.commits

/-- What was announced stays announced. -/
theorem announced_later (w w' : World (Air ι)) (leaves : Leaves i w w')
    (h : Announced Offline w.commits (w.outside i)) :
  Announced Offline w'.commits (w'.outside i)
  := by
  rw [leaves.2]
  exact h.later leaves.1.commits

/-- Steps that send nothing. -/
theorem behaves_of_silent (grows : w.Grows w') (same : w'.outside = w.outside) :
  Behaves Offline i w w' ∧ Leaves i w w'
  := by
  have leaves : Leaves i w w' := ⟨grows, congrFun same i⟩
  exact ⟨⟨grows, fun j _ => congrFun same j, fun fine => fine.later leaves⟩, leaves⟩

/-- Nothing has been sent for the call yet. -/
structure Waiting (i : ι) (w : World (Air ι)) : Prop where
  silent : w.outside i = []
  current : w.Current

/-- Nothing has been sent for the call yet, and a change was committed. -/
def Committed (i : ι) (workspaceId productId action : String) (w : World (Air ι)) : Prop :=
  Waiting i w ∧ ∃ change older, change :: older <:+ w.commits
    ∧ Changes workspaceId productId change.1 change.2 action

theorem Waiting.later (h : Waiting i w) (leaves : Leaves i w w') :
  Waiting i w'
  := ⟨leaves.2.trans h.silent, leaves.1.current h.current⟩

theorem Committed.later {workspaceId productId action : String}
    (h : Committed i workspaceId productId action w) (leaves : Leaves i w w') :
  Committed i workspaceId productId action w'
  := by
  obtain ⟨waiting, change, older, committed, changes⟩ := h
  exact ⟨waiting.later leaves, change, older, committed.trans leaves.1.commits, changes⟩

/-- The members that a call reads after its change. -/
theorem Committed.since {workspaceId productId action : String}
    (h : Committed i workspaceId productId action w) :
  ∃ change, Changes workspaceId productId change.1 change.2 action
    ∧ Since w.commits change w.db
  := by
  obtain ⟨waiting, change, older, committed, changes⟩ := h
  refine ⟨change, changes, older, ?_⟩
  cases hcommits : w.commits with
  | nil =>
      rw [hcommits] at committed
      cases List.eq_nil_of_suffix_nil committed
  | cons latest rest =>
      refine ⟨latest, rest, hcommits ▸ committed, List.suffix_rfl, ?_⟩
      exact (waiting.current latest (by rw [hcommits]; rfl)).symm

/-- Nothing has been sent for the call yet, and these were the members after a change. -/
def Listed (i : ι) (workspaceId productId action : String) (recipients : List String)
    (w : World (Air ι)) : Prop :=
  w.outside i = [] ∧ ∃ change db, Changes workspaceId productId change.1 change.2 action
    ∧ Since w.commits change db
    ∧ (db.members.rows.filter (·.workspaceId = workspaceId)).map Member.userId = recipients

theorem Listed.later {workspaceId productId action : String} {recipients : List String}
    (h : Listed i workspaceId productId action recipients w) (leaves : Leaves i w w') :
  Listed i workspaceId productId action recipients w'
  := by
  obtain ⟨silent, change, db, changes, since, members⟩ := h
  exact ⟨leaves.2.trans silent, change, db, changes, since.later leaves.1.commits, members⟩

variable [DecidableEq ι]

/-- A request that tells nobody of a change. -/
theorem answers_silent {request : Request μ β} (silent : ¬ request.Publishes)
    {y : Except Failure β} (h : (live env Offline i).machine.Answers request w y w') :
  w.Grows w' ∧ w'.outside = w.outside
  := by
  have closed : (live (μ := μ) env Offline i).Closed := fun _ => not_false
  obtain ⟨_, h⟩ := h
  cases h with
  | read meanwhile => exact ⟨.idle (meanwhile.idle closed) rfl, rfl⟩
  | commit meanwhile => exact ⟨.commit _ _ _, rfl⟩
  | raise meanwhile => exact ⟨.idle (meanwhile.idle closed) rfl, rfl⟩
  | violate meanwhile => exact ⟨.idle (meanwhile.idle closed) rfl, rfl⟩
  | fault meanwhile => exact ⟨.idle (meanwhile.idle closed) rfl, rfl⟩
  | outside meanwhile _ answer =>
      refine ⟨.idle (meanwhile.idle closed) rfl, ?_⟩
      cases request with
      | publish => exact absurd trivial silent
      | now => exact answer.2
      | _ => exact answer

/-- A program that tells nobody of a change keeps what the call knows. -/
theorem holds_silent {x : Service μ α} (silent : x.Asks fun request => ¬ request.Publishes)
    {pre : World (Air ι) → Prop} (waiting : ∀ w w', Leaves i w w' → pre w → pre w') (h : pre w) :
  x.Holds (live env Offline i).machine (Leaves i) (Behaves Offline i) (fun _ => pre) w
  := by
  have both : x.Holds (live env Offline i).machine (Leaves i)
      (fun w w' => Behaves Offline i w w' ∧ Leaves i w w') (fun _ => pre) w := by
    refine Holds.of_asks (stable_leaves i) silent (fun _ _ step => step.2)
      (fun silent _ answer => ?_) fun _ w' later => waiting w w' later h
    obtain ⟨grows, same⟩ := answers_silent silent answer
    exact behaves_of_silent grows same
  exact both.weaken fun _ _ step => step.1

/-! ### Calls that change products -/

/-- A transaction that changes a product. -/
theorem holds_write {body : Tx α} {workspaceId action : String} (productId : α → String)
    (changes : ∀ s a s', Returns body env s a s' →
      Changes workspaceId (productId a) s.db s'.db action) (h : Waiting i w) :
  (transaction body : Service μ α).Holds (live env Offline i).machine (Leaves i)
    (Behaves Offline i) (fun y w' => match y with
      | .ok a => Committed i workspaceId (productId a) action w'
      | .error _ => Waiting i w') w
  := by
  have waiting (w w' : World (Air ι)) (leaves : Leaves i w w') (h : Waiting i w) : Waiting i w' :=
    h.later leaves
  refine Setting.holds_transaction (stable_leaves i) waiting ?_ (fun _ _ h => h) h
  intro w₁ z w₂ h₁ answer
  obtain ⟨grows, same⟩ := answers_silent (by exact not_false) answer
  have ⟨behaves, leaves⟩ : Behaves Offline i w₁ w₂ ∧ Leaves i w₁ w₂ := behaves_of_silent grows same
  refine ⟨behaves, ?_⟩
  obtain ⟨_, s, _, ⟨a, s', rfl, returns, _, rfl⟩ | ⟨e, rfl, rfl, _⟩⟩ :=
    Setting.answers_attempt answer
  · intro w₃ later
    have committed : Committed i workspaceId (productId a) action (w₁.commit s s') :=
      ⟨h₁.later leaves, _, _, List.suffix_rfl, changes s a s' returns⟩
    exact committed.later later
  · exact h₁.later leaves

/-- A request that tells nobody of a change, and what its answer says. -/
theorem holds_request {request : Request μ β} (silent : ¬ request.Publishes)
    {pre : World (Air ι) → Prop} {mid : Except Failure β → World (Air ι) → Prop}
    (waiting : ∀ w w', Leaves i w w' → pre w → pre w')
    (replying : ∀ z w w', Leaves i w w' → mid z w → mid z w')
    (step : ∀ w z w', pre w → (live env Offline i).machine.Answers request w z w' →
      Leaves i w w' → mid z w') (h : pre w) :
  (perform request).Holds (live env Offline i).machine (Leaves i) (Behaves Offline i) mid w
  := by
  refine Holds.perform_stable waiting replying (fun w₁ z w₂ h₁ answer => ?_) h
  obtain ⟨grows, same⟩ := answers_silent silent answer
  have ⟨behaves, leaves⟩ : Behaves Offline i w₁ w₂ ∧ Leaves i w₁ w₂ := behaves_of_silent grows same
  exact ⟨behaves, step w₁ z w₂ h₁ answer leaves⟩

/-- The members are read from the rows after the change. -/
theorem holds_userIds {workspaceId productId action : String}
    (h : Committed i workspaceId productId action w) :
  (read (Members.userIds workspaceId) : Service μ (List String)).Holds
    (live env Offline i).machine (Leaves i) (Behaves Offline i)
    (fun y w' => ∀ recipients, y = .ok recipients →
      Listed i workspaceId productId action recipients w') w
  := by
  refine holds_request (by exact not_false) (fun _ _ later h => h.later later)
    (fun _ _ _ later h recipients hz => (h recipients hz).later later) ?_ h
  intro w₁ z w₂ h₁ answer leaves recipients hz
  obtain ⟨s, meanwhile, _, hy | ⟨_, e, rfl⟩⟩ := Setting.answers_read answer
  · have db : s.db = w₁.db := meanwhile.idle fun _ => not_false
    obtain ⟨change, changes, since⟩ := h₁.since
    have listed : Listed i workspaceId productId action recipients w₁ :=
      ⟨h₁.1.silent, change, w₁.db, changes, since, db ▸ Except.ok.inj (hy.symm.trans hz)⟩
    exact listed.later leaves
  · cases hz

/-- The time is read while nothing is sent. -/
theorem holds_now {workspaceId productId action : String} {recipients : List String}
    (h : Listed i workspaceId productId action recipients w) :
  (perform .now : Service μ Time).Holds (live env Offline i).machine (Leaves i)
    (Behaves Offline i) (fun y w' => ∀ time, y = .ok time → Calendar.InRange time
      ∧ Listed i workspaceId productId action recipients w') w
  := by
  refine holds_request (by exact not_false) (fun _ _ later h => h.later later)
    (fun _ _ _ later h time hz => (h time hz).imp_right (·.later later)) ?_ h
  intro w₁ z w₂ h₁ answer leaves time hz
  obtain ⟨_, s, _, ⟨_, ⟨⟨time', inRange, hz'⟩, _⟩, _⟩ | ⟨_, _, e, rfl⟩⟩ :=
    Setting.answers_outside (by exact not_false) answer
  · obtain rfl := Except.ok.inj (hz'.symm.trans hz)
    exact ⟨inRange, h₁.later leaves⟩
  · cases hz

/-- The requests for different people are sent, and some of them arrive. -/
theorem holds_publish {event : ChangeEvent} {recipients : List String}
    (inRange : Calendar.InRange event.time)
    (h : Listed i event.ownerId event.id event.action recipients w) :
  (perform (.publish event recipients) : Service μ Unit).Holds (live env Offline i).machine
    (Leaves i) (Behaves Offline i)
    (fun y w' => y = .ok () → Announced Offline w'.commits (w'.outside i)) w
  := by
  have waiting (w w' : World (Air ι)) (leaves : Leaves i w w')
      (h : Listed i event.ownerId event.id event.action recipients w) :
      Listed i event.ownerId event.id event.action recipients w' := h.later leaves
  refine Holds.perform_stable waiting ?_ ?_ h
  · intro z w₁ w₂ later h₁ hz
    rw [later.2]
    exact (h₁ hz).later later.1.commits
  · intro w₁ z w₂ h₁ answer
    obtain ⟨_, s, meanwhile, ⟨air, ⟨_, told, sub, others, rfl⟩, rfl⟩ | ⟨_, rfl, e, rfl⟩⟩ :=
      Setting.answers_outside (by exact not_false) answer
    · have same : s.db = w₁.db := meanwhile.idle fun _ => not_false
      obtain ⟨silent, change, db, changes, since, rfl⟩ := h₁
      have distinct : told.Nodup := by
        obtain ⟨_, perm, sublist⟩ := sub
        exact perm.nodup_iff.mp ((db.nodup_userIds _).sublist sublist)
      have grows : w₁.Grows ⟨s, Function.update w₁.outside i
          (w₁.outside i ++ told.map (body event)), w₁.commits⟩ := .idle same rfl
      have announced : Announced Offline w₁.commits
          (Function.update w₁.outside i (w₁.outside i ++ told.map (body event)) i) := by
        rw [Function.update_self, silent, List.nil_append]
        exact ⟨event, change, db, told, since, changes, inRange, distinct,
          fun userId hmem => Db.mem_userIds.mp (sub.subset hmem),
          fun userId hmem => others userId (Db.mem_userIds.mpr hmem), rfl⟩
      exact ⟨⟨grows, fun j hj => Function.update_of_ne hj _ _, fun _ => Or.inr announced⟩,
        fun _ => announced⟩
    · have same : s.db = w₁.db := meanwhile.idle fun _ => not_false
      have grows : w₁.Grows (w₁.wait s) := .idle same rfl
      exact ⟨(behaves_of_silent grows rfl).1, nofun⟩

/-- A committed change is announced, unless the call fails. -/
theorem holds_notify {workspaceId productId action : String}
    (h : Committed i workspaceId productId action w) :
  (ProductService.notify action productId workspaceId : Service μ Unit).Holds
    (live env Offline i).machine (Leaves i) (Behaves Offline i)
    (fun y w' => y = .ok () → Announced Offline w'.commits (w'.outside i)) w
  := by
  unfold ProductService.notify
  refine Holds.bind (stable_leaves i) ((holds_userIds h).mono fun y w₁ hy => ?_)
  cases y with
  | error e => exact nofun
  | ok recipients =>
      refine Holds.bind (stable_leaves i) ((holds_now (hy _ rfl)).mono fun y w₂ hy => ?_)
      cases y with
      | error e => exact nofun
      | ok time =>
          obtain ⟨inRange, listed⟩ := hy time rfl
          exact holds_publish inRange listed

/-- A change of a product, its announcement, and what comes after it. -/
theorem holds_change {body : Tx α} {workspaceId action : String} (productId : α → String)
    (rest : α → Service μ β)
    (changes : ∀ s a s', Returns body env s a s' →
      Changes workspaceId (productId a) s.db s'.db action)
    (silent : ∀ a, (rest a).Asks fun request => ¬ request.Publishes) (h : Waiting i w) :
  (transaction body >>= fun a => ProductService.notify action (productId a) workspaceId >>= fun _ =>
    rest a).Holds (live env Offline i).machine (Leaves i) (Behaves Offline i)
    (fun y w' => (∃ b, y = .ok b) → Announced Offline w'.commits (w'.outside i)) w
  := by
  refine Holds.bind (stable_leaves i) ((holds_write productId changes h).mono fun y w₁ hy => ?_)
  cases y with
  | error e => exact fun ⟨_, he⟩ => nomatch he
  | ok a =>
      refine Holds.bind (stable_leaves i) ((holds_notify hy).mono fun y w₂ hy => ?_)
      cases y with
      | error e => exact fun ⟨_, he⟩ => nomatch he
      | ok _ =>
          exact (holds_silent (silent a) announced_later (hy rfl)).mono fun _ _ h _ => h

end Rules

/-! ### What the transactions change -/

section Changes

variable {env : Env} {s s' : Session} {workspaceId productId : String}

theorem changes_create {quotas : ProductQuotas} {name : String} {sku : Option String}
    {price : Price} {status : ProductStatus} {description : Option String} {product : Product}
    (h : Returns (ProductTx.create quotas workspaceId name sku price status description) env s
      product s') :
  Changes workspaceId product.id s.db s'.db "created"
  := by
  obtain ⟨_, _, fresh, rfl, rfl⟩ := ProductTx.returns_create.mp h
  exact .created fresh (Table.get_put_self _ _) rfl

theorem changes_update {changes : ProductChanges} {ifMatch : Option Time} {product : Product}
    (h : Returns (ProductTx.update workspaceId productId changes ifMatch) env s product s') :
  Changes workspaceId productId s.db s'.db "updated"
  := by
  obtain ⟨row, stored, own, _, ⟨_, _, rfl⟩ | ⟨_, _, _, rfl⟩⟩ := ProductTx.returns_update.mp h
  · exact .updated stored own stored own
  · obtain ⟨_, rfl⟩ := Table.get_eq_some_iff.mp stored
    exact .updated stored own (Table.get_put_self _ _) own

theorem changes_delete {product : Product}
    (h : Returns (ProductTx.delete workspaceId productId) env s product s') :
  Changes workspaceId productId s.db s'.db "deleted"
  := by
  obtain ⟨row, stored, own, _, rfl⟩ := ProductTx.returns_delete.mp h
  exact .deleted stored own (Table.get_erase_self _ _)

theorem changes_attach {quotas : ProductQuotas} {uploadKey : String} {stored : StoredImage}
    {image : ProductImage}
    (h : Returns (ProductTx.attach quotas workspaceId productId stored uploadKey) env s image s') :
  Changes workspaceId productId s.db s'.db "updated"
  := by
  obtain ⟨⟨row, stored, own⟩, _, _, _, _, rfl⟩ := ProductTx.returns_attach.mp h
  exact .updated stored own stored own

theorem changes_removeImage {imageId : String} {image : ProductImage}
    (h : Returns (ProductTx.removeImage workspaceId productId imageId) env s image s') :
  Changes workspaceId productId s.db s'.db "updated"
  := by
  obtain ⟨⟨row, stored, own⟩, _, rfl⟩ := ProductTx.returns_removeImage.mp h
  exact .updated stored own stored own

theorem changes_reorderImages {imageIds : List String} {product : Product}
    (h : Returns (ProductTx.reorderImages workspaceId productId imageIds) env s product s') :
  Changes workspaceId productId s.db s'.db "updated"
  := by
  obtain ⟨⟨row, stored, own⟩, _, _, rfl⟩ := ProductTx.returns_reorderImages h
  exact .updated stored own stored own

end Changes

/-! ### The calls -/

/-- The calls that always change a product, if they return. -/
def Call.ChangesProduct : Call → Prop
  | .createProduct .. | .updateProduct .. | .deleteProduct .. | .removeImage ..
  | .reorderImages .. => True
  | _ => False

section Calls

variable {env : Env} {Offline : String → Prop} {i : ι} {w : World (Air ι)} {services : Services μ}

theorem silent_media {x : Service μ α} (asks : x.Asks Request.OfMedia) :
  x.Asks fun request => ¬ request.Publishes
  := asks.mono fun {_} {request} media => by
    cases request with
    | publish => exact media.elim
    | _ => exact not_false

theorem silent_read (query : Tx α) :
  (read query : Service μ α).Asks fun request => ¬ request.Publishes
  := .perform not_false

theorem silent_transaction (body : Tx α) :
  (transaction body : Service μ α).Asks fun request => ¬ request.Publishes
  := asks_transaction not_false

theorem silent_purge (proper : services.media.Proper) (rounds : ℕ) (workspaceId : String) :
  (WorkspacePurge.purge services.media rounds workspaceId).Asks fun request =>
    ¬ request.Publishes
  := by
  refine Asks.bind ?_ fun _ => (silent_transaction _).bind fun key =>
    silent_media (proper.deleteSome key)
  induction rounds with
  | zero => trivial
  | succ rounds ih =>
      refine (silent_transaction _).bind fun result => Asks.bind ?_ fun _ => ?_
      · exact silent_media (proper.deleteAll _)
      · split
        · trivial
        · exact ih

theorem silent_purgeEach (proper : services.media.Proper) (rounds : ℕ)
    (workspaceIds : List String) :
  (WorkspacePurge.purgeEach services.media rounds workspaceIds).Asks fun request =>
    ¬ request.Publishes
  := by
  induction workspaceIds with
  | nil => trivial
  | cons workspaceId workspaceIds ih =>
      exact (silent_purge proper rounds workspaceId).bind fun _ => ih

/-- The calls that change no product tell nobody. -/
theorem Call.silent (proper : services.media.Proper) {call : Call}
    (other : call.ChangesProduct → False)
    (unconfirmed : ∀ workspaceId productId uploadKey,
      call ≠ .confirmImage workspaceId productId uploadKey) :
  (call.program services).Asks fun request => ¬ request.Publishes
  := by
  have settles {body : Tx Unit} := silent_transaction (μ := μ) body
  cases call with
  | createWorkspace => exact asks_discarded (asks_duplicateAs (silent_transaction _))
  | updateWorkspace => exact asks_discarded (asks_duplicateAs (silent_transaction _))
  | setLogo workspaceId uploadKey userId =>
      refine asks_discarded ((silent_read _).bind fun _ =>
        (silent_media (proper.storeSome uploadKey)).bind fun key =>
          (Asks.outcome (silent_transaction _)).bind fun outcome => ?_)
      split
      · exact (silent_media (proper.deleteSome _)).bind fun _ => trivial
      · exact (silent_media (proper.deleteSome _)).bind fun _ => trivial
  | deleteWorkspace => exact settles
  | saveRole => exact asks_discarded (asks_duplicateAs (silent_transaction _))
  | deleteRole => exact settles
  | setPermissions => exact settles
  | setMemberRole => exact settles
  | removeMember => exact settles
  | transfer => exact settles
  | invite =>
      exact asks_discarded ((silent_transaction _).bind fun _ =>
        (Asks.outcome (.perform not_false)).bind fun _ => trivial)
  | revokeInvitation => exact settles
  | acceptInvitation => exact asks_discarded (silent_transaction _)
  | purge workspaceId => exact silent_purge proper _ workspaceId
  | purgeAll =>
      exact asks_discarded ((silent_read _).bind fun workspaceIds =>
        (silent_purgeEach proper _ workspaceIds).bind fun _ => trivial)
  | register email password displayName invitationToken =>
      refine Asks.bind (.outcome (.perform not_false)) fun outcome => ?_
      split
      · trivial
      · trivial
      · trivial
      · exact settles
  | ensureAccount sub accessToken =>
      refine asks_discarded ((silent_read _).bind fun known => ?_)
      split
      · trivial
      · refine Asks.bind (.perform not_false) fun _ => Asks.ofExcept.bind fun _ =>
          settles.bind fun _ => (silent_read _).bind fun user => ?_
        split <;> trivial
  | rename =>
      exact asks_discarded ((silent_transaction _).bind fun _ => silent_read _)
  | setAvatar userId uploadKey =>
      refine asks_discarded ((silent_read _).bind fun _ =>
        (silent_media (proper.storeSome uploadKey)).bind fun key =>
          (Asks.outcome (silent_transaction _)).bind fun outcome => ?_)
      split
      · exact (silent_media (proper.deleteSome _)).bind fun _ => silent_read _
      · exact (silent_media (proper.deleteSome _)).bind fun _ => trivial
  | deleteAccount userId =>
      exact (silent_read _).bind fun _ => (silent_read _).bind fun workspaceIds =>
        (silent_purgeEach proper _ workspaceIds).bind fun _ =>
          (silent_transaction _).bind fun user =>
            (silent_media (proper.deleteSome _)).bind fun _ =>
              (Asks.outcome (.perform not_false)).bind fun _ => trivial
  | confirmImage workspaceId productId uploadKey =>
      exact absurd rfl (unconfirmed workspaceId productId uploadKey)
  | _ => exact (other trivial).elim

variable [DecidableEq ι]

/-- What comes after a program that tells nobody. -/
theorem holds_after_silent {x : Service μ α} {f : α → Service μ β}
    (silent : x.Asks fun request => ¬ request.Publishes) (h : Waiting i w)
    (next : ∀ a w₁, Waiting i w₁ → (f a).Holds (live env Offline i).machine (Leaves i)
      (Behaves Offline i) (fun _ _ => True) w₁) :
  (x >>= f).Holds (live env Offline i).machine (Leaves i) (Behaves Offline i)
    (fun _ _ => True) w
  := by
  refine Holds.bind (stable_leaves i)
    ((holds_silent silent (fun _ _ later h => h.later later) h).mono fun y w₁ h₁ => ?_)
  cases y with
  | ok a => exact next a w₁ h₁
  | error e => trivial

/-- A call to attach an image announces the change, if it commits it. -/
theorem holds_attach (proper : services.media.Proper) {workspaceId productId uploadKey : String}
    {stored : StoredImage} (h : Waiting i w) :
  (services.products.attach workspaceId productId stored uploadKey).Holds
    (live env Offline i).machine (Leaves i) (Behaves Offline i) (fun _ _ => True) w
  := by
  have discards : (services.products.discard stored).Asks fun request => ¬ request.Publishes :=
    silent_media ((proper.delete _).bind fun _ => proper.delete _)
  unfold ProductService.attach
  refine Holds.bind (stable_leaves i) (Holds.outcome ((holds_write (fun _ => productId)
    (fun _ _ _ returns => changes_attach returns) h).mono fun y w₁ hy => ?_))
  cases y with
  | ok image =>
      refine Holds.bind (stable_leaves i) ((holds_notify hy).mono fun y w₂ _ => ?_)
      cases y with
      | ok _ => exact fun _ _ => trivial
      | error e => trivial
  | error e =>
      cases e with
      | duplicate =>
          refine holds_after_silent discards hy fun _ w₂ h₂ => ?_
          refine holds_after_silent (silent_read _) h₂ fun winner w₃ _ => ?_
          cases winner with
          | some winner => exact fun _ _ => trivial
          | none => exact fun _ _ => trivial
      | _ => exact holds_after_silent discards hy fun _ _ _ _ _ => trivial

/-- A call to confirm an image announces the change, if it commits it. -/
theorem holds_confirmImage (proper : services.media.Proper)
    {workspaceId productId uploadKey : String} (h : Waiting i w) :
  (services.products.confirmImage workspaceId productId uploadKey).Holds
    (live env Offline i).machine (Leaves i) (Behaves Offline i) (fun _ _ => True) w
  := by
  unfold ProductService.confirmImage
  refine holds_after_silent (silent_read _) h fun _ w₁ h₁ => ?_
  refine holds_after_silent .ofExcept h₁ fun _ w₂ h₂ => ?_
  refine holds_after_silent (silent_read _) h₂ fun existing w₃ h₃ => ?_
  cases existing with
  | some existing => exact fun _ _ => trivial
  | none =>
      refine holds_after_silent (silent_media (proper.pendingSize _)) h₃ fun _ w₄ h₄ => ?_
      refine holds_after_silent (silent_read _) h₄ fun _ w₅ h₅ => ?_
      refine holds_after_silent .ofExcept h₅ fun _ w₆ h₆ => ?_
      refine holds_after_silent (silent_read _) h₆ fun _ w₇ h₇ => ?_
      refine holds_after_silent .ofExcept h₇ fun _ w₈ h₈ => ?_
      exact holds_after_silent (silent_media (proper.storeImage _)) h₈ fun _ _ h₉ =>
        holds_attach proper h₉

/-- A call of which the value is dropped. -/
theorem holds_discarded {x : Service μ α} {good : World (Air ι) → Prop}
    (later : ∀ w w', Leaves i w w' → good w → good w')
    (h : x.Holds (live env Offline i).machine (Leaves i) (Behaves Offline i)
      (fun y w' => (∃ b, y = .ok b) → good w') w) :
  (Call.program.discarded x).Holds (live env Offline i).machine (Leaves i) (Behaves Offline i)
    (fun y w' => y = .ok () → good w') w
  := by
  refine Holds.bind (stable_leaves i) (h.mono fun y w₁ hy => ?_)
  cases y with
  | ok b => exact fun w' leaves _ => later w₁ w' leaves (hy ⟨b, rfl⟩)
  | error e => exact nofun

/-- A call that always changes a product announces the change, unless it fails. -/
theorem Call.holds (proper : services.media.Proper) (call : Call) (h : Waiting i w) :
  (call.program services).Holds (live env Offline i).machine (Leaves i) (Behaves Offline i)
    (fun y w' => call.ChangesProduct → y = .ok () → Announced Offline w'.commits (w'.outside i)) w
  := by
  have quiet (other : call.ChangesProduct → False) (unconfirmed : ∀ workspaceId productId uploadKey,
      call ≠ .confirmImage workspaceId productId uploadKey) : (call.program services).Holds
        (live env Offline i).machine (Leaves i) (Behaves Offline i)
        (fun y w' => call.ChangesProduct → y = .ok () →
          Announced Offline w'.commits (w'.outside i)) w :=
    (holds_silent (call.silent proper other unconfirmed) (fun _ _ _ _ => trivial) trivial).mono
      fun _ _ _ changes => (other changes).elim
  cases call with
  | createProduct workspaceId name sku price status description =>
      exact (holds_discarded announced_later (holds_change (fun product => product.id)
        (fun product => pure product) (fun _ _ _ returns => changes_create returns)
        (fun _ => trivial) h)).mono fun _ _ hy _ => hy
  | updateProduct workspaceId productId changes ifMatch =>
      exact (holds_discarded announced_later (holds_change (fun _ => productId)
        (fun product => pure product) (fun _ _ _ returns => changes_update returns)
        (fun _ => trivial) h)).mono fun _ _ hy _ => hy
  | deleteProduct workspaceId productId =>
      exact (holds_change (fun _ => productId)
        (fun product => services.media.deleteAll product.storageKeys)
        (fun _ _ _ returns => changes_delete returns)
        (fun _ => silent_media (proper.deleteAll _)) h).mono fun _ _ hy _ h => hy ⟨(), h⟩
  | removeImage workspaceId productId imageId =>
      exact (holds_change (fun _ => productId)
        (fun image => services.media.deleteAll image.storageKeys)
        (fun _ _ _ returns => changes_removeImage returns)
        (fun _ => silent_media (proper.deleteAll _)) h).mono fun _ _ hy _ h => hy ⟨(), h⟩
  | reorderImages workspaceId productId imageIds =>
      exact (holds_discarded announced_later (holds_change (fun _ => productId)
        (fun product => pure product) (fun _ _ _ returns => changes_reorderImages returns)
        (fun _ => trivial) h)).mono fun _ _ hy _ => hy
  | confirmImage workspaceId productId uploadKey =>
      refine Holds.bind (stable_leaves i) ((holds_confirmImage proper h).mono fun y w₁ _ => ?_)
      cases y with
      | ok image => exact fun _ _ changes => changes.elim
      | error e => exact fun changes => changes.elim
  | _ => exact quiet id nofun

/-- What calls that run at once have sent and promised, at any time. -/
theorem Interleaved.announced (proper : services.media.Proper) {calls : ι → Call} {s : Session}
    {x : ι → Service μ Unit} {w : World (Air ι)}
    (run : Interleaved (fun i => (live env Offline i).machine)
      (fun i => (calls i).program services) ⟨s, fun _ => [], []⟩ x w) :
  (∀ i, x i = .done () → (calls i).ChangesProduct → Announced Offline w.commits (w.outside i))
    ∧ ∀ i, Fine Offline i w
  := by
  have kept (i : ι) (w w' : World (Air ι)) (behaves : Behaves Offline i w w')
      (fine : ∀ j, Fine Offline j w) (j : ι) : Fine Offline j w' := by
    by_cases hj : j = i
    · exact hj ▸ behaves.2.2 (fine i)
    · exact (fine j).later ⟨behaves.1, behaves.2.1 j hj⟩
  obtain ⟨holds, fine⟩ := run.holds stable_leaves
    (fun i j apart w w' behaves => ⟨behaves.1, behaves.2.1 i apart⟩)
    (fun i => (calls i).holds proper ⟨rfl, nofun⟩) (fun _ => Or.inl rfl) kept
  refine ⟨fun i ended changes => ?_, fine⟩
  have holds := holds i
  rw [ended] at holds
  exact holds w ((stable_leaves i).refl w) changes rfl

end Calls

/-! ### What people hear -/

/-- Of what was sent, each member hears the event once on their own channel, but for those whom
the delivery does not reach; nobody else hears anything, nor does anyone hear anything else. -/
def HeardByMembers (half : ℕ → Char) (Offline : String → Prop) (bodies : List (List Char))
    (event : ChangeEvent) (db : Db) : Prop :=
  ∀ path sub, onSubscribe path sub = true →
    heard half path bodies = [event] ∧ (db.member event.ownerId sub).isSome
    ∨ heard half path bodies = [] ∧ ((db.member event.ownerId sub).isSome → Offline sub)

theorem Told.heardByMembers {Offline : String → Prop} {commits : List (Db × Db)}
    {bodies : List (List Char)} {event : ChangeEvent} {change : Db × Db} {db : Db}
    {told : List String} (h : Told Offline commits bodies event change db told)
    (half : ℕ → Char) :
  HeardByMembers half Offline bodies event db
  := by
  intro path sub own
  rw [h.sent, heard_bodies half h.inRange own h.distinct]
  by_cases hsub : sub ∈ told
  · rw [if_pos hsub]
    exact Or.inl ⟨rfl, h.members sub hsub⟩
  · rw [if_neg hsub]
    exact Or.inr ⟨rfl, fun member => (h.others sub member).resolve_left hsub⟩

variable [DecidableEq ι]

/-- However calls run at once, and whatever fails: a call has sent nothing, or those who were members
after a change that was committed have each heard of it once. A call that always changes a product
has sent something when it returns. -/
theorem changes_announced {env : Env} {Offline : String → Prop} {services : Services μ}
    (proper : services.media.Proper) (half : ℕ → Char) {calls : ι → Call} {s : Session}
    {x : ι → Service μ Unit} {w : World (Air ι)}
    (run : Interleaved (fun i => (live env Offline i).machine)
      (fun i => (calls i).program services) ⟨s, fun _ => [], []⟩ x w) (i : ι) :
  w.outside i = [] ∧ ¬ (x i = .done () ∧ (calls i).ChangesProduct)
    ∨ ∃ event change db, Since w.commits change db ∧ event.Tells change
      ∧ HeardByMembers half Offline (w.outside i) event db
  := by
  obtain ⟨ended, fine⟩ := Interleaved.announced proper run
  have shown (h : Announced Offline w.commits (w.outside i)) :
      ∃ event change db, Since w.commits change db ∧ event.Tells change
        ∧ HeardByMembers half Offline (w.outside i) event db := by
    obtain ⟨event, change, db, told, h⟩ := h
    exact ⟨event, change, db, h.since, h.tells, h.heardByMembers half⟩
  by_cases promised : x i = .done () ∧ (calls i).ChangesProduct
  · exact Or.inr (shown (ended i promised.1 promised.2))
  · exact (fine i).imp (fun silent => ⟨silent, promised⟩) shown

/-- Ada deletes her product, and hears of it. -/
theorem changes_announced_of_delete :
  ∃ (w : World (Air Unit)) (event : ChangeEvent) (change : Db × Db) (db : Db),
    (heard Char.ofNat "/users/ada" (w.outside ())).length = 1
    ∧ Since w.commits change db ∧ event.Tells change
    ∧ HeardByMembers Char.ofNat (fun _ => False) (w.outside ()) event db
  := by
  let s : Session := .after .sample [.register "ada" "ada@acme.test" "Ada" none,
    .create "Acme" "acme" "ada", .createProduct ⟨1, 100⟩ "i" "Pen" none 100 .active none]
  let delete := ProductTx.delete "i" "iiiiii"
  let s' := (delete.run .sample s).2
  let m : Setting MediaRequest (Air Unit) := live .sample (fun _ => False) ()
  let calls : Unit → Call := fun _ => .deleteProduct "i" "iiiiii"
  let event : ChangeEvent := ⟨"deleted", "iiiiii", "i", 0⟩
  let w₁ : World (Air Unit) := World.commit ⟨s, fun _ => [], []⟩ s s'
  let w₂ : World (Air Unit) := ⟨w₁.session, Function.update w₁.outside () ([body event "ada"]),
    w₁.commits⟩
  obtain ⟨product, deleted, keys⟩ := Except.map_eq_ok.mp
    (show Product.storageKeys <$> (delete.run .sample s).1 = .ok [] by decide +kernel)
  have unique : s'.db.Unique := by decide +kernel
  have members : ((Members.userIds "i").run .sample s'.done).1 = .ok ["ada"] := by decide +kernel
  have inRange : Calendar.InRange 0 := by decide
  have commits : Ends m.machine (transaction delete : Service MediaRequest Product)
      ⟨s, fun _ => [], []⟩ (.ok product) w₁ :=
    Setting.commits trivial .refl (.of_run deleted) unique
  have notifies : Ends m.machine (ProductService.notify "deleted" "iiiiii" "i") w₁ (.ok ()) w₂ := by
    have sent : Broadcasts (μ := MediaRequest) (fun _ => False) () (.publish event ["ada"])
        w₁.outside (.ok ()) w₂.outside :=
      ⟨rfl, ["ada"], List.Subperm.refl _, fun _ => Or.inl, rfl⟩
    exact ends_bind.mpr (Or.inl ⟨["ada"], w₁, Setting.reads members trivial .refl,
      ends_bind.mpr (Or.inl ⟨0, w₁,
        ends_perform.mpr (Setting.answers_of_outside not_false ⟨⟨0, inRange, rfl⟩, rfl⟩ trivial),
        ends_perform.mpr (Setting.answers_of_outside not_false sent trivial)⟩)⟩)
  have ends : Ends m.machine ((calls ()).program portServices) ⟨s, fun _ => [], []⟩ (.ok ()) w₂ := by
    refine ends_bind.mpr (Or.inl ⟨product, w₁, commits, ends_bind.mpr ?_⟩)
    refine Or.inl ⟨(), w₂, notifies, ?_⟩
    rw [keys]
    exact .done () w₂
  have begun : Interleaved (fun _ : Unit => m.machine) (fun i => (calls i).program portServices)
      ⟨s, fun _ => [], []⟩ (fun i => (calls i).program portServices) ⟨s, fun _ => [], []⟩ := .start
  have run := begun.ends (i := ()) rfl ends
  obtain ⟨_, running⟩ | ⟨event', change, db, since, tells, hears⟩ :=
    changes_announced (MediaStorage.port_proper id) Char.ofNat run ()
  · exact absurd ⟨Function.update_self _ _ _, trivial⟩ running
  · refine ⟨w₂, event', change, db, ?_, since, tells, hears⟩
    have own : onSubscribe "/users/ada" "ada" = true := by decide
    exact congrArg List.length (heard_bodies Char.ofNat inRange own (List.nodup_singleton "ada"))

end MvpApi
