import MvpApi.Library.Optimistic
import MvpApi.Runs.Effects

/-!
# Runs of the program

The transactions of the program run on the database in two ways. In `Reaches` they run one
at a time, on the session that the one before has left, and time passes in between.
In the `system` they overlap: each runs on a snapshot, at any time and drawing any ids, and
commits its changes if no transaction that committed since has written or locked a row that
it has written or locked. The database enforces the unique constraints at each commit.
-/

set_option autoImplicit false

namespace MvpApi

open Exec

/-! ### One at a time -/

/-- The session before the first transaction. -/
def Session.start : Session := ⟨.empty, [], 0, 0, 0⟩

/-- The session with nothing counted as written or locked. -/
def Session.done (s : Session) : Session := { s with touched := [] }

theorem Later.done {s s' : Session} (h : Later s s') :
  Later s s'.done
  := ⟨h.ticks, h.ids, h.tokens⟩

/-- An id that was drawn before a session. -/
def Session.Drawn (env : Env) (s : Session) (id : String) : Prop :=
  ∃ idx < s.ids, env.uuid7 idx = id

theorem Session.Drawn.mono {env : Env} {s s' : Session} {id : String} (h : s.Drawn env id)
    (later : Later s s') :
  s'.Drawn env id
  := by
  obtain ⟨idx, hidx, hid⟩ := h
  exact ⟨idx, hidx.trans_le later.ids, hid⟩

/-- The sessions reached from another by transactions that `ok` allows, one at a time. A
transaction that fails is undone, and leaves nothing but the ids it has drawn and the time it
took. -/
inductive Reaches (env : Env) (ok : Work → Prop) (s₀ : Session) : Session → Prop
  | refl : Reaches env ok s₀ s₀
  | commit {s s' : Session} {work : Work} {u : Unit} (run : Reaches env ok s₀ s)
      (allowed : ok work) (returns : Returns work.body env s u s') (unique : s'.db.Unique) :
      Reaches env ok s₀ s'.done
  | wait {s s' : Session} (run : Reaches env ok s₀ s) (later : Later s s')
      (same : s'.db = s.db) (clean : s'.touched = []) :
      Reaches env ok s₀ s'

/-- The sessions reached from an empty database. -/
def Reachable (env : Env) (ok : Work → Prop) (s : Session) : Prop :=
  Reaches env ok .start s

variable {env : Env} {ok : Work → Prop}

/-- In the sessions that are reached, time has passed. -/
theorem Reaches.later {s₀ s : Session} (h : Reaches env ok s₀ s) :
  Later s₀ s
  := by
  induction h with
  | refl => exact .refl s₀
  | commit _ _ returns _ ih => exact ih.trans (Work.effect returns).2.done
  | wait _ later _ _ ih => exact ih.trans later

theorem Reachable.touched {s : Session} (h : Reachable env ok s) :
  s.touched = []
  := by
  cases h with
  | refl => rfl
  | commit => rfl
  | wait _ _ _ clean => exact clean

/-- The unique constraints hold of every reachable session. -/
theorem Reachable.unique {s : Session} (h : Reachable env ok s) :
  s.db.Unique
  := by
  induction h with
  | refl => exact Db.empty_unique
  | commit _ _ _ unique => exact unique
  | wait _ _ same _ ih => exact same ▸ ih

/-- What is reached from a session that is reached is reached. -/
theorem Reaches.trans {s₀ s s' : Session} (h : Reaches env ok s₀ s) (run : Reaches env ok s s') :
  Reaches env ok s₀ s'
  := by
  induction run with
  | refl => exact h
  | commit _ allowed returns unique ih => exact .commit ih allowed returns unique
  | wait _ later same clean ih => exact .wait ih later same clean

/-- A session reached from a reachable one is reachable. -/
theorem Reachable.trans {s s' : Session} (h : Reachable env ok s) (run : Reaches env ok s s') :
  Reachable env ok s'
  := Reaches.trans h run

/-- More transactions reach more. -/
theorem Reaches.mono {ok' : Work → Prop} {s₀ s : Session} (h : Reaches env ok s₀ s)
    (more : ∀ work, ok work → ok' work) :
  Reaches env ok' s₀ s
  := by
  induction h with
  | refl => exact .refl
  | commit _ allowed returns unique ih => exact .commit ih (more _ allowed) returns unique
  | wait _ later same clean ih => exact .wait ih later same clean

/-- While nobody runs a transaction the rows stay. -/
theorem Reaches.idle {s₀ s : Session} (h : Reaches env ok s₀ s) (alone : ∀ work, ¬ ok work) :
  s.db = s₀.db
  := by
  induction h with
  | refl => rfl
  | commit _ allowed _ _ _ => exact absurd allowed (alone _)
  | wait _ _ same _ ih => exact same.trans ih

/-- A property of the rows holds of every reachable session if it holds of the empty
database and every effect keeps it. -/
theorem Reachable.invariant {P : Db → Prop} (empty : P .empty)
    (step : ∀ {s s' : Session} {work : Work}, ok work → P s.db → s.db.Unique →
      Effect env s s' work → s'.db.Unique → P s'.db)
    {s : Session} (h : Reachable env ok s) :
  P s.db
  := by
  induction h with
  | refl => exact empty
  | commit run allowed returns unique ih =>
      have next := step allowed ih (Reachable.unique run) (Work.effect returns).1 unique
      exact next
  | wait _ _ same _ ih => exact same ▸ ih

/-- The session after a transaction was tried: the one it leaves when it commits, and else
the one it found. -/
def Work.step (env : Env) (s : Session) (work : Work) : Session :=
  match work.body.run env s with
  | (.ok _, s') => if s'.db.Unique then s'.done else s
  | (.error _, _) => s

/-- A transaction that succeeds returns. -/
theorem Work.returns_of_ok {work : Work} {s : Session}
    (h : (work.body.run env s).1 = .ok ()) :
  Returns work.body env s () (work.body.run env s).2
  := .of_run h

/-- Trying transactions that are allowed, one after the other, leads on. -/
theorem Reaches.tried {s₀ s : Session} (h : Reaches env ok s₀ s) {works : List Work}
    (allowed : ∀ work ∈ works, ok work) :
  Reaches env ok s₀ (works.foldl (Work.step env) s)
  := by
  induction works generalizing s with
  | nil => exact h
  | cons work works ih =>
      refine ih ?_ fun work' hwork => allowed work' (List.mem_cons_of_mem _ hwork)
      unfold Work.step
      split
      · next s' returns =>
          split
          · next unique => exact .commit h (allowed work List.mem_cons_self) returns unique
          · exact h
      · exact h

/-- The session after some transactions were tried on an empty database. -/
def Session.after (env : Env) (works : List Work) : Session :=
  works.foldl (Work.step env) .start

theorem Reachable.after {works : List Work} (allowed : ∀ work ∈ works, ok work) :
  Reachable env ok (.after env works)
  := Reaches.tried .refl allowed

/-! ### Overlapping -/

/-- A run of a transaction on a snapshot: the rows it has changed, and those it has locked,
are its footprint. -/
def Runs (env : Env) (work : Work) (base final : Db) (footprint : Set RowId) : Prop :=
  ∃ s s' u, s.db = base ∧ s.touched = [] ∧ Returns work.body env s u s' ∧ s'.db = final
    ∧ footprint = base.changed final ∪ { row | row ∈ s'.touched }

/-- The transactions of the program, overlapping in any way. -/
def system (env : Env) : Optimistic.System Db RowId Work where
  merge := Db.merge
  Runs := Runs env
  Valid := Db.Unique

/-- A transaction that returns from a session with nothing locked is a run. -/
theorem Runs.of_run (env : Env) (work : Work) {s : Session} (clean : s.touched = [])
    (returns : (work.body.run env s).1 = .ok ()) :
  Runs env work s.db (work.body.run env s).2.db
    (s.db.changed (work.body.run env s).2.db ∪ { row | row ∈ (work.body.run env s).2.touched })
  := ⟨s, _, (), rfl, clean, Work.returns_of_ok returns, rfl, rfl⟩

namespace Db

instance (before after : Db) (row : RowId) : Decidable (row ∈ before.changed after) :=
  match row with
  | .user id => inferInstanceAs (Decidable (after.users.get id ≠ before.users.get id))
  | .workspace id =>
      inferInstanceAs (Decidable (after.workspaces.get id ≠ before.workspaces.get id))
  | .role id => inferInstanceAs (Decidable (after.roles.get id ≠ before.roles.get id))
  | .permission roleId permission =>
      inferInstanceAs (Decidable (after.rolePermissions.get (pair roleId permission)
        ≠ before.rolePermissions.get (pair roleId permission)))
  | .member workspaceId userId =>
      inferInstanceAs (Decidable (after.members.get (pair workspaceId userId)
        ≠ before.members.get (pair workspaceId userId)))
  | .invitation id =>
      inferInstanceAs (Decidable (after.invitations.get id ≠ before.invitations.get id))
  | .product id => inferInstanceAs (Decidable (after.products.get id ≠ before.products.get id))
  | .image id => inferInstanceAs (Decidable (after.images.get id ≠ before.images.get id))

/-- The names of the rows that there are. -/
def rowIds (db : Db) : Finset RowId :=
  db.users.keys.image .user ∪ db.workspaces.keys.image .workspace ∪ db.roles.keys.image .role
    ∪ db.rolePermissions.keys.image (fun k => .permission (ofLex k).1 (ofLex k).2)
    ∪ db.members.keys.image (fun k => .member (ofLex k).1 (ofLex k).2)
    ∪ db.invitations.keys.image .invitation ∪ db.products.keys.image .product
    ∪ db.images.keys.image .image

/-- A row that is changed is there before or after. -/
theorem mem_rowIds_of_changed {before after : Db} {row : RowId} (h : row ∈ before.changed after) :
  row ∈ before.rowIds ∪ after.rowIds
  := by
  have stored : ∀ {κ ρ : Type} {key : ρ → κ} {t t' : Table key} {k : κ},
      t'.get k ≠ t.get k → k ∈ t.keys ∨ k ∈ t'.keys := by
    intro κ ρ key t t' k hne
    rw [t.mem_keys, t'.mem_keys]
    cases hget : t.get k with
    | some r => exact Or.inl rfl
    | none =>
        rw [hget] at hne
        exact Or.inr (Option.isSome_iff_ne_none.mpr hne)
  rw [Finset.mem_union]
  cases row with
  | _ =>
      refine (stored h).imp (fun hk => ?_) fun hk => ?_
      · simpa [rowIds, pair] using hk
      · simpa [rowIds, pair] using hk

/-- Transactions of which the rows are apart have footprints apart. -/
theorem footprints_disjoint {base final₁ final₂ : Db} {touched₁ touched₂ : List RowId}
    (apart : ∀ row ∈ base.rowIds ∪ final₁.rowIds ∪ touched₁.toFinset,
      row ∈ base.changed final₁ ∨ row ∈ touched₁ → ¬ (row ∈ base.changed final₂ ∨ row ∈ touched₂)) :
  Disjoint (base.changed final₂ ∪ { row | row ∈ touched₂ })
    (base.changed final₁ ∪ { row | row ∈ touched₁ })
  := by
  refine Set.disjoint_right.mpr fun row hrow₁ hrow₂ => ?_
  refine apart row ?_ hrow₁ hrow₂
  rw [Finset.mem_union, List.mem_toFinset]
  exact hrow₁.imp_left mem_rowIds_of_changed

end Db

/-- A run has an effect on its snapshot. -/
theorem Runs.effect {work : Work} {base final : Db} {footprint : Set RowId}
    (h : Runs env work base final footprint) :
  ∃ s s', Effect env s s' work ∧ s.db = base ∧ s'.db = final ∧ s.touched = []
    ∧ (∀ row, row ∈ footprint ↔ row ∈ base.changed final ∨ row ∈ s'.touched)
  := by
  obtain ⟨s, s', u, hbase, htouched, returns, hfinal, rfl⟩ := h
  exact ⟨s, s', (Work.effect returns).1, hbase, hfinal, htouched, fun row => Iff.rfl⟩

/-- What transactions do one at a time they can do when they overlap. -/
theorem Reachable.history {s : Session} (h : Reachable env ok s) :
  ∃ commits, Optimistic.History (system env) .empty commits
    ∧ Optimistic.current .empty commits = s.db ∧ ∀ commit ∈ commits, ok commit.work
  := by
  induction h with
  | refl => exact ⟨[], .start, rfl, by simp⟩
  | @commit s s' work u run allowed returns unique ih =>
      obtain ⟨commits, history, hcurrent, hok⟩ := ih
      have runs : Runs env work (Optimistic.current .empty commits) s'.db
          (s.db.changed s'.db ∪ { row | row ∈ s'.touched }) :=
        ⟨s, s', u, hcurrent.symm, Reachable.touched run, returns, rfl, by rw [hcurrent]⟩
      have step := @Optimistic.History.commit Db RowId Work (system env) .empty [] commits work _ _
        history runs (by simp)
      rw [List.nil_append] at step
      simp only [system, Db.merge_base] at step
      refine ⟨_, step unique, rfl, ?_⟩
      intro commit hcommit
      rcases List.mem_cons.mp hcommit with rfl | hcommit
      · exact allowed
      · exact hok commit hcommit
  | wait _ _ same _ ih => exact same ▸ ih

end MvpApi
