import MvpApi.Runs.Scoped
import MvpApi.Safety.Isolation

/-!
# Isolation of the tenants

A call on one workspace leaves the rows of all others as they were, whatever ids it is given, and
changes of the accounts only the onboarding status of members. This holds of whole calls: of what
they read, of the one transaction they run, and of what they do afterwards.
-/

set_option autoImplicit false

namespace MvpApi

open Program Exec

variable {μ : Type → Type} {X : Type}

/-- The transactions of a call on a workspace are on that workspace. -/
theorem Call.Runs.scope {call : Call} {work : Work} (h : call.Runs work) :
  work.scope = call.scope
  := by
  cases h <;> rfl

/-- A call on the workspace `w` that runs alone leaves the rows of other workspaces as they were,
and of the accounts changes only the onboarding status of members of `w`. -/
theorem tenants_isolated {m : Setting μ X} (alone : ∀ work, ¬ m.Others work)
    {services : Services μ} (proper : services.media.Proper) {call : Call} {w : String}
    (on : call.scope = some w) {world world' : World X}
    (reachable : Reachable m.env (fun _ => True) world.session) {y : Except Failure Unit}
    (run : Ends m.machine (call.program services) world y world') :
  Isolated w world.db world'.db
  := by
  cases call.once proper on run with
  | never reaches _ =>
      rw [show world'.db = world.db from reaches.idle alone]
      exact .refl w world.db
  | @once s s' work runs before returns _ after _ =>
      have hbefore : s.db = world.db := before.idle alone
      have hafter : world'.db = s'.db := after.idle alone
      have here : Reachable m.env (fun _ => True) s :=
        reachable.trans (before.mono fun _ _ => trivial)
      rw [hafter, ← hbefore]
      exact (Work.effect returns).1.isolated (runs.scope.trans on) here.references here.catalogued

/-- Ada deletes her workspace; Bob's stays. -/
theorem tenants_isolated_of_delete :
  ∃ (m : Setting MediaRequest Unit) (services : Services MediaRequest) (world world' : World Unit),
    Ends m.machine ((Call.deleteWorkspace "i" "ada").program services) world (.ok ()) world'
    ∧ (world.db.live "i").isSome ∧ world'.db.live "i" = none
    ∧ (world.db.live "iiiiii").isSome ∧ (world'.db.live "iiiiii").isSome
  := by
  obtain ⟨s, reachable, returned, unique, before, after, other⟩ :
      ∃ s, Reachable .sample (fun _ => True) s
        ∧ ((WorkspaceTx.delete "i" "ada").run .sample s).1 = .ok ()
        ∧ ((WorkspaceTx.delete "i" "ada").run .sample s).2.db.Unique
        ∧ (s.db.live "i").isSome = true
        ∧ ((WorkspaceTx.delete "i" "ada").run .sample s).2.db.live "i" = none
        ∧ (s.db.live "iiiiii").isSome = true :=
    ⟨.after .sample [.register "ada" "ada@acme.test" "Ada" none, .create "Acme" "acme" "ada",
        .register "bob" "bob@club.test" "Bob" none, .create "Club" "club" "bob"],
      .after (by simp), by decide +kernel, by decide +kernel, by decide +kernel,
      by decide +kernel, by decide +kernel⟩
  let m : Setting MediaRequest Unit := .alone .sample fun _ _ _ _ => False
  let services : Services MediaRequest := ⟨.port id, ⟨1, 1⟩, "https://app.test", id, 1⟩
  let world : World Unit := ⟨s, (), []⟩
  have run : Ends m.machine ((Call.deleteWorkspace "i" "ada").program services) world (.ok ())
      (world.commit s _) :=
    Setting.commits trivial .refl (.of_run returned) unique
  have isolated := tenants_isolated (fun _ => id) (MediaStorage.port_proper id) rfl reachable run
  refine ⟨m, services, world, _, run, before, after, other, ?_⟩
  obtain ⟨workspace, hworkspace⟩ := Option.isSome_iff_exists.mp other
  obtain ⟨hmem, hid, hlive⟩ := Db.live_eq_some.mp hworkspace
  have elsewhere : workspace.id ≠ "i" := hid ▸ by decide
  have stays := (isolated.rows.workspaces workspace elsewhere).mpr hmem
  exact Option.isSome_iff_exists.mpr ⟨workspace, Db.live_eq_some.mpr ⟨stays, hid, hlive⟩⟩

end MvpApi
