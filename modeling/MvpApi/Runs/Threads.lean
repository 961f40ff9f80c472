import MvpApi.Runs.Calls

/-!
# Calls that run at once

When calls run at once, one request at a time, the rows change only where one of them commits a
transaction. Here one relation between worlds is both what each call may rely on and what it
guarantees: it may be followed for any number of steps, and it ignores what happens outside. Then
each kind of request has a rule: asking for anything but a transaction leaves what the call knows
as it was, and a transaction commits in one of its attempts, or not at all.
-/

set_option autoImplicit false

namespace MvpApi

namespace Setting

open Program Exec

variable {μ : Type → Type} {X α β : Type} {m : Setting μ X} {w : World X}

/-- Nobody runs transactions but the calls themselves. -/
def Closed (m : Setting μ X) : Prop := ∀ work, ¬ m.Others work

/-- What calls rely on and guarantee, if it is about the rows. -/
structure Common (R : World X → World X → Prop) : Prop extends Stable R where
  idle : ∀ {w w' : World X}, w'.db = w.db → w'.commits = w.commits → R w w'

variable {R : World X → World X → Prop}

/-- A query may be answered from the rows as they are. -/
theorem answers_of_run {query : Tx α} {y : Except Failure α}
    (hy : (query.run m.env w.session).1 = y)
    (allows : m.Allows (Request.read (μ := μ) query) w y) :
  m.machine.Answers (.read query) w y w
  := by
  subst hy
  exact ⟨allows, .read .refl⟩

/-- An attempt may commit if its body returns. -/
theorem answers_of_returns {body : Tx α} {s' : Session} {a : α}
    (returns : Returns body m.env w.session a s') (unique : s'.db.Unique)
    (allows : m.Allows (Request.attempt (μ := μ) body) w (.ok a)) :
  m.machine.Answers (.attempt body) w (.ok a) (w.commit w.session s')
  := ⟨allows, .commit .refl returns unique⟩

/-- Another request may be answered by the services outside. -/
theorem answers_of_outside {request : Request μ β} {y : Except Failure β} {x : X}
    (outside : ¬ request.OfDatabase) (answer : m.Outside request w.outside y x)
    (allows : m.Allows request w y) :
  m.machine.Answers request w y ⟨w.session, x, w.commits⟩
  := ⟨allows, .outside .refl outside answer⟩

/-- Requests other than attempts leave the rows as they are. -/
theorem Closed.quiet (closed : m.Closed) {request : Request μ β} (quiet : ¬ request.Attempts)
    {y : Except Failure β} {w' : World X} (h : m.machine.Answers request w y w') :
  w'.db = w.db ∧ w'.commits = w.commits
  := by
  obtain ⟨meanwhile, same⟩ := answers_quiet quiet h
  exact ⟨meanwhile.idle closed, same⟩

/-- A program that attempts no transaction may be run at any time. -/
theorem Closed.holds_quiet (closed : m.Closed) (common : Common R) {x : Service μ α}
    (asks : x.Asks fun request => ¬ request.Attempts) {post : Except Failure α → World X → Prop}
    (ends : ∀ y w', R w w' → post y w') :
  x.Holds m.machine R R post w
  := by
  refine Holds.of_asks common.toStable asks (fun _ _ h => h) (fun quiet _ answer => ?_) ends
  obtain ⟨same, commits⟩ := closed.quiet quiet answer
  exact common.idle same commits

/-- A query reads the rows as they are. -/
theorem Closed.holds_read (closed : m.Closed) (common : Common R) {query : Tx α}
    {post : Except Failure α → World X → Prop}
    (reads : ∀ w₁ s, R w w₁ → s.db = w₁.db → ∀ w₂, R w₁ w₂ → post (query.run m.env s).1 w₂)
    (fails : ∀ e w', R w w' → post (.error e) w') :
  (read query : Service μ α).Holds m.machine R R post w
  := by
  refine Holds.perform fun w₁ later y w₂ answer => ?_
  obtain ⟨s, meanwhile, rfl, hy⟩ := answers_read answer
  have same : s.db = w₁.db := meanwhile.idle closed
  have idle : R w₁ (w₁.wait s) := common.idle same rfl
  refine ⟨idle, fun w₃ later' => ?_⟩
  obtain rfl | ⟨_, e, rfl⟩ := hy
  · exact reads w₁ s later same w₃ (common.trans idle later')
  · exact fails e w₃ (common.trans (common.trans later idle) later')

/-- A transaction commits, once, or the rows are left as they are. -/
theorem Closed.holds_transaction (closed : m.Closed) (common : Common R) {body : Tx α}
    {post : Except Failure α → World X → Prop}
    (commits : ∀ w₁ s s' a, R w w₁ → s.db = w₁.db →
      m.Allows (Request.attempt (μ := μ) body) w₁ (.ok a) → Returns body m.env s a s' →
      s'.db.Unique → R w₁ (w₁.commit s s') ∧ ∀ w₂, R (w₁.commit s s') w₂ → post (.ok a) w₂)
    (fails : ∀ e w', R w w' → post (.error e) w') :
  (transaction body : Service μ α).Holds m.machine R R post w
  := by
  unfold transaction
  generalize UnitOfWork.attempts = left
  induction left generalizing w with
  | zero => exact fails _
  | succ left ih =>
      unfold UnitOfWork.transactionIn
      refine Holds.bind common.toStable (Holds.outcome (Holds.perform ?_))
      intro w₁ later y w₂ answer
      obtain ⟨allows, s, meanwhile, ⟨a, s', rfl, returns, unique, rfl⟩ | ⟨e, rfl, rfl, _⟩⟩ :=
        answers_attempt answer
      · obtain ⟨step, hpost⟩ := commits w₁ s s' a later (meanwhile.idle closed) allows returns unique
        exact ⟨step, fun w₃ later' w₄ later'' => hpost w₄ (common.trans later' later'')⟩
      · have idle : R w₁ (w₁.wait s) := common.idle (meanwhile.idle closed) rfl
        refine ⟨idle, fun w₃ later' => ?_⟩
        have reached : R w w₃ := common.trans (common.trans later idle) later'
        have failed : ∀ e', Holds m.machine R R post (.fail e' : Service μ α) w₃ :=
          fun e' w₄ later'' => fails e' w₄ (common.trans reached later'')
        cases e with
        | database sqlstate cause =>
            dsimp only
            split
            · exact failed _
            · split
              · exact failed _
              · refine ih (fun w₄ s₁ s₂ a later'' => ?_) fun e w₄ later'' => ?_
                · exact commits w₄ s₁ s₂ a (common.trans reached later'')
                · exact fails e w₄ (common.trans reached later'')
        | _ => exact failed _

/-- A transaction is attempted for as long as `pre` holds, until it commits or the call gives up. -/
theorem holds_transaction {rely guarantee : World X → World X → Prop} (stable : Stable rely)
    {body : Tx α} {pre : World X → Prop} {post : Except Failure α → World X → Prop}
    (waiting : ∀ w w', rely w w' → pre w → pre w')
    (attempt : ∀ w₁ z w₂, pre w₁ → m.machine.Answers (Request.attempt body) w₁ z w₂ →
      guarantee w₁ w₂ ∧ match z with
        | .ok a => ∀ w₃, rely w₂ w₃ → post (.ok a) w₃
        | .error _ => pre w₂)
    (fails : ∀ e w', pre w' → post (.error e) w') (h : pre w) :
  (transaction body : Service μ α).Holds m.machine rely guarantee post w
  := by
  unfold transaction
  generalize UnitOfWork.attempts = left
  induction left generalizing w with
  | zero => exact fun w' later => fails _ w' (waiting w w' later h)
  | succ left ih =>
      unfold UnitOfWork.transactionIn
      refine Holds.bind stable (Holds.outcome (Holds.perform ?_))
      intro w₁ later z w₂ answer
      obtain ⟨step, after⟩ := attempt w₁ z w₂ (waiting w w₁ later h) answer
      refine ⟨step, fun w₃ later' => ?_⟩
      cases z with
      | ok a => exact fun w₄ later'' => after w₄ (stable.trans later' later'')
      | error e =>
          have h₃ : pre w₃ := waiting w₂ w₃ later' after
          have failed : ∀ e', Holds m.machine rely guarantee post (.fail e' : Service μ α) w₃ :=
            fun e' w₄ later'' => fails e' w₄ (waiting w₃ w₄ later'' h₃)
          cases e with
          | database sqlstate cause =>
              dsimp only
              split
              · exact failed _
              · split
                · exact failed _
                · exact ih h₃
          | _ => exact failed _

end Setting

end MvpApi
