import MvpApi.Database.UnitOfWork

/-!
# Transactions take effect once or not at all

The work of a transaction is run again only when an attempt lost a race, and what attempts that
failed have done is undone. So the last attempt decides: it has run the whole work on the tables
that were current when it began, and either all it did is committed and its value returned, or
nothing is committed and an error is raised.
-/

set_option autoImplicit false

namespace MvpApi

namespace SqlUnitOfWork

open Exec

variable {σ α : Type}

/-! ### One attempt -/

/-- An attempt lost a race: a `DBAPIError` with the SQLSTATE of one that is no unique violation. -/
def Raised.LostRace (e : Raised) : Prop :=
  e.isIntegrityError = false ∧ e.serializationFailure = true

instance (e : Raised) : Decidable e.LostRace := inferInstanceAs (Decidable (_ ∧ _))

/-- What an error of an attempt that is not made again surfaces as. -/
def Raised.surface (e : Raised) : Raised :=
  if e.isIntegrityError then .duplicateError e.message
  else if e.LostRace then .concurrencyConflictError
  else e

/-- The last of the lost races surfaces as a conflict. -/
theorem Raised.LostRace.surface {e : Raised} (h : e.LostRace) :
  e.surface = .concurrencyConflictError
  := by
  rw [Raised.surface, h.1, if_neg Bool.false_ne_true, if_pos h]

/-- Errors that are neither unique violations nor lost races are raised as they are. -/
theorem Raised.surface_eq_self {e : Raised} (hintegrity : e.isIntegrityError = false)
    (h : ¬ e.LostRace) :
  e.surface = e
  := by
  rw [Raised.surface, hintegrity, if_neg Bool.false_ne_true, if_neg h]

/-- What an attempt comes to on some tables: the value of the work and the tables that are
committed, or an error. -/
def Attempt.outcome (attempt : Attempt σ α) (tables : σ) : Except Raised (α × σ) :=
  match attempt.work tables, attempt.commit with
  | (.error e, _), _ => .error e
  | (.ok _, _), some e => .error e
  | (.ok a, changed), none => .ok (a, changed)

/-- Only a `DBAPIError` reports a lost race. -/
theorem Raised.LostRace.isDBAPIError {e : Raised} (h : e.LostRace) :
  e.isDuplicateError = false ∧ e.isDBAPIError = true
  := by
  cases e with
  | integrityError orig => cases h.1
  | dbapiError orig => exact ⟨rfl, rfl⟩
  | duplicateError | concurrencyConflictError | assertionError | domainError | other => cases h.2

/-- An error that ends the transaction leaves nothing in the session. -/
theorem except_surface {env : ℕ → Attempt σ α} {s : Connection σ} {i : ℕ} {last : Bool}
    {e : Raised} (h : e.LostRace → last = true) :
  (except i last e).run env s = (.error e.surface, { s with changed := none })
  := by
  rw [except, Raised.surface]
  by_cases hintegrity : e.isIntegrityError = true
  · rw [if_pos hintegrity, if_pos hintegrity]
    rfl
  rw [if_neg hintegrity, if_neg hintegrity]
  by_cases hlost : e.LostRace
  · obtain ⟨hduplicate, hdbapi⟩ := hlost.isDBAPIError
    rw [if_pos hlost, if_neg (by rw [hduplicate]; decide), if_pos hdbapi, h hlost,
      if_neg (by rw [hlost.2]; decide), if_pos rfl]
    rfl
  · rw [if_neg hlost]
    have hstate : e.serializationFailure = false := by
      by_contra hne
      exact hlost ⟨by simpa using hintegrity, by simpa using hne⟩
    rw [if_pos hstate]
    split
    · rfl
    · split
      · rfl
      · rfl

/-- After a lost race that is not the last one, other transactions commit, unless the wait is
interrupted. -/
theorem except_lost {env : ℕ → Attempt σ α} {s : Connection σ} {i : ℕ} {e : Raised}
    (h : e.LostRace) :
  (except i false e).run env s
    = match (env i).interrupt with
      | some e' => (.error e', { s with changed := none })
      | none => (.ok none,
          { s with changed := none, committed := (env i).meanwhile s.committed })
  := by
  obtain ⟨hduplicate, hdbapi⟩ := h.isDBAPIError
  rw [except, if_neg (by rw [h.1]; decide), if_neg (by rw [hduplicate]; decide), if_pos hdbapi,
    if_neg (by rw [h.2]; decide), if_neg (by decide)]
  have hrollback : (rollback : Uow σ α Unit).run env s = (.ok (), { s with changed := none }) := rfl
  have hsleep : ∀ s', (sleep i : Uow σ α Unit).run env s'
      = match (env i).interrupt with
        | some e => (.error e, s')
        | none => (.ok (), { s' with committed := (env i).meanwhile s'.committed }) :=
    fun _ => rfl
  rw [run_bind, hrollback]
  simp only
  rw [run_bind, hsleep]
  cases (env i).interrupt with
  | some e' => rfl
  | none => rfl

/-- What an attempt comes to. -/
theorem attempt_run (env : ℕ → Attempt σ α) (s : Connection σ) (i : ℕ) (last : Bool) :
  (attempt i last).run env s
    = match (env i).outcome s.tables with
      | .ok (a, tables) => (.ok (some a), ⟨tables, none, s.runs + 1⟩)
      | .error e =>
          (except i last e).run env ⟨s.committed, some ((env i).work s.tables).2, s.runs + 1⟩
  := by
  have hwork : (work i : Uow σ α α).run env s = (((env i).work s.tables).1,
      { s with changed := some ((env i).work s.tables).2, runs := s.runs + 1 }) := rfl
  have hcommit : ∀ s', (commit i : Uow σ α Unit).run env s'
      = match (env i).commit with
        | some e => (.error e, s')
        | none => (.ok (), { s' with committed := s'.tables, changed := none }) :=
    fun _ => rfl
  rw [attempt, run_handle, run_bind, hwork, Attempt.outcome]
  rcases hresult : (env i).work s.tables with ⟨e | a, changed⟩
  · rfl
  · simp only [run_bind, hcommit]
    cases (env i).commit with
    | some e => rfl
    | none => rfl

/-! ### All attempts -/

/-- The tables that are committed when attempt `i` begins, if no attempt before has an effect:
only other transactions change them. -/
def committedBefore (env : ℕ → Attempt σ α) (tables : σ) : ℕ → σ
  | 0 => tables
  | i + 1 => (env i).meanwhile (committedBefore env tables i)

/-- The tables that attempt `i` begins with: the first one has those of the session. -/
def begins (env : ℕ → Attempt σ α) (s : Connection σ) : ℕ → σ
  | 0 => s.tables
  | i + 1 => committedBefore env s.committed (i + 1)

/-- What a transaction that makes at most so many attempts ends with, if attempt `i` decides. -/
structure Decides (attempts : ℕ) (env : ℕ → Attempt σ α) (s : Connection σ) (i : ℕ)
    (result : Except Raised α) (s' : Connection σ) : Prop where
  /-- The attempts before it have lost races. -/
  lost : ∀ j < i, ∃ e, (env j).outcome (begins env s j) = .error e ∧ e.LostRace
  /-- The work was run in each attempt. -/
  runs : s'.runs = s.runs + i + 1
  /-- Nothing is left in the session. -/
  clean : s'.changed = none
  /-- The attempt takes effect and its value is returned, or it does not and an error is raised. -/
  decided :
    (∃ a tables, (env i).outcome (begins env s i) = .ok (a, tables) ∧ result = .ok a
      ∧ s'.committed = tables)
    ∨ ∃ e, (env i).outcome (begins env s i) = .error e
        ∧ s'.committed = committedBefore env s.committed i
        ∧ ((e.LostRace → i + 1 = attempts) ∧ result = .error e.surface
          ∨ e.LostRace ∧ i + 1 < attempts
            ∧ ∃ e', (env i).interrupt = some e' ∧ result = .error e')

/-- A loop makes an attempt, and goes on if it is to be made again. -/
theorem loop_succ_run (after : Uow σ α α) (env : ℕ → Attempt σ α) (s : Connection σ) (i left : ℕ) :
  (loop after i (left + 1)).run env s
    = match (attempt i (left = 0)).run env s with
      | (.ok (some result), s') => (.ok result, s')
      | (.ok none, s') => (loop after (i + 1) left).run env s'
      | (.error e, s') => (.error e, s')
  := by
  rw [loop, run_bind]
  rcases (attempt i (left = 0)).run env s with ⟨e | _ | result, s'⟩
  · rfl
  · rfl
  · rfl

/-- The attempts that are left, from one on that the attempts before have lost races for: one of
them decides, and what comes after the last one is not reached. -/
theorem loop_run {env : ℕ → Attempt σ α} {s : Connection σ} {attempts left i : ℕ}
    {s₁ : Connection σ} (sum : i + left = attempts) (positive : 0 < left)
    (tables : s₁.tables = begins env s i)
    (committed : s₁.committed = committedBefore env s.committed i) (runs : s₁.runs = s.runs + i)
    (lost : ∀ j < i, ∃ e, (env j).outcome (begins env s j) = .error e ∧ e.LostRace) :
  ∃ k < attempts, ∃ result s', Decides attempts env s k result s'
    ∧ ∀ after, (loop after i left).run env s₁ = (result, s')
  := by
  induction left generalizing i s₁ with
  | zero => exact absurd positive (lt_irrefl 0)
  | succ left ih =>
      have step := fun after => loop_succ_run after env s₁ i left
      simp only [attempt_run, tables, committed, runs] at step
      cases houtcome : (env i).outcome (begins env s i) with
      | ok done =>
          refine ⟨i, by omega, .ok done.1, ⟨done.2, none, s.runs + i + 1⟩,
            ⟨lost, rfl, rfl, Or.inl ⟨done.1, done.2, houtcome, rfl, rfl⟩⟩, fun after => ?_⟩
          rw [step, houtcome]
      | error e =>
          simp only [houtcome] at step
          by_cases hlast : e.LostRace → left = 0
          · -- The attempt is not made again.
            refine ⟨i, by omega, .error e.surface,
              ⟨committedBefore env s.committed i, none, s.runs + i + 1⟩,
              ⟨lost, rfl, rfl, Or.inr ⟨e, houtcome, rfl, Or.inl ⟨fun h => ?_, rfl⟩⟩⟩,
              fun after => ?_⟩
            · have hzero := hlast h
              omega
            · rw [step, except_surface fun h => decide_eq_true (hlast h)]
          · obtain ⟨hrace, hleft⟩ := not_forall.mp hlast
            rw [decide_eq_false hleft, except_lost hrace] at step
            cases hinterrupt : (env i).interrupt with
            | some e' =>
                simp only [hinterrupt] at step
                exact ⟨i, by omega, .error e',
                  ⟨committedBefore env s.committed i, none, s.runs + i + 1⟩,
                  ⟨lost, rfl, rfl, Or.inr ⟨e, houtcome, rfl, Or.inr ⟨hrace, by omega, e',
                    hinterrupt, rfl⟩⟩⟩, step⟩
            | none =>
                simp only [hinterrupt] at step
                have hlost : ∀ j < i + 1,
                    ∃ e, (env j).outcome (begins env s j) = .error e ∧ e.LostRace := by
                  intro j hj
                  rcases Nat.lt_succ_iff_lt_or_eq.mp hj with hlt | rfl
                  · exact lost j hlt
                  · exact ⟨e, houtcome, hrace⟩
                obtain ⟨k, hk, result, s', hdecides, hrun⟩ := @ih (i + 1)
                  ⟨committedBefore env s.committed (i + 1), none, s.runs + i + 1⟩
                  (by omega) (by omega) rfl rfl rfl hlost
                refine ⟨k, hk, result, s', hdecides, fun after => ?_⟩
                rw [step]
                exact hrun after

/-- A transaction that may make at least one attempt is decided by one of its attempts: those
before it have lost races and have no effect, it has run the whole work on the tables that were
current when it began, and it takes effect and its value is returned, or nothing takes effect and
an error is raised. What comes after the last attempt is never reached. -/
theorem transaction_exactly_once {attempts : ℕ} (positive : 0 < attempts)
    (env : ℕ → Attempt σ α) (s : Connection σ) :
  ∃ i < attempts, ∃ result s', (transaction attempts).run env s = (result, s')
    ∧ Decides attempts env s i result s'
    ∧ ∀ after, (loop after 0 attempts).run env s = (result, s')
  := by
  obtain ⟨i, hi, result, s', hdecides, hrun⟩ :=
    @loop_run _ _ env s attempts attempts 0 s (Nat.zero_add attempts) positive rfl rfl rfl
      fun j hj => by omega
  exact ⟨i, hi, result, s', hrun _, hdecides, hrun⟩

/-- Attempts to increase a number, of which the first loses a race while another transaction
increases it by ten. -/
def increments (i : ℕ) : Attempt ℕ ℕ where
  work n := (.ok n, n + 1)
  commit := if i = 0 then some (.dbapiError ⟨"", none, some "40001"⟩) else none
  interrupt := none
  meanwhile n := n + 10

/-- The number is increased once, after the other transaction. -/
theorem transaction_exactly_once_of_increments :
  ∃ i < 3, ∃ result s', (transaction 3).run increments ⟨0, none, 0⟩ = (result, s')
    ∧ Decides 3 increments ⟨0, none, 0⟩ i result s'
    ∧ ∀ after, (loop after 0 3).run increments ⟨0, none, 0⟩ = (result, s')
  := transaction_exactly_once (by decide) increments ⟨0, none, 0⟩

example : (transaction 3).run increments ⟨0, none, 0⟩ = (.ok 10, ⟨11, none, 2⟩) := rfl

/-! ### Sending changes -/

/-- A unique violation that sending changes reports is a `DuplicateError`. -/
theorem flush_raises {sent : Uow σ α Unit} {env : ℕ → Attempt σ α} {s s' : Connection σ}
    {e : Raised} (h : Raises (flush sent) env s e s') :
  e.isIntegrityError = false
  := by
  rw [flush, raises_handle] at h
  rcases h with ⟨_, hnone⟩ | ⟨e', s₁, y, _, hy, hraise⟩
  · split at hnone
    · cases hnone
    · next hno => exact Bool.eq_false_iff.mpr hno
  · split at hy
    · cases hy
      rw [← (raises_raise.mp hraise).1]
      rfl
    · cases hy

/-! ### Transactions of use cases -/

/-- The failure that an exception is for a use case. -/
def Raised.failure : Raised → Failure
  | .integrityError _ => .integrity
  | .dbapiError orig => .database orig.sqlstate orig.cause
  | .duplicateError _ => .duplicate
  | .concurrencyConflictError => .concurrencyConflict
  | .assertionError message => .other message
  | .domainError error => .domain error
  | .other message => .other message

/-- What an attempt is answered with, if it is one of those given: the value of the work that was
committed, or the failure of an attempt without an effect. -/
def Answered (attempts : ℕ → Attempt σ α) (s : Connection σ) (z : Except Failure α)
    (s' : Connection σ) : Prop :=
  match (attempts s.runs).outcome s.tables with
  | .ok (a, tables) => z = .ok a ∧ s' = ⟨tables, none, s.runs + 1⟩
  | .error e => z = .error e.failure ∧ s'.changed = none ∧ s'.runs = s.runs + 1
      ∧ (s'.committed = s.committed ∨ s'.committed = (attempts s.runs).meanwhile s.committed)

variable {μ : Type → Type}

/-- A database that answers attempts as given. -/
def database (attempts : ℕ → Attempt σ α) : Machine (Request μ) Failure (Connection σ) where
  Answers := fun {β} request s z s' =>
    ∃ (same : β = α) (body : Tx β), request = .attempt body
      ∧ Answered attempts s (same ▸ z) s'

/-- An attempt of a use case is answered as given. -/
theorem ends_attempt {attempts : ℕ → Attempt σ α} {body : Tx α} {s s' : Connection σ}
    {z : Except Failure α} (h : Answered attempts s z s') :
  Program.Ends (database (μ := μ) attempts) (Program.perform (.attempt body)).outcome s (.ok z) s'
  := by
  rw [Program.ends_outcome]
  refine ⟨z, ?_, rfl⟩
  rw [Program.ends_perform]
  exact ⟨rfl, body, rfl, h⟩

/-- The transactions of use cases are those of a session: they end as the attempts do, if no wait
is interrupted. -/
theorem ends_transactionIn {attempts : ℕ → Attempt σ α} (body : Tx α)
    (uninterrupted : ∀ i, (attempts i).interrupt = none) {left : ℕ} {s s' : Connection σ}
    {result : Except Raised α}
    (run : (loop (raise (.assertionError "unreachable")) s.runs left).run attempts s
      = (result, s')) :
  Program.Ends (database (μ := μ) attempts) (UnitOfWork.transactionIn body left) s
    (result.mapError Raised.failure) s'
  := by
  induction left generalizing s with
  | zero =>
      cases run
      exact .fail _ _
  | succ left ih =>
      rw [loop_succ_run, attempt_run] at run
      rw [UnitOfWork.transactionIn, Program.ends_bind]
      apply Or.inl
      cases houtcome : (attempts s.runs).outcome s.tables with
      | ok done =>
          simp only [houtcome] at run
          cases run
          refine ⟨.ok done.1, _, ends_attempt ?_, .done _ _⟩
          rw [Answered, houtcome]
          exact ⟨rfl, rfl⟩
      | error e =>
          simp only [houtcome] at run
          have answered : ∀ committed, committed = s.committed
              ∨ committed = (attempts s.runs).meanwhile s.committed →
              Answered attempts s (.error e.failure) ⟨committed, none, s.runs + 1⟩ := by
            intro committed h
            rw [Answered, houtcome]
            exact ⟨rfl, rfl, rfl, h⟩
          by_cases hlast : e.LostRace → left = 0
          · rw [except_surface fun h => decide_eq_true (hlast h)] at run
            cases run
            refine ⟨.error e.failure, _, ends_attempt (answered _ (Or.inl rfl)), ?_⟩
            cases e with
            | dbapiError orig =>
                by_cases hlost : UnitOfWork.lostRace orig.sqlstate orig.cause = false
                · have hrace : ¬ (Raised.dbapiError orig).LostRace :=
                    fun h => Bool.false_ne_true (hlost.symm.trans h.2)
                  simp only [Raised.failure, if_pos hlost, Raised.surface_eq_self rfl hrace]
                  exact .fail _ _
                · have hrace : (Raised.dbapiError orig).LostRace :=
                    ⟨rfl, Bool.not_eq_false _ ▸ hlost⟩
                  simp only [Raised.failure, if_neg hlost, if_pos (hlast hrace), hrace.surface]
                  exact .fail _ _
            | integrityError orig => exact .fail _ _
            | duplicateError | concurrencyConflictError | assertionError | domainError | other =>
                exact .fail _ _
          · obtain ⟨hrace, hleft⟩ := not_forall.mp hlast
            rw [decide_eq_false hleft, except_lost hrace, uninterrupted] at run
            refine ⟨.error e.failure, _, ends_attempt (answered _ (Or.inr rfl)), ?_⟩
            cases e with
            | dbapiError orig =>
                have hlost : ¬ UnitOfWork.lostRace orig.sqlstate orig.cause = false :=
                  fun h => Bool.false_ne_true (h.symm.trans hrace.2)
                simp only [Raised.failure, if_neg hlost, if_neg hleft]
                exact ih run
            | integrityError orig => cases hrace.1
            | duplicateError | concurrencyConflictError | assertionError | domainError | other =>
                cases hrace.2

end SqlUnitOfWork

end MvpApi
