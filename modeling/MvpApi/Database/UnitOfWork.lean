import MvpApi.Application.Ports

/-!
# The unit of work over one session

`SqlUnitOfWork.transaction` runs a body in the session of the database, commits, and reruns the
body when the database reports a lost race. The tables are those of a type `σ`: as they are
committed, and as the session has changed them. What the body does, whether the commit fails and
what other transactions commit in between is given for each attempt.
-/

set_option autoImplicit false

namespace MvpApi

namespace SqlUnitOfWork

open Exec

/-! ### Exceptions -/

/-- The error of the driver: its text, its SQLSTATE and that of its cause. -/
structure DriverError where
  message : String
  sqlstate : Option String
  cause : Option String
deriving DecidableEq, Repr

/-- What can be raised. -/
inductive Raised where
  | integrityError (orig : DriverError)
  /-- A `DBAPIError` that is no `IntegrityError`. -/
  | dbapiError (orig : DriverError)
  | duplicateError (message : String)
  | concurrencyConflictError
  | assertionError (message : String)
  | domainError (error : DomainError)
  /-- Any other exception. -/
  | other (message : String)
deriving DecidableEq, Repr

/-- The error of the driver that a `DBAPIError` has. -/
def Raised.orig : Raised → Option DriverError
  | .integrityError orig => some orig
  | .dbapiError orig => some orig
  | _ => none

def Raised.isDBAPIError (e : Raised) : Bool := e.orig.isSome

/-- An `IntegrityError` is a `DBAPIError`, too. -/
def Raised.isIntegrityError : Raised → Bool
  | .integrityError _ => true
  | _ => false

def Raised.isDuplicateError : Raised → Bool
  | .duplicateError _ => true
  | _ => false

/-- The text of the error of the driver. -/
def Raised.message (e : Raised) : String := (e.orig.map DriverError.message).getD ""

/-- Whether the SQLSTATE of an error is the one of a lost race. -/
def Raised.serializationFailure (e : Raised) : Bool :=
  match e.orig with
  | some orig => UnitOfWork.lostRace orig.sqlstate orig.cause
  | none => false

/-! ### The session -/

/-- What happens in one attempt. -/
structure Attempt (σ α : Type) where
  /-- What the work returns or raises when it is run on some tables, and what it makes of them. -/
  work : σ → Except Raised α × σ
  /-- What the commit raises, if it fails. -/
  commit : Option Raised
  /-- What interrupts the sleep after a lost race, if anything does. -/
  interrupt : Option Raised
  /-- What other transactions make of the committed tables before the next attempt. -/
  meanwhile : σ → σ

/-- The tables, and the session. -/
structure Connection (σ : Type) where
  /-- The tables as they are committed. -/
  committed : σ
  /-- The tables as the session has them, if it ran some work since it committed or was rolled
  back. -/
  changed : Option σ
  /-- How many times work was run. -/
  runs : ℕ

variable {σ α : Type}

/-- The tables that the session sees. -/
def Connection.tables (s : Connection σ) : σ := s.changed.getD s.committed

/-- What is done in a session, if the attempts are given. -/
abbrev Uow (σ α β : Type) := Exec (ℕ → Attempt σ α) (Connection σ) Raised β

/-- Run the work. -/
def work (i : ℕ) : Uow σ α α := fun attempts s =>
  let result := (attempts i).work s.tables
  (result.1, { s with changed := some result.2, runs := s.runs + 1 })

/-- Commit what the session has changed; a commit that raises has no effect. -/
def commit (i : ℕ) : Uow σ α Unit := fun attempts s =>
  match (attempts i).commit with
  | some e => (.error e, s)
  | none => (.ok (), { s with committed := s.tables, changed := none })

/-- Drop what the session has changed. -/
def rollback : Uow σ α Unit := .update fun s => { s with changed := none }

/-- Wait, while other transactions commit. -/
def sleep (i : ℕ) : Uow σ α Unit := fun attempts s =>
  match (attempts i).interrupt with
  | some e => (.error e, s)
  | none => (.ok (), { s with committed := (attempts i).meanwhile s.committed })

/-! ### The transaction -/

/-- What is done when an attempt raised, by the first clause for the class of the exception: the
attempt is over, or it is to be made again. -/
def except (i : ℕ) (last : Bool) (e : Raised) : Uow σ α (Option α) :=
  if e.isIntegrityError then do
    rollback
    raise (.duplicateError e.message)
  else if e.isDuplicateError then do
    rollback
    raise e
  else if e.isDBAPIError then do
    rollback
    if e.serializationFailure = false then raise e
    else if last then raise .concurrencyConflictError
    else do
      sleep i
      return none
  else do
    rollback
    raise e

/-- One attempt to run the work and to commit. -/
def attempt (i : ℕ) (last : Bool) : Uow σ α (Option α) :=
  handle
    (do
      let result ← work i
      commit i
      return some result)
    fun e => some (except i last e)

/-- The attempts from `i` on, as many as are left, and what comes after the last one. -/
def loop (after : Uow σ α α) (i : ℕ) : ℕ → Uow σ α α
  | 0 => after
  | left + 1 => do
      match ← attempt i (left = 0) with
      | some result => return result
      | none => loop after (i + 1) left

def transaction (attempts : ℕ) : Uow σ α α :=
  loop (raise (.assertionError "unreachable")) 0 attempts

/-- Sending pending changes reports a unique violation as a `DuplicateError`. -/
def flush (sent : Uow σ α Unit) : Uow σ α Unit :=
  handle sent fun e => if e.isIntegrityError then some (raise (.duplicateError e.message)) else none

end SqlUnitOfWork

end MvpApi
