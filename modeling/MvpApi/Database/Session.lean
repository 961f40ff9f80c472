import MvpApi.Library.Exec
import MvpApi.Database.Tables

/-!
# The session of a transaction

The body of a transaction is a program over a `Session`: the rows as the transaction sees
them, that is, those of its snapshot with its own writes; the rows it locked or rewrote;
and how many times it read the clock and drew an id or a token. A row is counted as
written when its value at the end differs from the one in the snapshot, so `touched` only
has to hold the rows that count beyond those.

An entity whose fields change is written when the transaction commits; here it is written
with `save` where it changes. A unique violation surfaces at the next `flush` or at the
commit, except that of a primary key, which `add` reports at once.
-/

set_option autoImplicit false

namespace MvpApi

/-- The state of a transaction. -/
structure Session where
  db : Db
  /-- The rows locked, and those written again with the value they had. -/
  touched : List RowId
  /-- How many times the clock was read. -/
  ticks : ℕ
  /-- How many ids were drawn. -/
  ids : ℕ
  /-- How many tokens were drawn. -/
  tokens : ℕ

namespace Session

/-- The session after one more reading of the clock. -/
@[simps]
def tick (s : Session) : Session := { s with ticks := s.ticks + 1 }

/-- The session after one more id was drawn. -/
@[simps]
def nextId (s : Session) : Session := { s with ids := s.ids + 1 }

/-- The session after one more token was drawn. -/
@[simps]
def nextToken (s : Session) : Session := { s with tokens := s.tokens + 1 }

/-- The session with more rows counted as written or locked. -/
@[simps]
def touch (s : Session) (rows : List RowId) : Session := { s with touched := s.touched ++ rows }

/-- The session with the rows changed. -/
@[simps]
def write (s : Session) (f : Db → Db) : Session := { s with db := f s.db }

/-- Changing the rows to what they are changes nothing. -/
theorem write_self {s : Session} {f : Db → Db} (h : f s.db = s.db) :
  s.write f = s
  := by
  rw [write, h]

/-- Only what the change of the rows amounts to counts. -/
theorem write_congr {s : Session} {f g : Db → Db} (h : f s.db = g s.db) :
  s.write f = s.write g
  := by
  rw [write, write, h]

end Session

/-- Programs over a session. -/
abbrev Tx := Exec Env Session Failure

namespace Tx

/-- Read the clock. -/
def now : Tx Time :=
  .draw fun env s => (env.clock s.ticks, s.tick)

/-- Draw an id. -/
def newId : Tx String :=
  .draw fun env s => (env.uuid7 s.ids, s.nextId)

/-- Draw a token. -/
def newToken : Tx String :=
  .draw fun env s => (env.tokenUrlsafe s.tokens, s.nextToken)

/-- The functions of the platform. -/
def platform : Tx Env :=
  .draw fun env s => (env, s)

/-- Count rows as written or locked. -/
def touch (rows : List RowId) : Tx Unit :=
  .update (·.touch rows)

/-- Change the rows. -/
def write (f : Db → Db) : Tx Unit :=
  .update (·.write f)

/-- Read the rows. -/
def select {α : Type} (f : Db → α) : Tx α :=
  .query fun s => f s.db

/-- Fail with the error of a rule of the domain, if it refuses. -/
def check {α : Type} (x : Except DomainError α) : Tx α :=
  match x with
  | .ok a => pure a
  | .error e => .raise (.domain e)

/-- Refuse with a `DomainError` unless `p` holds. -/
def refuseUnless (p : Prop) [Decidable p] (e : DomainError) : Tx Unit :=
  .ensure p (.domain e)

/-- Send pending changes, and fail if they break a unique constraint. -/
def flush : Tx Unit := do
  let unique ← .query fun s => decide s.db.Unique
  .ensure (unique = true) .duplicate

/-- Handle the `DomainError`s of a program. -/
def swallowDomainErrors (x : Tx Unit) : Tx Unit :=
  .handle x fun
    | .domain _ => some (pure ())
    | _ => none

open Exec

variable {env : Env} {s s' : Session} {α : Type}

@[simp]
theorem returns_now {t : Time} :
  Returns now env s t s' ↔ env.clock s.ticks = t ∧ s.tick = s'
  := returns_draw

@[simp]
theorem returns_newId {id : String} :
  Returns newId env s id s' ↔ env.uuid7 s.ids = id ∧ s.nextId = s'
  := returns_draw

@[simp]
theorem returns_newToken {token : String} :
  Returns newToken env s token s'
    ↔ env.tokenUrlsafe s.tokens = token ∧ s.nextToken = s'
  := returns_draw

@[simp]
theorem returns_platform {e : Env} :
  Returns platform env s e s' ↔ env = e ∧ s = s'
  := returns_draw

@[simp]
theorem returns_touch {rows : List RowId} {u : Unit} :
  Returns (touch rows) env s u s' ↔ s.touch rows = s'
  := returns_update

@[simp]
theorem returns_write {f : Db → Db} {u : Unit} :
  Returns (write f) env s u s' ↔ s.write f = s'
  := returns_update

@[simp]
theorem returns_select {f : Db → α} {a : α} :
  Returns (select f) env s a s' ↔ f s.db = a ∧ s = s'
  := returns_query

@[simp]
theorem returns_check {x : Except DomainError α} {a : α} :
  Returns (check x) env s a s' ↔ x = .ok a ∧ s = s'
  := by
  cases x with
  | ok b => simp [check]
  | error e => simp [check]

@[simp]
theorem returns_refuseUnless {p : Prop} [Decidable p] {e : DomainError} {u : Unit} :
  Returns (refuseUnless p e) env s u s' ↔ p ∧ s = s'
  := returns_ensure

@[simp]
theorem returns_flush {u : Unit} :
  Returns flush env s u s' ↔ s.db.Unique ∧ s = s'
  := by
  simp [flush]

@[simp]
theorem not_raises_now {e : Failure} :
  ¬ Raises now env s e s'
  := not_raises_draw

@[simp]
theorem not_raises_newId {e : Failure} :
  ¬ Raises newId env s e s'
  := not_raises_draw

@[simp]
theorem not_raises_newToken {e : Failure} :
  ¬ Raises newToken env s e s'
  := not_raises_draw

@[simp]
theorem not_raises_platform {e : Failure} :
  ¬ Raises platform env s e s'
  := not_raises_draw

@[simp]
theorem not_raises_touch {rows : List RowId} {e : Failure} :
  ¬ Raises (touch rows) env s e s'
  := not_raises_update

@[simp]
theorem not_raises_write {f : Db → Db} {e : Failure} :
  ¬ Raises (write f) env s e s'
  := not_raises_update

@[simp]
theorem not_raises_select {f : Db → α} {e : Failure} :
  ¬ Raises (select f) env s e s'
  := not_raises_query

@[simp]
theorem raises_check {x : Except DomainError α} {e : Failure} :
  Raises (check x) env s e s' ↔ ∃ e', x = .error e' ∧ e = .domain e' ∧ s = s'
  := by
  cases x with
  | ok b => simp [check]
  | error e' => simp [check, eq_comm]

@[simp]
theorem raises_refuseUnless {p : Prop} [Decidable p] {e' : DomainError} {e : Failure} :
  Raises (refuseUnless p e') env s e s' ↔ ¬ p ∧ .domain e' = e ∧ s = s'
  := raises_ensure

@[simp]
theorem raises_flush {e : Failure} :
  Raises flush env s e s' ↔ ¬ s.db.Unique ∧ .duplicate = e ∧ s = s'
  := by
  simp [flush]

end Tx

end MvpApi
