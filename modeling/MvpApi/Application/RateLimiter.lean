import MvpApi.Domain.Errors
import Mathlib.Logic.Function.Basic

/-!
# The rate limiter

Requests are counted in a table, one item for each key and window of time. An item expires some
time after its window has ended. The dependency of the routes turns a refused hit into an answer,
and lets a request through if the table cannot answer.
-/

set_option autoImplicit false

namespace MvpApi

/-! ### The table -/

/-- An item of the table: the hits of a window, and when the item may be dropped. -/
structure CounterItem where
  hits : ℕ
  expiresAt : ℕ
deriving DecidableEq, Repr

/-- The items, by the name of their table and their key. -/
abbrev DynamoTables := String → String → Option CounterItem

/-- Add one to the hits of an item, which is created with an expiry if it is not there; the answer
has the new number of hits. -/
def updateItem (tables : DynamoTables) (table pk : String) (ttl : ℕ) : Option ℕ × DynamoTables :=
  let item : CounterItem :=
    match tables table pk with
    | some item => { item with hits := item.hits + 1 }
    | none => ⟨1, ttl⟩
  (some item.hits, Function.update tables table (Function.update (tables table) pk (some item)))

/-! ### Hits -/

structure DynamoRateLimiter where
  table : String
  maxRequests : ℕ
  windowSeconds : ℕ
deriving DecidableEq, Repr

/-- Count one request at the time `now`; the seconds to wait when over the limit, else `none`. -/
def DynamoRateLimiter.hit (limiter : DynamoRateLimiter) (key : String) (now : ℕ)
    (tables : DynamoTables) : Option ℕ × DynamoTables :=
  let windowStart := now - now % limiter.windowSeconds
  let windowEnd := windowStart + limiter.windowSeconds
  let (hits, tables) :=
    updateItem tables limiter.table (key ++ ":" ++ toString windowStart) (windowEnd + 60)
  (if limiter.maxRequests < hits.getD 0 then some (max 1 (windowEnd - now)) else none, tables)

/-! ### Routes -/

structure HttpException where
  statusCode : ℕ
  detail : String
  headers : List (String × String)
deriving DecidableEq, Repr

/-- A fixed window per bucket and caller, given how hits are answered. If the table cannot answer,
the request goes through rather than failing. -/
def rateLimit {ε : Type} (hit : String → Except ε (Option ℕ)) (bucket identity : String) :
    Except HttpException Unit :=
  match hit (bucket ++ ":" ++ identity) with
  | .error _ => .ok ()
  | .ok none => .ok ()
  | .ok (some retryAfter) =>
      .error ⟨429, "Too many requests, try again shortly", [("Retry-After", toString retryAfter)]⟩

/-- A request is refused if its hit is, with the seconds to wait, and only then. -/
theorem rateLimit_eq_error {ε : Type} {hit : String → Except ε (Option ℕ)}
    {bucket identity : String} {error : HttpException} :
  rateLimit hit bucket identity = .error error
    ↔ ∃ retryAfter, hit (bucket ++ ":" ++ identity) = .ok (some retryAfter)
      ∧ error = ⟨429, "Too many requests, try again shortly",
          [("Retry-After", toString retryAfter)]⟩
  := by
  unfold rateLimit
  cases hit (bucket ++ ":" ++ identity) with
  | error e => simp
  | ok answer =>
      cases answer with
      | none => simp
      | some retryAfter => simp [eq_comm]

end MvpApi
