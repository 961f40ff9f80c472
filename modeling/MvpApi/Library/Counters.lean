import Mathlib.Logic.Function.Basic
import Mathlib.Data.List.Count
import Mathlib.Tactic.Common

/-!
# Counters with a budget

A table of counters, named by `κ`. A hit adds one to the counter of its key, and is admitted if
the counter was below the budget. A counter that is dropped starts over. As long as no counter is
dropped that is hit again, of the hits on a key just as many are admitted as the budget of its
counter has left, and all of them if there are fewer.

Times are divided into windows of the same length, one after the other. As many times in a row as
a window is long lie in two windows at most.
-/

set_option autoImplicit false

namespace Counters

variable {κ : Type} [DecidableEq κ]

/-! ### Hits -/

inductive Event (κ : Type) where
  | hit (k : κ)
  | drop (k : κ)
deriving DecidableEq, Repr

/-- The counters after an event. -/
def Event.next (counts : κ → ℕ) : Event κ → κ → ℕ
  | .hit k => Function.update counts k (counts k + 1)
  | .drop k => Function.update counts k 0

/-- How many events are hits on a key. -/
def hits (k : κ) (events : List (Event κ)) : ℕ := events.count (.hit k)

/-- How many hits on a key are admitted. -/
def admitted (budget : ℕ) (k : κ) : (κ → ℕ) → List (Event κ) → ℕ
  | _, [] => 0
  | counts, event :: events =>
      (if event = .hit k ∧ counts k < budget then 1 else 0)
        + admitted budget k (event.next counts) events

/-- The counter of a key is not dropped while it is still hit. -/
def Kept (k : κ) (events : List (Event κ)) : Prop :=
  events.Pairwise fun event later => event = .drop k → later ≠ .hit k

/-- When a counter has been dropped, there are no more hits on it. -/
theorem Kept.hits_eq_zero {k : κ} {events : List (Event κ)} (h : Kept k (.drop k :: events)) :
  hits k events = 0
  := by
  apply List.count_eq_zero.mpr
  intro hit
  exact (List.pairwise_cons.mp h).1 _ hit rfl rfl

/-- The hits on a key are admitted as long as the budget of its counter lasts. -/
theorem admitted_eq_min {budget : ℕ} {k : κ} {events : List (Event κ)} (kept : Kept k events)
    (counts : κ → ℕ) :
  admitted budget k counts events = min (hits k events) (budget - counts k)
  := by
  induction events generalizing counts with
  | nil => simp [admitted, hits]
  | cons event events ih =>
      rw [admitted, ih (List.pairwise_cons.mp kept).2]
      cases event with
      | hit k' =>
          by_cases hk : k' = k
          · subst hk
            have count : hits k' (.hit k' :: events) = hits k' events + 1 := List.count_cons_self
            rw [count, Event.next, Function.update_self]
            by_cases below : counts k' < budget
            · rw [if_pos ⟨rfl, below⟩]
              omega
            · rw [if_neg fun h => below h.2]
              omega
          · have count : hits k (.hit k' :: events) = hits k events :=
              List.count_cons_of_ne (by simpa using hk)
            rw [count, Event.next, Function.update_of_ne (Ne.symm hk), if_neg, Nat.zero_add]
            rintro ⟨⟨⟩, _⟩
            exact hk rfl
      | drop k' =>
          have count : hits k (.drop k' :: events) = hits k events :=
            List.count_cons_of_ne (by simp)
          rw [count, if_neg (by simp), Nat.zero_add, Event.next]
          by_cases hk : k' = k
          · subst hk
            rw [kept.hits_eq_zero]
            simp
          · rw [Function.update_of_ne (Ne.symm hk)]

/-! ### Windows -/

/-- As many times in a row as a window is long lie in one window, or in it and the next. -/
theorem window_of_span {w t s : ℕ} (positive : 0 < w) (first : t ≤ s) (last : s < t + w) :
  s / w = t / w ∨ s / w = t / w + 1
  := by
  have lower : t / w ≤ s / w := Nat.div_le_div_right first
  have upper : s / w ≤ (t + w) / w := Nat.div_le_div_right (Nat.le_of_lt last)
  rw [Nat.add_div_right t positive] at upper
  omega

/-- A time is before the next window, and less than a window away from it. -/
theorem next_window (w s : ℕ) :
  s - s % w + w = (s / w + 1) * w
  := by
  have split := Nat.div_add_mod' s w
  rw [Nat.add_mul, Nat.one_mul]
  omega

end Counters
