import Mathlib.Data.Set.Lattice
import Mathlib.Order.CompletePartialOrder
import Mathlib.Logic.Relation

/-!
# Optimistic transactions

A store has a state of type `δ` made of rows, which are named by `ρ`. A transaction reads
one snapshot of the store, and computes from it the state it wants and the set of the rows
it has written or locked, its footprint. It commits if no transaction that committed after
its snapshot has a row of the footprint in its own, and then its changes are made to the
store as it is at that time; otherwise it has no effect, and may start over from a new
snapshot.

What transactions that overlap in this way can do to a store is given by their histories:
a `History` is the list of the commits, the last one first, and each commit took as its
snapshot the state some commits earlier. The rule for invariants is
`History.invariant`: to each transaction, the commits since its snapshot are a sequence of
states each related to the next by what every commit guarantees, with footprints apart
from its own.
-/

set_option autoImplicit false

namespace Optimistic

/-- What the transactions of a type `τ` do to a store. -/
structure System (δ ρ τ : Type) where
  /-- `merge base final current` makes to `current` the changes from `base` to `final`. -/
  merge : δ → δ → δ → δ
  /-- `Runs work base final footprint` says that `work`, from the snapshot `base`, ends in
  `final` with the given footprint. -/
  Runs : τ → δ → δ → Set ρ → Prop
  /-- The states the store accepts at a commit. -/
  Valid : δ → Prop

/-- A transaction that committed, with its footprint and the state it left. -/
structure Commit (δ ρ τ : Type) where
  work : τ
  footprint : Set ρ
  state : δ

variable {δ ρ τ : Type}

/-- The state after some commits. -/
def current (init : δ) : List (Commit δ ρ τ) → δ
  | [] => init
  | commit :: _ => commit.state

/-- The commits that transactions overlapping in any way can make from a state, the last
one first. -/
inductive History (system : System δ ρ τ) (init : δ) : List (Commit δ ρ τ) → Prop
  | start : History system init []
  | commit {newer older : List (Commit δ ρ τ)} {work : τ} {final : δ} {footprint : Set ρ}
      (history : History system init (newer ++ older))
      (runs : system.Runs work (current init older) final footprint)
      (undisturbed : ∀ commit ∈ newer, Disjoint footprint commit.footprint)
      (valid : system.Valid
        (system.merge (current init older) final (current init (newer ++ older)))) :
      History system init
        (⟨work, footprint, system.merge (current init older) final (current init (newer ++ older))⟩
          :: (newer ++ older))

/-- What a transaction with a footprint sees happen between its snapshot and its commit:
steps between states satisfying `P` that keep the guarantee `G`, with footprints apart
from its own. -/
def Meanwhile (P : δ → Prop) (G : τ → Set ρ → δ → δ → Prop) (footprint : Set ρ) : δ → δ → Prop :=
  Relation.ReflTransGen fun d d' =>
    P d ∧ P d' ∧ ∃ work other, G work other d d' ∧ Disjoint footprint other

/-- All the states of a list of commits satisfy `P`, and all the commits keep `G`. -/
def Kept (P : δ → Prop) (G : τ → Set ρ → δ → δ → Prop) (init : δ) :
    List (Commit δ ρ τ) → Prop
  | [] => P init
  | commit :: older =>
      P commit.state ∧ G commit.work commit.footprint (current init older) commit.state
        ∧ Kept P G init older

section Rule

variable {P : δ → Prop} {G : τ → Set ρ → δ → δ → Prop} {init : δ}

theorem Kept.current {commits : List (Commit δ ρ τ)} (h : Kept P G init commits) :
  P (current init commits)
  := by
  cases commits with
  | nil => exact h
  | cons commit older => exact h.1

theorem Kept.older {newer older : List (Commit δ ρ τ)} (h : Kept P G init (newer ++ older)) :
  Kept P G init older
  := by
  induction newer with
  | nil => exact h
  | cons commit newer ih => exact ih h.2.2

/-- The commits since a snapshot, as a transaction that they do not disturb sees them. -/
theorem Kept.meanwhile {newer older : List (Commit δ ρ τ)} {footprint : Set ρ}
    (h : Kept P G init (newer ++ older))
    (undisturbed : ∀ commit ∈ newer, Disjoint footprint commit.footprint) :
  Meanwhile P G footprint (Optimistic.current init older)
    (Optimistic.current init (newer ++ older))
  := by
  induction newer with
  | nil => exact .refl
  | cons commit newer ih =>
      have before := ih h.2.2 fun commit' hc => undisturbed commit' (List.mem_cons_of_mem _ hc)
      exact before.tail ⟨h.2.2.current, h.1, commit.work, commit.footprint, h.2.1,
        undisturbed commit List.mem_cons_self⟩

/-- The rule for invariants: a property holds after every commit of every history if it
holds at the start, and if a transaction that ran from a state with the property can only
commit to a state with the property, keeping the guarantee it relies on from the others. -/
theorem History.kept {system : System δ ρ τ} {commits : List (Commit δ ρ τ)}
    (history : History system init commits) (start : P init)
    (step : ∀ {work base final footprint current}, P base → P current →
      system.Runs work base final footprint → Meanwhile P G footprint base current →
      system.Valid (system.merge base final current) →
        P (system.merge base final current)
          ∧ G work footprint current (system.merge base final current)) :
  Kept P G init commits
  := by
  induction history with
  | start => exact start
  | commit history runs undisturbed valid ih =>
      obtain ⟨hp, hg⟩ := step ih.older.current ih.current runs (ih.meanwhile undisturbed) valid
      exact ⟨hp, hg, ih⟩

end Rule

/-! ### Serial executions -/

section Serial

variable {α : Type}

/-- The state that transactions lead to, the last one first, when each of them makes one step of an
abstract system, one after the other. -/
inductive Serial (Step : τ → α → α → Prop) (start : α) : List τ → α → Prop
  | nil : Serial Step start [] start
  | cons {works : List τ} {work : τ} {a b : α} (rest : Serial Step start works a)
      (step : Step work a b) : Serial Step start (work :: works) b

/-- Commits that make steps of an abstract system are a serial execution of it. -/
theorem Kept.serial {P : δ → Prop} {G : τ → Set ρ → δ → δ → Prop} {init : δ}
    {commits : List (Commit δ ρ τ)} {Step : τ → α → α → Prop} {abs : δ → α}
    (h : Kept P (fun work footprint d d' => G work footprint d d' ∧ Step work (abs d) (abs d'))
      init commits) :
  Serial Step (abs init) (commits.map Commit.work) (abs (Optimistic.current init commits))
  := by
  induction commits with
  | nil => exact .nil
  | cons commit older ih => exact .cons (ih h.2.2) h.2.1.2

/-- The rule for refinement: transactions that overlap in any way make a serial execution of an
abstract system, in the order of their commits, if each of them makes a step of it from the state
at its commit. -/
theorem History.serial {system : System δ ρ τ} {P : δ → Prop} {G : τ → Set ρ → δ → δ → Prop}
    {init : δ} {commits : List (Commit δ ρ τ)} {Step : τ → α → α → Prop} (abs : δ → α)
    (history : History system init commits) (start : P init)
    (step : ∀ {work base final footprint current}, P base → P current →
      system.Runs work base final footprint → Meanwhile P G footprint base current →
      system.Valid (system.merge base final current) →
        P (system.merge base final current)
          ∧ G work footprint current (system.merge base final current)
          ∧ Step work (abs current) (abs (system.merge base final current))) :
  Serial Step (abs init) (commits.map Commit.work) (abs (Optimistic.current init commits))
  := by
  refine (history.kept start fun hbase hcurrent runs meanwhile valid => ?_).serial (P := P) (G := G)
  refine step hbase hcurrent runs (Relation.ReflTransGen.mono ?_ _ _ meanwhile) valid
  rintro d d' ⟨before, after, work, other, ⟨keeps, _⟩, apart⟩
  exact ⟨before, after, work, other, keeps, apart⟩

end Serial

/-! ### Two transactions -/

/-- The state after two transactions that both started from `init` have committed, the one
called first before the other: if their footprints are apart the second one commits the
changes it made to the snapshot, and otherwise it runs again. -/
inductive Overlap (system : System δ ρ τ) (first second : τ) (init : δ) : δ → Prop
  | merged {final₁ final₂ : δ} {footprint₁ footprint₂ : Set ρ}
      (runs₁ : system.Runs first init final₁ footprint₁)
      (runs₂ : system.Runs second init final₂ footprint₂)
      (apart : Disjoint footprint₂ footprint₁)
      (valid₁ : system.Valid final₁)
      (valid₂ : system.Valid (system.merge init final₂ final₁)) :
      Overlap system first second init (system.merge init final₂ final₁)
  | rerun {final₁ final₂ final₃ : δ} {footprint₁ footprint₂ footprint₃ : Set ρ}
      (runs₁ : system.Runs first init final₁ footprint₁)
      (runs₂ : system.Runs second init final₂ footprint₂)
      (conflict : ¬ Disjoint footprint₂ footprint₁)
      (valid₁ : system.Valid final₁)
      (runs₃ : system.Runs second final₁ final₃ footprint₃)
      (valid₃ : system.Valid final₃) :
      Overlap system first second init final₃

/-- A transaction that nothing has disturbed commits what it made of the current state. -/
theorem History.next {system : System δ ρ τ} {init final : δ} {older : List (Commit δ ρ τ)}
    {work : τ} {footprint : Set ρ}
    (merge_base : ∀ base final, system.merge base final base = final)
    (history : History system init older)
    (runs : system.Runs work (current init older) final footprint) (valid : system.Valid final) :
  History system init (⟨work, footprint, final⟩ :: older)
  := by
  rw [← merge_base (current init older) final] at valid
  have step := @History.commit δ ρ τ system init [] older work final footprint history runs
    (by simp) valid
  rwa [List.nil_append, merge_base] at step

/-- Two transactions that start from one state, with footprints apart, both commit. -/
theorem History.both {system : System δ ρ τ} {init base final₁ final₂ : δ}
    {older : List (Commit δ ρ τ)} {first second : τ} {footprint₁ footprint₂ : Set ρ}
    (merge_base : ∀ base final, system.merge base final base = final)
    (history : History system init older) (now : current init older = base)
    (runs₁ : system.Runs first base final₁ footprint₁)
    (runs₂ : system.Runs second base final₂ footprint₂)
    (apart : Disjoint footprint₂ footprint₁) (valid₁ : system.Valid final₁)
    (valid₂ : system.Valid (system.merge base final₂ final₁)) :
  History system init
    (⟨second, footprint₂, system.merge base final₂ final₁⟩ :: ⟨first, footprint₁, final₁⟩ :: older)
  := by
  subst now
  have alone := history.next merge_base runs₁ valid₁
  exact @History.commit δ ρ τ system init [⟨first, footprint₁, final₁⟩] older second final₂
    footprint₂ alone runs₂ (by simpa using apart) valid₂

/-- Two transactions that overlap make one of the histories. -/
theorem Overlap.history {system : System δ ρ τ} {first second : τ} {init state : δ}
    (merge_base : ∀ base final, system.merge base final base = final)
    (h : Overlap system first second init state) :
  ∃ commit₁ commit₂, History system init [commit₂, commit₁]
    ∧ commit₁.work = first ∧ commit₂.work = second ∧ commit₂.state = state
  := by
  cases h with
  | merged runs₁ runs₂ apart valid₁ valid₂ =>
      have history := History.both merge_base .start rfl runs₁ runs₂ apart valid₁ valid₂
      exact ⟨_, _, history, rfl, rfl, rfl⟩
  | rerun runs₁ runs₂ conflict valid₁ runs₃ valid₃ =>
      have first := History.next merge_base .start runs₁ valid₁
      have history := first.next merge_base runs₃ valid₃
      exact ⟨_, _, history, rfl, rfl, rfl⟩

end Optimistic
