import Mathlib.Data.List.Sort
import Mathlib.Order.RelClasses
import Mathlib.Data.List.Nodup
import Mathlib.Data.List.Perm.Subperm
import Mathlib.Tactic.Common

/-!
# Reading a list page by page

Elements of a type `α` have positions in a type `β` that is ordered by `lt`. A list of them is
read page by page: a page has the first elements beyond a boundary, in the order of their
positions, and the position of its last element is the boundary of the next page, if there are
more elements. The list may change from one page to the next.

`IsPage` says what a page is, and `page` computes one. A `Walk` goes from page to page. Whatever
happens to the list, the positions that a walk has read increase, and a position that was
occupied at each page is read exactly once; when the list does not change it is read as a whole.
-/

set_option autoImplicit false

namespace Paging

variable {α β : Type} (lt : β → β → Prop) (pos : α → β)

/-- The position is beyond the boundary, if there is one. -/
def Beyond (boundary : Option β) (b : β) : Prop :=
  ∀ b₀, boundary = some b₀ → lt b₀ b

/-- The elements `items` are the page of the list `rows` after a boundary, and `next` is the
boundary of the page after it, if there is one. -/
structure IsPage (size : ℕ) (rows : List α) (boundary : Option β) (items : List α)
    (next : Option β) : Prop where
  sorted : items.Pairwise fun a a' => lt (pos a) (pos a')
  few : items.length ≤ size
  mem : ∀ a ∈ items, a ∈ rows ∧ Beyond lt boundary (pos a)
  /-- The last page has all that is left. -/
  last : next = none → ∀ a ∈ rows, Beyond lt boundary (pos a) → a ∈ items
  /-- Another page is full, and there are more elements after it. -/
  more : ∀ b, next = some b → items.length = size ∧ b ∈ items.getLast?.map pos
    ∧ (∀ a ∈ rows, Beyond lt boundary (pos a) → a ∈ items ∨ lt b (pos a))
    ∧ ∃ a ∈ rows, Beyond lt boundary (pos a) ∧ lt b (pos a)

/-- The list in the order of the positions. -/
def sorted [DecidableRel lt] (rows : List α) : List α :=
  rows.insertionSort fun a a' => ¬ lt (pos a') (pos a)

/-- The page of a list after a boundary, and the boundary of the next one. -/
def page [DecidableRel lt] (size : ℕ) (rows : List α) (boundary : Option β) :
    List α × Option β :=
  let rest := sorted lt pos (rows.filter fun a => boundary.all fun b => lt b (pos a))
  if rest.length ≤ size then (rest, none)
  else (rest.take size, (rest.take size).getLast?.map pos)

/-- The pages of a list that may change in between, each with the list as it was, from one
boundary to another. -/
inductive Walk (size : ℕ) : Option β → List (List α × List α) → Option β → Prop
  | page {rows items : List α} {boundary next : Option β}
      (page : IsPage lt pos size rows boundary items next) :
      Walk size boundary [(rows, items)] next
  | turn {rows items : List α} {boundary final : Option β} {next : β}
      {pages : List (List α × List α)}
      (page : IsPage lt pos size rows boundary items (some next))
      (walk : Walk size (some next) pages final) :
      Walk size boundary ((rows, items) :: pages) final

variable {lt pos}

theorem perm_sorted [DecidableRel lt] (rows : List α) :
  (sorted lt pos rows).Perm rows
  := List.perm_insertionSort _ _

/-! ### Walks -/

variable {size : ℕ} {rows items : List α} {boundary next final : Option β}
  {pages : List (List α × List α)}

/-- A position that is occupied at each page is read, if the walk goes on to the end. -/
theorem Walk.reads (h : Walk lt pos size boundary pages none) {b : β}
    (occupied : ∀ page ∈ pages, ∃ a ∈ page.1, pos a = b) (hbeyond : Beyond lt boundary b) :
  ∃ a ∈ pages.flatMap Prod.snd, pos a = b
  := by
  generalize hfinal : (none : Option β) = final at h
  induction h with
  | page page =>
      obtain ⟨a, ha, rfl⟩ := occupied _ List.mem_cons_self
      refine ⟨a, ?_, rfl⟩
      rw [List.flatMap_singleton]
      exact page.last hfinal.symm a ha hbeyond
  | turn page _ ih =>
      obtain ⟨a, ha, rfl⟩ := occupied _ List.mem_cons_self
      rw [List.flatMap_cons]
      obtain ⟨_, _, hmore, _⟩ := page.more _ rfl
      rcases hmore a ha hbeyond with hin | hlt
      · exact ⟨a, List.mem_append_left _ hin, rfl⟩
      · have hnext : Beyond lt (some _) (pos a) := fun b₀ hb₀ => Option.some.inj hb₀ ▸ hlt
        obtain ⟨a', ha', hpos⟩ :=
          ih (fun page hp => occupied page (List.mem_cons_of_mem _ hp)) hnext hfinal
        exact ⟨a', List.mem_append_right _ ha', hpos⟩

/-- Each page that is followed by another one is full. -/
theorem Walk.full (h : Walk lt pos size boundary pages final) :
  ∀ page ∈ pages.dropLast, page.2.length = size
  := by
  induction h with
  | page => simp
  | @turn _ _ _ _ _ pages page walk ih =>
      intro page' hp
      have hne : pages ≠ [] := by
        cases walk with
        | _ => exact List.cons_ne_nil _ _
      rw [List.dropLast_cons_of_ne_nil hne] at hp
      rcases List.mem_cons.mp hp with rfl | hp
      · exact (page.more _ rfl).1
      · exact ih page' hp

/-- Each page of a walk that goes on is full. -/
theorem Walk.full_of_more {b : β} (h : Walk lt pos size boundary pages (some b)) :
  ∀ page ∈ pages, page.2.length = size
  := by
  generalize hfinal : some b = final at h
  induction h with
  | page page =>
      rintro _ hp
      obtain rfl := List.mem_singleton.mp hp
      exact (page.more b hfinal.symm).1
  | turn page _ ih =>
      intro page' hp
      rcases List.mem_cons.mp hp with rfl | hp
      · exact (page.more _ rfl).1
      · exact ih hfinal page' hp

/-- Each page has elements of the list it was read from. -/
theorem Walk.mem_page (h : Walk lt pos size boundary pages final) :
  ∀ page ∈ pages, ∀ a ∈ page.2, a ∈ page.1
  := by
  induction h with
  | page page =>
      rintro _ hp a ha
      obtain rfl := List.mem_singleton.mp hp
      exact (page.mem a ha).1
  | turn page _ ih =>
      intro page' hp a ha
      rcases List.mem_cons.mp hp with rfl | hp
      · exact (page.mem a ha).1
      · exact ih page' hp a ha

/-- A walk over a list that does not change reads its elements. -/
theorem Walk.mem (h : Walk lt pos size boundary pages final)
    (static : ∀ page ∈ pages, page.1 = rows) :
  ∀ a ∈ pages.flatMap Prod.snd, a ∈ rows
  := by
  intro a ha
  obtain ⟨page, hp, hmem⟩ := List.mem_flatMap.mp ha
  exact static page hp ▸ h.mem_page page hp a hmem

/-- There is an element beyond the boundary from which a walk goes on. -/
theorem Walk.more {b : β} (h : Walk lt pos size boundary pages (some b))
    (static : ∀ page ∈ pages, page.1 = rows) :
  ∃ a ∈ rows, lt b (pos a)
  := by
  generalize hfinal : some b = final at h
  induction h with
  | page page =>
      obtain ⟨_, _, _, a, ha, _, hlt⟩ := page.more b hfinal.symm
      exact ⟨a, static _ List.mem_cons_self ▸ ha, hlt⟩
  | turn page _ ih => exact ih (fun page hp => static page (List.mem_cons_of_mem _ hp)) hfinal

/-- All that a page has is before the boundary of the next one, or is there. -/
theorem IsPage.le_next (h : IsPage lt pos size rows boundary items next) {b : β}
    (hb : next = some b) {a : α} (ha : a ∈ items) :
  pos a = b ∨ lt (pos a) b
  := by
  obtain ⟨_, hpos, _⟩ := h.more b hb
  obtain ⟨last, hlast, rfl⟩ := Option.mem_map.mp hpos
  have hne : items ≠ [] := List.ne_nil_of_mem ha
  have hlast' : items.getLast hne = last := by
    rw [Option.mem_def, List.getLast?_eq_some_getLast hne] at hlast
    exact Option.some.inj hlast
  rw [← List.dropLast_append_getLast hne, hlast', List.mem_append, List.mem_singleton] at ha
  rcases ha with ha | rfl
  · have hsplit := h.sorted
    rw [← List.dropLast_append_getLast hne, hlast', List.pairwise_append] at hsplit
    exact Or.inr (hsplit.2.2 a ha last (List.mem_singleton.mpr rfl))
  · exact Or.inl rfl

/-- The next boundary is beyond the one before. -/
theorem IsPage.beyond_next (h : IsPage lt pos size rows boundary items next) {b : β}
    (hb : next = some b) :
  Beyond lt boundary b
  := by
  obtain ⟨_, hpos, _⟩ := h.more b hb
  obtain ⟨last, hlast, rfl⟩ := Option.mem_map.mp hpos
  exact (h.mem last (List.mem_of_getLast? hlast)).2

/-- A walk that has begun has something to read on its last page, unless it is its first. -/
theorem Walk.length_static (h : Walk lt pos size boundary pages none)
    (static : ∀ page ∈ pages, page.1 = rows) :
  (pages.flatMap Prod.snd).length ≤ pages.length * size
    ∧ ((∃ a ∈ rows, Beyond lt boundary (pos a)) →
      (pages.length - 1) * size < (pages.flatMap Prod.snd).length)
    ∧ ((¬ ∃ a ∈ rows, Beyond lt boundary (pos a)) → pages.length = 1)
  := by
  generalize hfinal : (none : Option β) = final at h
  induction h with
  | page page =>
      rw [List.flatMap_singleton, List.length_singleton]
      refine ⟨by rw [Nat.one_mul]; exact page.few, fun hsome => ?_, fun _ => rfl⟩
      obtain ⟨a, ha, hbeyond⟩ := hsome
      have hrows := static _ List.mem_cons_self
      subst hrows
      have hin := page.last hfinal.symm a ha hbeyond
      simpa using List.length_pos_of_mem hin
  | turn page walk ih =>
      have hrows := static _ List.mem_cons_self
      subst hrows
      obtain ⟨hfull, _, _, a, ha, hbeyond, hlt⟩ := page.more _ rfl
      obtain ⟨hle, hlt', _⟩ := ih (fun page hp => static page (List.mem_cons_of_mem _ hp)) hfinal
      have hrest := hlt' ⟨a, ha, fun b₀ hb₀ => Option.some.inj hb₀ ▸ hlt⟩
      rw [List.flatMap_cons, List.length_append, List.length_cons, hfull]
      refine ⟨?_, fun _ => ?_, fun hnone => absurd ⟨a, ha, hbeyond⟩ hnone⟩
      · rw [Nat.succ_mul, Nat.add_comm]
        exact Nat.add_le_add_right hle size
      · cases walk with
        | page => simpa using hrest
        | turn =>
            simp only [List.length_cons, Nat.add_sub_cancel] at hrest ⊢
            rw [Nat.succ_mul, Nat.add_comm]
            exact Nat.add_lt_add_left hrest size

section Order

variable [IsStrictTotalOrder β lt]

theorem lt_of_not_lt {a a' : α} (h : ¬ lt (pos a') (pos a)) (hne : pos a ≠ pos a') :
  lt (pos a) (pos a')
  := by
  by_contra hnot
  exact hne (Std.Trichotomous.trichotomous (r := lt) _ _ hnot h)

theorem not_lt_trans {b₁ b₂ b₃ : β} (h₁ : ¬ lt b₂ b₁) (h₂ : ¬ lt b₃ b₂) :
  ¬ lt b₃ b₁
  := by
  intro h
  by_cases heq : b₁ = b₂
  · exact h₂ (heq ▸ h)
  · have h₁₂ : lt b₁ b₂ := by
      by_contra hnot
      exact heq (Std.Trichotomous.trichotomous (r := lt) _ _ hnot h₁)
    exact h₂ (IsTrans.trans _ _ _ h h₁₂)

/-! ### Sorted lists -/

section Sorted

variable [DecidableRel lt]

/-- Elements at different positions are put in increasing order. -/
theorem pairwise_sorted {rows : List α} (distinct : (rows.map pos).Nodup) :
  (sorted lt pos rows).Pairwise fun a a' => lt (pos a) (pos a')
  := by
  have weak : (sorted lt pos rows).Pairwise fun a a' => ¬ lt (pos a') (pos a) := by
    have : IsTrans α fun a a' => ¬ lt (pos a') (pos a) :=
      ⟨fun _ _ _ h₁ h₂ => not_lt_trans h₁ h₂⟩
    have : Std.Total fun a a' : α => ¬ lt (pos a') (pos a) := ⟨fun a a' => by
      by_contra hnot
      obtain ⟨h₁, h₂⟩ := not_or.mp hnot
      exact Std.Asymm.asymm (r := lt) _ _ (not_not.mp h₁) (not_not.mp h₂)⟩
    exact List.pairwise_insertionSort _ rows
  have hnodup : (sorted lt pos rows).Pairwise fun a a' => pos a ≠ pos a' := by
    have perm : (sorted lt pos rows).Perm rows := perm_sorted rows
    exact List.pairwise_map.mp ((perm.map pos).nodup_iff.mpr distinct)
  exact weak.imp₂ (fun _ _ h hne => lt_of_not_lt h hne) hnodup

/-- An increasing list with the same elements is the list in order. -/
theorem eq_sorted {rows items : List α}
    (increasing : items.Pairwise fun a a' => lt (pos a) (pos a'))
    (distinct : (rows.map pos).Nodup) (mem : ∀ a, a ∈ items ↔ a ∈ rows) :
  items = sorted lt pos rows
  := by
  have irrefl : ∀ l : List α, (l.Pairwise fun a a' => lt (pos a) (pos a')) → l.Nodup := by
    intro l hl
    refine hl.imp fun h heq => ?_
    subst heq
    exact Std.Irrefl.irrefl (r := lt) _ h
  have hsorted : (sorted lt pos rows).Pairwise fun a a' => lt (pos a) (pos a') :=
    pairwise_sorted distinct
  have perm : items.Perm (sorted lt pos rows) := by
    rw [List.perm_ext_iff_of_nodup (irrefl _ increasing) (irrefl _ hsorted)]
    intro a
    rw [mem, (perm_sorted rows).mem_iff]
  exact perm.eq_of_pairwise (fun a a' _ _ h h' => absurd h' (Std.Asymm.asymm (r := lt) _ _ h))
    increasing hsorted

end Sorted

/-! ### Pages -/

/-- What `page` computes is a page. -/
theorem isPage_page [DecidableRel lt] {size : ℕ} (hsize : 1 ≤ size) {rows : List α}
    (distinct : (rows.map pos).Nodup) (boundary : Option β) :
  IsPage lt pos size rows boundary (page lt pos size rows boundary).1
    (page lt pos size rows boundary).2
  := by
  let left := rows.filter fun a => boundary.all fun b => lt b (pos a)
  have mem_left : ∀ a, a ∈ left ↔ a ∈ rows ∧ Beyond lt boundary (pos a) := by
    intro a
    rw [List.mem_filter]
    cases boundary with
    | none => simp [Beyond]
    | some b => simp [Beyond]
  have mem_sorted : ∀ a, a ∈ sorted lt pos left ↔ a ∈ rows ∧ Beyond lt boundary (pos a) :=
    fun a => (perm_sorted left).mem_iff.trans (mem_left a)
  have increasing : (sorted lt pos left).Pairwise fun a a' => lt (pos a) (pos a') :=
    pairwise_sorted ((List.filter_sublist.map pos).nodup distinct)
  show IsPage lt pos size rows boundary
    (if (sorted lt pos left).length ≤ size then (sorted lt pos left, none)
      else ((sorted lt pos left).take size, ((sorted lt pos left).take size).getLast?.map pos)).1
    (if (sorted lt pos left).length ≤ size then (sorted lt pos left, none)
      else ((sorted lt pos left).take size, ((sorted lt pos left).take size).getLast?.map pos)).2
  split
  · next hfew =>
      exact ⟨increasing, hfew, fun a ha => (mem_sorted a).mp ha,
        fun _ a ha hb => (mem_sorted a).mpr ⟨ha, hb⟩, fun b hb => by cases hb⟩
  · next hmany =>
      have hlt := not_le.mp hmany
      have hlength : ((sorted lt pos left).take size).length = size := by
        rw [List.length_take, min_eq_left hlt.le]
      have hne : (sorted lt pos left).take size ≠ [] := by
        intro hnil
        rw [hnil] at hlength
        exact absurd hlength (by simp; omega)
      obtain ⟨last, hlast⟩ : ∃ last, ((sorted lt pos left).take size).getLast? = some last :=
        ⟨_, List.getLast?_eq_some_getLast hne⟩
      -- What is not on the page comes after its last element.
      have after : ∀ a ∈ (sorted lt pos left).drop size, lt (pos last) (pos a) := by
        have hsplit := increasing
        rw [← List.take_append_drop size (sorted lt pos left), List.pairwise_append] at hsplit
        exact hsplit.2.2 last (List.mem_of_getLast? hlast)
      refine ⟨increasing.sublist (List.take_sublist _ _), hlength.le,
        fun a ha => (mem_sorted a).mp (List.mem_of_mem_take ha), ?_, fun b hb => ?_⟩
      · intro hnone
        rw [hlast] at hnone
        cases hnone
      · have hb' : b = pos last := by
          rw [hlast] at hb
          exact (Option.some.inj hb).symm
        subst hb'
        refine ⟨hlength, by rw [hlast]; rfl, fun a ha hbeyond => ?_, ?_⟩
        · have hmem := (mem_sorted a).mpr ⟨ha, hbeyond⟩
          rw [← List.take_append_drop size (sorted lt pos left), List.mem_append] at hmem
          exact hmem.imp id (after a)
        · have hdrop : (sorted lt pos left).drop size ≠ [] := by
            rw [ne_eq, List.drop_eq_nil_iff]
            exact hmany
          obtain ⟨a, ha⟩ := List.exists_mem_of_ne_nil _ hdrop
          obtain ⟨hrow, hbeyond⟩ := (mem_sorted a).mp (List.mem_of_mem_drop ha)
          exact ⟨a, hrow, hbeyond, after a ha⟩

/-! ### The order of what is read -/

/-- All that a walk reads is beyond the boundary it started from. -/
theorem Walk.beyond (h : Walk lt pos size boundary pages final) :
  ∀ a ∈ pages.flatMap Prod.snd, Beyond lt boundary (pos a)
  := by
  induction h with
  | page page =>
      intro a ha
      rw [List.flatMap_singleton] at ha
      exact (page.mem a ha).2
  | turn page _ ih =>
      intro a ha
      rw [List.flatMap_cons, List.mem_append] at ha
      rcases ha with ha | ha
      · exact (page.mem a ha).2
      · intro b₀ hb₀
        exact IsTrans.trans _ _ _ (page.beyond_next rfl b₀ hb₀) (ih a ha _ rfl)

/-- The positions that a walk reads increase. -/
theorem Walk.increasing (h : Walk lt pos size boundary pages final) :
  (pages.flatMap Prod.snd).Pairwise fun a a' => lt (pos a) (pos a')
  := by
  induction h with
  | page page =>
      rw [List.flatMap_singleton]
      exact page.sorted
  | turn page walk ih =>
      rw [List.flatMap_cons, List.pairwise_append]
      refine ⟨page.sorted, ih, fun a ha a' ha' => ?_⟩
      have hbeyond := walk.beyond a' ha' _ rfl
      rcases page.le_next rfl ha with heq | hlt
      · exact heq ▸ hbeyond
      · exact IsTrans.trans _ _ _ hlt hbeyond

/-- The boundary from which a walk goes on is beyond the one it started from. -/
theorem Walk.beyond_final {b : β} (h : Walk lt pos size boundary pages (some b)) :
  Beyond lt boundary b
  := by
  generalize hfinal : some b = final at h
  induction h with
  | page page => exact page.beyond_next hfinal.symm
  | turn page _ ih =>
      intro b₀ hb₀
      exact IsTrans.trans _ _ _ (page.beyond_next rfl b₀ hb₀) (ih hfinal _ rfl)

/-- All that a walk has read is before the boundary from which it goes on, or is there. -/
theorem Walk.le_final {b : β} (h : Walk lt pos size boundary pages (some b)) :
  ∀ a ∈ pages.flatMap Prod.snd, pos a = b ∨ lt (pos a) b
  := by
  generalize hfinal : some b = final at h
  induction h with
  | page page =>
      intro a ha
      rw [List.flatMap_singleton] at ha
      exact page.le_next hfinal.symm ha
  | turn page walk ih =>
      intro a ha
      rw [List.flatMap_cons, List.mem_append] at ha
      rcases ha with ha | ha
      · subst hfinal
        have hnext := walk.beyond_final _ rfl
        rcases page.le_next rfl ha with heq | hlt
        · exact Or.inr (heq ▸ hnext)
        · exact Or.inr (IsTrans.trans _ _ _ hlt hnext)
      · exact ih hfinal a ha

/-- It is read exactly once. -/
theorem Walk.reads_once [BEq β] [LawfulBEq β] (h : Walk lt pos size boundary pages none) {b : β}
    (occupied : ∀ page ∈ pages, ∃ a ∈ page.1, pos a = b) (hbeyond : Beyond lt boundary b) :
  ((pages.flatMap Prod.snd).map pos).count b = 1
  := by
  obtain ⟨a, ha, rfl⟩ := h.reads occupied hbeyond
  refine List.count_eq_one_of_mem ?_ (List.mem_map_of_mem ha)
  refine List.pairwise_map.mpr (h.increasing.imp fun hlt heq => ?_)
  rw [heq] at hlt
  exact Std.Irrefl.irrefl (r := lt) _ hlt

/-! ### A list that does not change -/

/-- A walk to the end reads what is beyond the boundary. -/
theorem Walk.mem_static (h : Walk lt pos size boundary pages none)
    (static : ∀ page ∈ pages, page.1 = rows) (a : α) :
  a ∈ pages.flatMap Prod.snd ↔ a ∈ rows ∧ Beyond lt boundary (pos a)
  := by
  constructor
  · exact fun ha => ⟨h.mem static a ha, h.beyond a ha⟩
  · rintro ⟨ha, hbeyond⟩
    generalize hfinal : (none : Option β) = final at h
    induction h with
    | page page =>
        rw [List.flatMap_singleton]
        have hrows := static _ List.mem_cons_self
        subst hrows
        exact page.last hfinal.symm a ha hbeyond
    | turn page _ ih =>
        rw [List.flatMap_cons, List.mem_append]
        have hrows := static _ List.mem_cons_self
        subst hrows
        obtain ⟨_, _, hmore, _⟩ := page.more _ rfl
        rcases hmore a ha hbeyond with hin | hlt
        · exact Or.inl hin
        · exact Or.inr (ih (fun page hp => static page (List.mem_cons_of_mem _ hp))
            (fun b₀ hb₀ => Option.some.inj hb₀ ▸ hlt) hfinal)

/-- A walk that goes on has left out some element of the list. -/
theorem Walk.length_lt_static {b : β} (h : Walk lt pos size boundary pages (some b))
    (static : ∀ page ∈ pages, page.1 = rows) :
  pages.length * size < rows.length
  := by
  have hfull := h.full_of_more
  have hlength : (pages.flatMap Prod.snd).length = pages.length * size := by
    rw [List.length_flatMap, List.map_congr_left hfull, List.map_const', List.sum_replicate_nat]
  obtain ⟨a, ha, hlt⟩ := h.more static
  have hnew : a ∉ pages.flatMap Prod.snd := by
    intro hin
    rcases h.le_final a hin with heq | hlt'
    · rw [heq] at hlt
      exact Std.Irrefl.irrefl (r := lt) _ hlt
    · exact Std.Asymm.asymm (r := lt) _ _ hlt hlt'
  have hnodup : (a :: pages.flatMap Prod.snd).Nodup := by
    refine List.nodup_cons.mpr ⟨hnew, h.increasing.imp fun hlt heq => ?_⟩
    rw [heq] at hlt
    exact Std.Irrefl.irrefl (r := lt) _ hlt
  have hsubset : a :: pages.flatMap Prod.snd ⊆ rows := by
    intro a' ha'
    rcases List.mem_cons.mp ha' with rfl | ha'
    · exact ha
    · exact h.mem static a' ha'
  have hle := (hnodup.subperm hsubset).length_le
  rw [List.length_cons, hlength] at hle
  exact hle

/-- A walk from the start to the end reads the list in order. -/
theorem Walk.eq_sorted [DecidableRel lt] (h : Walk lt pos size none pages none)
    (static : ∀ page ∈ pages, page.1 = rows) (distinct : (rows.map pos).Nodup) :
  pages.flatMap Prod.snd = sorted lt pos rows
  := by
  refine Paging.eq_sorted h.increasing distinct fun a => ?_
  rw [h.mem_static static a]
  exact and_iff_left fun b₀ hb₀ => by cases hb₀

/-- How many pages there are: as many as it takes, and one if there is nothing to read. -/
def pageCount (size n : ℕ) : ℕ := max 1 ((n + size - 1) / size)

/-- A number of pages that is enough, and of which none is empty, is the number of pages. -/
theorem eq_pageCount {size n k : ℕ} (hsize : 1 ≤ size) (enough : n ≤ k * size)
    (least : 0 < n → (k - 1) * size < n) (one : n = 0 → k = 1) :
  k = pageCount size n
  := by
  rw [pageCount]
  rcases Nat.eq_zero_or_pos n with rfl | hpos
  · rw [one rfl, Nat.zero_add, Nat.div_eq_of_lt (Nat.sub_lt hsize Nat.one_pos)]
    rfl
  · have hlt := least hpos
    obtain ⟨k, rfl⟩ : ∃ m, k = m + 1 := by
      refine ⟨k - 1, (Nat.succ_pred_eq_of_pos (Nat.pos_of_ne_zero ?_)).symm⟩
      rintro rfl
      rw [Nat.zero_mul] at enough
      omega
    rw [Nat.add_sub_cancel] at hlt
    have hsucc : (k + 1) * size = k * size + size := Nat.succ_mul k size
    have hsucc' : (k + 1 + 1) * size = (k + 1) * size + size := Nat.succ_mul (k + 1) size
    have hdiv : (n + size - 1) / size = k + 1 :=
      Nat.div_eq_of_lt_le (by omega) (by omega)
    rw [hdiv]
    exact (max_eq_right (Nat.succ_le_succ (Nat.zero_le k))).symm

/-- A walk from the start to the end has that many pages. -/
theorem Walk.length_eq [DecidableRel lt] (h : Walk lt pos size none pages none) (hsize : 1 ≤ size)
    (static : ∀ page ∈ pages, page.1 = rows) (distinct : (rows.map pos).Nodup) :
  pages.length = pageCount size rows.length
  := by
  have htotal : (pages.flatMap Prod.snd).length = rows.length := by
    rw [h.eq_sorted static distinct]
    exact (perm_sorted rows).length_eq
  obtain ⟨enough, least, one⟩ := h.length_static static
  rw [htotal] at enough least
  refine eq_pageCount hsize enough (fun hpos => least ?_) fun hzero => one ?_
  · obtain ⟨a, ha⟩ := List.exists_mem_of_length_pos hpos
    exact ⟨a, ha, fun b₀ hb₀ => by cases hb₀⟩
  · rintro ⟨a, ha, _⟩
    exact List.ne_nil_of_mem ha (List.length_eq_zero_iff.mp hzero)

/-- A walk that goes on has fewer pages yet. -/
theorem Walk.length_lt {b : β} (h : Walk lt pos size none pages (some b)) (hsize : 1 ≤ size)
    (static : ∀ page ∈ pages, page.1 = rows) :
  pages.length < pageCount size rows.length
  := by
  have hlt := h.length_lt_static static
  have hle : pages.length + 1 ≤ (rows.length + size - 1) / size := by
    rw [Nat.le_div_iff_mul_le hsize, Nat.succ_mul]
    omega
  exact lt_of_lt_of_le hle (le_max_right _ _)

/-- What is beyond the next boundary is less than what is beyond the boundary of a page. -/
theorem IsPage.left_lt [DecidableRel lt] {b : β}
    (h : IsPage lt pos size rows boundary items (some b)) :
  (rows.filter fun a => lt b (pos a)).length
    < (rows.filter fun a => boundary.all fun b₀ => lt b₀ (pos a)).length
  := by
  have hbeyond := h.beyond_next rfl
  have hnarrow : (rows.filter fun a => lt b (pos a))
      = (rows.filter fun a => boundary.all fun b₀ => lt b₀ (pos a)).filter fun a => lt b (pos a) := by
    rw [List.filter_filter]
    refine List.filter_congr fun a _ => ?_
    by_cases hb : lt b (pos a)
    · have hall : (boundary.all fun b₀ => lt b₀ (pos a)) = true := by
        cases boundary with
        | none => rfl
        | some b₀ => exact decide_eq_true (Trans.trans (hbeyond b₀ rfl) hb)
      simp [hb, hall]
    · simp [hb]
  obtain ⟨_, hlast, _⟩ := h.more b rfl
  obtain ⟨a, ha, rfl⟩ := Option.mem_map.mp hlast
  obtain ⟨hmem, ha'⟩ := h.mem a (List.mem_of_getLast? ha)
  rw [hnarrow, List.length_filter_lt_length_iff_exists]
  refine ⟨a, List.mem_filter.mpr ⟨hmem, ?_⟩, ?_⟩
  · cases boundary with
    | none => rfl
    | some b₀ => exact decide_eq_true (ha' b₀ rfl)
  · rw [decide_eq_true_eq]
    exact irrefl _

end Order

/-! ### Numbered pages -/

section Numbered

variable {α : Type} {size n : ℕ} {l : List α}

/-- The page of a number of a list; the first page is that of 1. -/
def slice (size : ℕ) (l : List α) (n : ℕ) : List α := (l.drop ((n - 1) * size)).take size

/-- There is nothing on a page past the end. -/
theorem slice_eq_nil (h : l.length ≤ (n - 1) * size) :
  slice size l n = []
  := by
  rw [slice, List.drop_eq_nil_of_le h, List.take_nil]

/-- The first pages have the first elements. -/
theorem flatMap_slice (k : ℕ) :
  (List.range k).flatMap (fun i => slice size l (i + 1)) = l.take (k * size)
  := by
  induction k with
  | zero => simp
  | succ k ih =>
      rw [List.range_succ, List.flatMap_append, ih, List.flatMap_singleton, slice,
        Nat.add_sub_cancel, Nat.succ_mul, List.take_add]

/-- The number of pages, rounded up, is enough for all elements. -/
theorem length_le_ceil (hsize : 1 ≤ size) (total : ℕ) :
  total ≤ (total + size - 1) / size * size
  := by
  have h := Nat.div_add_mod (total + size - 1) size
  have hlt := Nat.mod_lt (total + size - 1) hsize
  rw [Nat.mul_comm] at h
  omega

/-- The pages of all numbers together have all elements. -/
theorem flatMap_slice_ceil (hsize : 1 ≤ size) :
  (List.range ((l.length + size - 1) / size)).flatMap (fun i => slice size l (i + 1)) = l
  := by
  rw [flatMap_slice, List.take_of_length_le (length_le_ceil hsize l.length)]

end Numbered

end Paging
