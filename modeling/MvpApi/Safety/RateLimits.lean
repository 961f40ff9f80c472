import MvpApi.Application.RateLimiter
import MvpApi.Library.Counters

/-!
# The budget of the rate limiter

The hits of a limiter arrive at any times and in any order, and items of its table are dropped in
between, but no item that is still hit. Then in each window just as many hits on a key are
admitted as the budget allows, or all of them if there are fewer. A refused caller is told when
the next window starts.
-/

set_option autoImplicit false

namespace MvpApi

/-! ### Runs -/

/-- A request is counted under a key at some time, or an item of the table is dropped. -/
inductive LimiterEvent where
  | hit (key : String) (now : ℕ)
  | expire (pk : String)
deriving DecidableEq, Repr

/-- A hit and its answer. -/
structure LimiterAnswer where
  key : String
  now : ℕ
  retryAfter : Option ℕ
deriving DecidableEq, Repr

/-- A table without items. -/
def DynamoTables.empty : DynamoTables := fun _ _ => none

/-- The tables without an item. -/
def DynamoTables.expire (tables : DynamoTables) (table pk : String) : DynamoTables :=
  Function.update tables table (Function.update (tables table) pk none)

/-- The answers to the hits of a run, in the order of the hits. -/
def DynamoRateLimiter.answers (limiter : DynamoRateLimiter) :
    DynamoTables → List LimiterEvent → List LimiterAnswer
  | _, [] => []
  | tables, .hit key now :: events =>
      ⟨key, now, (limiter.hit key now tables).1⟩
        :: limiter.answers (limiter.hit key now tables).2 events
  | tables, .expire pk :: events => limiter.answers (tables.expire limiter.table pk) events

/-- The key of the item that a hit is counted in. -/
def DynamoRateLimiter.itemKey (limiter : DynamoRateLimiter) (key : String) (now : ℕ) : String :=
  key ++ ":" ++ toString (now - now % limiter.windowSeconds)

/-- An item is not dropped while hits of its window still arrive. -/
def DynamoRateLimiter.Timely (limiter : DynamoRateLimiter) (events : List LimiterEvent) : Prop :=
  events.Pairwise fun event later =>
    ∀ key now, event = .expire (limiter.itemKey key now) → later ≠ .hit key now

/-- The hits on a key in the window with the number `n`. -/
def DynamoRateLimiter.hitsIn (limiter : DynamoRateLimiter) (key : String) (n : ℕ)
    (events : List LimiterEvent) : ℕ :=
  events.countP fun
    | .hit key' now => key' = key ∧ now / limiter.windowSeconds = n
    | .expire _ => False

/-! ### The keys of the items -/

/-- Two texts with a mark that the second parts do not have are equal part by part. -/
theorem append_mark_inj {α : Type} {xs ys xs' ys' : List α} {mark : α} (h : mark ∉ ys)
    (h' : mark ∉ ys') :
  xs ++ mark :: ys = xs' ++ mark :: ys' ↔ xs = xs' ∧ ys = ys'
  := by
  constructor
  · intro equal
    obtain ⟨rest, rfl, tail⟩ | ⟨rest, rfl, tail⟩ := List.append_eq_append_iff.mp equal
    · cases rest with
      | nil => simpa using tail
      | cons c rest =>
          obtain ⟨rfl, rfl⟩ := List.cons.inj tail
          exact absurd (List.mem_append_right rest List.mem_cons_self) h
    · cases rest with
      | nil => simpa [eq_comm] using tail
      | cons c rest =>
          obtain ⟨rfl, rfl⟩ := List.cons.inj tail
          exact absurd (List.mem_append_right rest List.mem_cons_self) h'
  · rintro ⟨rfl, rfl⟩
    rfl

theorem toDigits_inj {m n : ℕ} :
  Nat.toDigits 10 m = Nat.toDigits 10 n ↔ m = n
  := by
  constructor
  · intro h
    rw [← Nat.ofDigitChars_ten_toDigits (n := m), h, Nat.ofDigitChars_ten_toDigits]
  · rintro rfl
    rfl

/-- Hits are counted in the same item if they have the same key and fall in the same window. -/
theorem DynamoRateLimiter.itemKey_inj {limiter : DynamoRateLimiter}
    (positive : 0 < limiter.windowSeconds) {key key' : String} {now now' : ℕ} :
  limiter.itemKey key now = limiter.itemKey key' now'
    ↔ key = key' ∧ now / limiter.windowSeconds = now' / limiter.windowSeconds
  := by
  have mark : ∀ n, ':' ∉ Nat.toDigits 10 n :=
    fun n h => absurd (Nat.isDigit_of_mem_toDigits (by decide) (by decide) h) (by decide)
  have start : ∀ n, n - n % limiter.windowSeconds
      = limiter.windowSeconds * (n / limiter.windowSeconds) := fun n => by
    have split := Nat.div_add_mod n limiter.windowSeconds
    omega
  have chars : ∀ (k : String) (n : ℕ), (limiter.itemKey k n).toList
      = k.toList ++ ':' :: Nat.toDigits 10 (n - n % limiter.windowSeconds) := fun k n => by
    rw [itemKey, String.toList_append, String.toList_append, Nat.toString_eq_repr, Nat.toList_repr]
    simp
  rw [← String.toList_inj, chars, chars, append_mark_inj (mark _) (mark _), String.toList_inj,
    toDigits_inj, start, start, Nat.mul_right_inj (Nat.ne_of_gt positive)]

/-! ### Counters -/

/-- The hits of the items. -/
def DynamoRateLimiter.counts (limiter : DynamoRateLimiter) (tables : DynamoTables) (pk : String) :
    ℕ :=
  ((tables limiter.table pk).map CounterItem.hits).getD 0

/-- What an event does to the counters. -/
def DynamoRateLimiter.event (limiter : DynamoRateLimiter) : LimiterEvent → Counters.Event String
  | .hit key now => .hit (limiter.itemKey key now)
  | .expire pk => .drop pk

theorem DynamoRateLimiter.counts_hit (limiter : DynamoRateLimiter) (key : String) (now : ℕ)
    (tables : DynamoTables) :
  limiter.counts (limiter.hit key now tables).2
    = (limiter.event (.hit key now)).next (limiter.counts tables)
  := by
  funext pk
  have after : (limiter.hit key now tables).2 = (updateItem tables limiter.table
      (limiter.itemKey key now)
      (now - now % limiter.windowSeconds + limiter.windowSeconds + 60)).2 := rfl
  rw [event, Counters.Event.next, counts, after, updateItem]
  dsimp only
  rw [Function.update_self]
  by_cases hpk : pk = limiter.itemKey key now
  · subst hpk
    rw [Function.update_self, Function.update_self, counts]
    cases tables limiter.table (limiter.itemKey key now) with
    | none => rfl
    | some item => rfl
  · rw [Function.update_of_ne hpk, Function.update_of_ne hpk, counts]

theorem DynamoRateLimiter.counts_expire (limiter : DynamoRateLimiter) (pk : String)
    (tables : DynamoTables) :
  limiter.counts (tables.expire limiter.table pk)
    = (limiter.event (.expire pk)).next (limiter.counts tables)
  := by
  funext pk'
  rw [event, Counters.Event.next, counts, DynamoTables.expire, Function.update_self]
  by_cases hpk : pk' = pk
  · subst hpk
    rw [Function.update_self, Function.update_self]
    rfl
  · rw [Function.update_of_ne hpk, Function.update_of_ne hpk, counts]

/-- A refused caller waits for the end of the window. -/
theorem DynamoRateLimiter.hit_eq (limiter : DynamoRateLimiter) (key : String) (now : ℕ)
    (tables : DynamoTables) :
  (limiter.hit key now tables).1
    = if limiter.counts tables (limiter.itemKey key now) < limiter.maxRequests then none
      else some (max 1 ((now / limiter.windowSeconds + 1) * limiter.windowSeconds - now))
  := by
  have hits : (updateItem tables limiter.table (limiter.itemKey key now)
      (now - now % limiter.windowSeconds + limiter.windowSeconds + 60)).1.getD 0
      = limiter.counts tables (limiter.itemKey key now) + 1 := by
    rw [updateItem, counts]
    cases tables limiter.table (limiter.itemKey key now) with
    | none => rfl
    | some item => rfl
  rw [hit, ← itemKey]
  dsimp only
  rw [hits, Counters.next_window]
  by_cases below : limiter.counts tables (limiter.itemKey key now) < limiter.maxRequests
  · rw [if_pos below, if_neg (by omega)]
  · rw [if_neg below, if_pos (by omega)]

/-- A hit is admitted if the counter of its item is below the budget. -/
theorem DynamoRateLimiter.hit_eq_none {limiter : DynamoRateLimiter} {key : String} {now : ℕ}
    {tables : DynamoTables} :
  (limiter.hit key now tables).1 = none
    ↔ limiter.counts tables (limiter.itemKey key now) < limiter.maxRequests
  := by
  rw [hit_eq]
  split
  · next below => simp [below]
  · next full => simp [full]

/-- A refused caller is told when the next window starts. -/
theorem DynamoRateLimiter.hit_eq_some {limiter : DynamoRateLimiter}
    (positive : 0 < limiter.windowSeconds) {key : String} {now d : ℕ} {tables : DynamoTables}
    (h : (limiter.hit key now tables).1 = some d) :
  1 ≤ d ∧ d ≤ limiter.windowSeconds
    ∧ now + d = (now / limiter.windowSeconds + 1) * limiter.windowSeconds
  := by
  have split := Nat.div_add_mod' now limiter.windowSeconds
  have below := Nat.mod_lt now positive
  have next := Counters.next_window limiter.windowSeconds now
  rw [hit_eq] at h
  split at h
  · cases h
  · obtain rfl := Option.some.inj h
    omega

/-! ### Admitted hits -/

/-- The hits that an item admits are those that its counter admits. -/
theorem DynamoRateLimiter.admitted_answers {limiter : DynamoRateLimiter} {pk : String}
    (events : List LimiterEvent) (tables : DynamoTables) :
  (limiter.answers tables events).countP
      (fun answer => limiter.itemKey answer.key answer.now = pk ∧ answer.retryAfter = none)
    = Counters.admitted limiter.maxRequests pk (limiter.counts tables)
        (events.map limiter.event)
  := by
  induction events generalizing tables with
  | nil => rfl
  | cons event events ih =>
      rw [List.map_cons, Counters.admitted]
      cases event with
      | hit key now =>
          have same : limiter.event (.hit key now) = .hit pk ↔ limiter.itemKey key now = pk := by
            simp [DynamoRateLimiter.event]
          rw [answers, List.countP_cons, ih, counts_hit, Nat.add_comm]
          congr 1
          simp only [same, hit_eq_none, decide_eq_true_eq]
          by_cases hpk : limiter.itemKey key now = pk
          · subst hpk
            simp
          · simp [hpk]
      | expire pk' =>
          rw [answers, ih, counts_expire, if_neg (by simp [DynamoRateLimiter.event]), Nat.zero_add]

/-- The hits on an item are the hits on its key in its window. -/
theorem DynamoRateLimiter.hits_events {limiter : DynamoRateLimiter}
    (positive : 0 < limiter.windowSeconds) (key : String) (now : ℕ) (events : List LimiterEvent) :
  Counters.hits (limiter.itemKey key now) (events.map limiter.event)
    = limiter.hitsIn key (now / limiter.windowSeconds) events
  := by
  rw [Counters.hits, List.count, List.countP_map, hitsIn]
  apply List.countP_congr
  intro event _
  cases event with
  | hit key' now' => simp [DynamoRateLimiter.event, itemKey_inj positive]
  | expire pk => simp [DynamoRateLimiter.event]

/-- The counter of an item is not dropped while it is still hit. -/
theorem DynamoRateLimiter.Timely.kept {limiter : DynamoRateLimiter} {events : List LimiterEvent}
    (timely : limiter.Timely events) (pk : String) :
  Counters.Kept pk (events.map limiter.event)
  := by
  apply List.pairwise_map.mpr
  apply timely.imp
  intro event later apart dropped hit
  cases event with
  | hit key now => cases dropped
  | expire pk' =>
      cases later with
      | hit key now =>
          obtain rfl : pk' = pk := Counters.Event.drop.inj dropped
          obtain rfl : limiter.itemKey key now = pk' := Counters.Event.hit.inj hit
          exact apart key now rfl rfl
      | expire pk'' => cases hit

/-- In a window, as many hits on a key are admitted as the budget allows. -/
theorem DynamoRateLimiter.admitted_window {limiter : DynamoRateLimiter}
    (positive : 0 < limiter.windowSeconds) {events : List LimiterEvent}
    (timely : limiter.Timely events) (key : String) (n : ℕ) :
  (limiter.answers .empty events).countP
      (fun answer => (answer.key = key ∧ answer.now / limiter.windowSeconds = n)
        ∧ answer.retryAfter = none)
    = min (limiter.hitsIn key n events) limiter.maxRequests
  := by
  have number : n * limiter.windowSeconds / limiter.windowSeconds = n :=
    Nat.mul_div_cancel n positive
  have counted := @DynamoRateLimiter.admitted_answers limiter
    (limiter.itemKey key (n * limiter.windowSeconds)) events .empty
  rw [Counters.admitted_eq_min (timely.kept _), hits_events positive, number] at counted
  have none : limiter.counts .empty (limiter.itemKey key (n * limiter.windowSeconds)) = 0 := rfl
  rw [none, Nat.sub_zero] at counted
  rw [← counted]
  apply List.countP_congr
  intro answer _
  simp [itemKey_inj positive, number]

/-- The answers of a run are those of its hits. -/
theorem DynamoRateLimiter.exists_hit_of_mem_answers {limiter : DynamoRateLimiter}
    {answer : LimiterAnswer} {events : List LimiterEvent} {tables : DynamoTables}
    (h : answer ∈ limiter.answers tables events) :
  ∃ tables', (limiter.hit answer.key answer.now tables').1 = answer.retryAfter
  := by
  induction events generalizing tables with
  | nil => cases h
  | cons event events ih =>
      cases event with
      | hit key now =>
          obtain rfl | h := List.mem_cons.mp h
          · exact ⟨tables, rfl⟩
          · exact ih h
      | expire pk => exact ih h

/-- In as many seconds in a row as a window is long, twice the budget is admitted at most. -/
theorem DynamoRateLimiter.admitted_span {limiter : DynamoRateLimiter}
    (positive : 0 < limiter.windowSeconds) {events : List LimiterEvent}
    (timely : limiter.Timely events) (key : String) (t : ℕ) :
  (limiter.answers .empty events).countP
      (fun answer => (answer.key = key ∧ t ≤ answer.now ∧ answer.now < t + limiter.windowSeconds)
        ∧ answer.retryAfter = none)
    ≤ 2 * limiter.maxRequests
  := by
  have first := admitted_window positive timely key (t / limiter.windowSeconds)
  have second := admitted_window positive timely key (t / limiter.windowSeconds + 1)
  rw [List.countP_eq_countP_filter_add _ _
    (fun answer => answer.now / limiter.windowSeconds = t / limiter.windowSeconds),
    List.countP_filter, List.countP_filter]
  have inFirst : (limiter.answers .empty events).countP (fun answer =>
      decide ((answer.key = key ∧ t ≤ answer.now ∧ answer.now < t + limiter.windowSeconds)
        ∧ answer.retryAfter = none)
      && decide (answer.now / limiter.windowSeconds = t / limiter.windowSeconds))
      ≤ limiter.maxRequests := by
    apply Nat.le_trans _ (first.trans_le (Nat.min_le_right _ _))
    apply List.countP_mono_left
    intro answer _ inSpan
    simp only [Bool.and_eq_true, decide_eq_true_eq] at inSpan ⊢
    exact ⟨⟨inSpan.1.1.1, inSpan.2⟩, inSpan.1.2⟩
  have inSecond : (limiter.answers .empty events).countP (fun answer =>
      decide ((answer.key = key ∧ t ≤ answer.now ∧ answer.now < t + limiter.windowSeconds)
        ∧ answer.retryAfter = none)
      && !decide (answer.now / limiter.windowSeconds = t / limiter.windowSeconds))
      ≤ limiter.maxRequests := by
    apply Nat.le_trans _ (second.trans_le (Nat.min_le_right _ _))
    apply List.countP_mono_left
    intro answer _ inSpan
    simp only [Bool.and_eq_true, Bool.not_eq_true', decide_eq_true_eq, decide_eq_false_iff_not]
      at inSpan ⊢
    obtain ⟨⟨⟨hkey, lower, upper⟩, admitted⟩, other⟩ := inSpan
    exact ⟨⟨hkey, (Counters.window_of_span positive lower upper).resolve_left other⟩, admitted⟩
  omega

/-! ### The budget -/

/-- If no item is dropped that is still hit, then of the hits on a key in a window just as many are
admitted as the budget allows, or all of them if there are fewer. A refused caller is told to wait
for the start of the next window. In as many seconds in a row as a window is long, the hits that
are admitted are at most twice the budget. -/
theorem budget_exact {limiter : DynamoRateLimiter} (positive : 0 < limiter.windowSeconds)
    {events : List LimiterEvent} (timely : limiter.Timely events) (key : String) :
  (∀ n, (limiter.answers .empty events).countP
      (fun answer => (answer.key = key ∧ answer.now / limiter.windowSeconds = n)
        ∧ answer.retryAfter = none)
      = min (limiter.hitsIn key n events) limiter.maxRequests)
    ∧ (∀ answer ∈ limiter.answers .empty events, ∀ d, answer.retryAfter = some d →
      1 ≤ d ∧ d ≤ limiter.windowSeconds
        ∧ answer.now + d = (answer.now / limiter.windowSeconds + 1) * limiter.windowSeconds)
    ∧ ∀ t, (limiter.answers .empty events).countP
      (fun answer => (answer.key = key ∧ t ≤ answer.now ∧ answer.now < t + limiter.windowSeconds)
        ∧ answer.retryAfter = none)
      ≤ 2 * limiter.maxRequests
  := by
  constructor
  · exact DynamoRateLimiter.admitted_window positive timely key
  constructor
  · intro answer hanswer d refused
    obtain ⟨tables, answered⟩ := DynamoRateLimiter.exists_hit_of_mem_answers hanswer
    exact DynamoRateLimiter.hit_eq_some positive (answered.trans refused)
  · exact DynamoRateLimiter.admitted_span positive timely key

/-- Two a minute: the third hit in a minute is refused, also after hits of another caller, while
the next minute has a budget of its own. The first item is dropped later on. -/
theorem budget_exact_of_two_a_minute :
  let limiter : DynamoRateLimiter := ⟨"rate-limits", 2, 60⟩
  let events : List LimiterEvent :=
    [.hit "login:ada" 119, .hit "login:ada" 61, .hit "login:bob" 70, .hit "login:ada" 118,
      .hit "login:ada" 120, .expire "login:ada:60", .hit "login:ada" 179]
  (limiter.answers .empty events).map (fun answer => answer.retryAfter)
      = [none, none, none, some 2, none, none]
    ∧ (limiter.answers .empty events).countP
        (fun answer => (answer.key = "login:ada" ∧ answer.now / 60 = 1)
          ∧ answer.retryAfter = none)
      = min (limiter.hitsIn "login:ada" 1 events) 2
  := by
  intro limiter events
  have positive : 0 < limiter.windowSeconds := by decide
  have timely : limiter.Timely events := by
    simp only [DynamoRateLimiter.Timely, events, List.pairwise_cons, List.mem_cons, reduceCtorEq,
      LimiterEvent.expire.injEq, false_implies, implies_true, true_and, List.not_mem_nil, or_false,
      forall_eq, List.Pairwise.nil, and_true]
    rintro key now hpk hit
    obtain ⟨rfl, rfl⟩ := LimiterEvent.hit.inj hit
    exact absurd hpk (by decide +kernel)
  constructor
  · decide +kernel
  · exact (budget_exact positive timely "login:ada").1 1

end MvpApi
