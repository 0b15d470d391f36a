import HopTorrent.Proofs.Limiter.Spans

/-!
# Proofs/Limiter/Routes — a limiter is one meter for each route

A limiter is asked about any routes at any instants, also at ones that go back.  What happens on one
route (`uses`) is answered by the window of that route alone (`answers_events`), and equals what
happens where nothing is asked about other routes (`filter_events`).  So a new limiter meters each
route by itself (`events_windowed`).
-/

namespace HopTorrent

namespace Limiter

/-! ## Asking a limiter -/

/-- What a limiter is asked. -/
inductive Query where
  /-- To use a route once. -/
  | use (route : String) (now : Int)
  /-- How many uses of a route are left. -/
  | remaining (route : String)

/-- What a limiter was asked, with its answer. -/
inductive Event where
  | used (route : String) (u : Use)
  | counted (route : String) (left : Nat)

/-- The route that is asked about. -/
def Query.route : Query → String
  | use route _ | remaining route => route

/-- The route that was asked about. -/
def Event.route : Event → String
  | used route _ | counted route _ => route

/-- The answer to a query. -/
def answer (l : Limiter) : Query → Event
  | .use route now => .used route ⟨now, (l.allowAt route now).1⟩
  | .remaining route => .counted route (l.remaining route)

/-- The limiter after a query. -/
def asked (l : Limiter) : Query → Limiter
  | .use route now => (l.allowAt route now).2
  | .remaining _ => l

/-- The limiter after some queries. -/
def after (l : Limiter) (qs : List Query) : Limiter := qs.foldl asked l

/-- Some queries with their answers. -/
def events (l : Limiter) : List Query → List Event
  | [] => []
  | q :: qs => l.answer q :: (l.asked q).events qs

/-- The use of a route, if an event is one. -/
def Event.use? (route : String) : Event → Option Use
  | used r u => if r = route then some u else none
  | counted .. => none

/-- **The uses of one route.** -/
def uses (route : String) (es : List Event) : List Use := es.filterMap (Event.use? route)

variable {p : Policy} {l l' : Limiter} {route r : String} {q : Query} {qs : List Query} {now : Int}

theorem answer_route (l : Limiter) (q : Query) : (l.answer q).route = q.route := by
  cases q <;> rfl

theorem asked_policy (l : Limiter) (q : Query) : (l.asked q).policy = l.policy := by
  cases q <;> rfl

theorem after_policy (l : Limiter) (qs : List Query) : (l.after qs).policy = l.policy := by
  induction qs generalizing l with
  | nil => rfl
  | cons q qs ih => exact (ih (l.asked q)).trans (l.asked_policy q)

theorem after_append (l : Limiter) (qs qs' : List Query) :
    l.after (qs ++ qs') = (l.after qs).after qs' := List.foldl_append

theorem events_append (l : Limiter) (qs qs' : List Query) :
    l.events (qs ++ qs') = l.events qs ++ (l.after qs).events qs' := by
  induction qs generalizing l with
  | nil => rfl
  | cons q qs ih => exact congrArg (l.answer q :: ·) (ih (l.asked q))

/-- Every event of a run is the answer to a query, asked after those before it. -/
theorem exists_of_events_eq {es es' : List Event} {e : Event} (h : l.events qs = es ++ e :: es') :
    ∃ qs₁ q qs₂, qs = qs₁ ++ q :: qs₂ ∧ l.events qs₁ = es ∧ (l.after qs₁).answer q = e := by
  induction es generalizing l qs with
  | nil =>
    cases qs with
    | nil => cases h
    | cons q qs => exact ⟨[], q, qs, rfl, rfl, (List.cons.inj h).1⟩
  | cons d es ih =>
    cases qs with
    | nil => cases h
    | cons q qs =>
      obtain ⟨rfl, ht⟩ := List.cons.inj h
      obtain ⟨qs₁, q', qs₂, rfl, rfl, he⟩ := ih ht
      exact ⟨q :: qs₁, q', qs₂, rfl, rfl, he⟩

/-! ## One route at a time -/

/-- **A use changes the window of its own route**, and no other. -/
theorem get?_allowAt (l : Limiter) (route : String) (now : Int) (r : String) :
    (l.allowAt route now).2.windows.get? r
      = if r = route then some (l.policy.windowAt (l.windows.get? route) now).use.2
        else l.windows.get? r :=
  l.windows.get?_put route r _

/-- The window of a route after a use of it. -/
theorem get?_asked_use (l : Limiter) (route : String) (now : Int) :
    (l.asked (.use route now)).windows.get? route
      = some (l.policy.windowAt (l.windows.get? route) now).use.2 := by
  rw [asked, get?_allowAt, if_pos rfl]

/-- A query changes no window of another route. -/
theorem get?_asked_of_ne (h : q.route ≠ route) :
    (l.asked q).windows.get? route = l.windows.get? route := by
  cases q with
  | use r now =>
    rw [asked, get?_allowAt]
    exact if_neg (Ne.symm h)
  | remaining r => rfl

/-- A query of another route is no use of this one. -/
theorem uses_cons_of_ne {e : Event} (h : e.route ≠ route) (es : List Event) :
    uses route (e :: es) = uses route es := by
  cases e with
  | used r u => exact List.filterMap_cons_none (if_neg h)
  | counted r n => exact List.filterMap_cons_none rfl

theorem uses_cons_used (u : Use) (es : List Event) :
    uses route (.used route u :: es) = u :: uses route es :=
  List.filterMap_cons_some (if_pos rfl)

theorem uses_append (route : String) (es es' : List Event) :
    uses route (es ++ es') = uses route es ++ uses route es' := List.filterMap_append

/-- **The uses of a route are answered by its window.** -/
theorem answers_events (l : Limiter) (route : String) (qs : List Query) :
    l.policy.Answers (l.windows.get? route) (uses route (l.events qs))
      ((l.after qs).windows.get? route) := by
  induction qs generalizing l with
  | nil => exact .nil _
  | cons q qs ih =>
    have hq := ih (l.asked q)
    rw [asked_policy] at hq
    by_cases hr : q.route = route
    · cases q with
      | use r now =>
        obtain rfl : r = route := hr
        rw [get?_asked_use] at hq
        rw [events, answer, uses_cons_used]
        exact .cons rfl hq
      | remaining r => exact hq
    · rw [get?_asked_of_ne hr] at hq
      rw [events, uses_cons_of_ne (by rwa [answer_route])]
      exact hq

/-- The tokens left are those of the route's window. -/
theorem remaining_eq (l : Limiter) (route : String) :
    l.remaining route = ((l.windows.get? route).map Window.tokens).getD l.policy.capacity := by
  rw [remaining]
  cases l.windows.get? route <;> rfl

/-- Limiters that agree on a route answer a query about it alike, and agree on it afterwards. -/
theorem answer_congr (hp : l.policy = l'.policy)
    (hw : l.windows.get? q.route = l'.windows.get? q.route) :
    l.answer q = l'.answer q
      ∧ (l.asked q).windows.get? q.route = (l'.asked q).windows.get? q.route := by
  cases q with
  | use route now =>
    have hw : l.windows.get? route = l'.windows.get? route := hw
    refine ⟨?_, ?_⟩
    · rw [answer, answer, allowAt, allowAt, hp, hw]
    · rw [Query.route, get?_asked_use, get?_asked_use, hp, hw]
  | remaining route =>
    have hw : l.windows.get? route = l'.windows.get? route := hw
    refine ⟨?_, hw⟩
    rw [answer, answer, remaining_eq, remaining_eq, hp, hw]

/-- **What happens on a route does not depend on the other routes.** -/
theorem filter_events (hp : l.policy = l'.policy)
    (hw : l.windows.get? route = l'.windows.get? route) (qs : List Query) :
    ((l.events qs).filter fun e => e.route = route)
      = l'.events (qs.filter fun q => q.route = route) := by
  induction qs generalizing l l' with
  | nil => rfl
  | cons q qs ih =>
    have hp' : (l.asked q).policy = l'.policy := (l.asked_policy q).trans hp
    by_cases hr : q.route = route
    · subst hr
      obtain ⟨ha, hw'⟩ := answer_congr hp hw
      rw [events, List.filter_cons_of_pos (by simp [answer_route]),
        List.filter_cons_of_pos (by simp), events, ha,
        ih (hp'.trans (l'.asked_policy q).symm) hw']
    · rw [events, List.filter_cons_of_neg (by simpa [answer_route] using hr),
        List.filter_cons_of_neg (by simpa using hr), ih hp' ((get?_asked_of_ne hr).trans hw)]

/-! ## Windows move forward -/

/-- A window that is opened again opens later. -/
theorem Policy.openedAt_le_windowAt (p : Policy) (w : Window) (now : Int) :
    w.openedAt ≤ (p.windowAt (some w) now).openedAt := by
  rw [windowAt]
  split
  · show w.openedAt ≤ now
    omega
  · exact Int.le_refl _

/-- **An open window stays open or is opened again later.** -/
theorem exists_window_after {w : Window} (hw : l.windows.get? route = some w) (qs : List Query) :
    ∃ w', (l.after qs).windows.get? route = some w' ∧ w.openedAt ≤ w'.openedAt := by
  induction qs generalizing l w with
  | nil => exact ⟨w, hw, Int.le_refl _⟩
  | cons q qs ih =>
    by_cases hr : q.route = route
    · cases q with
      | use r now =>
        obtain rfl : r = route := hr
        have hq := l.get?_asked_use r now
        rw [hw, Window.use_eq] at hq
        obtain ⟨w', hw', hle⟩ := ih hq
        exact ⟨w', hw', Int.le_trans (l.policy.openedAt_le_windowAt w now) hle⟩
      | remaining r => exact ih hw
    · exact ih ((get?_asked_of_ne hr).trans hw)

/-! ## A new limiter -/

/-- A route that is not asked about keeps its window. -/
theorem get?_after_of_ne (h : ∀ q ∈ qs, q.route ≠ route) :
    (l.after qs).windows.get? route = l.windows.get? route := by
  induction qs generalizing l with
  | nil => rfl
  | cons q qs ih =>
    obtain ⟨hq, hqs⟩ := List.forall_mem_cons.mp h
    exact (ih hqs).trans (get?_asked_of_ne hq)

/-- **A new limiter has windows only for the routes it is asked about.** -/
theorem size_windows_le {routes : List String} (h : ∀ q ∈ qs, q.route ∈ routes) :
    ((ofPolicy p).after qs).windows.size ≤ routes.length := by
  have hsub : ((ofPolicy p).after qs).windows.keys ⊆ routes := by
    intro route hr
    obtain ⟨⟨route, w⟩, hw, rfl⟩ := List.mem_map.mp hr
    have hget := (Table.mem_entries_iff _ route w).mp hw
    by_contra hn
    have hne : ∀ q ∈ qs, q.route ≠ route := fun q hq he => hn (he ▸ h q hq)
    rw [get?_after_of_ne hne] at hget
    cases hget
  rw [Table.size, ← List.length_map Prod.fst]
  exact (Table.nodup _).length_le_of_subset hsub

/-- The uses of a route of a new limiter are answered from the first one on. -/
theorem answers_ofPolicy (p : Policy) (route : String) (qs : List Query) :
    p.Answers none (uses route ((ofPolicy p).events qs))
      (((ofPolicy p).after qs).windows.get? route) :=
  answers_events (ofPolicy p) route qs

/-- **What is said to be left** is the capacity less what was allowed in the last span. -/
theorem left_eq_of_counted {earlier later : List Event} {n : Nat}
    (h : (ofPolicy p).events qs = earlier ++ .counted route n :: later) :
    n = p.left (uses route earlier) := by
  obtain ⟨qs₁, q, qs₂, -, rfl, hq⟩ := exists_of_events_eq h
  cases q with
  | use r now => cases hq
  | remaining r =>
    cases hq
    rw [remaining_eq, after_policy]
    exact (answers_ofPolicy p route qs₁).tokens_eq

theorem tokens_le {w : Window} (hw : ((ofPolicy p).after qs).windows.get? route = some w) :
    w.tokens ≤ p.capacity := by
  rw [(answers_ofPolicy p route qs).eq_window] at hw
  obtain ⟨s, -, rfl⟩ := Option.map_eq_some_iff.mp hw
  exact Nat.sub_le _ _

/-- **What a new limiter does on one route.** -/
structure Windowed (p : Policy) (qs : List Query) (route : String) : Prop where
  /-- It does what it does where it is asked about this route only. -/
  alone : (((ofPolicy p).events qs).filter fun e => e.route = route)
    = (ofPolicy p).events (qs.filter fun q => q.route = route)
  /-- In each span the first uses are allowed, as many as the capacity says, and no other. -/
  metered : p.Metered (uses route ((ofPolicy p).events qs))
  /-- What is said to be left is the capacity less what was allowed in the last span. -/
  counted : ∀ earlier n later, (ofPolicy p).events qs = earlier ++ .counted route n :: later →
    n = p.left (uses route earlier)
  /-- The window that is kept was opened by the last span, and each use of that took a token while
  there was one. -/
  window : ((ofPolicy p).after qs).windows.get? route
    = (p.spans (uses route ((ofPolicy p).events qs))).getLast?.map p.windowOf
  /-- There are never more tokens than the capacity says. -/
  bounded : ∀ w, ((ofPolicy p).after qs).windows.get? route = some w → w.tokens ≤ p.capacity
  /-- No window is opened before the one it follows. -/
  forward : ∀ w more, ((ofPolicy p).after qs).windows.get? route = some w →
    ∃ w', ((ofPolicy p).after (qs ++ more)).windows.get? route = some w'
      ∧ w.openedAt ≤ w'.openedAt

/-- **A limiter is the product of one meter for each route**, whatever it is asked and when. -/
theorem events_windowed (p : Policy) (qs : List Query) (route : String) :
    Windowed p qs route where
  alone := filter_events rfl rfl qs
  metered := (answers_ofPolicy p route qs).metered
  counted := fun _ _ _ => left_eq_of_counted
  window := (answers_ofPolicy p route qs).eq_window
  bounded := fun _ => tokens_le
  forward := by
    intro w more hw
    rw [after_append]
    exact exists_window_after hw more

end Limiter

end HopTorrent
