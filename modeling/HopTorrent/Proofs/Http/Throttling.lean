import HopTorrent.Proofs.Http.Allowance
import HopTorrent.Proofs.Http.Mirror
import HopTorrent.Proofs.Http.Templates
import HopTorrent.Proofs.Limiter.Routes

/-!
# Proofs/Http/Throttling — how often the service may be asked

A request that is no preflight request draws from the bucket of the template that its path matches,
and all that match none from one more (`Request.Draws`).  What requests are answered 429 is what a
limiter refuses that is asked about those buckets (`drawn_exchanges`).  So a service with new
allowances is throttled bucket by bucket (`visits_throttled`): a request is refused exactly when its
bucket was used up since it was last filled, a refused one does nothing, and all that matters for a
bucket are the instants at which requests drew from it.
-/

namespace HopTorrent

namespace Http

open Limiter (Use Query)

variable {σ τ : Type} {b : Backend σ} {v : Visit σ} {s s₀ : Service σ} {req : Request}
  {visits : List (Visit σ)} {bucket : String} {p : Limiter.Policy}

/-! ## Buckets -/

/-- **The bucket that a request draws from**: that of the template which its path matches, or the
one for all other paths.  Preflight requests draw from none. -/
def Request.Draws (req : Request) (bucket : String) : Prop :=
  req.method ≠ "OPTIONS" ∧ (bucket ∈ templates ∧ Matches bucket (pathOf req.uri)
    ∨ bucket = unmatched ∧ ∀ t ∈ templates, ¬ Matches t (pathOf req.uri))

theorem Request.draws_iff :
    req.Draws bucket ↔ req.method ≠ "OPTIONS" ∧ bucketOf req.route = bucket := by
  rw [Draws, ← bucketOf_eq_iff]
  rfl

instance : Decidable (req.Draws bucket) := decidable_of_iff _ Request.draws_iff.symm

/-- There are eight buckets. -/
def buckets : List String := unmatched :: templates

theorem Request.Draws.mem_buckets (h : req.Draws bucket) : bucket ∈ buckets := by
  obtain ⟨-, ⟨hb, -⟩ | ⟨rfl, -⟩⟩ := h
  · exact List.mem_cons_of_mem _ hb
  · exact List.mem_cons_self

/-- A request draws from one bucket. -/
theorem Request.existsUnique_draws (h : req.method ≠ "OPTIONS") : ∃! bucket, req.Draws bucket := by
  refine ⟨bucketOf req.route, draws_iff.mpr ⟨h, rfl⟩, fun bucket hb => ?_⟩
  exact (draws_iff.mp hb).2.symm

example : ∀ uri ∈ ["/api/torrents/aa", "/api/torrents/bb?peers=all"],
    (⟨"DELETE", uri, [], []⟩ : Request).Draws "/api/torrents/:info_hash" := by
  decide

/-! ## Requests one after another -/

/-- Requests with their responses, in the order in which they were served. -/
def exchanges (b : Backend σ) (s₀ : Service σ) : List (Visit σ) → List (Visit σ × Response)
  | [] => []
  | v :: earlier => exchanges b s₀ earlier ++ [(v, (v.serve b (after b s₀ earlier)).1)]

/-- The draw from a bucket, if an exchange is one, and whether it was allowed: 429 says that it was
not. -/
def draw? (bucket : String) (e : Visit σ × Response) : Option Use :=
  if e.1.request.Draws bucket then some ⟨e.1.now, e.2.status ≠ 429⟩ else none

/-- **The draws from a bucket.** -/
def drawn (bucket : String) (es : List (Visit σ × Response)) : List Use :=
  es.filterMap (draw? bucket)

/-- The instants at which requests draw from a bucket, the latest one first. -/
def instants (bucket : String) (visits : List (Visit σ)) : List Int :=
  (visits.filter fun v => v.request.Draws bucket).map Visit.now

/-- The service with new allowances. -/
def Service.refilled (s : Service σ) (p : Limiter.Policy) : Service σ :=
  { s with limiter := .ofPolicy p }

/-- What a visit asks the limiter. -/
def Visit.query? (v : Visit σ) : Option Query :=
  if v.request.method = "OPTIONS" then none else some (.use (bucketOf v.request.route) v.now)

/-- What some visits ask the limiter, in the order in which they were served. -/
def queries : List (Visit σ) → List Query
  | [] => []
  | v :: earlier => queries earlier ++ v.query?.toList

theorem Visit.serve_preflight (h : v.request.method = "OPTIONS") (b : Backend σ) (s : Service σ) :
    (v.serve b s).2 = v.before s := by
  rw [serve, Service.run_preflight h]

/-- A visit asks the limiter what it has to ask. -/
theorem Visit.serve_limiter (b : Backend σ) (v : Visit σ) (s : Service σ) :
    (v.serve b s).2.limiter = s.limiter.after v.query?.toList := by
  by_cases h : v.request.method = "OPTIONS"
  · rw [serve_preflight h, query?, if_pos h]
    rfl
  · rw [serve, Service.handle_limiter h, query?, if_neg h]
    rfl

/-- **The limiter after some visits** is the one that was asked what they ask. -/
theorem limiter_after (b : Backend σ) (s₀ : Service σ) (visits : List (Visit σ)) :
    (after b s₀ visits).limiter = s₀.limiter.after (queries visits) := by
  induction visits with
  | nil => rfl
  | cons v earlier ih =>
    rw [queries, Limiter.after_append, ← ih]
    exact v.serve_limiter b (after b s₀ earlier)

theorem drawn_append (bucket : String) (es es' : List (Visit σ × Response)) :
    drawn bucket (es ++ es') = drawn bucket es ++ drawn bucket es' := List.filterMap_append

theorem drawn_of_draws (h : v.request.Draws bucket) (r : Response) :
    drawn bucket [(v, r)] = [⟨v.now, r.status ≠ 429⟩] := by
  have hd : draw? bucket (v, r) = some ⟨v.now, r.status ≠ 429⟩ := if_pos h
  exact List.filterMap_cons_some hd

theorem drawn_of_not_draws (h : ¬ v.request.Draws bucket) (r : Response) :
    drawn bucket [(v, r)] = [] := by
  have hd : draw? bucket (v, r) = none := if_neg h
  exact List.filterMap_cons_none hd

/-- An answer other than 429 says that the limiter allowed a visit. -/
theorem Visit.allowed_serve (h : v.request.method ≠ "OPTIONS") (b : Backend σ) (s : Service σ) :
    decide ((v.serve b s).1.status ≠ 429)
      = (s.limiter.allowAt (bucketOf v.request.route) v.now).1 := by
  have hs : (v.serve b s).1.status = 429 ↔ (v.before s).allows v.now v.request = false :=
    Service.status_eq_429_iff h
  rw [Bool.eq_iff_iff, decide_eq_true_iff, Ne, hs, Bool.not_eq_false]
  rfl

/-- A visit is allowed what the limiter allows it. -/
theorem Visit.drawn_serve (b : Backend σ) (v : Visit σ) (s : Service σ) (bucket : String) :
    drawn bucket [(v, (v.serve b s).1)]
      = Limiter.uses bucket (s.limiter.events v.query?.toList) := by
  -- A preflight request neither draws nor asks; any other asks about the bucket it draws from.
  by_cases h : v.request.method = "OPTIONS"
  · rw [query?, if_pos h, drawn_of_not_draws fun hd => hd.1 h]
    rfl
  rw [query?, if_neg h]
  by_cases hb : bucketOf v.request.route = bucket
  · rw [drawn_of_draws (Request.draws_iff.mpr ⟨h, hb⟩), allowed_serve h, ← hb]
    exact (Limiter.uses_cons_used _ []).symm
  · rw [drawn_of_not_draws fun hd => hb (Request.draws_iff.mp hd).2]
    have hne : (s.limiter.answer (.use (bucketOf v.request.route) v.now)).route ≠ bucket := hb
    exact (Limiter.uses_cons_of_ne hne []).symm

/-- **Requests are allowed what the limiter allows them.** -/
theorem drawn_exchanges (b : Backend σ) (s₀ : Service σ) (visits : List (Visit σ))
    (bucket : String) :
    drawn bucket (exchanges b s₀ visits)
      = Limiter.uses bucket (s₀.limiter.events (queries visits)) := by
  induction visits with
  | nil => rfl
  | cons v earlier ih =>
    have hv := v.drawn_serve b (after b s₀ earlier) bucket
    rw [limiter_after] at hv
    rw [exchanges, queries, Limiter.events_append, Limiter.uses_append, drawn_append, ih, hv]

/-- The draws are made at the instants of the requests that draw. -/
theorem now_drawn (b : Backend σ) (s₀ : Service σ) (visits : List (Visit σ)) (bucket : String) :
    (drawn bucket (exchanges b s₀ visits)).map Use.now = (instants bucket visits).reverse := by
  induction visits with
  | nil => rfl
  | cons v earlier ih =>
    rw [exchanges, drawn_append, List.map_append, ih]
    by_cases hd : v.request.Draws bucket
    · have hi : instants bucket (v :: earlier) = v.now :: instants bucket earlier :=
        congrArg (List.map Visit.now) (List.filter_cons_of_pos (decide_eq_true hd))
      rw [drawn_of_draws hd, hi, List.reverse_cons]
      rfl
    · have hi : instants bucket (v :: earlier) = instants bucket earlier :=
        congrArg (List.map Visit.now) (List.filter_cons_of_neg (mt of_decide_eq_true hd))
      rw [drawn_of_not_draws hd, hi]
      exact List.append_nil _

/-! ## New allowances -/

/-- What is drawn from a bucket is answered by its window. -/
theorem answers_drawn (b : Backend σ) (p : Limiter.Policy) (s : Service σ)
    (visits : List (Visit σ)) (bucket : String) :
    p.Answers none (drawn bucket (exchanges b (s.refilled p) visits))
      ((after b (s.refilled p) visits).limiter.windows.get? bucket) := by
  rw [drawn_exchanges, limiter_after]
  exact Limiter.answers_ofPolicy p bucket (queries visits)

/-- A visit asks about a bucket. -/
theorem Visit.route_mem_buckets {q : Query} (h : q ∈ v.query?) : q.route ∈ buckets := by
  rw [query?] at h
  split at h
  · cases h
  · rename_i ho
    obtain rfl := Option.some.inj h
    have hd : v.request.Draws (bucketOf v.request.route) := Request.draws_iff.mpr ⟨ho, rfl⟩
    exact hd.mem_buckets

theorem route_mem_buckets {q : Query} (h : q ∈ queries visits) : q.route ∈ buckets := by
  induction visits with
  | nil => cases h
  | cons v earlier ih =>
    obtain h | h := List.mem_append.mp h
    · exact ih h
    · exact v.route_mem_buckets (Option.mem_toList.mp h)

/-- **A visit is refused exactly when its bucket was used up since its last reset.** -/
theorem Visit.status_eq_429_iff (h : v.request.Draws bucket) (b : Backend σ) (p : Limiter.Policy)
    (s : Service σ) (visits : List (Visit σ)) :
    (v.serve b (after b (s.refilled p) visits)).1.status = 429
      ↔ p.admitted (drawn bucket (exchanges b (s.refilled p) visits)) v.now = p.capacity := by
  obtain ⟨ho, rfl⟩ := Request.draws_iff.mp h
  have hp : (after b (s.refilled p) visits).limiter.policy = p := by
    rw [limiter_after, Limiter.after_policy]
    rfl
  rw [← (answers_drawn b p s visits _).refused_iff v.now, serve, Service.status_eq_429_iff ho,
    Service.allows]
  dsimp only [before, Limiter.allowAt]
  rw [hp]

/-- **A refused visit only uses the allowance**: nothing else is changed, and it is answered alike
whatever the service is built on. -/
theorem Visit.serve_refused (h : v.request.Draws bucket) (hr : (v.serve b s).1.status = 429)
    (b' : Backend σ) :
    v.serve b' s
      = ((v.serve b s).1,
        { v.before s with limiter := (s.limiter.allowAt bucket v.now).2 }) := by
  obtain ⟨ho, rfl⟩ := Request.draws_iff.mp h
  have ha : (v.before s).allows v.now v.request = false := (Service.status_eq_429_iff ho).mp hr
  rw [serve, serve, Service.handle_refused ho ha, Service.handle_refused ho ha]
  rfl

/-- **How often a service may be asked** that was asked some things since its allowances were new,
whatever it was answered. -/
structure Throttled (b : Backend σ) (p : Limiter.Policy) (s : Service σ)
    (visits : List (Visit σ)) : Prop where
  /-- A request draws from one bucket: that of the template that its path matches, or else that of
  all paths that match none. -/
  one : ∀ req : Request, req.method ≠ "OPTIONS" → ∃! bucket, req.Draws bucket
  /-- It draws from that bucket once, and from no other. -/
  charged : ∀ (v : Visit σ) (bucket : String), v.request.Draws bucket →
    (v.serve b (after b (s.refilled p) visits)).2.limiter
      = ((after b (s.refilled p) visits).limiter.allowAt bucket v.now).2
  /-- There are never more than eight buckets. -/
  few : (after b (s.refilled p) visits).limiter.windows.size ≤ 8
  /-- It is answered 429 exactly when the bucket was used up since its last reset. -/
  refused : ∀ (v : Visit σ) (bucket : String), v.request.Draws bucket →
    ((v.serve b (after b (s.refilled p) visits)).1.status = 429
      ↔ p.admitted (drawn bucket (exchanges b (s.refilled p) visits)) v.now = p.capacity)
  /-- Then nothing but the allowance is touched, and nothing asked of what the service is built on:
  whatever that is, the answer and the state after it are the same. -/
  untouched : ∀ (v : Visit σ) (bucket : String), v.request.Draws bucket →
    (v.serve b (after b (s.refilled p) visits)).1.status = 429 →
    ∀ b' : Backend σ, v.serve b' (after b (s.refilled p) visits)
      = ((v.serve b (after b (s.refilled p) visits)).1,
        { v.before (after b (s.refilled p) visits) with
          limiter := ((after b (s.refilled p) visits).limiter.allowAt bucket v.now).2 })
  /-- Only the instants matter at which requests drew from a bucket: not the requests themselves,
  not those that drew from other buckets, and not the service. -/
  independent : ∀ (τ : Type) (b' : Backend τ) (s' : Service τ) (visits' : List (Visit τ))
    (bucket : String), instants bucket visits' = instants bucket visits →
    drawn bucket (exchanges b' (s'.refilled p) visits')
      = drawn bucket (exchanges b (s.refilled p) visits)

/-- **A service is throttled bucket by bucket**, whatever it is asked and when. -/
theorem visits_throttled (b : Backend σ) (p : Limiter.Policy) (s : Service σ)
    (visits : List (Visit σ)) : Throttled b p s visits where
  one := fun _ => Request.existsUnique_draws
  charged := by
    intro v bucket h
    obtain ⟨ho, rfl⟩ := Request.draws_iff.mp h
    rw [Visit.serve_limiter, Visit.query?, if_neg ho]
    rfl
  few := by
    rw [limiter_after]
    exact Limiter.size_windows_le fun q => route_mem_buckets
  refused := fun v bucket h => v.status_eq_429_iff h b p s visits
  untouched := fun v bucket h hr => v.serve_refused h hr
  independent := by
    intro τ b' s' visits' bucket hi
    -- Both are answered by a window that opens with the first draw, and at the same instants.
    refine (answers_drawn b' p s' visits' bucket).unique (answers_drawn b p s visits bucket) ?_
    rw [now_drawn, now_drawn, hi]

end Http

end HopTorrent
