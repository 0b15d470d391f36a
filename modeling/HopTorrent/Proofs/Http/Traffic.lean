import HopTorrent.Proofs.Http.Sections

/-!
# Proofs/Http/Traffic — requests whose sections are interleaved

A request does its section on the sessions when it arrives and its section on the database when its
turn comes; in between it is in flight, and sections of other requests may come.  An add is in
flight already while it waits for metadata, and does its section on the sessions when the wait ends.
Left undisturbed, the sections of a request do what the request does by itself
(`exists_undisturbed`).
-/

namespace HopTorrent

namespace Http

variable {σ : Type}

/-- A request in flight. -/
inductive Flight where
  /-- An add waits for the metadata of its torrent. -/
  | waiting (p : Session.Pending)
  /-- The section on the database is left. -/
  | left (rem : Remainder)

/-- A service and its requests in flight, in the order they arrived. -/
structure Traffic (σ : Type) where
  service : Service σ
  flights : List Flight

/-- One section of one request, which is named by its place among those in flight. -/
inductive Section (σ : Type) where
  /-- A request arrives. -/
  | arrive (e : Endpoint) (now : Int)
  /-- The wait of an add ends. -/
  | conclude (i : Nat) (w : Session.Waited) (now : Int)
  /-- A request does its section on the database, and is done. -/
  | finish (i : Nat)
  /-- The engine moves on by itself. -/
  | drift (f : σ → σ)

namespace Api

/-- Gives the magnet of an add to the engine, unless there is none. -/
def beginAdd (b : Backend σ) (magnet : String) : Serving σ Flight := do
  if Text.isBlankText magnet then return .left (.answer (refused 400 "Magnet URI is required"))
  match ← onSessions (Session.begin b.engine magnet) with
  | .ok p => return .waiting p
  | .error e =>
    return .left (← after "Failed to add torrent" (.error e) fun id => .answer (added id))

/-- The section on the sessions of an add whose wait is over. -/
def concludeAdd (b : Backend σ) (p : Session.Pending) (w : Session.Waited) (now : Int) :
    Serving σ Remainder := do
  after "Failed to add torrent" (← onSessions (Session.settle b.engine p w now))
    fun id => .answer (added id)

/-- What a request does when it arrives. -/
def arrive (b : Backend σ) (now : Int) : Endpoint → Serving σ Flight
  | .add magnet => beginAdd b magnet
  | e => do return .left (← act b now e)

end Api

/-! ## What these sections do -/

open Session (live)

/-- An add whose wait is over makes one transfer live at most. -/
theorem settle_live (eng : Engine σ) (p : Session.Pending) (w : Session.Waited) (now : Int)
    (s : Sessions σ) :
    live ((Session.settle eng p w now).run s).2.store = live s.store
      ∨ ∃ id, ((Session.settle eng p w now).run s).1 = .ok id ∧ id ∉ live s.store
        ∧ live ((Session.settle eng p w now).run s).2.store = insert id (live s.store) := by
  have hres : Session.Does eng s [] s.store ((Session.resolve p w).run s).2 :=
    Session.resolve_does p w s
  rw [Session.settle, Session.run_bind, ← hres.store]
  generalize ((Session.resolve p w).run s).2 = t
  by_cases hw : w = .ready
  · obtain ⟨calls, store, hx, hd⟩ := Session.enter_does eng p now t
    rw [hw, Session.conclude, Session.commit, Session.run_bind]
    rcases hr : (Session.enter eng p now).run t with ⟨r, u⟩
    rw [hr] at hx hd
    cases hx with
    | live | duplicate => exact .inl (congrArg live hd.store)
    | stored hl =>
      refine .inr ⟨_, rfl, not_not.mpr hl, ?_⟩
      rw [← Session.live_put, ← hd.store]
      rfl
    | unstarted =>
      obtain ⟨r, ha⟩ := Session.abandon_does eng p _ u
      exact .inl (congrArg live (ha.store.trans hd.store))
  · obtain ⟨e, r, -, hd⟩ := Session.giveUp_does eng p hw now t
    exact .inl (congrArg live hd.store)

theorem Api.concludeAdd_acts (b : Backend σ) (p : Session.Pending) (w : Session.Waited) (now : Int)
    (s : Service σ) : Acts s ((concludeAdd b p w now).run s) := by
  have hl := settle_live b.engine p w now s.sessions
  refine acts_after (fun e he => ?_) fun id hid => ?_
  · obtain hl | ⟨id, hid, -⟩ := hl
    · exact hl
    · cases he.symm.trans hid
  · obtain hl | ⟨id', hid', hn, hl⟩ := hl
    · rw [hl]
      exact .answered
    · cases hid.symm.trans hid'
      rw [hl]
      exact .entered hn

/-- A request other than an add does its section on the sessions when it arrives. -/
theorem Api.left_acts (b : Backend σ) (now : Int) (e : Endpoint) (s : Service σ) :
    ∃ rem, ((do return .left (← act b now e) : Serving σ Flight).run s).1 = .left rem
      ∧ Acts s (rem, ((do return .left (← act b now e) : Serving σ Flight).run s).2) :=
  ⟨_, rfl, act_acts b now e s⟩

/-- **What a request does when it arrives**: an add may have to wait, and changes nothing before;
any other does its section on the sessions. -/
theorem Api.arrive_cases (b : Backend σ) (now : Int) (e : Endpoint) (s : Service σ) :
    (∃ p, ((arrive b now e).run s).1 = .waiting p ∧ Keeps s ((arrive b now e).run s).2)
      ∨ ∃ rem, ((arrive b now e).run s).1 = .left rem
        ∧ Acts s (rem, ((arrive b now e).run s).2) := by
  cases e with
  | add magnet =>
    rw [arrive, beginAdd]
    split
    · exact .inr ⟨_, rfl, .answered, rfl⟩
    · rw [run_bind, run_onSessions]
      obtain ⟨-, hr⟩ | ⟨-, r, t, hr, -, hd⟩ := Session.begin_cases b.engine magnet s.sessions
      · rw [hr]
        exact .inr ⟨_, rfl, .answered, rfl⟩
      · rw [hr]
        cases r with
        | ok h => exact .inl ⟨⟨h, Text.trim magnet⟩, rfl, hd.store, rfl⟩
        | error e =>
          let next (id : InfoHash) : Remainder := .answer (added id)
          have hcalm : Calm (fun rem => ∃ r, rem = .answer r)
              (after "Failed to add torrent" (.error e) next : Serving σ Remainder) :=
            (calm_after_error _ e next).mono fun rem ⟨r, h, _⟩ => ⟨r, h⟩
          exact .inr ⟨_, rfl, hcalm.acts (congrArg live hd.store) rfl⟩
  | list | get | delete | pause | resume | getSettings | putSettings | health | cleanup =>
    exact .inr (left_acts b now _ s)

namespace Traffic

/-- Nothing was asked of the service yet. -/
def initial (engine : σ) (limiter : Limiter) : Traffic σ := ⟨.fresh engine limiter, []⟩

/-- Does one section.  A request that is not where the section expects it stays as it is. -/
def step (b : Backend σ) (c : Traffic σ) : Section σ → Traffic σ
  | .arrive e now =>
    ⟨((Api.arrive b now e).run c.service).2,
      c.flights ++ [((Api.arrive b now e).run c.service).1]⟩
  | .conclude i w now =>
    match c.flights[i]? with
    | some (.waiting p) =>
      ⟨((Api.concludeAdd b p w now).run c.service).2,
        c.flights.set i (.left ((Api.concludeAdd b p w now).run c.service).1)⟩
    | _ => c
  | .finish i =>
    match c.flights[i]? with
    | some (.left rem) => ⟨((Api.finish rem).run c.service).2, c.flights.eraseIdx i⟩
    | _ => c
  | .drift f =>
    { c with service.sessions.engine := f c.service.sessions.engine }

/-- Does some sections one after another. -/
def run (b : Backend σ) (c : Traffic σ) (as : List (Section σ)) : Traffic σ := as.foldl (step b) c

theorem run_snoc (b : Backend σ) (c : Traffic σ) (as : List (Section σ)) (a : Section σ) :
    c.run b (as ++ [a]) = (c.run b as).step b a := by
  rw [run, List.foldl_append]
  rfl

variable {b : Backend σ} {c : Traffic σ} {i : Nat}

theorem step_conclude {p : Session.Pending} (h : c.flights[i]? = some (.waiting p))
    (w : Session.Waited) (now : Int) :
    c.step b (.conclude i w now) = ⟨((Api.concludeAdd b p w now).run c.service).2,
      c.flights.set i (.left ((Api.concludeAdd b p w now).run c.service).1)⟩ := by
  rw [step, h]

theorem step_conclude_left {rem : Remainder} (h : c.flights[i]? = some (.left rem))
    (w : Session.Waited) (now : Int) : c.step b (.conclude i w now) = c := by
  rw [step, h]

theorem step_finish {rem : Remainder} (h : c.flights[i]? = some (.left rem)) :
    c.step b (.finish i) = ⟨((Api.finish rem).run c.service).2, c.flights.eraseIdx i⟩ := by
  rw [step, h]

/-- A request whose section on the database is not what is left has nothing to finish. -/
theorem step_of_ne (h : ∀ rem, c.flights[i]? ≠ some (.left rem)) : c.step b (.finish i) = c := by
  rw [step]
  split
  · rename_i rem hi
    exact absurd hi (h rem)
  · rfl

/-! ## Undisturbed requests -/

theorem getElem?_length (fs : List Flight) (f : Flight) : (fs ++ [f])[fs.length]? = some f := by
  simp

theorem eraseIdx_length (fs : List Flight) (f : Flight) : (fs ++ [f]).eraseIdx fs.length = fs := by
  rw [List.eraseIdx_append_of_length_le (Nat.le_refl _), Nat.sub_self]
  exact List.append_nil fs

/-- A request whose section on the database is left does it; no wait of its ends. -/
theorem run_left (b : Backend σ) (s : Service σ) (fs : List Flight) (rem : Remainder)
    (w : Session.Waited) (now : Int) :
    (⟨s, fs ++ [.left rem]⟩ : Traffic σ).run b [.conclude fs.length w now, .finish fs.length]
      = ⟨((Api.finish rem).run s).2, fs⟩ := by
  have hget := getElem?_length fs (.left rem)
  rw [run, List.foldl_cons, step_conclude_left hget, List.foldl_cons, step_finish hget,
    eraseIdx_length]
  rfl

/-- An add whose wait ends does its two sections. -/
theorem run_waiting (b : Backend σ) (s : Service σ) (fs : List Flight) (p : Session.Pending)
    (w : Session.Waited) (now : Int) :
    (⟨s, fs ++ [.waiting p]⟩ : Traffic σ).run b [.conclude fs.length w now, .finish fs.length]
      = ⟨((Api.concludeAdd b p w now >>= Api.finish).run s).2, fs⟩ := by
  have hset (f : Flight) : (fs ++ [Flight.waiting p]).set fs.length f = fs ++ [f] := by
    rw [List.set_append_right _ _ (Nat.le_refl _), Nat.sub_self]
    rfl
  rw [run, List.foldl_cons, step_conclude (getElem?_length fs (.waiting p)), List.foldl_cons]
  dsimp only
  rw [hset, step_finish (getElem?_length fs _), eraseIdx_length]
  rfl

/-- **Undisturbed, the sections of a request do what the request does.** -/
theorem exists_undisturbed (b : Backend σ) (c : Traffic σ) (e : Endpoint) (now : Int) :
    ∃ w, c.run b [.arrive e now, .conclude c.flights.length w now, .finish c.flights.length]
      = ⟨((Api.perform b now e).run c.service).2, c.flights⟩ := by
  cases e with
  | add magnet =>
    have hperform : (Api.perform b now (.add magnet)).run c.service
        = (Api.act b now (.add magnet) >>= Api.finish).run c.service := rfl
    show ∃ w, Traffic.run b ⟨((Api.beginAdd b magnet).run c.service).2,
      c.flights ++ [((Api.beginAdd b magnet).run c.service).1]⟩ _ = _
    rw [hperform, Api.beginAdd, Api.act]
    split
    · exact ⟨.ready, run_left b _ _ _ _ _⟩
    rw [Api.run_bind, Api.run_onSessions, Api.run_bind, Api.run_bind, Api.run_onSessions,
      Session.add, Session.run_bind]
    rcases (Session.begin b.engine magnet).run c.service.sessions with ⟨e | p, t⟩
    · exact ⟨.ready, run_left b _ _ _ _ _⟩
    · exact ⟨_, run_waiting b _ _ _ _ _⟩
  | list | get | delete | pause | resume | getSettings | putSettings | health | cleanup =>
    exact ⟨.ready, run_left b _ _ _ _ _⟩

end Traffic

end Http

end HopTorrent
