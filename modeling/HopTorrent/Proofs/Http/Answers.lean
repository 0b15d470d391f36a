import HopTorrent.Http.Service
import HopTorrent.Proofs.Http.Sections

/-!
# Proofs/Http/Answers — what a request answers

A transfer named in a path is said to be missing exactly when no live transfer has that name
(`perform_status_iff`), and then nothing is changed (`perform_missing`).  What is shown is what is
kept (`act_views`), and an add that is done names a live transfer (`perform_add`).  A request that
comes to an endpoint is answered with the answer of that endpoint, and any other leaves sessions and
database as they are (`handle_cases`).
-/

namespace HopTorrent

namespace Http

variable {σ α : Type}

/-! ## Endpoints and the transfers they name -/

/-- The name of a transfer in the path of an endpoint. -/
def Endpoint.name? : Endpoint → Option String
  | .get raw | .delete raw | .pause raw | .resume raw => some raw
  | _ => none

/-- The snapshots that the sessions show at an endpoint. -/
def Endpoint.shows (eng : Engine σ) (now : Int) (s : Sessions σ) : Endpoint → List Snapshot
  | .list => ((Session.list eng now).run s).1
  | .get raw =>
    match InfoHash.parse raw with
    | .ok id => ((Session.get? eng id now).run s).1.toOption.toList
    | .error _ => []
  | _ => []

namespace Api

variable {s : Service σ} {e : Endpoint} {raw failure : String} {id : InfoHash}

/-! ## Operations on one transfer -/

/-- **An operation on one transfer**: a missing one is said to be missing, and nothing is done; on a
live one it fails only where the engine refuses a call. -/
structure OnOne (eng : Engine σ) (id : InfoHash) (s : Sessions σ)
    (m : Managed σ (Except Error α)) : Prop where
  missing : s.store.get? id = none → m.run s = (.error (Session.notFound id), s)
  refused : s.store.get? id ≠ none → ∀ e, (m.run s).1 = .error e →
    ∃ op h store t, Session.Does eng s [.perform op h (.error e)] store t

section

variable {eng : Engine σ} {s : Sessions σ} {session : Session} {m : Managed σ (Except Error α)}

theorem OnOne.of_missing (hs : s.store.get? id = none)
    (hr : m.run s = (.error (Session.notFound id), s)) : OnOne eng id s m :=
  ⟨fun _ => hr, fun hl => absurd hs hl⟩

theorem OnOne.of_live (hs : s.store.get? id = some session)
    (h : ∀ e, (m.run s).1 = .error e →
      ∃ op h store t, Session.Does eng s [.perform op h (.error e)] store t) : OnOne eng id s m :=
  ⟨fun hn => (nomatch hs.symm.trans hn), fun _ => h⟩

end

theorem get?_onOne (eng : Engine σ) (now : Int) (id : InfoHash) (s : Sessions σ) :
    OnOne eng id s (Session.get? eng id now) := by
  obtain ⟨hs, hr⟩ | ⟨session, hs, hr⟩ := Session.get?_cases eng id now s
  · exact .of_missing hs hr
  · refine .of_live hs fun e he => ?_
    rw [hr] at he
    cases he

theorem remove_onOne (eng : Engine σ) (id : InfoHash) (s : Sessions σ) :
    OnOne eng id s (Session.remove eng id) := by
  obtain ⟨hs, hr⟩ | ⟨session, hs, ⟨e', hr, hd⟩ | ⟨hr, -⟩⟩ := Session.remove_cases eng id s
  · exact .of_missing hs hr
  · refine .of_live hs fun e he => ?_
    cases hr.symm.trans he
    exact ⟨_, _, _, _, hd⟩
  · exact .of_live hs fun e he => nomatch hr.symm.trans he

theorem switch_onOne (eng : Engine σ) (op : Operation) (paused : Bool) (message : String)
    (id : InfoHash) (s : Sessions σ) :
    OnOne eng id s (Session.switch eng op paused message id) := by
  obtain ⟨hs, hr⟩ | ⟨session, hs, ⟨e', hr, hd⟩ | ⟨hr, -⟩⟩ :=
    Session.switch_cases eng op paused message id s
  · exact .of_missing hs hr
  · refine .of_live hs fun e he => ?_
    cases hr.symm.trans he
    exact ⟨_, _, _, _, hd⟩
  · exact .of_live hs fun e he => nomatch hr.symm.trans he

/-- **A request that names a transfer does one operation on it**, and is well answered if that is
done. -/
theorem exists_onOne (b : Backend σ) (now : Int) (he : e.name? = some raw) :
    ∃ (α : Type) (m : InfoHash → Managed σ (Except Error α)) (failure : String)
      (next : InfoHash → α → Remainder),
      act b now e = (withId raw fun id => do after failure (← onSessions (m id)) (next id))
        ∧ (∀ id s, OnOne b.engine id s (m id))
        ∧ ∀ id a, ∃ r, (next id a).reply? = some r ∧ r.status = 200 := by
  cases e with
  | add | list | getSettings | putSettings | health | cleanup => cases he
  | get raw' =>
    cases he
    exact ⟨_, _, _, _, rfl, get?_onOne b.engine now, fun _ _ => ⟨_, rfl, rfl⟩⟩
  | delete raw' =>
    cases he
    exact ⟨_, _, _, _, rfl, remove_onOne b.engine, fun _ _ => ⟨_, rfl, rfl⟩⟩
  | pause raw' | resume raw' =>
    cases he
    exact ⟨_, _, _, _, rfl, switch_onOne b.engine _ _ _, fun _ _ => ⟨_, rfl, rfl⟩⟩

/-- **A missing transfer is just said to be missing.** -/
theorem act_missing (b : Backend σ) (now : Int) (he : e.name? = some raw)
    (h : ∀ id, InfoHash.Names raw id → id ∉ s.live) :
    (act b now e).run s = (.answer notFound, s) := by
  obtain ⟨α, m, failure, next, hact, hm, -⟩ := exists_onOne b now he
  rw [hact, withId]
  cases hp : InfoHash.parse raw with
  | error e => rfl
  | ok id =>
    have hn : s.sessions.store.get? id = none :=
      not_not.mp (h id (InfoHash.parse_eq_ok_iff.mp hp))
    dsimp only
    rw [run_bind, run_onSessions, (hm id s.sessions).missing hn]
    rfl

/-- An engine that knows its torrents never says that one is missing. -/
theorem OnOne.ne_notFound {eng : Engine σ} (hk : eng.Knowing) {s : Sessions σ}
    {m : Managed σ (Except Error α)} (h : OnOne eng id s m) (hl : s.store.get? id ≠ none)
    {e : Error} (he : (m.run s).1 = .error e) (d : String) : e ≠ .notFound d := by
  obtain ⟨op, handle, store, t, hd⟩ := h.refused hl e he
  obtain ⟨u, u', hm⟩ := hd.engine.makes_of_mem (List.mem_singleton_self _)
  rintro rfl
  exact hk op handle u d (congrArg Prod.fst hm.perform_eq)

/-- **A live transfer is not said to be missing**, whatever else goes wrong. -/
theorem act_present {b : Backend σ} (hk : b.engine.Knowing) (now : Int) (he : e.name? = some raw)
    (hn : InfoHash.Names raw id) (hl : id ∈ s.live) :
    ∃ r, ((act b now e).run s).1.reply? = some r ∧ r.status ≠ 404 := by
  obtain ⟨α, m, failure, next, hact, hm, hnext⟩ := exists_onOne b now he
  rw [hact, withId, InfoHash.parse_eq_ok_iff.mpr hn]
  dsimp only
  rw [run_bind, run_onSessions]
  cases hr : ((m id).run s.sessions).1 with
  | error e =>
    obtain ⟨⟨r, hrem, hf⟩, -⟩ :=
      calm_after_error failure e (next id) { s with sessions := ((m id).run s.sessions).2 }
    rw [hrem]
    exact ⟨r, rfl, hf.ne_missing ((hm id s.sessions).ne_notFound hk hl hr)⟩
  | ok a =>
    obtain ⟨r, hrem, hok⟩ := hnext id a
    exact ⟨r, hrem, hok ▸ by decide⟩

theorem run_perform (b : Backend σ) (now : Int) (e : Endpoint) (s : Service σ) :
    (perform b now e).run s = (finish ((act b now e).run s).1).run ((act b now e).run s).2 := rfl

/-- **A request says that a transfer is missing exactly when it names no live one.** -/
theorem perform_status_iff {b : Backend σ} (hk : b.engine.Knowing) (now : Int)
    (he : e.name? = some raw) (s : Service σ) :
    ((perform b now e).run s).1.status = 404 ↔ ∀ id, InfoHash.Names raw id → id ∉ s.live := by
  constructor
  · intro h id hn hl
    obtain ⟨r, hr, hstatus⟩ := act_present hk now he hn hl
    rw [run_perform, finish_reply hr] at h
    exact hstatus h
  · intro h
    rw [run_perform, act_missing b now he h]
    rfl

/-- A request for a missing transfer changes nothing. -/
theorem perform_missing (b : Backend σ) (now : Int) (he : e.name? = some raw)
    (h : ∀ id, InfoHash.Names raw id → id ∉ s.live) :
    (perform b now e).run s = (notFound, s) := by
  rw [run_perform, act_missing b now he h]
  rfl

/-! ## What is shown -/

/-- What is kept after an operation on a transfer named in a path. -/
theorem views_named (m : InfoHash → Managed σ (Except Error α)) (next : InfoHash → α → Remainder) :
    ((withId raw fun id => do after failure (← onSessions (m id)) (next id)).run s).1.views
      = match InfoHash.parse raw with
        | .ok id => (((m id).run s.sessions).1.toOption.map fun a => (next id a).views).getD []
        | .error _ => [] := by
  rw [withId]
  cases InfoHash.parse raw with
  | error e => rfl
  | ok id =>
    dsimp only
    rw [run_bind, run_onSessions]
    cases hr : ((m id).run s.sessions).1 with
    | error e =>
      obtain ⟨⟨r, hrem, -⟩, -⟩ :=
        calm_after_error failure e (next id) { s with sessions := ((m id).run s.sessions).2 }
      rw [hrem]
      rfl
    | ok a => rfl

/-- Nothing is kept of a transfer that is only changed. -/
theorem views_changed (m : InfoHash → Managed σ (Except Error α))
    {next : InfoHash → α → Remainder} (hn : ∀ id a, (next id a).views = []) :
    ((withId raw fun id => do after failure (← onSessions (m id)) (next id)).run s).1.views
      = [] := by
  rw [views_named]
  cases InfoHash.parse raw with
  | error e => rfl
  | ok id => cases hr : ((m id).run s.sessions).1 <;> simp [Except.toOption, hr, hn]

/-- **What is kept is what is shown.** -/
theorem act_views (b : Backend σ) (now : Int) (e : Endpoint) (s : Service σ) :
    ((act b now e).run s).1.views = e.shows b.engine now s.sessions := by
  cases e with
  | add magnet =>
    rw [act]
    split
    · rfl
    · rw [run_bind, run_onSessions]
      rcases (Session.add b.engine b.metadataTimeout magnet now).run s.sessions
        with ⟨⟨e | id, ms⟩, t⟩
      · obtain ⟨⟨r, hrem, -⟩, -⟩ := calm_after_error "Failed to add torrent" e
          (fun id => .answer (added id)) { s with sessions := t }
        exact congrArg Remainder.views hrem
      · rfl
  | list => rfl
  | get raw =>
    rw [act, views_named, Endpoint.shows]
    cases InfoHash.parse raw with
    | error e => rfl
    | ok id =>
      dsimp only
      cases ((Session.get? b.engine id now).run s.sessions).1 <;> rfl
  | delete raw => exact views_changed _ fun _ _ => rfl
  | pause raw | resume raw => exact views_changed _ fun _ _ => rfl
  | getSettings | putSettings | cleanup => rfl
  | health =>
    obtain ⟨⟨r, hr⟩, -⟩ := calm_checkHealth b s
    rw [act, hr]
    rfl

/-- The answer tells what is shown of one transfer. -/
theorem perform_get (b : Backend σ) (now : Int) {view : Snapshot}
    (h : view ∈ (Endpoint.get raw).shows b.engine now s.sessions) :
    ((perform b now (.get raw)).run s).1 = ok view.toJson := by
  rw [Endpoint.shows] at h
  cases hp : InfoHash.parse raw with
  | error e => simp [hp] at h
  | ok id =>
    rw [hp] at h
    dsimp only at h
    obtain ⟨-, hr⟩ | ⟨session, -, hr⟩ := Session.get?_cases b.engine id now s.sessions
    · rw [hr] at h
      cases h
    · rw [hr] at h
      cases List.mem_singleton.mp h
      rw [run_perform, act, withId, hp]
      dsimp only
      rw [run_bind, run_onSessions, hr]
      rfl

/-- **The answer to an add** that is done names a transfer that is live from then on. -/
theorem perform_add (b : Backend σ) (now : Int) {magnet : String}
    (h : ((perform b now (.add magnet)).run s).1.status = 200) :
    ∃ id, ((perform b now (.add magnet)).run s).1 = added id
      ∧ id ∈ ((perform b now (.add magnet)).run s).2.live := by
  obtain ⟨calls, store, hs, hd⟩ :=
    Session.add_serves b.engine b.metadataTimeout now magnet s.sessions
  rw [run_perform, act] at h ⊢
  split at h
  · cases h
  · rename_i hblank
    rw [if_neg hblank]
    rw [run_bind, run_onSessions] at h ⊢
    rcases hr : (Session.add b.engine b.metadataTimeout magnet now).run s.sessions
      with ⟨⟨e | id, ms⟩, t⟩
    · rw [hr] at h
      obtain ⟨⟨r, hrem, hf⟩, -⟩ := calm_after_error "Failed to add torrent" e
        (fun id => .answer (added id)) { s with sessions := t }
      have hreply := finish_reply (congrArg Remainder.reply? hrem) ((after "Failed to add torrent"
        (.error e) fun id => .answer (added id)).run { s with sessions := t }).2
      exact absurd ((congrArg Http.Reply.status hreply).symm.trans h) hf.ne_ok
    · rw [hr, ← hd.store, hr] at hs
      exact ⟨id, rfl, Session.mem_live_iff_book.mpr hs.ne_none_of_added⟩

end Api

/-! ## From requests to endpoints -/

/-- The route of a request. -/
def Request.route (req : Request) : Option Route := Route.ofPath? (pathOf req.uri)

/-- The endpoint that a request comes to: it is no preflight request, its body is not too long by
its own account, and its path, method and body lead there. -/
def Request.endpoint? (req : Request) : Option Endpoint :=
  if req.method = "OPTIONS" ∨ bodyLimit < req.statedLength.getD 0 then none
  else
    match Target.ofRequest req req.route with
    | .endpoint e => some e
    | _ => none

/-- A name in a path leads to the endpoints that take one only. -/
theorem named_ne (segment : List Char) {e : String → Endpoint} {e' : Endpoint}
    (h : ∀ raw, e raw ≠ e') : Target.named segment e ≠ .endpoint e' := by
  rw [Target.named]
  cases decodeSegment segment with
  | none => nofun
  | some raw => exact fun he => h raw (Target.endpoint.inj he)

/-- A request for a head adds nothing. -/
theorem Request.ne_head_of_add {req : Request} {magnet : String}
    (h : req.endpoint? = some (.add magnet)) : req.method ≠ "HEAD" := by
  intro hm
  rw [endpoint?] at h
  split at h
  · cases h
  split at h
  · rename_i e he
    cases h
    cases hr : req.route with
    | none =>
      rw [hr] at he
      cases he
    | some route =>
      rw [hr, Target.ofRequest] at he
      cases route <;> simp [Target.onRoute, hm] at he
      exact absurd he (named_ne _ fun _ => nofun)
  · cases h

namespace Service

/-- Whether the route of a request has some allowance left. -/
def allows (s : Service σ) (now : Int) (req : Request) : Bool :=
  (s.limiter.allowAt (bucketOf req.route) now).1

/-- The service after the route of a request was used. -/
def charged (s : Service σ) (now : Int) (req : Request) : Service σ :=
  { s with limiter := (s.limiter.allowAt (bucketOf req.route) now).2 }

/-- What is done to every response on its way out. -/
def outward (req : Request) (r : Response) : Response :=
  sent req.method (withAllow req.route req.method (shared (hardened r)))

/-- Responses that differ in their fields only. -/
structure Agrees (r r' : Response) : Prop where
  status : r'.status = r.status
  body : r'.body = r.body

theorem Agrees.trans {r r' r'' : Response} (h : Agrees r r') (k : Agrees r' r'') : Agrees r r'' :=
  ⟨k.status.trans h.status, k.body.trans h.body⟩

theorem agrees_withHeader (r : Response) (name value : String) :
    Agrees r (r.withHeader name value) := ⟨rfl, rfl⟩

theorem agrees_withoutHeader (r : Response) (name : String) :
    Agrees r (r.withoutHeader name) := ⟨rfl, rfl⟩

theorem agrees_foldl (fields : Headers) (r : Response) :
    Agrees r (fields.foldl (fun r h => r.withHeader h.1 h.2) r) := by
  induction fields generalizing r with
  | nil => exact ⟨rfl, rfl⟩
  | cons h fields ih => exact (agrees_withHeader r h.1 h.2).trans (ih _)

theorem agrees_hardened (r : Response) : Agrees r (hardened r) :=
  (agrees_foldl hardening r).trans
    ((agrees_withoutHeader _ _).trans (agrees_withoutHeader _ _))

theorem agrees_withAllow (route : Option Route) (method : String) (r : Response) :
    Agrees r (withAllow route method r) := by
  cases route with
  | none => exact ⟨rfl, rfl⟩
  | some route =>
    rw [withAllow]
    split
    · exact ⟨rfl, rfl⟩
    · exact agrees_withHeader _ _ _

theorem sent_status (method : String) (r : Response) : (sent method r).status = r.status := by
  rw [sent]
  split <;> rfl

/-- What is done on the way out changes fields only, unless only the head was asked for. -/
theorem agrees_inner (req : Request) (r : Response) :
    Agrees r (withAllow req.route req.method (shared (hardened r))) :=
  ((agrees_hardened r).trans (agrees_foldl sharing _)).trans (agrees_withAllow _ _ _)

theorem outward_status (req : Request) (r : Response) : (outward req r).status = r.status :=
  (sent_status _ _).trans (agrees_inner req r).status

theorem outward_body {req : Request} (h : req.method ≠ "HEAD") (r : Response) :
    (outward req r).body = r.body := by
  rw [outward, sent, if_neg h]
  exact (agrees_inner req r).body

/-- A use of the allowance comes first. -/
theorem run_throttled (b : Backend σ) (now : Int) (req : Request) (s : Service σ) :
    (throttled b now req req.route).run s
      = (if s.allows now req then limited b now req req.route
          else return respond (Api.refused 429 "Rate limit exceeded")).run (s.charged now req) :=
  rfl

theorem run_handle {req : Request} (h : req.method ≠ "OPTIONS") (b : Backend σ) (now : Int)
    (s : Service σ) :
    (handle b now req).run s
      = (outward req ((throttled b now req req.route).run s).1,
          ((throttled b now req req.route).run s).2) := by
  rw [handle, if_neg h]
  rfl

/-- **The response to a request.** -/
theorem handle_cases (b : Backend σ) (now : Int) (req : Request) (s : Service σ) :
    (∃ e, req.endpoint? = some e ∧ s.allows now req = true
        ∧ (handle b now req).run s
          = (outward req (respond ((Api.perform b now e).run (s.charged now req)).1),
              ((Api.perform b now e).run (s.charged now req)).2))
      ∨ (req.endpoint? = none ∨ s.allows now req = false
          ∧ ((handle b now req).run s).1.status = 429)
        ∧ ((handle b now req).run s).2.sessions = s.sessions
        ∧ ((handle b now req).run s).2.database = s.database := by
  by_cases ho : req.method = "OPTIONS"
  · refine .inr ⟨.inl (if_pos (.inl ho)), ?_⟩
    rw [handle, if_pos ho]
    exact ⟨rfl, rfl⟩
  rw [run_handle ho, run_throttled]
  cases s.allows now req with
  | false =>
    refine .inr ⟨.inr ⟨rfl, ?_⟩, rfl, rfl⟩
    rw [outward_status]
    rfl
  | true =>
    rw [if_pos rfl, limited]
    by_cases hl : bodyLimit < req.statedLength.getD 0
    · rw [if_pos hl]
      exact .inr ⟨.inl (if_pos (.inr hl)), rfl, rfl⟩
    rw [if_neg hl]
    have he : req.endpoint? = match Target.ofRequest req req.route with
        | .endpoint e => some e
        | _ => none := if_neg (by simp [ho, hl])
    cases hg : Target.ofRequest req req.route with
    | endpoint e =>
      rw [hg] at he
      exact .inl ⟨e, he, rfl, rfl⟩
    | badPath | badBody | methodNotAllowed | notFound =>
      rw [hg] at he
      exact .inr ⟨.inl he, rfl, rfl⟩

end Service

end Http

end HopTorrent
