import HopTorrent.Proofs.Http.Answers

/-!
# Proofs/Http/Mirror — requests one after another, and the rows they leave

Requests come one after another, and the engine may do anything in them and between them.  Of each
live transfer it is known what was shown of it since it was added (`since`).  The database is the
mirror of that after every request (`mirrors_after`): it has one row for each live transfer that was
shown since it was added, made of what was shown, and no other row.
-/

namespace HopTorrent

namespace Http

open Storage (Mirrors Shelf)

variable {σ : Type}

/-! ## Visits -/

/-- A request at a time.  Until then the engine may have moved on by itself. -/
structure Visit (σ : Type) where
  request : Request
  now : Int
  meanwhile : σ → σ

namespace Visit

/-- The state in which a visit finds the service. -/
def before (v : Visit σ) (s : Service σ) : Service σ :=
  { s with sessions := { s.sessions with engine := v.meanwhile s.sessions.engine } }

/-- The state in which an endpoint finds the service. -/
def arrived (v : Visit σ) (s : Service σ) : Service σ := (v.before s).charged v.now v.request

/-- The response to a visit, and the state after it. -/
def serve (b : Backend σ) (v : Visit σ) (s : Service σ) : Response × Service σ :=
  (Service.handle b v.now v.request).run (v.before s)

/-- A visit comes to an endpoint, its route having some allowance left. -/
def Reaches (v : Visit σ) (s : Service σ) (e : Endpoint) : Prop :=
  v.request.endpoint? = some e ∧ s.allows v.now v.request = true

/-- The snapshots that a visit is shown. -/
def shown (b : Backend σ) (v : Visit σ) (s : Service σ) : List Snapshot :=
  match v.request.endpoint? with
  | some e =>
    if s.allows v.now v.request then e.shows b.engine v.now (v.before s).sessions else []
  | none => []

/-- What was shown of each live transfer since it was added, after one more visit.  There is nothing
of a transfer that was just added, and nothing of one that is gone. -/
def since (b : Backend σ) (v : Visit σ) (s : Service σ) (shelf : Shelf) : Shelf := fun id =>
  if s.sessions.store.contains id ∧ (v.serve b s).2.sessions.store.contains id then
    shelf id ++ (v.shown b s).filter fun view => view.infoHash = id
  else []

end Visit

/-- The state after some visits, the latest one first. -/
def after (b : Backend σ) (s₀ : Service σ) : List (Visit σ) → Service σ
  | [] => s₀
  | v :: earlier => (v.serve b (after b s₀ earlier)).2

/-- **What was shown of each live transfer since it was added.** -/
def since (b : Backend σ) (s₀ : Service σ) : List (Visit σ) → Shelf
  | [] => fun _ => []
  | v :: earlier => v.since b (after b s₀ earlier) (since b s₀ earlier)

/-! ## One visit -/

variable {b : Backend σ} {v : Visit σ} {s s₀ : Service σ} {shelf : Shelf} {visits : List (Visit σ)}

theorem contains_iff {store : Store} {id : InfoHash} :
    store.contains id = true ↔ id ∈ Session.live store := Option.isSome_iff_ne_none

/-- **A visit** comes to an endpoint and is answered there, or leaves sessions and database as they
are. -/
theorem Visit.serve_cases (b : Backend σ) (v : Visit σ) (s : Service σ) :
    (∃ e, v.Reaches s e
        ∧ v.serve b s
          = (Service.outward v.request
              (Service.respond ((Api.perform b v.now e).run (v.arrived s)).1),
            ((Api.perform b v.now e).run (v.arrived s)).2))
      ∨ (∀ e, ¬ v.Reaches s e) ∧ (v.serve b s).2.sessions = (v.before s).sessions
        ∧ (v.serve b s).2.database = s.database := by
  obtain ⟨e, he, ha, hr⟩ | ⟨hn, hs, hd⟩ := Service.handle_cases b v.now v.request (v.before s)
  · exact .inl ⟨e, ⟨he, ha⟩, hr⟩
  · refine .inr ⟨fun e hr => ?_, hs, hd⟩
    obtain hn | ⟨ha, -⟩ := hn
    · cases hn.symm.trans hr.1
    · cases ha.symm.trans hr.2

theorem Visit.Reaches.shown {e : Endpoint} (h : v.Reaches s e) (b : Backend σ) :
    v.shown b s = ((Api.act b v.now e).run (v.arrived s)).1.views := by
  rw [Visit.shown, h.1, Api.act_views]
  exact if_pos h.2

/-- Nothing is shown to a visit that comes to no endpoint. -/
theorem Visit.shown_eq_nil (h : ∀ e, ¬ v.Reaches s e) (b : Backend σ) : v.shown b s = [] := by
  rw [Visit.shown]
  cases he : v.request.endpoint? with
  | none => rfl
  | some e => exact if_neg fun ha => h e ⟨he, ha⟩

/-- **What is left to do tells what was shown of the transfers that stay live.** -/
theorem Acted.shelve_eq {live live' : Set InfoHash} {rem : Remainder} (h : Acted live rem live')
    (hn : ∀ id ∉ live, shelf id = []) (id : InfoHash) :
    (id ∈ live ∧ id ∈ live' → rem.shelve shelf id
        = shelf id ++ rem.views.filter fun view => view.infoHash = id)
      ∧ (¬ (id ∈ live ∧ id ∈ live') → rem.shelve shelf id = []) := by
  cases h with
  | answered | readSettings | writeSettings =>
    exact ⟨fun _ => (List.append_nil _).symm, fun h => hn id fun hl => h ⟨hl, hl⟩⟩
  | entered =>
    exact ⟨fun _ => (List.append_nil _).symm, fun h => hn id fun hl => h ⟨hl, .inr hl⟩⟩
  | @shown views r hv =>
    refine ⟨fun _ => rfl, fun h => ?_⟩
    have hl : id ∉ live := fun hl => h ⟨hl, hl⟩
    have hf : (views.filter fun view => view.infoHash = id) = [] :=
      List.filter_eq_nil_iff.mpr fun view hm he => hl (of_decide_eq_true he ▸ (hv view hm).1)
    exact (congrArg₂ _ (hn id hl) hf)
  | @removed id' r hi =>
    refine ⟨fun h => ?_, fun h => ?_⟩
    · rw [Remainder.shelve, Function.update_of_ne h.2.2]
      exact (List.append_nil _).symm
    · by_cases he : id = id'
      · rw [Remainder.shelve, he, Function.update_self]
      · rw [Remainder.shelve, Function.update_of_ne he]
        exact hn id fun hl => h ⟨hl, hl, he⟩
  | cleared => exact ⟨fun h => h.2.elim, fun _ => rfl⟩

/-- **One visit keeps the mirror.** -/
theorem serve_mirrors (h : Mirrors s.database shelf) (hn : ∀ id ∉ s.live, shelf id = [])
    (b : Backend σ) (v : Visit σ) : Mirrors (v.serve b s).2.database (v.since b s shelf) := by
  obtain ⟨e, he, hr⟩ | ⟨hne, hs, hd⟩ := v.serve_cases b s
  · rw [hr]
    have ha := Api.act_acts b v.now e (v.arrived s)
    have hf := Api.finish_finished (h.of_transfers ha.rows) ha.acted.storable
    have hsince : v.since b s shelf
        = ((Api.act b v.now e).run (v.arrived s)).1.shelve shelf := by
      funext id
      obtain ⟨hin, hout⟩ := ha.acted.shelve_eq hn id
      rw [Visit.since, hr, he.shown, Api.run_perform, hf.store]
      split
      · rename_i hc
        exact (hin ⟨contains_iff.mp hc.1, contains_iff.mp hc.2⟩).symm
      · rename_i hc
        exact (hout fun hl => hc ⟨contains_iff.mpr hl.1, contains_iff.mpr hl.2⟩).symm
    rw [hsince]
    exact hf.mirrors
  · rw [hd]
    have hsame : v.since b s shelf = shelf := by
      funext id
      rw [Visit.since, Visit.shown_eq_nil hne, hs]
      split
      · exact List.append_nil _
      · rename_i hc
        refine (hn id fun hl => hc ?_).symm
        have hm := contains_iff.mpr hl
        exact ⟨hm, hm⟩
    rw [hsame]
    exact h

/-! ## All visits -/

/-- Nothing is known of a transfer that is not live. -/
theorem since_eq_nil (b : Backend σ) (engine : σ) (limiter : Limiter) (visits : List (Visit σ))
    {id : InfoHash} (h : id ∉ (after b (.fresh engine limiter) visits).live) :
    since b (.fresh engine limiter) visits id = [] := by
  cases visits with
  | nil => rfl
  | cons v earlier => exact if_neg fun hc => h (contains_iff.mp hc.2)

/-- **The database is the mirror of what was shown**, after every visit. -/
theorem mirrors_after (b : Backend σ) (engine : σ) (limiter : Limiter) (visits : List (Visit σ)) :
    Mirrors (after b (.fresh engine limiter) visits).database
      (since b (.fresh engine limiter) visits) := by
  induction visits with
  | nil => exact Storage.mirrors_empty
  | cons v earlier ih =>
    exact serve_mirrors ih (fun id => since_eq_nil b engine limiter earlier) b v

/-! ## Answers -/

/-- A name that no live transfer has. -/
theorem forall_names_iff {raw : String} :
    (∀ id, InfoHash.Names raw id → id ∉ s.live)
      ↔ ¬ (raw.length = 40 ∧ ∀ c ∈ raw.toList, Text.IsHexDigit c)
        ∨ ∃ id, InfoHash.Names raw id ∧ id ∉ s.live := by
  rw [← InfoHash.exists_names_iff]
  constructor
  · intro h
    by_cases hn : ∃ id, InfoHash.Names raw id
    · obtain ⟨id, hid⟩ := hn
      exact .inr ⟨id, hid, h id hid⟩
    · exact .inl hn
  · rintro (hn | ⟨id', hid', hl⟩) id hid
    · exact absurd ⟨id, hid⟩ hn
    · exact hid.eq hid' ▸ hl

/-- An endpoint answers a visit that reaches it. -/
theorem Visit.Reaches.serve_eq {e : Endpoint} (h : v.Reaches s e) (b : Backend σ) :
    v.serve b s = (Service.outward v.request
        (Service.respond ((Api.perform b v.now e).run (v.arrived s)).1),
      ((Api.perform b v.now e).run (v.arrived s)).2) := by
  obtain ⟨e', he, hr⟩ | ⟨hn, -⟩ := v.serve_cases b s
  · cases Option.some.inj (h.1.symm.trans he.1)
    exact hr
  · exact absurd h (hn e)

theorem Visit.Reaches.status {e : Endpoint} (h : v.Reaches s e) (b : Backend σ) :
    (v.serve b s).1.status = ((Api.perform b v.now e).run (v.arrived s)).1.status := by
  rw [h.serve_eq]
  exact Service.outward_status _ _

theorem Visit.Reaches.body {e : Endpoint} (h : v.Reaches s e) (hm : v.request.method ≠ "HEAD")
    (b : Backend σ) :
    (v.serve b s).1.body = ((Api.perform b v.now e).run (v.arrived s)).1.body.render := by
  rw [h.serve_eq]
  exact Service.outward_body hm _

/-- **How a service answers a visit.** -/
structure Answers (b : Backend σ) (s : Service σ) (v : Visit σ) : Prop where
  /-- A transfer is said to be missing exactly when its name is no forty digits, or it is not
  live. -/
  missing : ∀ e raw, v.Reaches s e → e.name? = some raw →
    ((v.serve b s).1.status = 404 ↔ ¬ (raw.length = 40 ∧ ∀ c ∈ raw.toList, Text.IsHexDigit c)
      ∨ ∃ id, InfoHash.Names raw id ∧ id ∉ s.live)
  /-- And then nothing is changed. -/
  unchanged : ∀ e raw, v.Reaches s e → e.name? = some raw → (v.serve b s).1.status = 404 →
    (v.serve b s).2.sessions = (v.before s).sessions ∧ (v.serve b s).2.database = s.database
  /-- The transfer that an add answers with is live, and not missing to the next visit. -/
  usable : ∀ magnet, v.Reaches s (.add magnet) → (v.serve b s).1.status = 200 →
    ∃ id, (v.serve b s).1.body = (added id).body.render ∧ id ∈ (v.serve b s).2.live
      ∧ ∀ (w : Visit σ) e, w.Reaches (v.serve b s).2 e → e.name? = some id.toHex →
        (w.serve b (v.serve b s).2).1.status ≠ 404
  /-- The answer is what is shown of all transfers. -/
  listed : v.Reaches s .list → v.request.method ≠ "HEAD" →
    (v.serve b s).1.body = (Json.array ((v.shown b s).map Snapshot.toJson)).render
  /-- The answer is what is shown of one transfer. -/
  got : ∀ raw, v.Reaches s (.get raw) → v.request.method ≠ "HEAD" → ∀ view ∈ v.shown b s,
    (v.serve b s).1.body = view.toJson.render

theorem Visit.Reaches.missing_iff {e : Endpoint} {raw : String} (h : v.Reaches s e)
    (hk : b.engine.Knowing) (hn : e.name? = some raw) :
    (v.serve b s).1.status = 404 ↔ ∀ id, InfoHash.Names raw id → id ∉ s.live := by
  rw [h.status]
  exact Api.perform_status_iff hk v.now hn (v.arrived s)

/-- An engine that knows its torrents lets every visit be answered so. -/
theorem answers (hk : b.engine.Knowing) (s : Service σ) (v : Visit σ) : Answers b s v where
  missing e raw h hn := (h.missing_iff hk hn).trans forall_names_iff
  unchanged e raw h hn hs := by
    have hp := Api.perform_missing (s := v.arrived s) b v.now hn ((h.missing_iff hk hn).mp hs)
    rw [h.serve_eq, hp]
    exact ⟨rfl, rfl⟩
  usable magnet h hs := by
    rw [h.status] at hs
    obtain ⟨id, hr, hl⟩ := Api.perform_add b v.now hs
    have hlive : id ∈ (v.serve b s).2.live := by
      rw [h.serve_eq]
      exact hl
    refine ⟨id, ?_, hlive, fun w e hw hn hm => ?_⟩
    · rw [h.body (Request.ne_head_of_add h.1), hr]
    · exact (hw.missing_iff hk hn).mp hm id (InfoHash.names_toHex id) hlive
  listed h hm := by
    rw [h.body hm, h.shown]
    rfl
  got raw h hm view hv := by
    rw [h.shown, Api.act_views] at hv
    rw [h.body hm, Api.perform_get b v.now hv]
    rfl

/-- **Requests one after another, and what they leave.**  Whatever the engine does in them and
between them, every request is answered as the live transfers call for, and after every request the
database mirrors what was shown. -/
theorem visits_mirrored (b : Backend σ) (hk : b.engine.Knowing) (engine : σ) (limiter : Limiter)
    (visits : List (Visit σ)) :
    Mirrors (after b (.fresh engine limiter) visits).database
        (since b (.fresh engine limiter) visits)
      ∧ ∀ v, Answers b (after b (.fresh engine limiter) visits) v :=
  ⟨mirrors_after b engine limiter visits, answers hk _⟩

/-- A transfer is added, all are listed, and one hour later it is looked at. -/
def addAndLook : List (Visit Registry) :=
  let magnet := "0101010101010101010101010101010101010101"
  [⟨⟨"GET", "/api/torrents/" ++ magnet, [], []⟩, 3600000000000, id⟩,
    ⟨⟨"GET", "/api/torrents", [], []⟩, 1, id⟩,
    ⟨⟨"POST", "/api/torrents", [("content-type", "application/json")],
      Bytes.utf8 ("[\"" ++ magnet ++ "\"]")⟩, 0, id⟩]

/-- Two snapshots make one row. -/
theorem visits_mirrored_addAndLook :
    Registry.engine.Knowing
      ∧ Mirrors (after overRegistry (.fresh [] (.ofPolicy .standard)) addAndLook).database
        (since overRegistry (.fresh [] (.ofPolicy .standard)) addAndLook)
      ∧ (∀ v, Answers overRegistry
        (after overRegistry (.fresh [] (.ofPolicy .standard)) addAndLook) v)
      ∧ (since overRegistry (.fresh [] (.ofPolicy .standard)) addAndLook
        ⟨Vector.replicate 20 1⟩).length = 2 := by
  obtain ⟨hm, ha⟩ :=
    visits_mirrored overRegistry Registry.knowing [] (.ofPolicy .standard) addAndLook
  exact ⟨Registry.knowing, hm, ha, by decide +kernel⟩

end Http

end HopTorrent
