import HopTorrent.Proofs.Http.Mirror
import HopTorrent.Proofs.Secrecy.Dial
import HopTorrent.Proofs.Secrecy.Sessions

/-!
# Proofs/Secrecy/Responses — what clients are shown

Two services are alike when they differ in the magnets they keep, live or in the database
(`Service.Alike`).  Built on engines and transports that behave alike, and on chains that differ in
their hosts, they answer requests that are alike, up to the magnets that are submitted, byte for
byte the same (`responses_eq`): what one request does is `Visit.Alike.serve`.  So no error, no
magnet and no hop shows in a response.
-/

namespace HopTorrent

/-! ## What is stored -/

namespace Storage

/-- Two rows are the same, but for the magnets. -/
def Row.Alike (r r' : Row) : Prop := ∃ m, r' = { r with magnet := m }

/-- **Two databases are alike**: they hold the same preferences, and under the same identifiers the
same transfers, but for the magnets. -/
structure Database.Alike (db db' : Database) : Prop where
  transfers : Option.Rel (Table.Alike Eq Row.Alike) db.contents.transfers db'.contents.transfers
  settings : db.contents.settings = db'.contents.settings

namespace Database

variable {α : Type}

/-- **Statements on the transfers** come out the same if what they do to rows does. -/
theorem onTransfers_paired {doing : String}
    {f f' : Table String Row → Except String (α × Table String Row)}
    (hf : ∀ rows rows', rows.Alike Eq Row.Alike rows' →
      (∃ why, f rows = .error why ∧ f' rows' = .error why)
        ∨ ∃ a t t', f rows = .ok (a, t) ∧ f' rows' = .ok (a, t') ∧ t.Alike Eq Row.Alike t') :
    Paired Database.Alike (onTransfers doing f) (onTransfers doing f') Eq := by
  refine .get fun db db' h => ?_
  refine (Paired.set ⟨h.transfers, h.settings⟩).bind fun _ _ _ => ?_
  have ht := h.transfers
  dsimp only
  generalize db.contents.transfers = rows at ht ⊢
  generalize db'.contents.transfers = rows' at ht ⊢
  cases ht with
  | none => exact .pure rfl
  | @some rows rows' hr =>
    dsimp only
    obtain ⟨why, he, he'⟩ | ⟨a, t, t', he, he', hr'⟩ := hf rows rows' hr <;> rw [he, he']
    · exact .pure rfl
    · exact (Paired.set ⟨.some hr', h.settings⟩).bind fun _ _ _ => .pure rfl

/-- **Statements on the preferences** come out the same. -/
theorem onSettings_paired (f : Table String String → α × Table String String) :
    Paired Database.Alike (onSettings f) (onSettings f) Eq := by
  refine .get fun db db' h => ?_
  refine (Paired.set ⟨h.transfers, h.settings⟩).bind fun _ _ _ => ?_
  rw [← h.settings]
  cases db.contents.settings with
  | none => exact .pure rfl
  | some values => exact (Paired.set ⟨h.transfers, rfl⟩).bind fun _ _ _ => .pure rfl

/-- **Transfers are saved alike.** -/
theorem save_paired {v v' : Snapshot} (h : v.Alike Eq v') :
    Paired Database.Alike (save v) (save v') Eq := by
  obtain ⟨_, m, rfl, rfl⟩ := h
  refine onTransfers_paired fun rows rows' hr => ?_
  rw [saved, saved]
  dsimp only
  cases storedProgress v.progress with
  | none => exact .inl ⟨_, rfl, rfl⟩
  | some progress =>
    have hg := hr.get? .eq (rfl : v.infoHash.toHex = v.infoHash.toHex)
    dsimp only
    generalize rows.get? v.infoHash.toHex = row at hg ⊢
    generalize rows'.get? v.infoHash.toHex = row' at hg ⊢
    cases hg with
    | none => exact .inr ⟨_, _, _, rfl, rfl, hr.put .eq rfl ⟨m, rfl⟩⟩
    | some hrow =>
      obtain ⟨m', rfl⟩ := hrow
      exact .inr ⟨_, _, _, rfl, rfl, hr.put .eq rfl ⟨m', rfl⟩⟩

theorem delete_paired (id : String) : Paired Database.Alike (delete id) (delete id) Eq :=
  onTransfers_paired fun _ _ hr => .inr ⟨_, _, _, rfl, rfl, hr.erase .eq rfl⟩

theorem clear_paired : Paired Database.Alike clear clear Eq :=
  onTransfers_paired fun _ _ hr => .inr ⟨_, _, _, rfl, by rw [hr.size_eq], .empty⟩

/-- **The preferences read are the same.** -/
theorem settings_paired : Paired Database.Alike settings settings Eq := by
  have go (wanted : List Setting) :
      Paired Database.Alike (valuesOf wanted) (valuesOf wanted) Eq := by
    induction wanted with
    | nil => exact .pure rfl
    | cons setting wanted ih =>
      refine (onSettings_paired _).bind fun r _ hr => hr ▸ ?_
      cases r with
      | error e => exact .pure rfl
      | ok v =>
        refine ih.bind fun r _ hr => hr ▸ ?_
        cases r with
        | error e => exact .pure rfl
        | ok vs => exact .pure rfl
  exact go _

end Database

end Storage

/-- What a client is shown of two transfers that are alike. -/
theorem Snapshot.Alike.toJson_eq {v v' : Snapshot} (h : v.Alike Eq v') : v.toJson = v'.toJson := by
  obtain ⟨_, m, rfl, rfl⟩ := h
  rfl

namespace Http

variable {σ τ α β : Type} {R : σ → τ → Prop} {M : String → String → Prop}

/-! ## Services that are alike -/

/-- **Two services are alike**: their engines are in states related by `R`, and live transfers and
rows are the same, but for the magnets; preferences, allowances and the number of dials are the
same. -/
structure Service.Alike (R : σ → τ → Prop) (s : Service σ) (s' : Service τ) : Prop where
  sessions : s.sessions.Alike False R Eq s'.sessions
  database : s.database.Alike s'.database
  limiter : s.limiter = s'.limiter
  dials : s.dials = s'.dials

/-- **Two services are built on the same**, but for the texts of errors and the hosts of hops. -/
structure Backend.Alike (b : Backend σ) (b' : Backend τ) (R : σ → τ → Prop)
    (M : String → String → Prop) : Prop where
  engine : b.engine.Alike b'.engine R M Eq
  timeout : b.metadataTimeout = b'.metadataTimeout
  prober : b.prober.Alike b'.prober
  answers : ∀ n, { b.prober with offset := n }.AnswerProbes { b'.prober with offset := n }

namespace Api

variable {Q : α → β → Prop}

theorem onSessions_paired {m : Managed σ α} {m' : Managed τ β}
    (h : Paired (Sessions.Alike False R Eq) m m' Q) :
    Paired (Service.Alike R) (onSessions m) (onSessions m') Q := fun s s' hs => by
  obtain ⟨hq, hs'⟩ := h _ _ hs.sessions
  exact ⟨hq, hs', hs.database, hs.limiter, hs.dials⟩

theorem onDatabase_paired {m : Storage.Statement α} {m' : Storage.Statement β}
    (h : Paired Storage.Database.Alike m m' Q) :
    Paired (Service.Alike R) (onDatabase m) (onDatabase m') Q := fun s s' hs => by
  obtain ⟨hq, hs'⟩ := h _ _ hs.database
  exact ⟨hq, hs.sessions, hs', hs.limiter, hs.dials⟩

/-- Whatever is logged leaves services alike. -/
theorem log_paired (l l' : Log.Line) :
    Paired (Service.Alike R) (log l) (log l') fun _ _ => True :=
  onSessions_paired (Session.log_paired False.elim)

theorem logs_paired (ls : List Log.Line) :
    Paired (Service.Alike R) (do for l in ls do log l : Serving σ Unit)
      (do for l in ls do log l : Serving τ Unit) fun _ _ => True := by
  induction ls with
  | nil => exact .pure trivial
  | cons l ls ih =>
    simp only [List.forIn_cons, bind_assoc, pure_bind]
    exact (log_paired l l).bind fun _ _ _ => ih

/-! ## Answers -/

/-- The answer to an error does not hang on its texts; these only enter the log. -/
theorem failed_eq (failure : String) (e : Error) :
    ∃ l, (failed failure e : Serving σ Reply) = match e.wordless with
      | .validation _ => pure (refused 400 "Invalid request")
      | .notFound _ => pure notFound
      | _ => do
        log l
        return refused 500 failure := by
  refine ⟨Log.error failure [("error", e.message), ("detail", e.detail)], ?_⟩
  cases e <;> rfl

/-- **Alike errors are answered the same.** -/
theorem failed_paired (failure : String) {e e' : Error} (he : e.Alike e') :
    Paired (Service.Alike R) (failed failure e) (failed failure e') Eq := by
  obtain ⟨l, h⟩ := failed_eq (σ := σ) failure e
  obtain ⟨l', h'⟩ := failed_eq (σ := τ) failure e'
  rw [h, h', ← he]
  cases e.wordless with
  | validation | notFound => exact .pure rfl
  | _ => exact (log_paired l l').bind fun _ _ _ => .pure rfl

/-- What is left to do is the same, up to the magnets of what is kept. -/
inductive Left : Remainder → Remainder → Prop
  | keep {views views' : List Snapshot} {r : Reply}
      (h : List.Forall₂ (Snapshot.Alike Eq) views views') : Left (.keep views r) (.keep views' r)
  | same {rem : Remainder} (h : ∀ views r, rem ≠ .keep views r) : Left rem rem

theorem left_answer (r : Reply) : Left (.answer r) (.answer r) := .same nofun

theorem after_paired (failure : String) {r : Except Error α} {r' : Except Error β}
    (hr : Concur Q r r') {next : α → Remainder} {next' : β → Remainder}
    (hn : ∀ a b, Q a b → Left (next a) (next' b)) :
    Paired (Service.Alike R) (after failure r next) (after failure r' next') Left := by
  cases hr with
  | ok h => exact .pure (hn _ _ h)
  | error he => exact (failed_paired failure he).bind fun _ _ hr => hr ▸ .pure (left_answer _)

/-- An operation on a transfer that is named in a path. -/
theorem named_paired (raw failure : String) {m : InfoHash → Managed σ (Except Error α)}
    {m' : InfoHash → Managed τ (Except Error β)}
    (hm : ∀ id, Paired (Sessions.Alike False R Eq) (m id) (m' id) (Concur Q))
    {next : InfoHash → α → Remainder} {next' : InfoHash → β → Remainder}
    (hn : ∀ id a b, Q a b → Left (next id a) (next' id b)) :
    Paired (Service.Alike R)
      (withId raw fun id => do after failure (← onSessions (m id)) (next id))
      (withId raw fun id => do after failure (← onSessions (m' id)) (next' id)) Left := by
  rw [withId, withId]
  cases InfoHash.parse raw with
  | error e => exact .pure (left_answer _)
  | ok id => exact (onSessions_paired (hm id)).bind fun _ _ hr => after_paired failure hr (hn id)

/-! ## The section on the sessions -/

/-- Two requests ask for the same, up to the magnet that is submitted. -/
inductive Asks (M : String → String → Prop) : Endpoint → Endpoint → Prop
  | add {m m' : String} (h : Magnet.Alike False M m m') : Asks M (.add m) (.add m')
  | same {e : Endpoint} (h : ∀ m, e ≠ .add m) : Asks M e e

variable {b : Backend σ} {b' : Backend τ} (hb : b.Alike b' R M)

include hb

/-- **The health reported is the same.** -/
theorem checkHealth_paired :
    Paired (Service.Alike R) (checkHealth b) (checkHealth b') Left := by
  refine .get fun s s' hs => ?_
  have hd : Dial.Alike { b.prober with offset := s.dials }.probeHops
      { b'.prober with offset := s.dials }.probeHops :=
    Chain.Setup.probeHops_alike ⟨hb.prober.hops, hb.prober.policy, hb.prober.encodable,
      hb.prober.draws, hb.prober.fits⟩ (hb.answers s.dials)
  obtain ⟨hev, hres⟩ := hd.run 0
  rw [← hs.dials]
  dsimp only
  generalize ({ b.prober with offset := s.dials }.probeHops).run 0 = r at hev hres ⊢
  generalize ({ b'.prober with offset := s.dials }.probeHops).run 0 = r' at hev hres ⊢
  refine Paired.bind (Q := fun _ _ => True) (.modify fun s s' hs => ?_) fun _ _ _ => ?_
  · exact ⟨hs.sessions, hs.database, hs.limiter, by rw [hs.dials, DialCall.length_ofEvents hev]⟩
  rw [DialEvent.lines_eq hev]
  refine (logs_paired _).bind fun _ _ _ => ?_
  obtain ⟨events, result⟩ := r
  obtain ⟨events', result'⟩ := r'
  cases hres with
  | none => exact .pure (left_answer _)
  | @some x y h =>
    obtain ⟨at_, out⟩ := x
    obtain ⟨_, out'⟩ := y
    obtain ⟨-, hout⟩ := h
    cases hout with
    | ok => exact .pure (left_answer _)
    | error he => exact (log_paired _ _).bind fun _ _ _ => .pure (left_answer _)

/-- **The section on the sessions.** -/
theorem act_paired (now : Int) {e e' : Endpoint} (h : Asks M e e') :
    Paired (Service.Alike R) (act b now e) (act b' now e') Left := by
  have hE := hb.engine
  cases h with
  | @add m m' hm =>
    rw [act, act, ← hm.blank, ← hb.timeout]
    split
    · exact .pure (left_answer _)
    · refine (onSessions_paired (Session.add_paired hE .eq _ hm now)).bind fun r r' hr => ?_
      refine after_paired _ hr.1 fun id id' hid => ?_
      rw [hid]
      exact left_answer _
  | same hne =>
    cases e with
    | add m => exact absurd rfl (hne m)
    | list =>
      refine (onSessions_paired (Session.list_paired hE now)).bind fun views views' hv => ?_
      have hviews := hv fun a b a' b' ha hb => by rw [ha, hb]
      have hj : views.map Snapshot.toJson = views'.map Snapshot.toJson :=
        List.forall₂_eq_eq_eq ▸ List.forall₂_map_left_iff.mpr
          (List.forall₂_map_right_iff.mpr (hviews.imp fun _ _ h => h.toJson_eq))
      rw [hj]
      exact .pure (.keep hviews)
    | get raw =>
      refine named_paired raw _ (fun id => Session.get?_paired hE .eq rfl now) fun id v v' hv => ?_
      rw [hv.toJson_eq]
      exact .keep (.cons hv .nil)
    | delete raw =>
      exact named_paired raw _ (fun id => Session.remove_paired hE .eq rfl)
        fun id _ _ _ => .same (by simp)
    | pause raw =>
      exact named_paired raw _ (fun id => Session.switch_paired hE .eq _ _ _ rfl)
        fun id _ _ _ => left_answer _
    | resume raw =>
      exact named_paired raw _ (fun id => Session.switch_paired hE .eq _ _ _ rfl)
        fun id _ _ _ => left_answer _
    | getSettings | putSettings => exact .pure (.same (by simp))
    | health => exact checkHealth_paired hb
    | cleanup =>
      exact (onSessions_paired (Session.shutdown_paired hE .eq (.asPut Eq))).bind fun n n' hn =>
        hn ▸ .pure (.same (by simp))

omit hb

/-! ## The section on the database -/

/-- Transfers that are alike are kept alike. -/
theorem keep_paired {views views' : List Snapshot}
    (h : List.Forall₂ (Snapshot.Alike Eq) views views') :
    Paired (Service.Alike R) (keep views) (keep views') fun _ _ => True := by
  induction h with
  | nil => exact .pure trivial
  | cons hv _ ih =>
    refine (onDatabase_paired (Storage.Database.save_paired hv)).bind fun r _ hr => hr ▸ ?_
    cases r with
    | ok => exact ih
    | error e => exact (log_paired _ _).bind fun _ _ _ => ih

theorem writeAll_paired (entries : List (String × String)) :
    Paired (Service.Alike R) (writeAll entries) (writeAll entries) Eq := by
  induction entries with
  | nil => exact .pure rfl
  | cons entry entries ih =>
    refine (onDatabase_paired (Storage.Database.onSettings_paired _)).bind fun r _ hr => hr ▸ ?_
    cases r with
    | ok => exact ih
    | error e => exact .pure rfl

/-- **The section on the database.** -/
theorem finish_paired {rem rem' : Remainder} (h : Left rem rem') :
    Paired (Service.Alike R) (finish rem) (finish rem') Eq := by
  cases h with
  | keep hv => exact (keep_paired hv).bind fun _ _ _ => .pure rfl
  | same hne =>
    cases rem with
    | answer r => exact .pure rfl
    | keep views r => exact absurd rfl (hne views r)
    | forget id r =>
      refine (onDatabase_paired (Storage.Database.delete_paired _)).bind fun out _ ho => ho ▸ ?_
      cases out with
      | ok => exact .pure rfl
      | error e => exact (log_paired _ _).bind fun _ _ _ => .pure rfl
    | clear count =>
      refine (onDatabase_paired Storage.Database.clear_paired).bind fun out _ ho => ho ▸ ?_
      cases out with
      | ok rows => exact (log_paired _ _).bind fun _ _ _ => .pure rfl
      | error e => exact failed_paired _ (.refl e)
    | readSettings =>
      refine (onDatabase_paired Storage.Database.settings_paired).bind fun out _ ho => ho ▸ ?_
      cases out with
      | ok values => exact .pure rfl
      | error e => exact failed_paired _ (.refl e)
    | writeSettings entries =>
      refine (writeAll_paired entries).bind fun out _ ho => ho ▸ ?_
      cases out with
      | ok => exact .pure rfl
      | error e => exact failed_paired _ (.refl e)

theorem perform_paired {b : Backend σ} {b' : Backend τ} (hb : b.Alike b' R M) (now : Int)
    {e e' : Endpoint} (h : Asks M e e') :
    Paired (Service.Alike R) (perform b now e) (perform b' now e') Eq :=
  (act_paired hb now h).bind fun _ _ hl => finish_paired hl

end Api

/-! ## One request -/

/-- **Two requests are alike**: they have the same method and the same target, their bodies are too
long alike by their own account, and what is read from these is the same, up to the magnet that is
submitted. -/
structure Request.Alike (M : String → String → Prop) (r r' : Request) : Prop where
  method : r.method = r'.method
  uri : r.uri = r'.uri
  length : bodyLimit < r.statedLength.getD 0 ↔ bodyLimit < r'.statedLength.getD 0
  magnet : r.route = some .torrents → r.method = "POST" →
    Option.Rel (Magnet.Alike False M) (r.jsonBody readAdd) (r'.jsonBody readAdd)
  settings : r.route = some .settings → r.method = "PUT" →
    r.jsonBody readSettings = r'.jsonBody readSettings

/-- A request is like itself, if the engines take the magnet that it submits alike. -/
theorem Request.Alike.of_self {r : Request}
    (h : ∀ m, r.jsonBody readAdd = some m → Magnet.Alike False M m m) : r.Alike M r where
  method := rfl
  uri := rfl
  length := Iff.rfl
  magnet _ _ := by
    cases hm : r.jsonBody readAdd with
    | none => exact .none
    | some m => exact .some (h m hm)
  settings _ _ := rfl

/-- Two requests lead to the same, up to the magnet that is submitted. -/
inductive Target.Leads (M : String → String → Prop) : Target → Target → Prop
  | endpoint {e e' : Endpoint} (h : Api.Asks M e e') : Leads M (.endpoint e) (.endpoint e')
  | elsewhere {t : Target} (h : ∀ e, t ≠ .endpoint e) : Leads M t t

theorem Target.leads_named (segment : List Char) {e : String → Endpoint}
    (h : ∀ raw m, e raw ≠ .add m) : Leads M (named segment e) (named segment e) := by
  rw [named]
  cases decodeSegment segment with
  | none => exact .elsewhere (by simp)
  | some raw => exact .endpoint (.same (h raw))

/-- **Requests that are alike lead to the same.** -/
theorem Request.Alike.leads {r r' : Request} (h : r.Alike M r') :
    Target.Leads M (.ofRequest r r.route) (.ofRequest r' r.route) := by
  have hmagnet := h.magnet
  have hsettings := h.settings
  cases hr : r.route with
  | none => exact .elsewhere (by simp [Target.ofRequest])
  | some route =>
    rw [Target.ofRequest, Target.ofRequest]
    cases route <;> simp only [Target.onRoute, ← h.method]
    case torrents =>
      split
      · exact .endpoint (.same (by simp))
      split
      · rename_i hp
        have hm := hmagnet hr hp
        generalize r.jsonBody readAdd = m at hm ⊢
        generalize r'.jsonBody readAdd = m' at hm ⊢
        cases hm with
        | none => exact .elsewhere (by simp [Target.ofBody])
        | some hm => exact .endpoint (.add hm)
      · exact .elsewhere (by simp)
    case torrent id =>
      split
      · exact Target.leads_named id (by simp)
      split
      · exact Target.leads_named id (by simp)
      · exact .elsewhere (by simp)
    case pause id | resume id =>
      split
      · exact Target.leads_named id (by simp)
      · exact .elsewhere (by simp)
    case settings =>
      split
      · exact .endpoint (.same (by simp))
      split
      · rename_i hp
        rw [← hsettings hr hp]
        cases r.jsonBody readSettings with
        | none => exact .elsewhere (by simp [Target.ofBody])
        | some u => exact .endpoint (.same (by simp))
      · exact .elsewhere (by simp)
    case health | cleanup =>
      split
      · exact .endpoint (.same (by simp))
      · exact .elsewhere (by simp)

namespace Service

variable {b : Backend σ} {b' : Backend τ} (hb : b.Alike b' R M) {r r' : Request}
  (hr : r.Alike M r')

include hb

theorem dispatch_paired (now : Int) {t t' : Target} (h : t.Leads M t') :
    Paired (Service.Alike R) (dispatch b now t) (dispatch b' now t') Eq := by
  cases h with
  | endpoint h => exact (Api.perform_paired hb now h).bind fun _ _ hr => hr ▸ .pure rfl
  | elsewhere hne =>
    cases t with
    | endpoint e => exact absurd rfl (hne e)
    | badPath | badBody | methodNotAllowed | notFound => exact .pure rfl

include hr

theorem limited_paired (now : Int) :
    Paired (Service.Alike R) (limited b now r r.route) (limited b' now r' r.route) Eq := by
  rw [limited, limited]
  simp only [hr.length]
  split
  · exact .pure rfl
  · exact dispatch_paired hb now hr.leads

theorem throttled_paired (now : Int) :
    Paired (Service.Alike R) (throttled b now r r.route) (throttled b' now r' r.route) Eq := by
  refine .get fun s s' hs => ?_
  rw [← hs.limiter]
  refine (Paired.set ⟨hs.sessions, hs.database, rfl, hs.dials⟩).bind fun _ _ _ => ?_
  split
  · exact limited_paired hb hr now
  · exact .pure rfl

/-- **Requests that are alike are answered the same.** -/
theorem handle_paired (now : Int) :
    Paired (Service.Alike R) (handle b now r) (handle b' now r') Eq := by
  have hroute : Route.ofPath? (pathOf r'.uri) = r.route := by rw [Request.route, hr.uri]
  rw [handle, handle, hroute, ← hr.method]
  show Paired _ (if r.method = "OPTIONS" then _ else _) (if r.method = "OPTIONS" then _ else _) Eq
  split
  · exact .pure rfl
  · exact (throttled_paired hb hr now).bind fun _ _ ho => ho ▸ .pure rfl

end Service

/-! ## One request after another -/

/-- Two visits make requests that are alike, at the same time; until then the engines may have moved
on by themselves, to states that are related again. -/
structure Visit.Alike (R : σ → τ → Prop) (M : String → String → Prop) (v : Visit σ)
    (v' : Visit τ) : Prop where
  request : v.request.Alike M v'.request
  now : v.now = v'.now
  meanwhile : ∀ {e e'}, R e e' → R (v.meanwhile e) (v'.meanwhile e')

/-- **What one visit does**: visits that are alike are answered the same and leave services
alike. -/
theorem Visit.Alike.serve {b : Backend σ} {b' : Backend τ} (hb : b.Alike b' R M) {v : Visit σ}
    {v' : Visit τ} (h : v.Alike R M v') {s : Service σ} {s' : Service τ} (hs : s.Alike R s') :
    (v.serve b s).1 = (v'.serve b' s').1 ∧ (v.serve b s).2.Alike R (v'.serve b' s').2 := by
  have hb' : (v.before s).Alike R (v'.before s') :=
    ⟨⟨h.meanwhile hs.sessions.engine, hs.sessions.store, hs.sessions.events⟩, hs.database,
      hs.limiter, hs.dials⟩
  rw [Visit.serve, Visit.serve, ← h.now]
  exact Service.handle_paired hb h.request v.now _ _ hb'

/-- **The responses to some visits**, in order. -/
def responses (b : Backend σ) (s : Service σ) : List (Visit σ) → List Response
  | [] => []
  | v :: vs => (v.serve b s).1 :: responses b (v.serve b s).2 vs

/-! ### Two services with different secrets -/

/-- A request to add a transfer. -/
def post (magnet : String) : Request :=
  ⟨"POST", "/api/torrents", [("content-type", "application/json")],
    Bytes.utf8 ("[\"" ++ magnet ++ "\"]")⟩

/-- Adding a transfer, listing, pausing and removing it, checking the chain and cleaning up. -/
def tour (magnet : String) : List (Visit Unit) :=
  let id := "/api/torrents/0101010101010101010101010101010101010101"
  [⟨post magnet, 0, fun e => e⟩, ⟨⟨"GET", "/api/torrents", [], []⟩, 1, fun e => e⟩,
    ⟨⟨"POST", id ++ "/pause", [], []⟩, 2, fun e => e⟩, ⟨⟨"DELETE", id, [], []⟩, 3, fun e => e⟩,
    ⟨⟨"GET", "/api/health", [], []⟩, 4, fun e => e⟩,
    ⟨⟨"POST", "/api/cleanup", [], []⟩, 5, fun e => e⟩]

theorem post_alike :
    (post "magnet:?xt=first").Alike (fun _ _ => True) (post "magnet:?xt=another") where
  method := rfl
  uri := rfl
  length := Iff.rfl
  magnet _ _ := by
    have hfirst : (post "magnet:?xt=first").jsonBody readAdd = some "magnet:?xt=first" := by
      decide +kernel
    have hother : (post "magnet:?xt=another").jsonBody readAdd = some "magnet:?xt=another" := by
      decide +kernel
    rw [hfirst, hother]
    exact .some ⟨by decide, False.elim, fun _ => trivial⟩
  settings := nofun

theorem tour_alike :
    List.Forall₂ (Visit.Alike Eq fun _ _ => True) (tour "magnet:?xt=first")
      (tour "magnet:?xt=another") := by
  have hbare (method uri : String) : (⟨method, uri, [], []⟩ : Request).Alike
      (fun _ _ => True) ⟨method, uri, [], []⟩ := .of_self nofun
  exact .cons ⟨post_alike, rfl, fun h => h⟩ <| .cons ⟨hbare _ _, rfl, fun h => h⟩ <|
    .cons ⟨hbare _ _, rfl, fun h => h⟩ <| .cons ⟨hbare _ _, rfl, fun h => h⟩ <|
    .cons ⟨hbare _ _, rfl, fun h => h⟩ <| .cons ⟨hbare _ _, rfl, fun h => h⟩ .nil

/-- A service with one live transfer. -/
def stocked (magnet : String) : Service Unit :=
  { Service.fresh () (.ofPolicy .standard) with
    sessions := ⟨(), Table.empty.put ⟨Vector.replicate 20 1⟩ (.fresh 0 magnet 0), []⟩ }

theorem stocked_alike (m m' : String) : (stocked m).Alike Eq (stocked m') where
  sessions := ⟨rfl, Table.Alike.empty.put .eq rfl ⟨m', rfl⟩, False.elim⟩
  database := ⟨.some .nil, rfl⟩
  limiter := rfl
  dials := rfl

/-- A service over an engine that lets go of nothing. -/
def grudging (why : String) (prober : Chain.Setup) : Backend Unit :=
  ⟨.clinging ⟨Vector.replicate 20 1⟩ why, 10, prober⟩

theorem grudging_alike (why why' : String) :
    (grudging why .onion).Alike (grudging why' .garlic) Eq fun _ _ => True where
  engine := Engine.clinging_alike why why' _ rfl
  timeout := rfl
  prober := Chain.Setup.onion_alike.toAlike
  answers n i hop hop' _ _ := Chain.Setup.onion_answers _ _ (n + i) "tcp" hop hop'

/-- **Responses tell no secrets.**  Two services that are alike, built on the same but for the texts
of errors and the hosts of hops, answer visits that are alike with the same responses. -/
theorem responses_eq {b : Backend σ} {b' : Backend τ} (hb : b.Alike b' R M) {s : Service σ}
    {s' : Service τ} (hs : s.Alike R s') {vs : List (Visit σ)} {vs' : List (Visit τ)}
    (h : List.Forall₂ (Visit.Alike R M) vs vs') : responses b s vs = responses b' s' vs' := by
  induction h generalizing s s' with
  | nil => rfl
  | cons hv _ ih =>
    obtain ⟨hr, hn⟩ := hv.serve hb hs
    rw [responses, responses, hr, ih hn]

/-- Two services with different secrets answer the same, also when they fail. -/
theorem responses_eq_tour :
    (grudging "busy" .onion).Alike (grudging "disk full" .garlic) Eq (fun _ _ => True)
      ∧ (stocked "magnet:?xt=old").Alike Eq (stocked "magnet:?xt=older")
      ∧ List.Forall₂ (Visit.Alike Eq fun _ _ => True) (tour "magnet:?xt=first")
        (tour "magnet:?xt=another")
      ∧ (responses (grudging "busy" .onion) (stocked "magnet:?xt=old")
          (tour "magnet:?xt=first")).map Response.status = [200, 200, 200, 500, 200, 200]
      ∧ responses (grudging "busy" .onion) (stocked "magnet:?xt=old") (tour "magnet:?xt=first")
        = responses (grudging "disk full" .garlic) (stocked "magnet:?xt=older")
          (tour "magnet:?xt=another") := by
  have hb := grudging_alike "busy" "disk full"
  have hs := stocked_alike "magnet:?xt=old" "magnet:?xt=older"
  exact ⟨hb, hs, tour_alike, by decide +kernel, responses_eq hb hs tour_alike⟩

end Http

end HopTorrent
