import HopTorrent.Proofs.Http.Allowance
import HopTorrent.Proofs.Http.Mirror
import HopTorrent.Proofs.Json.Records
import HopTorrent.Proofs.Settings
import HopTorrent.Proofs.Storage.History

/-!
# Proofs/Http/Preferences — preferences are set and read back

A request to change preferences tells an update (`Request.Tells`), or is refused before anything is
written.  What it gives is put into the settings, and nothing else that is asked touches them
(`Visit.settings_serve`).  So after any requests the settings answer with what each preference was
last given (`preferences_round_trip`).
-/

namespace HopTorrent

namespace Http

open Storage (Database Statement)

variable {σ α β : Type}

/-! ## What a body carries -/

/-- **The update that a body carries**: a record of the five fields, with whatever else.  As an
array it must have all of them. -/
def Carries (bs : Bytes) (u : SettingsUpdate) : Prop :=
  ∃ fields isArray rest, Json.Record (Setting.all.map Setting.field) true bs fields isArray rest
    ∧ (isArray = true → fields.length = Setting.all.length)
    ∧ ∀ x : Setting, u.value x = (fields.lookup x.field).bind id

theorem readSettings_iff {bs : Bytes} {u : SettingsUpdate} :
    (∃ rest, readSettings bs = some (u, rest)) ↔ Carries bs u := by
  constructor
  · rintro ⟨rest, h⟩
    obtain ⟨⟨⟨fields, isArray⟩, rest⟩, hr, h⟩ := Option.bind_eq_some_iff.mp h
    dsimp only at h
    split at h
    · cases h
    · rename_i hn
      cases h
      exact ⟨fields, isArray, _, Json.readRecord_eq_some_iff.mp hr,
        fun ha => not_not.mp fun hl => hn ⟨ha, hl⟩, fun _ => rfl⟩
  · rintro ⟨fields, isArray, rest, hr, hl, hu⟩
    refine ⟨rest, ?_⟩
    rw [readSettings, Json.readRecord_eq_some_iff.mpr hr]
    show (if isArray = true ∧ fields.length ≠ Setting.all.length then none else _) = _
    rw [if_neg fun h => h.2 (hl h.1)]
    exact congrArg (fun value => some (SettingsUpdate.mk value, rest)) (funext fun x => (hu x).symm)

/-- **A request tells an update**: its body is JSON by its own account, is no longer than allowed
and stated, and carries the update. -/
structure Request.Tells (r : Request) (u : SettingsUpdate) : Prop where
  json : ∃ text media, r.header? "content-type" = some text ∧ MediaType.parse? text = some media
    ∧ media.isJson = true
  short : r.body.length ≤ min bodyLimit (r.statedLength.getD bodyLimit)
  carried : Carries r.body u

theorem jsonBody_eq_some_iff {r : Request} {u : SettingsUpdate} :
    r.jsonBody readSettings = some u ↔ r.Tells u := by
  have hjson : (((r.header? "content-type").bind MediaType.parse?).map MediaType.isJson).getD false
      = true ↔ ∃ text media, r.header? "content-type" = some text
        ∧ MediaType.parse? text = some media ∧ media.isJson = true := by
    cases r.header? "content-type" with
    | none => simp
    | some text => cases ht : MediaType.parse? text <;> simp [ht]
  rw [Request.jsonBody, Request.limitedBody]
  constructor
  · intro h
    split at h
    · rename_i hj
      obtain ⟨⟨_, rest⟩, hr, rfl⟩ := Option.map_eq_some_iff.mp h
      obtain ⟨body, hb, hr⟩ := Option.bind_eq_some_iff.mp hr
      split at hb
      · rename_i hs
        cases hb
        exact ⟨hjson.mp hj, hs, readSettings_iff.mp ⟨rest, hr⟩⟩
      · cases hb
    · cases h
  · rintro ⟨hj, hs, hc⟩
    obtain ⟨rest, hr⟩ := readSettings_iff.mpr hc
    rw [if_pos (hjson.mpr hj), if_pos hs, Option.bind_some, hr]
    rfl

/-! ## What leaves the settings alone -/

namespace Api

/-- An activity that leaves the settings alone. -/
def Spares (m : Serving σ α) : Prop :=
  ∀ s, (m.run s).2.database.contents.settings = s.database.contents.settings

theorem Spares.pure (a : α) : Spares (pure a : Serving σ α) := fun _ => rfl

theorem Spares.bind {m : Serving σ α} {f : α → Serving σ β} (hm : Spares m)
    (hf : ∀ a, Spares (f a)) : Spares (m >>= f) :=
  fun s => (hf _ _).trans (hm s)

theorem Apart.spares {P : α → Prop} {m : Serving σ α} (h : Apart P m) : Spares m :=
  fun s => congrArg (·.contents.settings) (h s).2.2

theorem spares_onTransfers (doing : String)
    (f : Table String Storage.Row → Except String (α × Table String Storage.Row)) :
    Spares (onDatabase (Database.onTransfers doing f) : Serving σ (Except Error α)) :=
  fun s => Storage.settings_onTransfers doing f s.database

theorem spares_keep (views : List Snapshot) : Spares (keep views : Serving σ Unit) := by
  induction views with
  | nil => exact .pure _
  | cons view views ih =>
    refine (spares_onTransfers _ _).bind fun r => ?_
    cases r with
    | ok _ => exact ih
    | error e => exact (apart_log _).spares.bind fun _ => ih

/-- What is left to do beside the settings leaves them alone. -/
theorem spares_finish {e : Endpoint} {rem : Remainder} (h : Proceeds e rem)
    (hg : e ≠ .getSettings) (hp : ∀ u, e ≠ .putSettings u) :
    Spares (finish rem : Serving σ Reply) := by
  cases h with
  | readSettings => exact absurd rfl hg
  | writeSettings => exact absurd rfl (hp _)
  | clear =>
    refine (spares_onTransfers _ _).bind fun r => ?_
    cases r with
    | ok rows => exact (apart_log _).spares.bind fun _ => .pure _
    | error e => exact (apart_failed _ e).spares
  | replied h =>
    cases rem with
    | answer r => exact .pure _
    | keep views r => exact (spares_keep views).bind fun _ => .pure _
    | forget id r =>
      refine (spares_onTransfers _ _).bind fun result => ?_
      cases result with
      | ok _ => exact .pure _
      | error e => exact (apart_log _).spares.bind fun _ => .pure _
    | clear | readSettings | writeSettings => cases h

/-- **Requests that are not about the settings** leave them alone. -/
theorem spares_perform (b : Backend σ) (now : Int) {e : Endpoint} (hg : e ≠ .getSettings)
    (hp : ∀ u, e ≠ .putSettings u) : Spares (perform b now e) := by
  intro s
  obtain ⟨hrem, -, hd⟩ := apart_act b now e s
  rw [run_perform, spares_finish hrem hg hp, hd]

variable {s : Service σ} {values : Table String String}

/-- The settings are read as they are. -/
theorem perform_getSettings (b : Backend σ) (now : Int)
    (hs : s.database.contents.settings = some values) :
    ∃ db, db.contents = s.database.contents ∧ (perform b now .getSettings).run s
      = (ok (settingsJson (Setting.valued fun x => values.get? x.key)),
          { s with database := db }) := by
  obtain ⟨db, hdb, hrun⟩ := Storage.run_valuesOf Setting.all hs
  refine ⟨db, hdb, ?_⟩
  show (finish .readSettings).run s = _
  rw [finish, run_bind, run_onDatabase, Database.settings, hrun]
  rfl

/-- The database after some values were put. -/
def written (db : Database) (values : Table String String) (es : List (String × String)) :
    Database :=
  if es.isEmpty then db else ⟨{ db.contents with settings := some (values.putAll es) }, false⟩

theorem contents_written {db : Database} (hs : db.contents.settings = some values)
    (es : List (String × String)) :
    (written db values es).contents = ⟨db.contents.transfers, some (values.putAll es)⟩ := by
  cases es with
  | nil =>
    rw [written, if_pos List.isEmpty_nil, Table.putAll, List.foldl_nil, ← hs]
  | cons e es => rfl

/-- All values are put. -/
theorem run_writeAll (hs : s.database.contents.settings = some values)
    (es : List (String × String)) :
    (writeAll es).run s = (.ok (), { s with database := written s.database values es }) := by
  induction es generalizing s values with
  | nil => rfl
  | cons e es ih =>
    rw [writeAll, run_bind, run_onDatabase, Database.setValue, Storage.run_onSettings _ hs]
    refine (ih rfl).trans ?_
    cases es <;> rfl

theorem perform_putSettings (b : Backend σ) (now : Int)
    (hs : s.database.contents.settings = some values) (u : SettingsUpdate) :
    (perform b now (.putSettings u)).run s = (acknowledged "Settings updated",
      { s with database := written s.database values u.entries }) := by
  show (finish (.writeSettings u.entries)).run s = _
  rw [finish, run_bind, run_writeAll hs]
  rfl

/-- To put the same values once more changes nothing. -/
theorem written_written (db : Database) (values : Table String String)
    {es : List (String × String)} (hn : (es.map Prod.fst).Nodup) :
    written (written db values es) (values.putAll es) es = written db values es := by
  cases es with
  | nil => rfl
  | cons e es =>
    simp only [written, List.isEmpty_cons, Bool.false_eq_true, if_false, Table.putAll_putAll _ hn]

/-- Preferences are shown ordered by key, each once. -/
theorem settingsJson_eq {shown : List (Setting × String)} (hn : (shown.map Prod.fst).Nodup) :
    ∃ members, settingsJson shown = .object members
      ∧ (members.map Prod.fst).Pairwise (· ≤ ·) ∧ (members.map Prod.fst).Nodup
      ∧ ∀ key j, (key, j) ∈ members
        ↔ ∃ x value, (x, value) ∈ shown ∧ key = x.key ∧ j = .text value := by
  refine ⟨_, rfl, ?_, ?_, fun key j => ?_⟩
  · rw [List.pairwise_map]
    refine (List.pairwise_mergeSort ?_ ?_ _).imp fun h => of_decide_eq_true h
    · intro a b c hab hbc
      exact decide_eq_true (String.le_trans (of_decide_eq_true hab) (of_decide_eq_true hbc))
    · intro a b
      simpa using String.le_total a.1 b.1
  · rw [((List.mergeSort_perm _ _).map Prod.fst).nodup_iff, List.map_map]
    have hkeys := hn.map Setting.key_injective
    rwa [List.map_map] at hkeys
  · rw [List.mem_mergeSort, List.mem_map]
    constructor
    · rintro ⟨⟨x, value⟩, hm, he⟩
      cases he
      exact ⟨x, value, hm, rfl, rfl⟩
    · rintro ⟨x, value, hm, rfl, rfl⟩
      exact ⟨(x, value), hm, rfl⟩

end Api

/-! ## Requests about the preferences -/

/-- A request to read the preferences. -/
def Request.Gets (r : Request) : Prop := r.method = "GET" ∧ r.route = some .settings

/-- A request to change the preferences. -/
def Request.Puts (r : Request) : Prop := r.method = "PUT" ∧ r.route = some .settings

instance (r : Request) : Decidable r.Puts := inferInstanceAs (Decidable (_ ∧ _))

namespace Visit

/-- A visit is let through: its route has some allowance left, and its body is not too long by its
own account. -/
def LetThrough (v : Visit σ) (s : Service σ) : Prop :=
  s.allows v.now v.request = true ∧ v.request.statedLength.getD 0 ≤ bodyLimit

/-- The update of the preferences that a visit brings, if it is accepted. -/
def accepted? (b : Backend σ) (v : Visit σ) (s : Service σ) : Option SettingsUpdate :=
  if v.request.Puts ∧ (v.serve b s).1.status = 200 then v.request.jsonBody readSettings else none

end Visit

/-- **What a preference was last given**, by some visits, the latest one first. -/
def lastPut? (b : Backend σ) (s₀ : Service σ) (x : Setting) : List (Visit σ) → Option String
  | [] => none
  | v :: earlier => ((v.accepted? b (after b s₀ earlier)).bind (·.given? x)).or
      (lastPut? b s₀ x earlier)

variable {b : Backend σ} {v w : Visit σ} {s : Service σ} {u u' : SettingsUpdate}
  {values : Table String String}

theorem endpoint?_eq_some_iff {r : Request} {e : Endpoint} : r.endpoint? = some e
    ↔ r.method ≠ "OPTIONS" ∧ r.statedLength.getD 0 ≤ bodyLimit
      ∧ Target.ofRequest r r.route = .endpoint e := by
  rw [Request.endpoint?]
  by_cases ho : r.method = "OPTIONS"
  · simp [ho]
  by_cases hl : bodyLimit < r.statedLength.getD 0
  · simp [hl]
  rw [if_neg (by simp [ho, hl])]
  cases Target.ofRequest r r.route <;> simp [ho, Nat.not_lt.mp hl]

theorem ofBody_eq_endpoint_iff {content : Option α} {e : α → Endpoint} {e' : Endpoint} :
    Target.ofBody content e = .endpoint e' ↔ ∃ a, content = some a ∧ e a = e' := by
  cases content <;> simp [Target.ofBody]

/-- A change of the settings is a request to change them whose body tells the change. -/
theorem ofRequest_eq_putSettings_iff {r : Request} {route : Option Route} :
    Target.ofRequest r route = .endpoint (.putSettings u)
      ↔ r.method = "PUT" ∧ route = some .settings ∧ r.jsonBody readSettings = some u := by
  constructor
  · intro h
    cases route with
    | none => cases h
    | some route =>
      rw [Target.ofRequest] at h
      cases route with
      | settings =>
        rw [Target.onRoute] at h
        split at h
        · cases h
        split at h
        · rename_i hm
          obtain ⟨u', hb, he⟩ := ofBody_eq_endpoint_iff.mp h
          cases he
          exact ⟨hm, rfl, hb⟩
        · cases h
      | torrents =>
        rw [Target.onRoute] at h
        split at h
        · cases h
        split at h
        · obtain ⟨magnet, -, he⟩ := ofBody_eq_endpoint_iff.mp h
          cases he
        · cases h
      | torrent id =>
        rw [Target.onRoute] at h
        split at h
        · exact absurd h (named_ne id fun _ => Endpoint.noConfusion)
        split at h
        · exact absurd h (named_ne id fun _ => Endpoint.noConfusion)
        · cases h
      | pause id | resume id =>
        rw [Target.onRoute] at h
        split at h
        · exact absurd h (named_ne id fun _ => Endpoint.noConfusion)
        · cases h
      | health | cleanup =>
        rw [Target.onRoute] at h
        split at h <;> cases h
  · rintro ⟨hm, rfl, hb⟩
    rw [Target.ofRequest, Target.onRoute, hm, hb]
    rfl

theorem Request.Gets.ne_options {r : Request} (h : r.Gets) : r.method ≠ "OPTIONS" := by
  rw [h.1]
  decide

theorem Request.Puts.ne_options {r : Request} (h : r.Puts) : r.method ≠ "OPTIONS" := by
  rw [h.1]
  decide

namespace Visit

/-- **A visit that is not let through** is refused, and changes nothing. -/
theorem serve_of_not_letThrough (b : Backend σ) (ho : v.request.method ≠ "OPTIONS")
    (h : ¬ v.LetThrough s) :
    ((v.serve b s).1.status = 429 ∨ (v.serve b s).1.status = 413)
      ∧ (v.serve b s).2 = v.arrived s := by
  cases ha : (v.before s).allows v.now v.request with
  | false =>
    rw [serve, Service.handle_refused ho ha, Service.outward_status]
    exact ⟨.inl rfl, rfl⟩
  | true =>
    have hl : bodyLimit < v.request.statedLength.getD 0 := not_le.mp fun hl => h ⟨ha, hl⟩
    rw [serve, Service.run_handle ho, Service.run_throttled, if_pos ha, Service.limited, if_pos hl,
      Service.outward_status]
    exact ⟨.inr rfl, rfl⟩

theorem reaches_getSettings (hr : v.request.Gets) (h : v.LetThrough s) :
    v.Reaches s .getSettings := by
  refine ⟨endpoint?_eq_some_iff.mpr ⟨hr.ne_options, h.2, ?_⟩, h.1⟩
  rw [hr.2, Target.ofRequest, Target.onRoute, hr.1]
  rfl

/-- **A change of the settings is reached** by a request that is let through and tells it. -/
theorem reaches_putSettings_iff : v.Reaches s (.putSettings u)
    ↔ v.request.Puts ∧ v.LetThrough s ∧ v.request.Tells u := by
  rw [Reaches, endpoint?_eq_some_iff, ofRequest_eq_putSettings_iff, jsonBody_eq_some_iff]
  constructor
  · rintro ⟨⟨-, hl, hm, hr, ht⟩, ha⟩
    exact ⟨⟨hm, hr⟩, ⟨ha, hl⟩, ht⟩
  · rintro ⟨hr, ⟨ha, hl⟩, ht⟩
    exact ⟨⟨hr.ne_options, hl, hr.1, hr.2, ht⟩, ha⟩

/-- A change that tells nothing is answered so, and changes nothing. -/
theorem serve_of_badBody (b : Backend σ) (hr : v.request.Puts) (h : v.LetThrough s)
    (ht : ¬ ∃ u, v.request.Tells u) :
    (v.serve b s).1.status = 400 ∧ (v.serve b s).2 = v.arrived s := by
  have ha : (v.before s).allows v.now v.request = true := h.1
  have hb : v.request.jsonBody readSettings = none := by
    cases hb : v.request.jsonBody readSettings with
    | none => rfl
    | some u => exact absurd ⟨u, jsonBody_eq_some_iff.mp hb⟩ ht
  have hg : Target.ofRequest v.request v.request.route = .badBody := by
    rw [hr.2, Target.ofRequest, Target.onRoute, hr.1, hb]
    rfl
  rw [serve, Service.run_handle hr.ne_options, Service.run_throttled, if_pos ha, Service.limited,
    if_neg (not_lt.mpr h.2), hg, Service.outward_status]
  exact ⟨rfl, rfl⟩

/-- A change that is reached is made. -/
theorem Reaches.put (h : v.Reaches s (.putSettings u))
    (hs : s.database.contents.settings = some values) :
    (v.serve b s).1.status = 200
      ∧ (v.serve b s).2
        = { v.arrived s with database := Api.written s.database values u.entries } := by
  have hp := Api.perform_putSettings b v.now (s := v.arrived s) hs u
  rw [h.serve_eq, hp, Service.outward_status]
  exact ⟨rfl, rfl⟩

/-- What a change that is let through is answered. -/
theorem status_of_puts (b : Backend σ) (hs : s.database.contents.settings = some values)
    (hr : v.request.Puts) (hl : v.LetThrough s) :
    ((v.serve b s).1.status = 200 ↔ ∃ u, v.request.Tells u)
      ∧ ((v.serve b s).1.status = 400 ↔ ¬ ∃ u, v.request.Tells u) := by
  by_cases ht : ∃ u, v.request.Tells u
  · obtain ⟨u, hu⟩ := ht
    rw [((reaches_putSettings_iff.mpr ⟨hr, hl, hu⟩).put hs).1]
    exact ⟨iff_of_true rfl ⟨u, hu⟩, iff_of_false (by decide) fun hn => hn ⟨u, hu⟩⟩
  · rw [(serve_of_badBody b hr hl ht).1]
    exact ⟨iff_of_false (by decide) ht, iff_of_true rfl ht⟩

/-- A change that is not accepted changes nothing. -/
theorem unchanged_of_puts (b : Backend σ) (hs : s.database.contents.settings = some values)
    (hr : v.request.Puts) (hne : (v.serve b s).1.status ≠ 200) :
    (v.serve b s).2 = v.arrived s := by
  by_cases hl : v.LetThrough s
  · exact (serve_of_badBody b hr hl fun ht => hne ((status_of_puts b hs hr hl).1.mpr ht)).2
  · exact (serve_of_not_letThrough b hr.ne_options hl).2

/-- **The change that is accepted is the one that is reached.** -/
theorem accepted?_eq_some_iff (hs : s.database.contents.settings = some values) :
    v.accepted? b s = some u ↔ v.Reaches s (.putSettings u) := by
  constructor
  · intro h
    rw [accepted?] at h
    split at h
    · rename_i hok
      have hl : v.LetThrough s := by
        by_contra hl
        obtain ⟨h' | h', -⟩ := serve_of_not_letThrough b hok.1.ne_options hl <;>
          cases h'.symm.trans hok.2
      exact reaches_putSettings_iff.mpr ⟨hok.1, hl, jsonBody_eq_some_iff.mp h⟩
    · cases h
  · intro h
    obtain ⟨hr, -, ht⟩ := reaches_putSettings_iff.mp h
    rw [accepted?, if_pos ⟨hr, (h.put hs).1⟩, jsonBody_eq_some_iff.mpr ht]

/-- **What a visit does to the settings**: it puts what it gives, if it is accepted. -/
theorem settings_serve (b : Backend σ) (v : Visit σ)
    (hs : s.database.contents.settings = some values) :
    ∃ values', (v.serve b s).2.database.contents.settings = some values'
      ∧ ∀ x : Setting, values'.get? x.key
        = ((v.accepted? b s).bind (·.given? x)).or (values.get? x.key) := by
  have hnone (hn : ∀ u, ¬ v.Reaches s (.putSettings u)) : v.accepted? b s = none :=
    Option.eq_none_iff_forall_ne_some.mpr fun u hu => hn u ((accepted?_eq_some_iff hs).mp hu)
  obtain ⟨e, he, hr⟩ | ⟨hn, -, hd⟩ := v.serve_cases b s
  · by_cases hp : ∃ u, e = .putSettings u
    · obtain ⟨u, rfl⟩ := hp
      rw [(accepted?_eq_some_iff hs).mpr he, (he.put hs).2]
      refine ⟨_, congrArg (·.settings) (Api.contents_written hs _), fun x => ?_⟩
      rw [Table.get?_putAll _ u.nodup_entries, SettingsUpdate.find_entries, Option.bind_some]
    · have hother : ∀ u, ¬ v.Reaches s (.putSettings u) := fun u hu =>
        hp ⟨u, Option.some.inj (he.1.symm.trans hu.1)⟩
      rw [hnone hother, hr]
      refine ⟨values, ?_, fun x => (Option.none_or).symm⟩
      by_cases hg : e = .getSettings
      · obtain ⟨db, hdb, hrun⟩ := Api.perform_getSettings b v.now (s := v.arrived s) hs
        rw [hg, hrun]
        exact (congrArg (·.settings) hdb).trans hs
      · exact (Api.spares_perform b v.now hg (fun u hu => hp ⟨u, hu⟩) _).trans hs
  · rw [hnone fun u => hn _, hd]
    exact ⟨values, hs, fun x => (Option.none_or).symm⟩

end Visit

/-! ## Round trips -/

/-- The settings hold these preferences. -/
def Holding (s : Service σ) (held : Setting → Option String) : Prop :=
  ∃ values, s.database.contents.settings = some values ∧ ∀ x, values.get? x.key = held x

theorem holding_fresh (engine : σ) (limiter : Limiter) :
    Holding (.fresh engine limiter) fun _ => none := by
  refine ⟨_, rfl, fun x => ?_⟩
  rw [Table.get?_put, if_neg (Storage.key_ne_versionKey x)]
  rfl

/-- **After any visits the settings hold what each preference was last given.** -/
theorem holding_after (b : Backend σ) (engine : σ) (limiter : Limiter) (visits : List (Visit σ)) :
    Holding (after b (.fresh engine limiter) visits)
      fun x => lastPut? b (.fresh engine limiter) x visits := by
  induction visits with
  | nil => exact holding_fresh engine limiter
  | cons v earlier ih =>
    obtain ⟨values, hs, hget⟩ := ih
    obtain ⟨values', hs', hget'⟩ := v.settings_serve b hs
    refine ⟨values', hs', fun x => ?_⟩
    rw [hget', hget]
    rfl

/-- **An answer that shows preferences**: ordered by key, each preference that was given a value is
shown with it, and nothing else is. -/
def Showing (body : String) (last : Setting → Option String) : Prop :=
  ∃ members, body = (Json.object members).render
    ∧ (members.map Prod.fst).Pairwise (· ≤ ·) ∧ (members.map Prod.fst).Nodup
    ∧ ∀ key j, (key, j) ∈ members
      ↔ ∃ x value, last x = some value ∧ key = x.key ∧ j = .text value

/-- **How a service reads and changes its preferences**, each being last given these values. -/
structure RoundTrip (b : Backend σ) (s : Service σ) (last : Setting → Option String) : Prop where
  /-- A request to read them that is let through is shown them all. -/
  read : ∀ v : Visit σ, v.request.Gets → v.LetThrough s →
    (v.serve b s).1.status = 200 ∧ Showing (v.serve b s).1.body last
  /-- A request to change them that is let through is accepted if it tells an update, and is a bad
  request if not. -/
  change : ∀ v : Visit σ, v.request.Puts → v.LetThrough s →
    ((v.serve b s).1.status = 200 ↔ ∃ u, v.request.Tells u)
      ∧ ((v.serve b s).1.status = 400 ↔ ¬ ∃ u, v.request.Tells u)
  /-- One that is not let through is refused. -/
  refused : ∀ v : Visit σ, v.request.Gets ∨ v.request.Puts → ¬ v.LetThrough s →
    (v.serve b s).1.status = 429 ∨ (v.serve b s).1.status = 413
  /-- A change that is accepted is the update that the request tells. -/
  accepted_iff : ∀ (v : Visit σ) u, v.accepted? b s = some u
    ↔ v.request.Puts ∧ (v.serve b s).1.status = 200 ∧ v.request.Tells u
  /-- One that is not accepted changes nothing. -/
  unchanged : ∀ v : Visit σ, v.request.Puts → (v.serve b s).1.status ≠ 200 →
    (v.serve b s).2 = v.arrived s
  /-- One that gives nothing is accepted, and changes nothing. -/
  idle : ∀ (v : Visit σ) u, v.request.Puts → v.LetThrough s → v.request.Tells u →
    (∀ x, u.given? x = none) → (v.serve b s).1.status = 200 ∧ (v.serve b s).2 = v.arrived s
  /-- To make a change twice is to make it once. -/
  twice : ∀ (v w : Visit σ) u, v.accepted? b s = some u → w.accepted? b (v.serve b s).2 = some u →
    (w.serve b (v.serve b s).2).2.database = (v.serve b s).2.database
  /-- Changes of different preferences come to the same in any order. -/
  commute : ∀ (v w : Visit σ) u u', (∀ x, u.given? x = none ∨ u'.given? x = none) →
    v.accepted? b s = some u → w.accepted? b (v.serve b s).2 = some u' →
    w.accepted? b s = some u' → v.accepted? b (w.serve b s).2 = some u →
    ∃ rows values values',
      (w.serve b (v.serve b s).2).2.database.contents = ⟨rows, some values⟩
        ∧ (v.serve b (w.serve b s).2).2.database.contents = ⟨rows, some values'⟩
        ∧ ∀ key, values.get? key = values'.get? key

namespace Visit

/-- What a change that is accepted leaves in the database. -/
theorem database_of_accepted (hs : s.database.contents.settings = some values)
    (h : v.accepted? b s = some u) :
    (v.serve b s).2.database = Api.written s.database values u.entries := by
  rw [(((accepted?_eq_some_iff hs).mp h).put hs).2]

/-- What two changes that are accepted leave in the database. -/
theorem database_of_accepted_accepted (hs : s.database.contents.settings = some values)
    (h : v.accepted? b s = some u) (h' : w.accepted? b (v.serve b s).2 = some u') :
    (w.serve b (v.serve b s).2).2.database
      = Api.written (Api.written s.database values u.entries) (values.putAll u.entries)
          u'.entries := by
  have hd := database_of_accepted hs h
  have hs' : (v.serve b s).2.database.contents.settings = some (values.putAll u.entries) := by
    rw [hd, Api.contents_written hs]
  rw [database_of_accepted hs' h', hd]

/-- What they leave is what both put. -/
theorem contents_of_accepted_accepted (hs : s.database.contents.settings = some values)
    (h : v.accepted? b s = some u) (h' : w.accepted? b (v.serve b s).2 = some u') :
    (w.serve b (v.serve b s).2).2.database.contents
      = ⟨s.database.contents.transfers, some ((values.putAll u.entries).putAll u'.entries)⟩ := by
  rw [database_of_accepted_accepted hs h h']
  have hc := Api.contents_written hs u.entries
  rw [Api.contents_written (congrArg (·.settings) hc), hc]

end Visit

/-- A request to read the preferences is shown what the settings hold. -/
theorem Holding.read {held : Setting → Option String} (h : Holding s held) (b : Backend σ)
    (hr : v.request.Gets) (hl : v.LetThrough s) :
    (v.serve b s).1.status = 200 ∧ Showing (v.serve b s).1.body held := by
  obtain ⟨values, hs, hheld⟩ := h
  have hreach := Visit.reaches_getSettings hr hl
  obtain ⟨db, -, hrun⟩ := Api.perform_getSettings b v.now (s := v.arrived s) hs
  have hget : v.request.method ≠ "HEAD" := by
    rw [hr.1]
    decide
  obtain ⟨members, hjson, hsorted, hnodup, hmem⟩ :=
    Api.settingsJson_eq (Setting.nodup_valued fun x => values.get? x.key)
  rw [hreach.status, hreach.body hget, hrun]
  refine ⟨rfl, members, congrArg Json.render hjson, hsorted, hnodup, fun key j => ?_⟩
  simp only [hmem, Setting.mem_valued_iff, hheld]

/-- A service whose settings hold preferences reads and changes them. -/
theorem roundTrip_of_holding {held : Setting → Option String} (h : Holding s held)
    (b : Backend σ) : RoundTrip b s held := by
  have hread : ∀ v : Visit σ, v.request.Gets → v.LetThrough s → _ := fun v => h.read b
  obtain ⟨values, hs, -⟩ := h
  constructor
  case read => exact hread
  case change => exact fun v => Visit.status_of_puts b hs
  case refused =>
    rintro v (hr | hr) hl
    · exact (Visit.serve_of_not_letThrough b hr.ne_options hl).1
    · exact (Visit.serve_of_not_letThrough b hr.ne_options hl).1
  case accepted_iff =>
    intro v u
    rw [Visit.accepted?, Option.ite_none_right_eq_some, jsonBody_eq_some_iff, and_assoc]
  case unchanged => exact fun v => Visit.unchanged_of_puts b hs
  case idle =>
    intro v u hr hl ht hu
    obtain ⟨hok, hafter⟩ := (Visit.reaches_putSettings_iff.mpr ⟨hr, hl, ht⟩).put hs
    rw [SettingsUpdate.entries_eq_nil hu] at hafter
    exact ⟨hok, hafter⟩
  case twice =>
    intro v w u hv hw
    rw [Visit.database_of_accepted_accepted hs hv hw, Visit.database_of_accepted hs hv,
      Api.written_written _ _ u.nodup_entries]
  case commute =>
    intro v w u u' hd hv hw hw' hv'
    exact ⟨_, _, _, Visit.contents_of_accepted_accepted hs hv hw,
      Visit.contents_of_accepted_accepted hs hw' hv',
      SettingsUpdate.get?_putAll_comm hd values⟩

/-- **Preferences make the round trip.**  After any requests whatsoever a service answers with what
each preference was last given by a change that was accepted. -/
theorem preferences_round_trip (b : Backend σ) (engine : σ) (limiter : Limiter)
    (visits : List (Visit σ)) :
    RoundTrip b (after b (.fresh engine limiter) visits)
      fun x => lastPut? b (.fresh engine limiter) x visits :=
  roundTrip_of_holding (holding_after b engine limiter visits) b

/-- Two changes that are accepted, and a later one that names a preference twice. -/
def overwriting : List (Visit Registry) :=
  let put (now : Int) (body : String) : Visit Registry :=
    ⟨⟨"PUT", "/api/settings", [("content-type", "application/json")], Bytes.utf8 body⟩, now, id⟩
  [put 2 "\x7b\"enableTor\":\"true\",\"enableTor\":\"false\"\x7d",
    put 1 "\x7b\"maxUploadRate\":\"\",\"maxConnections\":\"8\",\"enableTor\":null\x7d",
    put 0 "\x7b\"maxUploadRate\":\"64\",\"maxConnections\":\"4\",\"theme\":[\"dark\"]\x7d"]

/-- A preference keeps its value where a change gives none, or is not accepted. -/
theorem preferences_round_trip_overwriting :
    let s₀ : Service Registry := .fresh [] (.ofPolicy .standard)
    RoundTrip overRegistry (after overRegistry s₀ overwriting)
        (fun x => lastPut? overRegistry s₀ x overwriting)
      ∧ lastPut? overRegistry s₀ .maxUploadRate overwriting = some "64"
      ∧ lastPut? overRegistry s₀ .maxConnections overwriting = some "8"
      ∧ lastPut? overRegistry s₀ .enableTor overwriting = none :=
  ⟨preferences_round_trip overRegistry [] (.ofPolicy .standard) overwriting, by decide +kernel⟩

end Http

end HopTorrent
