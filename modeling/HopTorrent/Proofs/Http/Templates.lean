import HopTorrent.Http.Routes
import Mathlib.Tactic.SplitIfs

/-!
# Proofs/Http/Templates — which template a path matches

A path matches a template if its segments fit those of the template one by one (`Matches`): a
parameter fits whatever stands in its place, any other segment only itself.  The allowance of a
request hangs on the one template that its path matches, and on nothing else if there is none
(`bucketOf_eq_iff`).
-/

namespace HopTorrent

namespace Http

/-- The templates of the service. -/
def templates : List String :=
  ["/api/torrents", "/api/torrents/:info_hash", "/api/torrents/:info_hash/pause",
    "/api/torrents/:info_hash/resume", "/api/settings", "/api/health", "/api/cleanup"]

/-- A segment of a template is a parameter. -/
def IsParameter (t : List Char) : Prop := t.head? = some ':'

instance (t : List Char) : Decidable (IsParameter t) :=
  inferInstanceAs (Decidable (t.head? = some ':'))

/-- **The segments of a path fit those of a template**, in order.  A parameter fits any segment, but
no empty one at the end of the path; any other segment fits only itself. -/
def Fits : List (List Char) → List (List Char) → Prop
  | [], [] => True
  | t :: ts, s :: ss => (if IsParameter t then s = [] → ss ≠ [] else s = t) ∧ Fits ts ss
  | _, _ => False

/-- A path matches a template. -/
def Matches (template : String) (path : List Char) : Prop :=
  Fits (Text.pieces '/' template.toList) (Text.pieces '/' path)

variable {t : List Char} {ts ss : List (List Char)} {path : List Char} {template : String}

theorem fits_nil_iff : Fits [] ss ↔ ss = [] := by
  cases ss with
  | nil => exact iff_of_true trivial rfl
  | cons s ss => exact iff_of_false id (List.cons_ne_nil s ss)

theorem fits_literal_iff (ht : ¬ IsParameter t) :
    Fits (t :: ts) ss ↔ ∃ rest, ss = t :: rest ∧ Fits ts rest := by
  cases ss with
  | nil => exact iff_of_false id fun ⟨_, h, _⟩ => nomatch h
  | cons s ss =>
    rw [Fits, if_neg ht]
    constructor
    · rintro ⟨rfl, h⟩
      exact ⟨ss, rfl, h⟩
    · rintro ⟨rest, h, hf⟩
      obtain ⟨rfl, rfl⟩ := List.cons.inj h
      exact ⟨rfl, hf⟩

theorem fits_parameter_iff (ht : IsParameter t) :
    Fits (t :: ts) ss ↔ ∃ s rest, ss = s :: rest ∧ (s = [] → rest ≠ []) ∧ Fits ts rest := by
  cases ss with
  | nil => exact iff_of_false id fun ⟨_, _, h, _⟩ => nomatch h
  | cons s ss =>
    rw [Fits, if_pos ht]
    constructor
    · rintro ⟨hs, h⟩
      exact ⟨s, ss, rfl, hs, h⟩
    · rintro ⟨s', rest, h, hf⟩
      obtain ⟨rfl, rfl⟩ := List.cons.inj h
      exact hf

/-- What fits segments without a parameter begins with them. -/
theorem fits_literals_iff (ht : ∀ t ∈ ts, ¬ IsParameter t) (us : List (List Char)) :
    Fits (ts ++ us) ss ↔ ∃ rest, ss = ts ++ rest ∧ Fits us rest := by
  induction ts generalizing ss with
  | nil => exact ⟨fun h => ⟨ss, rfl, h⟩, fun ⟨_, h, hf⟩ => h ▸ hf⟩
  | cons t ts ih =>
    obtain ⟨ht, hts⟩ := List.forall_mem_cons.mp ht
    rw [List.cons_append, fits_literal_iff ht]
    constructor
    · rintro ⟨rest, rfl, h⟩
      obtain ⟨rest', rfl, hf⟩ := (ih hts).mp h
      exact ⟨rest', rfl, hf⟩
    · rintro ⟨rest, rfl, hf⟩
      exact ⟨ts ++ rest, rfl, (ih hts).mpr ⟨rest, rfl, hf⟩⟩

/-- Segments without a parameter are fitted by themselves only. -/
theorem eq_of_fits_literals (ht : ∀ t ∈ ts, ¬ IsParameter t) (h : Fits ts ss) : ss = ts := by
  rw [← List.append_nil ts, fits_literals_iff ht] at h
  obtain ⟨rest, rfl, hr⟩ := h
  rw [fits_nil_iff.mp hr, List.append_nil]

namespace Route

/-! ## The segments of a route -/

/-- The segments of the paths that lead to a route. -/
def segments : Route → List (List Char)
  | torrents => [[], "api".toList, "torrents".toList]
  | torrent id => [[], "api".toList, "torrents".toList, id]
  | pause id => [[], "api".toList, "torrents".toList, id, "pause".toList]
  | resume id => [[], "api".toList, "torrents".toList, id, "resume".toList]
  | settings => [[], "api".toList, "settings".toList]
  | health => [[], "api".toList, "health".toList]
  | cleanup => [[], "api".toList, "cleanup".toList]

/-- A name at the end of a path is not empty. -/
def Named (r : Route) : Prop := ∀ id, r = torrent id → id ≠ []

variable {r : Route}

theorem ofSegments?_eq_some {rest : List (List Char)} (h : ofSegments? rest = some r) :
    (∃ id, id ≠ [] ∧ rest = [id] ∧ r = torrent id)
      ∨ (∃ id, rest = [id, "pause".toList] ∧ r = pause id)
      ∨ ∃ id, rest = [id, "resume".toList] ∧ r = resume id := by
  rw [ofSegments?.eq_def] at h
  split at h
  · rename_i id
    split_ifs at h with hid
    exact .inl ⟨id, mt List.isEmpty_iff.mpr hid, rfl, (Option.some.inj h).symm⟩
  · rename_i id action
    split_ifs at h with hpause hresume
    · exact .inr (.inl ⟨id, hpause ▸ rfl, (Option.some.inj h).symm⟩)
    · exact .inr (.inr ⟨id, hresume ▸ rfl, (Option.some.inj h).symm⟩)
  · cases h

/-- A path that leads to a route has its segments. -/
theorem pieces_of_ofPath? (h : ofPath? path = some r) :
    Text.pieces '/' path = r.segments ∧ r.Named := by
  rw [ofPath?] at h
  split at h
  · rename_i api place rest hp
    have hrest : ¬ (!rest.isEmpty) = true → rest = [] := by simp
    rw [hp]
    -- One case for each test that the path passes; where it fails one, it has no route.
    split_ifs at h with hapi htorrents hempty hmore hsettings hhealth hcleanup
    all_goals rw [Decidable.of_not_not hapi]
    · cases h
      rw [htorrents, List.isEmpty_iff.mp hempty]
      exact ⟨rfl, nofun⟩
    · rw [htorrents]
      obtain ⟨id, hid, rfl, rfl⟩ | ⟨id, rfl, rfl⟩ | ⟨id, rfl, rfl⟩ := ofSegments?_eq_some h
      · exact ⟨rfl, fun id' h => torrent.inj h ▸ hid⟩
      · exact ⟨rfl, nofun⟩
      · exact ⟨rfl, nofun⟩
    · cases h
      rw [hrest hmore, hsettings]
      exact ⟨rfl, nofun⟩
    · cases h
      rw [hrest hmore, hhealth]
      exact ⟨rfl, nofun⟩
    · cases h
      rw [hrest hmore, hcleanup]
      exact ⟨rfl, nofun⟩
  · cases h

/-- A path with the segments of a route leads there. -/
theorem ofPath?_of_pieces (h : Text.pieces '/' path = r.segments) (hn : r.Named) :
    ofPath? path = some r := by
  rw [ofPath?, h]
  cases r with
  | torrent id =>
    have hid : id ≠ [] := hn id rfl
    simp [segments, ofSegments?, hid]
  | torrents | pause id | resume id | settings | health | cleanup =>
    simp [segments, ofSegments?]

/-! ## Templates -/

/-- The segments of a route's template. -/
def pattern : Route → List (List Char)
  | torrents => [[], "api".toList, "torrents".toList]
  | torrent _ => [[], "api".toList, "torrents".toList, ":info_hash".toList]
  | pause _ => [[], "api".toList, "torrents".toList, ":info_hash".toList, "pause".toList]
  | resume _ => [[], "api".toList, "torrents".toList, ":info_hash".toList, "resume".toList]
  | settings => [[], "api".toList, "settings".toList]
  | health => [[], "api".toList, "health".toList]
  | cleanup => [[], "api".toList, "cleanup".toList]

theorem pieces_template (r : Route) : Text.pieces '/' r.template.toList = r.pattern := by
  cases r with
  | torrents | settings | health | cleanup => decide
  | torrent _ =>
    have hp : Text.pieces '/' (torrent []).template.toList = (torrent []).pattern := by decide
    exact hp
  | pause _ =>
    have hp : Text.pieces '/' (pause []).template.toList = (pause []).pattern := by decide
    exact hp
  | resume _ =>
    have hp : Text.pieces '/' (resume []).template.toList = (resume []).pattern := by decide
    exact hp

theorem mem_templates_iff : template ∈ templates ↔ ∃ r : Route, r.template = template := by
  constructor
  · intro h
    simp only [templates, List.mem_cons, List.not_mem_nil, or_false] at h
    obtain rfl | rfl | rfl | rfl | rfl | rfl | rfl := h
    · exact ⟨torrents, rfl⟩
    · exact ⟨torrent [], rfl⟩
    · exact ⟨pause [], rfl⟩
    · exact ⟨resume [], rfl⟩
    · exact ⟨settings, rfl⟩
    · exact ⟨health, rfl⟩
    · exact ⟨cleanup, rfl⟩
  · rintro ⟨r, rfl⟩
    cases r <;> simp [Route.template, templates]

/-- The segments of a route fit its template. -/
theorem fits_segments (hn : r.Named) : Fits r.pattern r.segments := by
  cases r with
  | torrent id => exact ⟨rfl, rfl, rfl, fun h => absurd h (hn id rfl), trivial⟩
  | pause id | resume id => exact ⟨rfl, rfl, rfl, nofun, rfl, trivial⟩
  | torrents | settings | health | cleanup => exact ⟨rfl, rfl, rfl, trivial⟩

/-- What fits segments that stand in front of a name. -/
theorem exists_of_fits_named (action : List (List Char)) (ha : ∀ t ∈ action, ¬ IsParameter t)
    (h : Fits ([[], "api".toList, "torrents".toList] ++ ":info_hash".toList :: action) ss) :
    ∃ id, ss = [[], "api".toList, "torrents".toList, id] ++ action ∧ (id = [] → action ≠ []) := by
  obtain ⟨named, rfl, hnamed⟩ := (fits_literals_iff (by decide) _).mp h
  obtain ⟨id, rest, rfl, hid, hrest⟩ := (fits_parameter_iff (by decide)).mp hnamed
  obtain rfl := eq_of_fits_literals ha hrest
  exact ⟨id, rfl, hid⟩

/-- **What fits the template of a route** has the segments of a route with that template. -/
theorem exists_of_fits (h : Fits r.pattern ss) :
    ∃ r' : Route, r'.template = r.template ∧ ss = r'.segments ∧ r'.Named := by
  cases r with
  | torrent _ =>
    obtain ⟨id, rfl, hid⟩ := exists_of_fits_named [] nofun h
    exact ⟨torrent id, rfl, rfl, fun id' he => torrent.inj he ▸ fun hn => hid hn rfl⟩
  | pause _ =>
    obtain ⟨id, rfl, -⟩ := exists_of_fits_named ["pause".toList] (by decide) h
    exact ⟨pause id, rfl, rfl, nofun⟩
  | resume _ =>
    obtain ⟨id, rfl, -⟩ := exists_of_fits_named ["resume".toList] (by decide) h
    exact ⟨resume id, rfl, rfl, nofun⟩
  | torrents | settings | health | cleanup =>
    exact ⟨_, rfl, eq_of_fits_literals (by decide) h, nofun⟩

/-- A path matches the template of its route. -/
theorem matches_of_ofPath? (h : ofPath? path = some r) : Matches r.template path := by
  obtain ⟨hp, hn⟩ := pieces_of_ofPath? h
  rw [Matches, pieces_template, hp]
  exact fits_segments hn

/-- A path matches a template exactly if it leads to a route with that template. -/
theorem exists_ofPath?_iff :
    (∃ r, ofPath? path = some r ∧ r.template = template)
      ↔ template ∈ templates ∧ Matches template path := by
  constructor
  · rintro ⟨r, hr, rfl⟩
    exact ⟨mem_templates_iff.mpr ⟨r, rfl⟩, matches_of_ofPath? hr⟩
  · rintro ⟨ht, hm⟩
    obtain ⟨r₀, rfl⟩ := mem_templates_iff.mp ht
    rw [Matches, pieces_template] at hm
    obtain ⟨r, hr, hp, hn⟩ := exists_of_fits hm
    exact ⟨r, ofPath?_of_pieces hp hn, hr⟩

/-- A path that leads nowhere matches no template. -/
theorem ofPath?_eq_none_iff : ofPath? path = none ↔ ∀ t ∈ templates, ¬ Matches t path := by
  rw [Option.eq_none_iff_forall_ne_some]
  constructor
  · intro h t ht hm
    obtain ⟨r, hr, -⟩ := exists_ofPath?_iff.mpr ⟨ht, hm⟩
    exact h r hr
  · intro h r hr
    obtain ⟨ht, hm⟩ := exists_ofPath?_iff.mp ⟨r, hr, rfl⟩
    exact h _ ht hm

end Route

/-- **The allowance of a request hangs on the template that its path matches**, and on nothing else
if there is none. -/
theorem bucketOf_eq_iff {bucket : String} :
    bucketOf (Route.ofPath? path) = bucket
      ↔ bucket ∈ templates ∧ Matches bucket path
        ∨ bucket = unmatched ∧ ∀ t ∈ templates, ¬ Matches t path := by
  rw [← Route.exists_ofPath?_iff, ← Route.ofPath?_eq_none_iff]
  cases Route.ofPath? path with
  | none => simp [bucketOf, eq_comm]
  | some r => simp [bucketOf]

end Http

end HopTorrent
