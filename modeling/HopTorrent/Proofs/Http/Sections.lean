import HopTorrent.Http.Api
import HopTorrent.Proofs.Chain.Retry
import HopTorrent.Proofs.Engine.Registry
import HopTorrent.Proofs.Session.Book
import HopTorrent.Proofs.Storage.Rows
import Mathlib.Data.Set.Insert

/-!
# Proofs/Http/Sections — what the two sections of a request do

The section on the sessions changes which transfers are live, and what it leaves to do tells how
(`Acted`).  The section on the database changes the rows as what is left to do says
(`finish_finished`), and no session.  Whoever proves something of requests, one after another or
interleaved, argues by these two and never unfolds a section.
-/

namespace HopTorrent

namespace Session

/-! ## Live transfers -/

/-- The transfers that a store holds. -/
def live (store : Store) : Set InfoHash := {id | store.get? id ≠ none}

variable {store store' : Store} {id : InfoHash} {session : Session}

theorem mem_live_of_get? (hs : store.get? id = some session) : id ∈ live store := by
  intro hn
  rw [hs] at hn
  cases hn

theorem mem_live_iff_book : id ∈ live store ↔ book store id ≠ none := by
  rw [book, ne_eq, Option.map_eq_none_iff]
  rfl

/-- Stores with the same entries hold the same transfers. -/
theorem live_eq_of_book (h : book store' = book store) : live store' = live store := by
  ext id
  rw [mem_live_iff_book, mem_live_iff_book, h]

theorem live_put (store : Store) (id : InfoHash) (session : Session) :
    live (store.put id session) = insert id (live store) := by
  ext j
  rw [mem_live_iff_book, book_put, Function.update_apply, Set.mem_insert_iff, mem_live_iff_book]
  split <;> simp_all

theorem live_put_of_get? (hs : store.get? id = some session) (session' : Session) :
    live (store.put id session') = live store := by
  rw [live_put, Set.insert_eq_of_mem (mem_live_of_get? hs)]

theorem live_erase (store : Store) (id : InfoHash) :
    live (store.erase id) = live store \ {id} := by
  ext j
  rw [mem_live_iff_book, book_erase, Function.update_apply, Set.mem_sdiff, mem_live_iff_book,
    Set.mem_singleton_iff]
  split <;> simp_all

end Session

namespace Http

/-- What is kept of what is left to do. -/
def Remainder.views : Remainder → List Snapshot
  | .keep views _ => views
  | _ => []

/-- The answer, where it does not depend on the database. -/
def Remainder.reply? : Remainder → Option Reply
  | .answer r | .keep _ r | .forget _ r => some r
  | _ => none

/-- What the section on the database does to what was shown. -/
def Remainder.shelve (shelf : Storage.Shelf) : Remainder → Storage.Shelf
  | .keep views _ => shelf.noting views
  | .forget id _ => Function.update shelf id []
  | .clear _ => fun _ => []
  | _ => shelf

/-- The answer to an add. -/
def added (id : InfoHash) : Reply := Api.ok (.object [("infoHash", .text id.toHex)])

/-- **What the section on the sessions does**: what it leaves to do tells how the live transfers
change.  What is kept is of live transfers, and can be stored. -/
inductive Acted (live : Set InfoHash) : Remainder → Set InfoHash → Prop
  /-- There is nothing left to do but to answer. -/
  | answered {r : Reply} : Acted live (.answer r) live
  /-- A transfer was added. -/
  | entered {id : InfoHash} (hn : id ∉ live) : Acted live (.answer (added id)) (insert id live)
  /-- Transfers were looked at. -/
  | shown {views : List Snapshot} {r : Reply} (hv : ∀ view ∈ views, view.infoHash ∈ live
      ∧ Storage.storedProgress view.progress = some view.progress) :
    Acted live (.keep views r) live
  /-- A transfer was removed. -/
  | removed {id : InfoHash} {r : Reply} (hi : id ∈ live) : Acted live (.forget id r) (live \ {id})
  /-- Every transfer was removed. -/
  | cleared {count : Nat} : Acted live (.clear count) ∅
  /-- The request is about the settings. -/
  | readSettings : Acted live .readSettings live
  | writeSettings {entries : List (String × String)} : Acted live (.writeSettings entries) live

/-- What is left to keep can be stored. -/
theorem Acted.storable {live live' : Set InfoHash} {rem : Remainder} (h : Acted live rem live') :
    ∀ view ∈ rem.views, Storage.storedProgress view.progress = some view.progress := by
  cases h with
  | shown hv => exact fun view hm => (hv view hm).2
  | answered | entered | removed | cleared | readSettings | writeSettings => exact nofun

/-- A service that nothing was asked of. -/
def Service.fresh {σ : Type} (engine : σ) (limiter : Limiter) : Service σ :=
  ⟨.initial engine, .empty, limiter, 0⟩

/-- A service over the registry, whose network refuses every connection. -/
def overRegistry : Backend Registry := ⟨Registry.engine, 1000, .twoHops Chain.Setup.refusing⟩

/-- The live transfers of a service. -/
abbrev Service.live {σ : Type} (s : Service σ) : Set InfoHash := Session.live s.sessions.store

/-- The sessions and the stored transfers stay as they are. -/
structure Keeps {σ : Type} (s s' : Service σ) : Prop where
  store : s'.sessions.store = s.sessions.store
  rows : s'.database.contents.transfers = s.database.contents.transfers

theorem Keeps.live {σ : Type} {s s' : Service σ} (h : Keeps s s') : s'.live = s.live :=
  congrArg Session.live h.store

/-- A section on the sessions, from one state to another. -/
structure Acts {σ : Type} (s : Service σ) (rs : Remainder × Service σ) : Prop where
  acted : Acted s.live rs.1 rs.2.live
  rows : rs.2.database.contents.transfers = s.database.contents.transfers

namespace Api

variable {σ α β : Type} {s : Service σ} {P : α → Prop} {Q : β → Prop}

/-! ## One activity after another -/

theorem run_bind (m : Serving σ α) (f : α → Serving σ β) (s : Service σ) :
    (m >>= f).run s = (f (m.run s).1).run (m.run s).2 := rfl

theorem run_onSessions (m : Managed σ α) (s : Service σ) :
    (onSessions m).run s
      = ((m.run s.sessions).1, { s with sessions := (m.run s.sessions).2 }) := rfl

theorem run_onDatabase (m : Storage.Statement α) (s : Service σ) :
    (onDatabase m : Serving σ α).run s
      = ((m.run s.database).1, { s with database := (m.run s.database).2 }) := rfl

/-- An activity that keeps sessions and rows, and comes to a result of this kind. -/
def Calm (P : α → Prop) (m : Serving σ α) : Prop := ∀ s, P (m.run s).1 ∧ Keeps s (m.run s).2

theorem Calm.pure {a : α} (h : P a) : Calm P (pure a : Serving σ α) := fun _ => ⟨h, rfl, rfl⟩

theorem Calm.bind {m : Serving σ α} {f : α → Serving σ β} (hm : Calm P m)
    (hf : ∀ a, P a → Calm Q (f a)) : Calm Q (m >>= f) := by
  intro s
  obtain ⟨ha, hk⟩ := hm s
  obtain ⟨hb, hk'⟩ := hf _ ha (m.run s).2
  exact ⟨hb, hk'.store.trans hk.store, hk'.rows.trans hk.rows⟩

theorem Calm.mono {R : α → Prop} {m : Serving σ α} (hm : Calm P m) (h : ∀ a, P a → R a) :
    Calm R m := fun s => ⟨h _ (hm s).1, (hm s).2⟩

theorem calm_log (l : Log.Line) : Calm (fun _ => True) (log l : Serving σ Unit) :=
  fun _ => ⟨trivial, rfl, rfl⟩

theorem calm_onDatabase {m : Storage.Statement α} (hm : Storage.LeavesRows m) :
    Calm (fun _ => True) (onDatabase m : Serving σ α) :=
  fun s => ⟨trivial, rfl, hm s.database⟩

theorem calm_logs (ls : List Log.Line) :
    Calm (fun _ => True) (do for l in ls do log l : Serving σ Unit) := by
  induction ls with
  | nil => exact .pure trivial
  | cons l ls ih =>
    simp only [List.forIn_cons, bind_assoc, pure_bind]
    exact (calm_log l).bind fun _ _ => ih

/-- The answer to an error: a missing transfer is said to be missing, anything else is refused. -/
def FailsAs (e : Error) (r : Reply) : Prop :=
  (∃ d, e = .notFound d) ∧ r = notFound
    ∨ (∀ d, e ≠ .notFound d) ∧ (r.status = 400 ∨ r.status = 500)

theorem FailsAs.ne_missing {r : Reply} {e : Error} (h : FailsAs e r) (he : ∀ d, e ≠ .notFound d) :
    r.status ≠ 404 := by
  obtain ⟨⟨d, hd⟩, -⟩ | ⟨-, h | h⟩ := h
  · exact absurd hd (he d)
  · rw [h]
    decide
  · rw [h]
    decide

theorem FailsAs.ne_ok {r : Reply} {e : Error} (h : FailsAs e r) : r.status ≠ 200 := by
  obtain ⟨-, rfl⟩ | ⟨-, h | h⟩ := h
  · decide
  · rw [h]
    decide
  · rw [h]
    decide

theorem calm_failed (failure : String) (e : Error) :
    Calm (FailsAs e) (failed failure e : Serving σ Reply) := by
  cases e with
  | notFound d => exact .pure (.inl ⟨⟨d, rfl⟩, rfl⟩)
  | validation d => exact .pure (.inr ⟨nofun, .inl rfl⟩)
  | _ => exact (calm_log _).bind fun _ _ => .pure (.inr ⟨nofun, .inr rfl⟩)

/-- After an error there is nothing left to do but to answer. -/
theorem calm_after_error (failure : String) (e : Error) (next : α → Remainder) :
    Calm (fun rem => ∃ r, rem = .answer r ∧ FailsAs e r)
      (after failure (.error e) next : Serving σ Remainder) :=
  (calm_failed failure e).bind fun r hr => .pure ⟨r, rfl, hr⟩

/-! ## The section on the sessions -/

/-- Where only an answer is left to do, and nothing else happened, the same transfers are live. -/
theorem Calm.acts {m : Serving σ Remainder} (h : Calm (fun rem => ∃ r, rem = .answer r) m)
    {s' : Service σ} (hl : s'.live = s.live)
    (hr : s'.database.contents.transfers = s.database.contents.transfers) :
    Acts s (m.run s') := by
  obtain ⟨⟨r, ha⟩, hk⟩ := h s'
  refine ⟨?_, hk.rows.trans hr⟩
  rw [ha, hk.live, hl]
  exact .answered

/-- An operation of the manager, followed by what it leaves to do. -/
theorem acts_after {m : Managed σ (Except Error α)} {failure : String} {next : α → Remainder}
    (he : ∀ e, (m.run s.sessions).1 = .error e →
      Session.live (m.run s.sessions).2.store = s.live)
    (ha : ∀ a, (m.run s.sessions).1 = .ok a →
      Acted s.live (next a) (Session.live (m.run s.sessions).2.store)) :
    Acts s ((do after failure (← onSessions m) next : Serving σ Remainder).run s) := by
  rw [run_bind, run_onSessions]
  cases hr : (m.run s.sessions).1 with
  | error e =>
    exact ((calm_after_error failure e next).mono fun rem ⟨r, h, _⟩ => ⟨r, h⟩).acts (he e hr) rfl
  | ok a => exact ⟨ha a hr, rfl⟩

/-- An operation on a transfer named in a path. -/
theorem acts_named {raw failure : String} {m : InfoHash → Managed σ (Except Error α)}
    {next : InfoHash → α → Remainder}
    (he : ∀ id e, ((m id).run s.sessions).1 = .error e →
      Session.live ((m id).run s.sessions).2.store = s.live)
    (ha : ∀ id a, ((m id).run s.sessions).1 = .ok a →
      Acted s.live (next id a) (Session.live ((m id).run s.sessions).2.store)) :
    Acts s ((withId raw fun id => do after failure (← onSessions (m id)) (next id)).run s) := by
  rw [withId]
  cases InfoHash.parse raw with
  | error e => exact ⟨.answered, rfl⟩
  | ok id => exact acts_after (he id) (ha id)

/-- An add makes one transfer live at most. -/
theorem live_add {eng : Engine σ} {timeout : Nat} {now : Int} {e₀ : σ} {store store' : Store}
    {magnet : String} {r : Except Error InfoHash} {calls : List Call}
    (h : Session.Serves eng timeout now e₀ (Session.book store) (.add magnet) (.added r) calls
      (Session.book store')) :
    Session.live store' = Session.live store
      ∨ ∃ id, r = .ok id ∧ id ∉ Session.live store
        ∧ Session.live store' = insert id (Session.live store) := by
  generalize hb : Session.book store' = b' at h
  cases h with
  | blank | refused | gaveUp | live | duplicate | unstarted =>
    exact .inl (Session.live_eq_of_book hb)
  | entered hg hw hn =>
    refine .inr ⟨_, rfl, fun hl => Session.mem_live_iff_book.mp hl hn, ?_⟩
    ext id
    rw [Session.mem_live_iff_book, hb, Function.update_apply, Set.mem_insert_iff,
      Session.mem_live_iff_book]
    split <;> simp_all

theorem add_acts (b : Backend σ) (now : Int) (magnet : String) (s : Service σ) :
    Acts s ((act b now (.add magnet)).run s) := by
  rw [act]
  split
  · exact ⟨.answered, rfl⟩
  · obtain ⟨calls, store, hs, hd⟩ :=
      Session.add_serves b.engine b.metadataTimeout now magnet s.sessions
    rw [run_bind, run_onSessions]
    rcases hr : (Session.add b.engine b.metadataTimeout magnet now).run s.sessions
      with ⟨⟨r, ms⟩, t⟩
    rw [hr] at hs hd
    rw [← hd.store] at hs
    obtain hl | ⟨id, rfl, hn, hl⟩ := live_add hs
    · cases r with
      | error e =>
        exact ((calm_after_error _ e _).mono fun rem ⟨r, h, _⟩ => ⟨r, h⟩).acts hl rfl
      | ok id => exact Calm.acts (.pure ⟨_, rfl⟩) hl rfl
    · refine ⟨?_, rfl⟩
      show Acted _ (.answer (added id)) (Session.live t.store)
      rw [hl]
      exact .entered hn

theorem list_acts (b : Backend σ) (now : Int) (s : Service σ) :
    Acts s ((act b now .list).run s) := by
  have hp := Session.list_perm b.engine now s.sessions
  refine ⟨?_, rfl⟩
  have hl : ((act b now .list).run s).2.live = s.live :=
    Session.live_eq_of_book (Session.book_mapValues fun _ _ => rfl)
  rw [hl]
  refine .shown fun view hv => ?_
  obtain ⟨⟨id, session⟩, hm, rfl⟩ := List.mem_map.mp (hp.mem_iff.mp hv)
  exact ⟨Session.mem_live_of_get? ((s.sessions.store.mem_entries_iff id session).mp hm),
    Storage.storedProgress_percent _ _⟩

theorem get_acts (b : Backend σ) (now : Int) (raw : String) (s : Service σ) :
    Acts s ((act b now (.get raw)).run s) := by
  refine acts_named (fun id e he => ?_) fun id view hv => ?_
  · obtain ⟨-, hr⟩ | ⟨session, -, hr⟩ := Session.get?_cases b.engine id now s.sessions
    · rw [hr]
    · rw [hr] at he
      cases he
  · obtain ⟨-, hr⟩ | ⟨session, hs, hr⟩ := Session.get?_cases b.engine id now s.sessions
    · rw [hr] at hv
      cases hv
    · rw [hr] at hv ⊢
      cases hv
      rw [Session.live_put_of_get? hs]
      exact .shown (List.forall_mem_singleton.mpr
        ⟨Session.mem_live_of_get? hs, Storage.storedProgress_percent _ _⟩)

theorem delete_acts (b : Backend σ) (now : Int) (raw : String) (s : Service σ) :
    Acts s ((act b now (.delete raw)).run s) := by
  refine acts_named (fun id e he => ?_) fun id u hu => ?_
  · obtain ⟨-, hr⟩ | ⟨session, -, ⟨e, -, hd⟩ | ⟨hr, -⟩⟩ :=
      Session.remove_cases b.engine id s.sessions
    · rw [hr]
    · rw [hd.store]
    · rw [hr] at he
      cases he
  · obtain ⟨-, hr⟩ | ⟨session, hs, ⟨e, hr, -⟩ | ⟨-, hd⟩⟩ :=
      Session.remove_cases b.engine id s.sessions
    · rw [hr] at hu
      cases hu
    · rw [hr] at hu
      cases hu
    · rw [hd.store, Session.live_erase]
      exact .removed (Session.mem_live_of_get? hs)

theorem switch_acts (b : Backend σ) (op : Operation) (paused : Bool)
    (message failure text raw : String) (s : Service σ) :
    Acts s ((withId raw fun id => do
      after failure (← onSessions (Session.switch b.engine op paused message id)) fun _ =>
        .answer (acknowledged text)).run s) := by
  have hl : ∀ id, Session.live
      ((Session.switch b.engine op paused message id).run s.sessions).2.store = s.live := by
    intro id
    obtain ⟨-, hr⟩ | ⟨session, hs, ⟨e, -, hd⟩ | ⟨-, hd⟩⟩ :=
      Session.switch_cases b.engine op paused message id s.sessions
    · rw [hr]
    · rw [hd.store]
    · rw [hd.store, Session.live_put_of_get? hs]
  exact acts_named (fun id _ _ => hl id) fun id _ _ => (hl id).symm ▸ .answered

/-- A health check only answers. -/
theorem calm_checkHealth (b : Backend σ) :
    Calm (fun rem => ∃ r, rem = .answer r) (checkHealth b) := by
  refine Calm.bind (P := fun _ => True) (fun s => ⟨trivial, rfl, rfl⟩) fun s _ => ?_
  refine Calm.bind (P := fun _ => True) (fun s => ⟨trivial, rfl, rfl⟩) fun _ _ => ?_
  refine (calm_logs _).bind fun _ _ => ?_
  split
  · exact .pure ⟨_, rfl⟩
  · exact (calm_log _).bind fun _ _ => .pure ⟨_, rfl⟩
  · exact .pure ⟨_, rfl⟩

theorem cleanup_acts (b : Backend σ) (now : Int) (s : Service σ) :
    Acts s ((act b now .cleanup).run s) := by
  obtain ⟨calls, store, hs, hd⟩ :=
    Session.shutdown_serves b.engine b.metadataTimeout now s.sessions.engine .asPut s.sessions
  generalize hb : Session.book store = b' at hs
  generalize ((Session.shutdown b.engine).run s.sessions).1 = count at hs
  have hl : ((act b now .cleanup).run s).2.live = ∅ := by
    show Session.live ((Session.shutdown b.engine).run s.sessions).2.store = ∅
    ext id
    rw [hd.store, Session.mem_live_iff_book, hb]
    cases hs
    exact ⟨fun h => h rfl, False.elim⟩
  refine ⟨?_, rfl⟩
  rw [hl]
  exact .cleared

/-- **The section on the sessions does what it leaves to do says.** -/
theorem act_acts (b : Backend σ) (now : Int) (e : Endpoint) (s : Service σ) :
    Acts s ((act b now e).run s) := by
  cases e with
  | add magnet => exact add_acts b now magnet s
  | list => exact list_acts b now s
  | get raw => exact get_acts b now raw s
  | delete raw => exact delete_acts b now raw s
  | pause raw => exact switch_acts b .cancelPieces true "Transfer paused" _ _ raw s
  | resume raw => exact switch_acts b .downloadAll false "Transfer resumed" _ _ raw s
  | getSettings => exact ⟨.readSettings, rfl⟩
  | putSettings u => exact ⟨.writeSettings, rfl⟩
  | health => exact (calm_checkHealth b).acts rfl rfl
  | cleanup => exact cleanup_acts b now s

/-! ## The section on the database -/

/-- What the section on the database does: no session changes, and the rows are those of this
shelf. -/
structure Finished (s : Service σ) (shelf : Storage.Shelf) (s' : Service σ) : Prop where
  store : s'.sessions.store = s.sessions.store
  mirrors : Storage.Mirrors s'.database shelf

theorem Calm.finished {m : Serving σ α} (hm : Calm P m) {shelf : Storage.Shelf}
    (h : Storage.Mirrors s.database shelf) : Finished s shelf (m.run s).2 :=
  ⟨(hm s).2.store, h.of_transfers (hm s).2.rows⟩

/-- Everything that was shown is kept. -/
theorem keep_finished {views : List Snapshot} {shelf : Storage.Shelf}
    (h : Storage.Mirrors s.database shelf)
    (hv : ∀ view ∈ views, Storage.storedProgress view.progress = some view.progress) :
    Finished s (shelf.noting views) ((keep views).run s).2 := by
  induction views generalizing s shelf with
  | nil => exact ⟨rfl, shelf.noting_nil.symm ▸ h⟩
  | cons view views ih =>
    obtain ⟨hp, hv⟩ := List.forall_mem_cons.mp hv
    obtain ⟨db, hr, hm⟩ := h.save hp
    rw [keep, run_bind, run_onDatabase, hr, Storage.Shelf.noting_cons]
    obtain ⟨hstore, hmirrors⟩ := ih (s := { s with database := db }) hm hv
    exact ⟨hstore, hmirrors⟩

theorem calm_writeAll (entries : List (String × String)) :
    Calm (fun _ => True) (writeAll entries : Serving σ (Except Error Unit)) := by
  induction entries with
  | nil => exact .pure trivial
  | cons entry entries ih =>
    refine (calm_onDatabase (Storage.leavesRows_onSettings _)).bind fun r _ => ?_
    cases r with
    | ok u => exact ih
    | error e => exact .pure trivial

/-- **The section on the database does to the rows what was left to do.** -/
theorem finish_finished {rem : Remainder} {shelf : Storage.Shelf}
    (h : Storage.Mirrors s.database shelf)
    (hv : ∀ view ∈ rem.views, Storage.storedProgress view.progress = some view.progress) :
    Finished s (rem.shelve shelf) ((finish rem).run s).2 := by
  cases rem with
  | answer r => exact ⟨rfl, h⟩
  | keep views r => exact keep_finished h hv
  | forget id r =>
    obtain ⟨db, hr, hm⟩ := h.delete id
    rw [finish, run_bind, run_onDatabase, hr]
    exact ⟨rfl, hm⟩
  | clear count =>
    obtain ⟨rows, db, hr, hm⟩ := h.clear
    rw [finish, run_bind, run_onDatabase, hr]
    exact ⟨rfl, hm⟩
  | readSettings =>
    refine Calm.finished (P := fun _ => True) ?_ h
    refine (calm_onDatabase (Storage.leavesRows_valuesOf _)).bind fun r _ => ?_
    cases r with
    | ok values => exact .pure trivial
    | error e => exact (calm_failed _ e).mono fun _ _ => trivial
  | writeSettings entries =>
    refine Calm.finished (P := fun _ => True) ?_ h
    refine (calm_writeAll entries).bind fun r _ => ?_
    cases r with
    | ok u => exact .pure trivial
    | error e => exact (calm_failed _ e).mono fun _ _ => trivial

/-- The answer is the one that was decided on. -/
theorem finish_reply {rem : Remainder} {r : Reply} (h : rem.reply? = some r) (s : Service σ) :
    ((finish rem).run s).1 = r := by
  cases rem with
  | answer r' | keep views r' =>
    cases h
    rfl
  | forget id r' =>
    cases h
    rw [finish, run_bind]
    cases ((onDatabase (Storage.Database.delete id.toHex)).run s).1 <;> rfl
  | clear | readSettings | writeSettings => cases h

end Api

end Http

end HopTorrent
