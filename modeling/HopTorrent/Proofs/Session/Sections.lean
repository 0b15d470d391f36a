import HopTorrent.Proofs.Engine.History
import HopTorrent.Session.Concurrent

/-!
# Proofs/Session/Sections — everything one step can do

A step of an operation is seen through what it leaves: the calls it makes of the engine, the adds it
takes further, who has the store for himself, and the handles in the store.  `Effect` lists all that
can happen, and nothing else does (`step_acts`); whoever proves something of every interleaving
argues by its cases and never unfolds a step.
-/

namespace HopTorrent

/-- The call of the engine that an event tells of. -/
def SessionEvent.call? : SessionEvent → Option Call
  | .added m r => some (.add m r)
  | .performed op h r => some (.perform op h r)
  | .resolved .. | .logged _ => none

/-- The calls of the engine that events tell of, in order. -/
def SessionEvent.calls (events : List SessionEvent) : List Call := events.filterMap call?

@[simp] theorem SessionEvent.calls_append (es fs : List SessionEvent) :
    calls (es ++ fs) = calls es ++ calls fs := List.filterMap_append

namespace Session

variable {σ α : Type} {eng : Engine σ} {s s' s'' : Sessions σ} {cs ds : List Call}
  {store store' : Store}

/-! ## The handles in the store -/

/-- The handle that is stored under an identifier. -/
def held (store : Store) (id : InfoHash) : Option Handle := (store.get? id).map Session.handle

theorem held_put (store : Store) (id j : InfoHash) (session : Session) :
    held (store.put id session) j = if j = id then some session.handle else held store j := by
  rw [held, Table.get?_put]
  split <;> rfl

theorem held_erase (store : Store) (id j : InfoHash) :
    held (store.erase id) j = if j = id then none else held store j := by
  rw [held, Table.get?_erase]
  split <;> rfl

/-- The store holds a session's handle. -/
theorem held_of_get? {id : InfoHash} {session : Session} (hs : store.get? id = some session) :
    held store id = some session.handle := by
  rw [held, hs]
  rfl

/-- Replacing a session by one with the same handle changes no handle. -/
theorem held_put_of_get? {id : InfoHash} {session session' : Session}
    (hs : store.get? id = some session) (hh : session'.handle = session.handle) :
    held (store.put id session') = held store := by
  funext j
  rw [held_put]
  split
  · rename_i hj
    rw [hj, held, hs, hh]
    rfl
  · rfl

/-- Changing sessions but not their handles changes no handle. -/
theorem held_mapValues {f : InfoHash → Session → Session}
    (hf : ∀ id session, (f id session).handle = session.handle) :
    held (store.mapValues f) = held store := by
  funext j
  rw [held, Table.get?_mapValues, Option.map_map, held]
  congr 1
  funext session
  exact hf j session

/-! ## The order of the sessions -/

namespace Order

variable (order : Order)

/-- The sessions that are met are those in the store. -/
theorem mem_met_iff {id : InfoHash} {session : Session} :
    (id, session) ∈ order.met store ↔ store.get? id = some session :=
  (order.perm store).mem_iff.trans (store.mem_entries_iff id session)

theorem length_met : (order.met store).length = store.size := (order.perm store).length_eq

/-- No two sessions are met under one identifier. -/
theorem nodup_met (store : Store) : ((order.met store).map Prod.fst).Nodup :=
  ((order.perm store).map Prod.fst).nodup_iff.mpr store.nodup

/-- The order stays the same when the session met first is taken away. -/
def Steady : Prop :=
  ∀ (store : Store) (e : InfoHash × Session) (es : List (InfoHash × Session)),
    order.met store = e :: es → order.met (store.erase e.1) = es

/-- Sessions keep the order in which they came into the store. -/
theorem steady_asPut : asPut.Steady := fun _ _ _ => Table.entries_erase_head

end Order

/-! ## One activity after another -/

theorem run_bind {β : Type} (m : Managed σ α) (f : α → Managed σ β) (s : Sessions σ) :
    (m >>= f).run s = (f (m.run s).1).run (m.run s).2 := rfl

theorem run_pure (a : α) (s : Sessions σ) : (pure a : Managed σ α).run s = (a, s) := rfl

theorem run_modify (f : Sessions σ → Sessions σ) (s : Sessions σ) :
    (modify f : Managed σ Unit).run s = ((), f s) := rfl

theorem run_get (s : Sessions σ) : (get : Managed σ (Sessions σ)).run s = (s, s) := rfl

/-- **What an activity does**, seen from outside: it makes these calls of the engine, and leaves
this store. -/
structure Does (eng : Engine σ) (s : Sessions σ) (calls : List Call) (store : Store)
    (s' : Sessions σ) : Prop where
  events : ∃ new, s'.events = s.events ++ new ∧ SessionEvent.calls new = calls
  engine : eng.Ran s.engine calls s'.engine
  store : s'.store = store

theorem Does.refl (s : Sessions σ) : Does eng s [] s.store s :=
  ⟨⟨[], by simp [SessionEvent.calls]⟩, .start, rfl⟩

theorem Does.trans (h : Does eng s cs store s') (k : Does eng s' ds store' s'') :
    Does eng s (cs ++ ds) store' s'' := by
  obtain ⟨new, he, rfl⟩ := h.events
  obtain ⟨new', he', rfl⟩ := k.events
  exact ⟨⟨new ++ new', by rw [he', he, List.append_assoc], by simp⟩, h.engine.append k.engine,
    k.store⟩

/-- Writing to the log is nothing to the engine. -/
theorem log_does (l : Log.Line) (s : Sessions σ) : Does eng s [] s.store ((log l).run s).2 :=
  ⟨⟨[.logged l], rfl, rfl⟩, .start, rfl⟩

/-- Changing the store is nothing to the engine. -/
theorem Does.put (h : Does eng s cs store s') (store' : Store) :
    Does eng s cs store' { s' with store := store' } := ⟨h.events, h.engine, rfl⟩

/-- An operation is one call. -/
theorem perform_does {op : Operation} {h : Handle} {r : Except Error Unit}
    (hr : (perform eng op h).run s = (r, s')) : Does eng s [.perform op h r] s.store s' := by
  obtain ⟨rfl, rfl⟩ := Prod.mk.inj hr
  exact ⟨⟨[.performed op h _], rfl, rfl⟩, (Engine.Makes.perform op h s.engine).ran, rfl⟩

variable (eng) in
/-- Discarding a torrent that never got into the store is one call. -/
theorem release_does (h : Handle) (reason : String) (s : Sessions σ) :
    ∃ r, Does eng s [.perform .dropTorrent h r] s.store ((release eng h reason).run s).2 := by
  rcases hr : (perform eng .dropTorrent h).run s with ⟨r, t⟩
  have hp := perform_does hr
  refine ⟨r, ?_⟩
  rw [release, run_bind, hr]
  cases r with
  | ok _ => exact hp
  | error e => exact hp.store ▸ hp.trans (log_does _ t)

/-! ## The sections of an add -/

variable (eng) in
/-- **Beginning an add** is one call, unless the magnet is blank. -/
theorem begin_cases (magnet : String) (s : Sessions σ) :
    (Text.trim magnet).isEmpty = true
        ∧ (begin eng magnet).run s = (.error (.validation "magnet URI is required"), s)
      ∨ (Text.trim magnet).isEmpty = false
        ∧ ∃ r t, (begin eng magnet).run s = (r.map fun h => ⟨h, Text.trim magnet⟩, t)
          ∧ eng.addMagnet (Text.trim magnet) s.engine = (r, t.engine)
          ∧ Does eng s [.add (Text.trim magnet) r] s.store t := by
  cases hb : (Text.trim magnet).isEmpty with
  | true => exact .inl ⟨rfl, by rw [begin, if_pos hb]; rfl⟩
  | false =>
    refine .inr ⟨rfl, ?_⟩
    have hm : eng.Makes s.engine _ _ := .add (Text.trim magnet) s.engine
    rcases ha : eng.addMagnet (Text.trim magnet) s.engine with ⟨r, engine⟩
    rw [ha] at hm
    refine ⟨r, ⟨engine, s.store, s.events ++ [.added (Text.trim magnet) r]⟩, ?_, rfl,
      ⟨_, rfl, rfl⟩, hm.ran, rfl⟩
    rw [begin, if_neg (by simp [hb])]
    simp only [run_bind, run_get, ha]
    rfl

/-- Noting how a wait ended is nothing to the engine. -/
theorem resolve_does (p : Pending) (w : Waited) (s : Sessions σ) :
    Does eng s [] s.store ((resolve p w).run s).2 := by
  cases w with
  | ready => exact ⟨⟨[.resolved _ _], rfl, rfl⟩, .start, rfl⟩
  | failed e => exact ⟨⟨[.resolved _ _], rfl, rfl⟩, .start, rfl⟩
  | timedOut => exact .refl s

/-- Discarding a torrent without metadata is one call, and the add fails. -/
theorem giveUp_does (eng : Engine σ) (p : Pending) {w : Waited} (hw : w ≠ .ready) (now : Int)
    (s : Sessions σ) :
    ∃ e r, ((conclude eng p w now).run s).1 = .error e
      ∧ Does eng s [.perform .dropTorrent p.handle r] s.store ((conclude eng p w now).run s).2 := by
  cases w with
  | ready => exact absurd rfl hw
  | failed e =>
    obtain ⟨r, hr⟩ := release_does eng p.handle "metadata failure" s
    exact ⟨e, r, rfl, hr⟩
  | timedOut =>
    obtain ⟨r, hr⟩ := release_does eng p.handle "metadata timeout" s
    exact ⟨.metadataTimeout, r, rfl, hr.store ▸ hr.trans (log_does _ _)⟩

/-- **The exits of an add that gets hold of the store**: its result, its calls and the store it
leaves. -/
inductive Entered (eng : Engine σ) (s : Sessions σ) (p : Pending) (now : Int) :
    Except Error InfoHash → List Call → Store → Prop
  /-- The transfer is live under this very handle. -/
  | live {session : Session} (hl : s.store.get? (eng.hash s.engine p.handle) = some session)
      (hh : session.handle = p.handle) :
    Entered eng s p now (.ok (eng.hash s.engine p.handle)) [] s.store
  /-- The transfer is live under another handle: this one is discarded. -/
  | duplicate {session : Session} {r : Except Error Unit}
      (hl : s.store.get? (eng.hash s.engine p.handle) = some session)
      (hh : session.handle ≠ p.handle) :
    Entered eng s p now (.ok (eng.hash s.engine p.handle)) [.perform .dropTorrent p.handle r]
      s.store
  /-- The engine refuses to start it. -/
  | unstarted {e : Error} (hl : s.store.get? (eng.hash s.engine p.handle) = none) :
    Entered eng s p now (.error e) [.perform .downloadAll p.handle (.error e)] s.store
  /-- It is started and stored. -/
  | stored (hl : s.store.get? (eng.hash s.engine p.handle) = none) :
    Entered eng s p now (.ok (eng.hash s.engine p.handle))
      [.perform .downloadAll p.handle (.ok ())]
      (s.store.put (eng.hash s.engine p.handle) (fresh p.handle p.magnet now))

variable (eng) in
/-- **An add that gets hold of the store takes one of the exits.** -/
theorem enter_does (p : Pending) (now : Int) (s : Sessions σ) :
    ∃ calls store, Entered eng s p now ((enter eng p now).run s).1 calls store
      ∧ Does eng s calls store ((enter eng p now).run s).2 := by
  cases hl : s.store.get? (eng.hash s.engine p.handle) with
  | some session =>
    have hl' : s.store.get? (eng.torrent s.engine p.handle).infoHash = some session := hl
    by_cases hh : session.handle = p.handle
    · refine ⟨[], s.store, ?_, ?_⟩ <;>
        simp only [enter, run_bind, run_get, hl', hh, ne_eq, not_true_eq_false, if_false, run_pure]
      · exact .live hl hh
      · exact log_does _ s
    · obtain ⟨r, hr⟩ := release_does eng p.handle "duplicate add" s
      refine ⟨[.perform .dropTorrent p.handle r], s.store, ?_, ?_⟩ <;>
        simp only [enter, run_bind, run_get, hl', hh, ne_eq, not_false_eq_true, if_true, run_pure]
      · exact .duplicate hl hh
      · exact hr.store ▸ hr.trans (log_does _ _)
  | none =>
    have hl' : s.store.get? (eng.torrent s.engine p.handle).infoHash = none := hl
    rcases hd : (perform eng .downloadAll p.handle).run s with ⟨r, t⟩
    have hp := perform_does hd
    cases r with
    | error e =>
      refine ⟨[.perform .downloadAll p.handle (.error e)], s.store, ?_, ?_⟩ <;>
        simp only [enter, run_bind, run_get, hl', hd, run_pure]
      · exact .unstarted hl
      · exact hp
    | ok u =>
      refine ⟨[.perform .downloadAll p.handle (.ok ())],
        s.store.put (eng.hash s.engine p.handle) (fresh p.handle p.magnet now), ?_, ?_⟩ <;>
        simp only [enter, run_bind, run_get, run_modify, hl', hd, run_pure]
      · exact .stored hl
      · exact hp.store ▸ (hp.put _).trans (log_does _ _)

variable (eng) in
/-- Ending an add whose torrent was not started is one call. -/
theorem abandon_does (p : Pending) (e : Error) (s : Sessions σ) :
    ∃ r, Does eng s [.perform .dropTorrent p.handle r] s.store ((abandon eng p e).run s).2 :=
  release_does eng p.handle "start failure" s

/-! ## The other sections -/

variable (eng) in
/-- **Looking at one transfer** finds nothing, or samples the session and shows it. -/
theorem get?_cases (id : InfoHash) (now : Int) (s : Sessions σ) :
    s.store.get? id = none ∧ (get? eng id now).run s = (.error (notFound id), s)
      ∨ ∃ session, s.store.get? id = some session
        ∧ (get? eng id now).run s
          = (.ok ((session.sampled (eng.torrent s.engine session.handle) now).view
              (eng.torrent s.engine session.handle) id),
            ⟨s.engine,
              s.store.put id (session.sampled (eng.torrent s.engine session.handle) now),
              s.events⟩) := by
  rw [get?, run_bind, run_get]
  cases hs : s.store.get? id with
  | none => exact .inl ⟨rfl, rfl⟩
  | some session => exact .inr ⟨session, rfl, rfl⟩

variable (eng) in
/-- Looking at one transfer makes no call and changes no handle. -/
theorem get?_does (id : InfoHash) (now : Int) (s : Sessions σ) :
    ∃ store, held store = held s.store ∧ Does eng s [] store ((get? eng id now).run s).2 := by
  obtain ⟨-, he⟩ | ⟨session, hs, he⟩ := get?_cases eng id now s
  · rw [he]
    exact ⟨s.store, rfl, .refl s⟩
  · rw [he]
    have hh : (session.sampled (eng.torrent s.engine session.handle) now).handle = session.handle :=
      rfl
    exact ⟨_, held_put_of_get? hs hh, (Does.refl s).put _⟩

variable (eng) in
/-- Looking at all transfers makes no call and changes no handle. -/
theorem list_does (now : Int) (s : Sessions σ) :
    ∃ store, held store = held s.store ∧ Does eng s [] store ((list eng now).run s).2 :=
  ⟨s.store.mapValues fun _ session => session.sampled (eng.torrent s.engine session.handle) now,
    held_mapValues fun _ _ => rfl, (Does.refl s).put _⟩

variable (eng) in
/-- **A removal** finds nothing, is refused by the engine and keeps the session, or takes it
away. -/
theorem remove_cases (id : InfoHash) (s : Sessions σ) :
    s.store.get? id = none ∧ (remove eng id).run s = (.error (notFound id), s)
      ∨ ∃ session, s.store.get? id = some session
        ∧ ((∃ e, ((remove eng id).run s).1 = .error e
            ∧ Does eng s [.perform .dropTorrent session.handle (.error e)] s.store
              ((remove eng id).run s).2)
          ∨ ((remove eng id).run s).1 = .ok ()
            ∧ Does eng s [.perform .dropTorrent session.handle (.ok ())] (s.store.erase id)
              ((remove eng id).run s).2) := by
  rw [remove, run_bind, run_get]
  cases hs : s.store.get? id with
  | none => exact .inl ⟨rfl, rfl⟩
  | some session =>
    refine .inr ⟨session, rfl, ?_⟩
    rcases hd : (perform eng .dropTorrent session.handle).run s with ⟨r, t⟩
    have hp := perform_does hd
    simp only [run_bind, hd]
    cases r with
    | error e => exact .inl ⟨e, rfl, hp⟩
    | ok u => exact .inr ⟨rfl, hp.store ▸ (hp.put _).trans (log_does _ _)⟩

variable (eng) in
/-- **Pausing or resuming** finds nothing, is refused by the engine, or sets the flag of the
session. -/
theorem switch_cases (op : Operation) (paused : Bool) (message : String) (id : InfoHash)
    (s : Sessions σ) :
    s.store.get? id = none
        ∧ (switch eng op paused message id).run s = (.error (notFound id), s)
      ∨ ∃ session, s.store.get? id = some session
        ∧ ((∃ e, ((switch eng op paused message id).run s).1 = .error e
            ∧ Does eng s [.perform op session.handle (.error e)] s.store
              ((switch eng op paused message id).run s).2)
          ∨ ((switch eng op paused message id).run s).1 = .ok ()
            ∧ Does eng s [.perform op session.handle (.ok ())]
              (s.store.put id { session with paused })
              ((switch eng op paused message id).run s).2) := by
  rw [switch, run_bind, run_get]
  cases hs : s.store.get? id with
  | none => exact .inl ⟨rfl, rfl⟩
  | some session =>
    refine .inr ⟨session, rfl, ?_⟩
    rcases hd : (perform eng op session.handle).run s with ⟨r, t⟩
    have hp := perform_does hd
    simp only [run_bind, hd]
    cases r with
    | error e => exact .inl ⟨e, rfl, hp⟩
    | ok u => exact .inr ⟨rfl, hp.store ▸ (hp.put _).trans (log_does _ _)⟩

variable (eng) in
/-- Tearing a session down takes it out of the store and is one call. -/
theorem tearDown_does (entry : InfoHash × Session) (s : Sessions σ) :
    ∃ r, Does eng s [.perform .dropTorrent entry.2.handle r] (s.store.erase entry.1)
      ((tearDown eng entry).run s).2 := by
  have he := (Does.refl s : Does eng s [] s.store s).put (s.store.erase entry.1)
  rw [tearDown, run_bind, run_modify, run_bind]
  rcases hd : (perform eng .dropTorrent entry.2.handle).run
    { s with store := s.store.erase entry.1 } with ⟨r, t⟩
  have hp := he.trans (perform_does hd)
  cases r with
  | error e => exact ⟨_, hp.store ▸ hp.trans (log_does _ t)⟩
  | ok u => exact ⟨_, hp⟩

/-! ## What a step can do -/

/-- **How an add that got a torrent moves on**: by which step, from which stage, with which calls,
and to which stage; and the lock and the store it leaves. -/
inductive Move (eng : Engine σ) (c : Concurrent σ) (i : Nat) (p : Pending) :
    Action → Stage → List Call → Stage → Option Holder → Store → Prop
  /-- Its wait ends. -/
  | resolved {w : Waited} :
    Move eng c i p (.resolve i w) .waiting [] (.waited w) c.lock c.sessions.store
  /-- Without metadata it discards its torrent, whoever has the store. -/
  | gaveUp {now : Int} {w : Waited} {e : Error} {r : Except Error Unit} (hw : w ≠ .ready) :
    Move eng c i p (.conclude i now) (.waited w) [.perform .dropTorrent p.handle r]
      (.ended (.error e)) c.lock c.sessions.store
  /-- It ends while it has the store. -/
  | entered {now : Int} {id : InfoHash} {calls : List Call} {store : Store} (hl : c.lock = none)
      (hx : Entered eng c.sessions p now (.ok id) calls store) :
    Move eng c i p (.conclude i now) (.waited .ready) calls (.ended (.ok id)) c.lock store
  /-- The engine refuses to start its torrent. -/
  | failed {now : Int} {e : Error} (hl : c.lock = none)
      (hs : c.sessions.store.get? (eng.hash c.sessions.engine p.handle) = none) :
    Move eng c i p (.conclude i now) (.waited .ready) [.perform .downloadAll p.handle (.error e)]
      (.failed e) (some (.add i)) c.sessions.store
  /-- It discards the torrent that was not started. -/
  | abandoned {now : Int} {e : Error} {r : Except Error Unit} :
    Move eng c i p (.conclude i now) (.failed e) [.perform .dropTorrent p.handle r]
      (.ended (.error e)) none c.sessions.store

/-- **Everything a step can do**: its calls of the engine, and the adds, the lock and the store it
leaves. -/
inductive Effect (eng : Engine σ) (c : Concurrent σ) :
    Action → List Call → List Adding → Option Holder → Store → Prop
  /-- It makes no call and touches no handle. -/
  | idle {a : Action} {store : Store} (hs : held store = held c.sessions.store) :
    Effect eng c a [] c.adds c.lock store
  /-- The engine refuses a magnet. -/
  | refused {magnet m : String} {e : Error} :
    Effect eng c (.begin magnet) [.add m (.error e)] c.adds c.lock c.sessions.store
  /-- An add gets a torrent. -/
  | begun {magnet : String} {p : Pending} :
    Effect eng c (.begin magnet) [.add p.magnet (.ok p.handle)] (c.adds ++ [⟨p, .waiting⟩])
      c.lock c.sessions.store
  /-- An add moves on. -/
  | moved {a : Action} {i : Nat} {p : Pending} {st st' : Stage} {calls : List Call}
      {lock : Option Holder} {store : Store} (hi : c.adds[i]? = some ⟨p, st⟩)
      (hm : Move eng c i p a st calls st' lock store) :
    Effect eng c a calls (c.adds.set i ⟨p, st'⟩) lock store
  /-- The engine refuses to discard a session's torrent. -/
  | kept {id : InfoHash} {session : Session} {e : Error} (hl : c.lock = none)
      (hs : c.sessions.store.get? id = some session) :
    Effect eng c (.remove id) [.perform .dropTorrent session.handle (.error e)] c.adds c.lock
      c.sessions.store
  /-- A session is removed. -/
  | removed {id : InfoHash} {session : Session} (hl : c.lock = none)
      (hs : c.sessions.store.get? id = some session) :
    Effect eng c (.remove id) [.perform .dropTorrent session.handle (.ok ())] c.adds c.lock
      (c.sessions.store.erase id)
  /-- A session is paused or resumed, unless the engine refuses. -/
  | switched {a : Action} {id : InfoHash} {session : Session} {op : Operation}
      {r : Except Error Unit} {store : Store} (ha : a = .pause id ∨ a = .resume id)
      (hl : c.lock = none) (ho : op ≠ .dropTorrent)
      (hs : c.sessions.store.get? id = some session)
      (hh : held store = held c.sessions.store) :
    Effect eng c a [.perform op session.handle r] c.adds c.lock store
  /-- The shutdown takes a session out of the store and discards its torrent. -/
  | tornDown {order : Order} {id : InfoHash} {session : Session} {r : Except Error Unit}
      {count : Nat} (hl : ∀ i, c.lock ≠ some (.add i))
      (hs : c.sessions.store.get? id = some session) :
    Effect eng c (.shutdown order) [.perform .dropTorrent session.handle r] c.adds
      (some (.shutdown count)) (c.sessions.store.erase id)
  /-- The shutdown is over. -/
  | cleared {order : Order} (hl : ∀ i, c.lock ≠ some (.add i)) :
    Effect eng c (.shutdown order) [] c.adds none c.sessions.store

/-- What a step does: one of the effects. -/
def Acts (eng : Engine σ) (c : Concurrent σ) (a : Action) (c' : Concurrent σ) : Prop :=
  ∃ calls store, Effect eng c a calls c'.adds c'.lock store
    ∧ Does eng c.sessions calls store c'.sessions

variable {c : Concurrent σ} {a : Action}

/-- Standing still is an effect. -/
theorem Acts.refl : Acts eng c a c := ⟨[], c.sessions.store, .idle rfl, .refl _⟩

/-- An activity that needs the store stands still while someone has it. -/
theorem Acts.exclusively {α : Type} {m : Managed σ α}
    (h : c.lock = none → Acts eng c a (c.perform m)) : Acts eng c a (c.exclusively m) := by
  rw [Concurrent.exclusively]
  cases hl : c.lock with
  | none => exact h hl
  | some _ => exact .refl

/-- The step in which an add without metadata ends. -/
theorem giveUp_acts {i : Nat} {p : Pending} {w : Waited} (now : Int)
    (hi : c.adds[i]? = some ⟨p, .waited w⟩) (hw : w ≠ .ready) :
    Acts eng c (.conclude i now)
      ({ c with sessions := ((Session.conclude eng p w now).run c.sessions).2 }.advance i p
        (.ended ((Session.conclude eng p w now).run c.sessions).1)) := by
  obtain ⟨e, r, he, hd⟩ := giveUp_does eng p hw now c.sessions
  rw [he]
  exact ⟨_, _, .moved hi (.gaveUp hw), hd⟩

variable (eng) in
/-- The step that concludes an add. -/
theorem conclude_acts (c : Concurrent σ) (i : Nat) (now : Int) :
    Acts eng c (.conclude i now) (c.conclude eng i now) := by
  rw [Concurrent.conclude]
  rcases hi : c.adds[i]? with _ | ⟨p, _ | (_ | e | _) | e | r⟩
  case some.waited.ready =>
    cases hl : c.lock with
    | some _ => exact .refl
    | none =>
      obtain ⟨calls, store, hx, hd⟩ := enter_does eng p now c.sessions
      rcases hr : (enter eng p now).run c.sessions with ⟨r, t⟩
      rw [hr] at hx hd
      simp only [hr]
      cases r with
      | ok id =>
        have he := Effect.moved hi (.entered hl hx)
        rw [hl] at he
        exact ⟨calls, store, he, hd⟩
      | error e =>
        cases hx with
        | unstarted hs => exact ⟨_, _, .moved hi (.failed hl hs), hd⟩
  case some.waited.failed => exact giveUp_acts now hi nofun
  case some.waited.timedOut => exact giveUp_acts now hi nofun
  case some.failed =>
    obtain ⟨r, hd⟩ := abandon_does eng p e c.sessions
    exact ⟨_, _, .moved hi .abandoned, hd⟩
  all_goals exact .refl

/-- The step that pauses or resumes a session. -/
theorem switch_acts {id : InfoHash} {op : Operation} (paused : Bool) (message : String)
    (ha : a = .pause id ∨ a = .resume id) (ho : op ≠ .dropTorrent) (hl : c.lock = none) :
    Acts eng c a (c.perform (switch eng op paused message id)) := by
  obtain ⟨-, he⟩ | ⟨session, hs, ⟨e, -, hd⟩ | ⟨-, hd⟩⟩ :=
    switch_cases eng op paused message id c.sessions
  · rw [Concurrent.perform, he]
    exact .refl
  · exact ⟨_, _, .switched ha hl ho hs rfl, hd⟩
  · have hh : held (c.sessions.store.put id { session with paused }) = held c.sessions.store :=
      held_put_of_get? hs rfl
    exact ⟨_, _, .switched ha hl ho hs hh, hd⟩

variable (eng) in
/-- A step of the shutdown. -/
theorem tearDown_acts (c : Concurrent σ) (order : Order) (count : Nat)
    (hl : ∀ i, c.lock ≠ some (.add i)) :
    Acts eng c (.shutdown order) (c.tearDown eng order count) := by
  rw [Concurrent.tearDown]
  cases he : order.met c.sessions.store with
  | nil => exact ⟨[], _, .cleared hl, log_does _ _⟩
  | cons entry es =>
    obtain ⟨r, hd⟩ := tearDown_does eng entry c.sessions
    have hs := order.mem_met_iff.mp (he ▸ List.mem_cons_self)
    exact ⟨_, _, .tornDown hl hs, hd⟩

variable (eng) in
/-- **A step has one of the effects.** -/
theorem step_acts (c : Concurrent σ) (a : Action) : Acts eng c a (c.step eng a) := by
  cases a with
  | begin magnet =>
    obtain ⟨-, he⟩ | ⟨-, r, t, he, -, hd⟩ := begin_cases eng magnet c.sessions
    · simp only [Concurrent.step, he]
      exact .refl
    · simp only [Concurrent.step, he]
      cases r with
      | error e => exact ⟨_, _, .refused, hd⟩
      | ok h => exact ⟨_, _, .begun (p := ⟨h, _⟩), hd⟩
  | resolve i w =>
    rw [Concurrent.step]
    rcases hi : c.adds[i]? with _ | ⟨p, _ | w' | e | r⟩
    case some.waiting => exact ⟨[], _, .moved hi .resolved, resolve_does p w c.sessions⟩
    all_goals exact .refl
  | conclude i now => exact conclude_acts eng c i now
  | get id now =>
    refine .exclusively fun _ => ?_
    obtain ⟨store, hs, hd⟩ := get?_does eng id now c.sessions
    exact ⟨[], store, .idle hs, hd⟩
  | list now =>
    refine .exclusively fun _ => ?_
    obtain ⟨store, hs, hd⟩ := list_does eng now c.sessions
    exact ⟨[], store, .idle hs, hd⟩
  | remove id =>
    refine .exclusively fun hl => ?_
    obtain ⟨-, he⟩ | ⟨session, hs, ⟨e, -, hd⟩ | ⟨-, hd⟩⟩ := remove_cases eng id c.sessions
    · rw [Concurrent.perform, he]
      exact .refl
    · exact ⟨_, _, .kept hl hs, hd⟩
    · exact ⟨_, _, .removed hl hs, hd⟩
  | pause id =>
    exact .exclusively (switch_acts true "Transfer paused" (.inl rfl) (by decide))
  | resume id =>
    exact .exclusively (switch_acts false "Transfer resumed" (.inr rfl) (by decide))
  | shutdown order =>
    rw [Concurrent.step]
    rcases hl : c.lock with _ | i | count
    · exact tearDown_acts eng c order _ (by simp [hl])
    · exact .refl
    · exact tearDown_acts eng c order count (by simp [hl])

/-! ## Steps that nothing comes between -/

/-- **An add whose steps nothing comes between is an add**: once it is over, it left what `conclude`
leaves. -/
theorem step_conclude_twice {i : Nat} {p : Pending} (hi : c.adds[i]? = some ⟨p, .waited .ready⟩)
    (hl : c.lock = none) (now now' : Int) :
    ((c.step eng (.conclude i now)).step eng (.conclude i now')).sessions
      = ((Session.conclude eng p .ready now).run c.sessions).2 := by
  obtain ⟨hlt, -⟩ := List.getElem?_eq_some_iff.mp hi
  rcases hr : (enter eng p now).run c.sessions with ⟨e | id, t⟩
  · have h₁ : c.step eng (.conclude i now)
        = { c with sessions := t, lock := some (.add i) }.advance i p (.failed e) := by
      simp only [Concurrent.step, Concurrent.conclude, hi, hl, hr]
    have h₂ : (c.step eng (.conclude i now)).adds[i]? = some ⟨p, .failed e⟩ := by
      rw [h₁]
      exact List.getElem?_set_self hlt
    simp only [Session.conclude, commit, run_bind, hr]
    rw [Concurrent.step, Concurrent.conclude, h₂, h₁]
    rfl
  · have h₁ : c.step eng (.conclude i now)
        = { c with sessions := t }.advance i p (.ended (.ok id)) := by
      simp only [Concurrent.step, Concurrent.conclude, hi, hl, hr]
    have h₂ : (c.step eng (.conclude i now)).adds[i]? = some ⟨p, .ended (.ok id)⟩ := by
      rw [h₁]
      exact List.getElem?_set_self hlt
    simp only [Session.conclude, commit, run_bind, hr]
    rw [Concurrent.step, Concurrent.conclude, h₂, h₁]
    rfl

variable {order : Order} (ho : order.Steady)

include ho

variable (eng) in
/-- The steps of a shutdown that found so many sessions tear down those that are left. -/
theorem run_replicate_shutdown {n : Nat} (hl : c.lock = some (.shutdown n)) :
    (c.run eng (.replicate (c.sessions.store.size + 1) (.shutdown order))).sessions
      = ((cleared n).run
          (((order.met c.sessions.store).forM (tearDown eng)).run c.sessions).2).2 := by
  rw [← order.length_met]
  generalize he : order.met c.sessions.store = entries
  induction entries generalizing c with
  | nil =>
    simp only [List.length_nil, List.replicate_succ, List.replicate_zero, Concurrent.run,
      List.foldl_cons, List.foldl_nil, Concurrent.step, hl, Concurrent.tearDown, he]
    rfl
  | cons e es ih =>
    obtain ⟨r, hd⟩ := tearDown_does eng e c.sessions
    have hstep : c.step eng (.shutdown order)
        = { c.perform (tearDown eng e) with lock := some (.shutdown n) } := by
      simp only [Concurrent.step, hl, Concurrent.tearDown, he]
    have hs : order.met (c.step eng (.shutdown order)).sessions.store = es := by
      rw [hstep]
      exact (congrArg order.met hd.store).trans (ho _ _ _ he)
    rw [List.length_cons, List.replicate_succ]
    refine (ih (c := c.step eng (.shutdown order)) (by rw [hstep]) hs).trans ?_
    rw [hstep]
    rfl

/-- **A shutdown whose steps nothing comes between is a shutdown**, in the same order if that does
not change on the way. -/
theorem run_shutdown (hl : c.lock = none) :
    (c.run eng (.replicate (c.sessions.store.size + 1) (.shutdown order))).sessions
      = ((shutdown eng order).run c.sessions).2 := by
  let c' : Concurrent σ := { c with lock := some (.shutdown c.sessions.store.size) }
  have hs : c'.step eng (.shutdown order) = c.step eng (.shutdown order) := by
    simp only [c', Concurrent.step, hl]
    rw [Concurrent.tearDown, Concurrent.tearDown]
    cases order.met c.sessions.store <;> rfl
  have h := run_replicate_shutdown eng ho (c := c') rfl
  rw [List.replicate_succ] at h ⊢
  simp only [Concurrent.run, List.foldl_cons, hs] at h ⊢
  exact h

end Session

end HopTorrent
