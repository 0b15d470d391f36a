import HopTorrent.Proofs.Session.Sections
import Mathlib.Data.List.Forall2
import Mathlib.Logic.Function.Basic

/-!
# Proofs/Session/Book — the live transfers as a book of entries

To its users a live transfer is an entry: a handle, a magnet, a creation time and a pause flag.
Tasks are done one after another, and each reads or changes a book of such entries as `Serves` says:
what it answers, which calls it makes of the engine, and which book it leaves.  A task that fails
leaves the book as it was (`Serves.book_eq_of_error`).  The store is that book after every sequence
of tasks, whatever the engine does (`run_serves`).
-/

namespace HopTorrent

namespace Session

variable {σ : Type}

/-! ## Tasks -/

/-- What the manager can be asked to do. -/
inductive Task where
  | add (magnet : String)
  | get (id : InfoHash)
  | list
  | remove (id : InfoHash)
  | pause (id : InfoHash)
  | resume (id : InfoHash)
  | shutdown (order : Order)

/-- What the manager answers. -/
inductive Answer where
  | added (r : Except Error InfoHash)
  | shown (r : Except Error Snapshot)
  | listed (views : List Snapshot)
  | did (r : Except Error Unit)
  | tornDown (count : Nat)

/-- The error in an answer. -/
def Answer.error? : Answer → Option Error
  | added (.error e) | shown (.error e) | did (.error e) => some e
  | _ => none

/-- Does a task. -/
def Task.perform (eng : Engine σ) (timeout : Nat) (now : Int) : Task → Managed σ Answer
  | .add magnet => do return .added (← Session.add eng timeout magnet now).1
  | .get id => do return .shown (← Session.get? eng id now)
  | .list => do return .listed (← Session.list eng now)
  | .remove id => do return .did (← Session.remove eng id)
  | .pause id => do return .did (← Session.pause eng id)
  | .resume id => do return .did (← Session.resume eng id)
  | .shutdown order => do return .tornDown (← Session.shutdown eng order)

/-- A task at a time.  Until then the engine may have moved on by itself. -/
structure Job (σ : Type) where
  task : Task
  now : Int
  meanwhile : σ → σ

/-- The state in which a job finds the manager. -/
def Job.before (job : Job σ) (s : Sessions σ) : Sessions σ :=
  { s with engine := job.meanwhile s.engine }

/-- What a job answers, and the state it leaves. -/
def Job.run (eng : Engine σ) (timeout : Nat) (job : Job σ) (s : Sessions σ) :
    Answer × Sessions σ :=
  (job.task.perform eng timeout job.now).run (job.before s)

/-- The state after some jobs, begun without live transfers. -/
def after (eng : Engine σ) (timeout : Nat) (s₀ : σ) (jobs : List (Job σ)) : Sessions σ :=
  jobs.foldl (fun s job => (job.run eng timeout s).2) (.initial s₀)

/-! ## The book -/

/-- A live transfer, but for the sample of its rates. -/
structure Entry where
  handle : Handle
  magnet : String
  createdAt : Int
  paused : Bool

/-- The entry of a session. -/
def entry (session : Session) : Entry :=
  ⟨session.handle, session.magnet, session.createdAt, session.paused⟩

/-- The entries of the live transfers. -/
abbrev Book := InfoHash → Option Entry

/-- The book that a store keeps. -/
def book (store : Store) : Book := fun id => (store.get? id).map entry

/-- Why a wait for metadata was in vain. -/
def Waited.failure? : Waited → Option Error
  | .ready => none
  | .failed e => some e
  | .timedOut => some .metadataTimeout

/-- The engine gives a handle for a magnet that is not blank. -/
def Gives (eng : Engine σ) (e₀ : σ) (magnet : String) (h : Handle) (e : σ) : Prop :=
  (Text.trim magnet).isEmpty = false ∧ eng.addMagnet (Text.trim magnet) e₀ = (.ok h, e)

/-- How the wait for the metadata of a handle ends. -/
def waitedFor (eng : Engine σ) (timeout : Nat) (e : σ) (h : Handle) : Waited :=
  (waitAtMost timeout (eng.metadata e h)).2

/-- The operation that a task on one transfer asks of the engine, and the entry it leaves if the
engine does it. -/
def Task.change? : Task → Option (InfoHash × Operation × (Entry → Option Entry))
  | .remove id => some (id, .dropTorrent, fun _ => none)
  | .pause id => some (id, .cancelPieces, fun entry => some { entry with paused := true })
  | .resume id => some (id, .downloadAll, fun entry => some { entry with paused := false })
  | _ => none

/-- A snapshot shows an entry. -/
def Shows (view : Snapshot) (id : InfoHash) (entry : Entry) : Prop :=
  view.infoHash = id ∧ view.magnet = entry.magnet ∧ view.createdAt = entry.createdAt

/-- **What a task does to a book**, with its answer and its calls of the engine, which is in a state
`e₀` at first. -/
inductive Serves (eng : Engine σ) (timeout : Nat) (now : Int) (e₀ : σ) (b : Book) :
    Task → Answer → List Call → Book → Prop
  /-- A blank magnet is refused without asking the engine. -/
  | blank {magnet : String} (hm : (Text.trim magnet).isEmpty = true) :
    Serves eng timeout now e₀ b (.add magnet)
      (.added (.error (.validation "magnet URI is required"))) [] b
  /-- The engine refuses a magnet. -/
  | refused {magnet : String} {e : Error} (hm : (Text.trim magnet).isEmpty = false)
      (ha : (eng.addMagnet (Text.trim magnet) e₀).1 = .error e) :
    Serves eng timeout now e₀ b (.add magnet) (.added (.error e))
      [.add (Text.trim magnet) (.error e)] b
  /-- The metadata fails or does not come in time: the torrent is discarded. -/
  | gaveUp {magnet : String} {h : Handle} {e₁ : σ} {e : Error} {r : Except Error Unit}
      (hg : Gives eng e₀ magnet h e₁) (hw : (waitedFor eng timeout e₁ h).failure? = some e) :
    Serves eng timeout now e₀ b (.add magnet) (.added (.error e))
      [.add (Text.trim magnet) (.ok h), .perform .dropTorrent h r] b
  /-- The transfer has an entry, under the same handle. -/
  | live {magnet : String} {h : Handle} {e₁ : σ} {entry : Entry}
      (hg : Gives eng e₀ magnet h e₁) (hw : (waitedFor eng timeout e₁ h).failure? = none)
      (hb : b (eng.hash e₁ h) = some entry) (hh : entry.handle = h) :
    Serves eng timeout now e₀ b (.add magnet) (.added (.ok (eng.hash e₁ h)))
      [.add (Text.trim magnet) (.ok h)] b
  /-- The transfer has an entry, under another handle: this torrent is discarded. -/
  | duplicate {magnet : String} {h : Handle} {e₁ : σ} {entry : Entry} {r : Except Error Unit}
      (hg : Gives eng e₀ magnet h e₁) (hw : (waitedFor eng timeout e₁ h).failure? = none)
      (hb : b (eng.hash e₁ h) = some entry) (hh : entry.handle ≠ h) :
    Serves eng timeout now e₀ b (.add magnet) (.added (.ok (eng.hash e₁ h)))
      [.add (Text.trim magnet) (.ok h), .perform .dropTorrent h r] b
  /-- The engine refuses to start a torrent: it is discarded. -/
  | unstarted {magnet : String} {h : Handle} {e₁ : σ} {e : Error} {r : Except Error Unit}
      (hg : Gives eng e₀ magnet h e₁) (hw : (waitedFor eng timeout e₁ h).failure? = none)
      (hb : b (eng.hash e₁ h) = none) :
    Serves eng timeout now e₀ b (.add magnet) (.added (.error e))
      [.add (Text.trim magnet) (.ok h), .perform .downloadAll h (.error e),
        .perform .dropTorrent h r] b
  /-- A torrent is started, and gets an entry. -/
  | entered {magnet : String} {h : Handle} {e₁ : σ}
      (hg : Gives eng e₀ magnet h e₁) (hw : (waitedFor eng timeout e₁ h).failure? = none)
      (hb : b (eng.hash e₁ h) = none) :
    Serves eng timeout now e₀ b (.add magnet) (.added (.ok (eng.hash e₁ h)))
      [.add (Text.trim magnet) (.ok h), .perform .downloadAll h (.ok ())]
      (Function.update b (eng.hash e₁ h) (some ⟨h, Text.trim magnet, now, false⟩))
  /-- An entry is shown. -/
  | shown {id : InfoHash} {entry : Entry} {view : Snapshot} (hb : b id = some entry)
      (hv : Shows view id entry) :
    Serves eng timeout now e₀ b (.get id) (.shown (.ok view)) [] b
  /-- Nothing is shown without an entry. -/
  | unseen {id : InfoHash} (hb : b id = none) :
    Serves eng timeout now e₀ b (.get id) (.shown (.error (notFound id))) [] b
  /-- Every entry is shown once. -/
  | listed {views : List Snapshot} (hn : (views.map Snapshot.infoHash).Nodup)
      (hv : ∀ view ∈ views, ∃ entry, b view.infoHash = some entry
        ∧ Shows view view.infoHash entry)
      (ha : ∀ id, b id ≠ none → id ∈ views.map Snapshot.infoHash) :
    Serves eng timeout now e₀ b .list (.listed views) [] b
  /-- Nothing is changed without an entry, and the engine is not asked. -/
  | absent {task : Task} {id : InfoHash} {op : Operation} {f : Entry → Option Entry}
      (ht : task.change? = some (id, op, f)) (hb : b id = none) :
    Serves eng timeout now e₀ b task (.did (.error (notFound id))) [] b
  /-- The engine refuses to do its part: the entry is kept. -/
  | kept {task : Task} {id : InfoHash} {op : Operation} {f : Entry → Option Entry} {entry : Entry}
      {e : Error} (ht : task.change? = some (id, op, f)) (hb : b id = some entry) :
    Serves eng timeout now e₀ b task (.did (.error e)) [.perform op entry.handle (.error e)] b
  /-- The engine does its part: the entry is changed, and no other one. -/
  | changed {task : Task} {id : InfoHash} {op : Operation} {f : Entry → Option Entry}
      {entry : Entry} (ht : task.change? = some (id, op, f)) (hb : b id = some entry) :
    Serves eng timeout now e₀ b task (.did (.ok ())) [.perform op entry.handle (.ok ())]
      (Function.update b id (f entry))
  /-- The torrent of every entry is discarded by one call, whatever that comes to, and no entry
  stays. -/
  | tornDown {order : Order} {entries : List (InfoHash × Entry)} {calls : List Call}
      (hn : (entries.map Prod.fst).Nodup)
      (hb : ∀ id entry, (id, entry) ∈ entries ↔ b id = some entry)
      (hc : List.Forall₂ (fun e c => ∃ r, c = .perform .dropTorrent e.2.handle r) entries calls) :
    Serves eng timeout now e₀ b (.shutdown order) (.tornDown entries.length) calls fun _ => none

variable {eng : Engine σ} {timeout : Nat} {now : Int} {e₀ : σ} {b b' : Book} {task : Task}
  {a : Answer} {calls : List Call}

/-- **A task that fails leaves the book as it was.** -/
theorem Serves.book_eq_of_error (h : Serves eng timeout now e₀ b task a calls b') {e : Error}
    (he : a.error? = some e) : b' = b := by
  cases h with
  | blank | refused | gaveUp | live | duplicate | unstarted | shown | unseen | listed | absent
  | kept => rfl
  | entered | changed | tornDown => cases he

/-- The transfer that an add answers with has an entry. -/
theorem Serves.ne_none_of_added {magnet : String} {id : InfoHash}
    (h : Serves eng timeout now e₀ b (.add magnet) (.added (.ok id)) calls b') : b' id ≠ none := by
  cases h with
  | live hg hw hb | duplicate hg hw hb => exact fun hn => nomatch hn.symm.trans hb
  | entered => simp

/-- A magnet that is blank, or an identifier that has no entry. -/
def Idle (b : Book) : Task → Prop
  | .add magnet => (Text.trim magnet).isEmpty = true
  | .get id | .remove id | .pause id | .resume id => b id = none
  | .list | .shutdown _ => False

/-- **Nothing is asked of the engine for a blank magnet or a missing entry**, and the answer says
what is wrong. -/
theorem Serves.of_idle (h : Serves eng timeout now e₀ b task a calls b') (hi : Idle b task) :
    calls = [] ∧ (a.error? = some (.validation "magnet URI is required")
      ∨ ∃ id, a.error? = some (notFound id)) := by
  cases h with
  | blank => exact ⟨rfl, .inl rfl⟩
  | unseen => exact ⟨rfl, .inr ⟨_, rfl⟩⟩
  | absent => exact ⟨rfl, .inr ⟨_, rfl⟩⟩
  | refused hm => exact absurd (hi.symm.trans hm) nofun
  | gaveUp hg | live hg | duplicate hg | unstarted hg | entered hg =>
    exact absurd (hi.symm.trans hg.1) nofun
  | shown hb => exact absurd (hi.symm.trans hb) nofun
  | listed | tornDown => cases hi
  | kept ht hb | changed ht hb =>
    cases task <;> cases ht <;> exact absurd (hi.symm.trans hb) nofun

/-! ## The store keeps the book -/

theorem book_put (store : Store) (id : InfoHash) (session : Session) :
    book (store.put id session) = Function.update (book store) id (some (entry session)) := by
  funext j
  rw [book, Table.get?_put, Function.update_apply]
  split <;> rfl

theorem book_erase (store : Store) (id : InfoHash) :
    book (store.erase id) = Function.update (book store) id none := by
  funext j
  rw [book, Table.get?_erase, Function.update_apply]
  split <;> rfl

/-- Replacing a session by one with the same entry changes no entry. -/
theorem book_put_of_get? {store : Store} {id : InfoHash} {session session' : Session}
    (hs : store.get? id = some session) (he : entry session' = entry session) :
    book (store.put id session') = book store := by
  rw [book_put, he, Function.update_eq_self_iff, book, hs]
  rfl

/-- Changing samples alone changes no entry. -/
theorem book_mapValues {store : Store} {f : InfoHash → Session → Session}
    (hf : ∀ id session, entry (f id session) = entry session) :
    book (store.mapValues f) = book store := by
  funext j
  rw [book, Table.get?_mapValues, Option.map_map, book]
  congr 1
  funext session
  exact hf j session

theorem book_of_get? {store : Store} {id : InfoHash} {session : Session}
    (hs : store.get? id = some session) : book store id = some (entry session) := by
  rw [book, hs]
  rfl

theorem book_of_get?_none {store : Store} {id : InfoHash} (hs : store.get? id = none) :
    book store id = none := by
  rw [book, hs]
  rfl

variable {s : Sessions σ}

/-- What is left of an add once its metadata is there. -/
theorem commit_serves (timeout : Nat) (now : Int) {magnet : String} {h : Handle} {t : Sessions σ}
    (hg : Gives eng e₀ magnet h t.engine)
    (hw : (waitedFor eng timeout t.engine h).failure? = none) :
    ∃ calls store, Serves eng timeout now e₀ (book t.store) (.add magnet)
        (.added ((commit eng ⟨h, Text.trim magnet⟩ now).run t).1)
        (.add (Text.trim magnet) (.ok h) :: calls) (book store)
      ∧ Does eng t calls store ((commit eng ⟨h, Text.trim magnet⟩ now).run t).2 := by
  obtain ⟨calls, store, hx, hd⟩ := enter_does eng ⟨h, Text.trim magnet⟩ now t
  rcases hr : (enter eng ⟨h, Text.trim magnet⟩ now).run t with ⟨r, u⟩
  rw [hr] at hx hd
  rw [commit, run_bind, hr]
  cases hx with
  | live hl hh => exact ⟨_, _, .live hg hw (book_of_get? hl) hh, hd⟩
  | duplicate hl hh => exact ⟨_, _, .duplicate hg hw (book_of_get? hl) hh, hd⟩
  | stored hl =>
    refine ⟨_, _, ?_, hd⟩
    rw [book_put]
    exact .entered hg hw (book_of_get?_none hl)
  | unstarted hl =>
    obtain ⟨r, ha⟩ := abandon_does eng ⟨h, Text.trim magnet⟩ _ u
    rw [hd.store] at ha
    exact ⟨_, _, .unstarted hg hw (book_of_get?_none hl), hd.trans ha⟩

/-- What is left of an add once it has a torrent. -/
theorem settle_serves (timeout : Nat) (now : Int) {magnet : String} {h : Handle} {t : Sessions σ}
    (hg : Gives eng e₀ magnet h t.engine) :
    ∃ calls store, Serves eng timeout now e₀ (book t.store) (.add magnet)
        (.added ((settle eng ⟨h, Text.trim magnet⟩ (waitedFor eng timeout t.engine h) now).run t).1)
        (.add (Text.trim magnet) (.ok h) :: calls) (book store)
      ∧ Does eng t calls store
        ((settle eng ⟨h, Text.trim magnet⟩ (waitedFor eng timeout t.engine h) now).run t).2 := by
  have hres : Does eng t [] t.store _ :=
    resolve_does ⟨h, Text.trim magnet⟩ (waitedFor eng timeout t.engine h) t
  have heng : ∀ w, ((resolve ⟨h, Text.trim magnet⟩ w).run t).2.engine = t.engine := by
    rintro (_ | _ | _) <;> rfl
  rw [settle, run_bind]
  cases hw : waitedFor eng timeout t.engine h with
  | ready =>
    rw [hw] at hres
    have hg' : Gives eng e₀ magnet h ((resolve ⟨h, Text.trim magnet⟩ .ready).run t).2.engine :=
      heng .ready ▸ hg
    obtain ⟨calls, store, hc, hd⟩ := commit_serves timeout now hg' (by rw [heng, hw]; rfl)
    rw [hres.store] at hc
    exact ⟨calls, store, hc, hres.trans hd⟩
  | failed e =>
    rw [hw] at hres
    obtain ⟨r, hd⟩ := release_does eng h "metadata failure"
      ((resolve ⟨h, Text.trim magnet⟩ (.failed e)).run t).2
    rw [hres.store] at hd
    exact ⟨_, _, .gaveUp hg (by rw [hw]; rfl), hres.trans hd⟩
  | timedOut =>
    rw [hw] at hres
    obtain ⟨r, hd⟩ := release_does eng h "metadata timeout"
      ((resolve ⟨h, Text.trim magnet⟩ .timedOut).run t).2
    rw [hres.store] at hd
    exact ⟨_, _, .gaveUp hg (by rw [hw]; rfl), hres.trans (hd.store ▸ hd.trans (log_does _ _))⟩

/-- **An add serves the book.** -/
theorem add_serves (eng : Engine σ) (timeout : Nat) (now : Int) (magnet : String)
    (s : Sessions σ) :
    ∃ calls store, Serves eng timeout now s.engine (book s.store) (.add magnet)
        (.added ((add eng timeout magnet now).run s).1.1) calls (book store)
      ∧ Does eng s calls store ((add eng timeout magnet now).run s).2 := by
  rw [add, run_bind]
  obtain ⟨hm, he⟩ | ⟨hm, r, t, he, ha, hd⟩ := begin_cases eng magnet s
  · rw [he]
    exact ⟨_, _, .blank hm, .refl s⟩
  · rw [he]
    cases r with
    | error e => exact ⟨_, _, .refused hm (congrArg Prod.fst ha), hd⟩
    | ok h =>
      obtain ⟨calls, store, hs, hd'⟩ := settle_serves timeout now ⟨hm, ha⟩
      rw [hd.store] at hs
      exact ⟨_, _, hs, hd.trans hd'⟩

/-- Erasing some keys one after another. -/
theorem get?_foldl_erase (es : List (InfoHash × Session)) (store : Store) (id : InfoHash) :
    (es.foldl (fun store e => store.erase e.1) store).get? id
      = if id ∈ es.map Prod.fst then none else store.get? id := by
  induction es generalizing store with
  | nil => simp
  | cons e es ih =>
    rw [List.foldl_cons, ih, Table.get?_erase, List.map_cons]
    by_cases he : id = e.1
    · simp [he]
    · have hm : id ∈ e.1 :: es.map Prod.fst ↔ id ∈ es.map Prod.fst := by simp [he]
      simp only [if_neg he, hm]

/-- Tearing some sessions down is one call for each. -/
theorem forM_tearDown_does (eng : Engine σ) (es : List (InfoHash × Session)) (s : Sessions σ) :
    ∃ calls, List.Forall₂ (fun e c => ∃ r, c = .perform .dropTorrent e.2.handle r) es calls
      ∧ Does eng s calls (es.foldl (fun store e => store.erase e.1) s.store)
        ((es.forM (tearDown eng)).run s).2 := by
  induction es generalizing s with
  | nil => exact ⟨[], .nil, .refl s⟩
  | cons e es ih =>
    obtain ⟨r, hd⟩ := tearDown_does eng e s
    obtain ⟨calls, hc, hd'⟩ := ih ((tearDown eng e).run s).2
    rw [hd.store] at hd'
    exact ⟨_ :: calls, .cons ⟨r, rfl⟩ hc, hd.trans hd'⟩

/-- Nothing is left once every session that is met was taken away. -/
theorem get?_foldl_erase_met (order : Order) (store : Store) (id : InfoHash) :
    ((order.met store).foldl (fun store e => store.erase e.1) store).get? id = none := by
  rw [get?_foldl_erase]
  split
  · rfl
  · rename_i hid
    rw [((order.perm store).map Prod.fst).mem_iff] at hid
    exact Table.find_eq_none hid

theorem book_foldl_erase_met (order : Order) (store : Store) :
    book ((order.met store).foldl (fun store e => store.erase e.1) store) = fun _ => none := by
  funext id
  rw [book, get?_foldl_erase_met]
  rfl

/-- **A shutdown is one call for each session that is met**, and takes all of them away. -/
theorem shutdown_does (eng : Engine σ) (order : Order) (s : Sessions σ) :
    ∃ calls, List.Forall₂ (fun e c => ∃ r, c = .perform .dropTorrent e.2.handle r)
        (order.met s.store) calls
      ∧ Does eng s calls ((order.met s.store).foldl (fun store e => store.erase e.1) s.store)
        ((shutdown eng order).run s).2 := by
  obtain ⟨calls, hc, hd⟩ := forM_tearDown_does eng (order.met s.store) s
  have hlog := hd.trans (log_does (allCleared s.store.size) _)
  rw [List.append_nil, hd.store] at hlog
  exact ⟨calls, hc, hlog⟩

/-- **A shutdown serves the book.** -/
theorem shutdown_serves (eng : Engine σ) (timeout : Nat) (now : Int) (e₀ : σ) (order : Order)
    (s : Sessions σ) :
    ∃ calls store, Serves eng timeout now e₀ (book s.store) (.shutdown order)
        (.tornDown ((shutdown eng order).run s).1) calls (book store)
      ∧ Does eng s calls store ((shutdown eng order).run s).2 := by
  obtain ⟨calls, hc, hd⟩ := shutdown_does eng order s
  refine ⟨calls, _, ?_, hd⟩
  have hmap : ((order.met s.store).map fun e => (e.1, entry e.2)).map Prod.fst
      = (order.met s.store).map Prod.fst := by
    rw [List.map_map]
    rfl
  have hlen : s.store.size = ((order.met s.store).map fun e => (e.1, entry e.2)).length := by
    rw [List.length_map, order.length_met]
  rw [book_foldl_erase_met]
  show Serves _ _ _ _ _ _ (.tornDown s.store.size) _ _
  rw [hlen]
  refine .tornDown (hmap ▸ order.nodup_met s.store) (fun id en => ?_)
    (List.forall₂_map_left_iff.mpr hc)
  simp only [List.mem_map, Prod.mk.injEq, book, Option.map_eq_some_iff, ← order.mem_met_iff]
  constructor
  · rintro ⟨⟨j, session⟩, hm, rfl, rfl⟩
    exact ⟨session, hm, rfl⟩
  · rintro ⟨session, hm, rfl⟩
    exact ⟨⟨id, session⟩, hm, rfl, rfl⟩

/-- Looking at a transfer serves the book. -/
theorem get?_serves (id : InfoHash) (s : Sessions σ) :
    ∃ calls store, Serves eng timeout now e₀ (book s.store) (.get id)
        (.shown ((get? eng id now).run s).1) calls (book store)
      ∧ Does eng s calls store ((get? eng id now).run s).2 := by
  obtain ⟨hn, he⟩ | ⟨session, hs, he⟩ := get?_cases eng id now s
  · rw [he]
    exact ⟨_, _, .unseen (book_of_get?_none hn), .refl s⟩
  · rw [he]
    refine ⟨[], _, ?_, (Does.refl s).put _⟩
    rw [book_put_of_get? hs (by rfl)]
    exact .shown (book_of_get? hs) ⟨rfl, rfl, rfl⟩

/-- **What is listed**: every session, sampled, in some order. -/
theorem list_perm (eng : Engine σ) (now : Int) (s : Sessions σ) :
    ((list eng now).run s).1.Perm (s.store.entries.map fun e =>
      (e.2.sampled (eng.torrent s.engine e.2.handle) now).view
        (eng.torrent s.engine e.2.handle) e.1) := by
  refine (List.mergeSort_perm _ _).trans (.of_eq ?_)
  rw [Table.mapValues, List.map_map]
  rfl

/-- Looking at all transfers serves the book. -/
theorem list_serves (s : Sessions σ) :
    ∃ calls store, Serves eng timeout now e₀ (book s.store) .list
        (.listed ((list eng now).run s).1) calls (book store)
      ∧ Does eng s calls store ((list eng now).run s).2 := by
  have hp := list_perm eng now s
  have hids := hp.map Snapshot.infoHash
  rw [List.map_map] at hids
  have hkeys : s.store.entries.map (Snapshot.infoHash ∘ fun e =>
      (e.2.sampled (eng.torrent s.engine e.2.handle) now).view
        (eng.torrent s.engine e.2.handle) e.1) = s.store.entries.map Prod.fst := rfl
  rw [hkeys] at hids
  let sampled := s.store.mapValues fun _ session =>
    session.sampled (eng.torrent s.engine session.handle) now
  refine ⟨[], sampled, ?_, (Does.refl s).put _⟩
  rw [show book sampled = book s.store from book_mapValues fun _ _ => rfl]
  refine .listed (hids.nodup_iff.mpr s.store.nodup) (fun view hv => ?_) fun id hid => ?_
  · obtain ⟨⟨id, session⟩, hm, rfl⟩ := List.mem_map.mp (hp.mem_iff.mp hv)
    exact ⟨entry session, book_of_get? ((s.store.mem_entries_iff id session).mp hm), rfl, rfl, rfl⟩
  · rw [hids.mem_iff]
    by_contra hn
    exact hid (book_of_get?_none (Table.find_eq_none hn))

/-- Pausing or resuming serves the book. -/
theorem switch_serves {op : Operation} {paused : Bool} {id : InfoHash}
    (ht : task.change? = some (id, op, fun entry => some { entry with paused }))
    (message : String) (s : Sessions σ) :
    ∃ calls store, Serves eng timeout now e₀ (book s.store) task
        (.did ((switch eng op paused message id).run s).1) calls (book store)
      ∧ Does eng s calls store ((switch eng op paused message id).run s).2 := by
  obtain ⟨hn, he⟩ | ⟨session, hs, ⟨e, he, hd⟩ | ⟨he, hd⟩⟩ :=
    switch_cases eng op paused message id s
  · rw [he]
    exact ⟨_, _, .absent ht (book_of_get?_none hn), .refl s⟩
  · rw [he]
    exact ⟨_, _, .kept ht (book_of_get? hs), hd⟩
  · rw [he]
    refine ⟨_, _, ?_, hd⟩
    rw [book_put]
    exact .changed ht (book_of_get? hs)

/-- A removal serves the book. -/
theorem remove_serves (id : InfoHash) (s : Sessions σ) :
    ∃ calls store, Serves eng timeout now e₀ (book s.store) (.remove id)
        (.did ((remove eng id).run s).1) calls (book store)
      ∧ Does eng s calls store ((remove eng id).run s).2 := by
  obtain ⟨hn, he⟩ | ⟨session, hs, ⟨e, he, hd⟩ | ⟨he, hd⟩⟩ := remove_cases eng id s
  · rw [he]
    exact ⟨_, _, .absent rfl (book_of_get?_none hn), .refl s⟩
  · rw [he]
    exact ⟨_, _, .kept rfl (book_of_get? hs), hd⟩
  · rw [he]
    refine ⟨_, _, ?_, hd⟩
    rw [book_erase]
    have ht : (Task.remove id).change? = some (id, .dropTorrent, fun _ => none) := rfl
    exact .changed ht (book_of_get? hs)

/-- **Every task serves the book.** -/
theorem Task.perform_serves (eng : Engine σ) (timeout : Nat) (now : Int) (task : Task)
    (s : Sessions σ) :
    ∃ calls store, Serves eng timeout now s.engine (book s.store) task
        ((task.perform eng timeout now).run s).1 calls (book store)
      ∧ Does eng s calls store ((task.perform eng timeout now).run s).2 := by
  cases task <;> rw [Task.perform, run_bind, run_pure]
  case add magnet => exact add_serves eng timeout now magnet s
  case get id => exact get?_serves id s
  case list => exact list_serves s
  case remove id => exact remove_serves id s
  case pause id => exact switch_serves rfl "Transfer paused" s
  case resume id => exact switch_serves rfl "Transfer resumed" s
  case shutdown order => exact shutdown_serves eng timeout now s.engine order s

/-! ## Tasks one after another -/

/-- The calls of the engine that a state tells of. -/
def callsOf (s : Sessions σ) : List Call := SessionEvent.calls s.events

theorem after_snoc (eng : Engine σ) (timeout : Nat) (s₀ : σ) (jobs : List (Job σ)) (job : Job σ) :
    after eng timeout s₀ (jobs ++ [job]) = (job.run eng timeout (after eng timeout s₀ jobs)).2 := by
  rw [after, List.foldl_append]
  rfl

/-- **The manager keeps the book.**  Begun without live transfers, the store is a book of entries
after every sequence of jobs, whatever the engine does in them and between them: each job answers,
makes its calls and changes the book as it should.  One that fails leaves every entry as it was, and
one with a blank magnet or for a missing entry asks nothing of the engine. -/
theorem run_serves (eng : Engine σ) (timeout : Nat) (s₀ : σ) (jobs : List (Job σ)) (job : Job σ) :
    book (after eng timeout s₀ []).store = (fun _ => none)
      ∧ ∃ calls, Serves eng timeout job.now (job.before (after eng timeout s₀ jobs)).engine
          (book (after eng timeout s₀ jobs).store) job.task
          (job.run eng timeout (after eng timeout s₀ jobs)).1 calls
          (book (after eng timeout s₀ (jobs ++ [job])).store)
        ∧ callsOf (after eng timeout s₀ (jobs ++ [job]))
          = callsOf (after eng timeout s₀ jobs) ++ calls
        ∧ eng.Ran (job.before (after eng timeout s₀ jobs)).engine calls
          (after eng timeout s₀ (jobs ++ [job])).engine
        ∧ (∀ e, (job.run eng timeout (after eng timeout s₀ jobs)).1.error? = some e →
          book (after eng timeout s₀ (jobs ++ [job])).store
            = book (after eng timeout s₀ jobs).store)
        ∧ (Idle (book (after eng timeout s₀ jobs).store) job.task → calls = []
          ∧ ((job.run eng timeout (after eng timeout s₀ jobs)).1.error?
              = some (.validation "magnet URI is required")
            ∨ ∃ id, (job.run eng timeout (after eng timeout s₀ jobs)).1.error?
              = some (notFound id))) := by
  refine ⟨rfl, ?_⟩
  rw [after_snoc]
  generalize after eng timeout s₀ jobs = s
  obtain ⟨calls, store, hs, hd⟩ := job.task.perform_serves eng timeout job.now (job.before s)
  have hstore : (job.run eng timeout s).2.store = store := hd.store
  have hserves : Serves eng timeout job.now (job.before s).engine (book s.store) job.task
      (job.run eng timeout s).1 calls (book (job.run eng timeout s).2.store) := hstore ▸ hs
  obtain ⟨new, he, hc⟩ := hd.events
  refine ⟨calls, hserves, ?_, hd.engine, fun e => hserves.book_eq_of_error, hserves.of_idle⟩
  rw [callsOf, callsOf, ← hc, ← SessionEvent.calls_append]
  exact congrArg SessionEvent.calls he

end Session

end HopTorrent
