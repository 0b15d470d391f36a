import HopTorrent.Proofs.Session.Accounting
import HopTorrent.Proofs.Session.Clock

/-!
# Proofs/Session/Punctuality — what becomes of an add, and when

An add ends when its wait does, and with what the engine says of its own torrent
(`adds_punctual`): without metadata in time it has discarded its torrent, once, and touched nothing
else.  Only the store can come between adds, and only those of one identifier: every other add comes
to what it comes to whoever else is there.
-/

namespace HopTorrent.Session

open Relation

namespace Clocked

variable {σ : Type} {eng : Engine σ} {limit : Nat} {s₀ : σ} {c c' : Clocked σ} {i : Nat}
  {p : Pending} {wait : Wait}

/-! ## The step in which an add ends -/

variable (eng s₀) in
/-- The manager after some of what was done. -/
def replay (steps : List (Nat × Action)) : Concurrent σ :=
  (Concurrent.initial s₀).run eng (steps.map Prod.snd)

variable (eng s₀) in
/-- The calls of the engine in some of what was done, each with the step that made it. -/
def ledger (steps : List (Nat × Action)) : Ledger :=
  (Concurrent.initial s₀).ledger eng (steps.map Prod.snd)

variable (eng s₀) in
/-- **The step that ended an add**: when it was made, after which others, and with what result. -/
structure EndedBy (done : List (Nat × Action)) (i : Nat) (p : Pending) (r : Except Error InfoHash)
    (t : Nat) (past : List (Nat × Action)) (clock : Int) : Prop where
  done : past ++ [(t, .conclude i clock)] <+: done
  before : ∀ r', (replay eng s₀ past).adds[i]? ≠ some ⟨p, .ended r'⟩
  ended : (replay eng s₀ (past ++ [(t, .conclude i clock)])).adds[i]? = some ⟨p, .ended r⟩

variable (eng) in
/-- **Another add has the same identifier.** -/
def Twin (c : Concurrent σ) (i : Nat) (p : Pending) : Prop :=
  ∃ j x, j ≠ i ∧ c.adds[j]? = some x
    ∧ eng.hash c.sessions.engine x.pending.handle = eng.hash c.sessions.engine p.handle

variable (eng limit s₀) in
/-- **What becomes of an add**, by how its wait ended: what it did to its torrent, and its
result. -/
inductive Fate (m : Concurrent σ) (done : List (Nat × Action)) (i : Nat) (p : Pending)
    (wait : Wait) (past : List (Nat × Action)) (clock : Int) : Except Error InfoHash → Prop
  /-- Without metadata it discarded its torrent, and left the store as it was. -/
  | gaveUp {e : Error} {r : Except Error Unit} (hv : (wait.verdict limit).error? = some e)
      (hl : (ledger eng s₀ done).on p.handle = [(.conclude i clock, .perform .dropTorrent p.handle r)])
      (hs : (replay eng s₀ (past ++ [(wait.due limit, .conclude i clock)])).sessions.store
        = (replay eng s₀ past).sessions.store) :
    Fate m done i p wait past clock (.error e)
  /-- The engine refused to start its torrent. -/
  | refused {e : Error} (clock' : Int) (hv : wait.verdict limit = .ready)
      (hl : (.conclude i clock', .perform .downloadAll p.handle (.error e)) ∈ ledger eng s₀ done) :
    Fate m done i p wait past clock (.error e)
  /-- Its torrent was started. -/
  | started (hv : wait.verdict limit = .ready)
      (hl : (.conclude i clock, .perform .downloadAll p.handle (.ok ())) ∈ ledger eng s₀ done) :
    Fate m done i p wait past clock (.ok (eng.hash m.sessions.engine p.handle))
  /-- Its transfer was live already, through another add. -/
  | live (hv : wait.verdict limit = .ready) (ht : Twin eng m i p) :
    Fate m done i p wait past clock (.ok (eng.hash m.sessions.engine p.handle))

variable (eng limit s₀) in
/-- Every add that has ended did so when it was due, and as told. -/
def Fated (c : Clocked σ) : Prop :=
  ∀ (i : Nat) (p : Pending) (r : Except Error InfoHash) (wait : Wait),
    c.manager.adds[i]? = some ⟨p, .ended r⟩ → c.waits[i]? = some wait →
      ∃ past clock, EndedBy eng s₀ c.done i p r (wait.due limit) past clock
        ∧ Fate eng limit s₀ c.manager c.done i p wait past clock r

/-! ## What is done later -/

section Work

variable {a : Action} {left : List (Nat × Action)}

/-- One more step is replayed last. -/
theorem replay_snoc (steps : List (Nat × Action)) (t : Nat) (a : Action) :
    replay eng s₀ (steps ++ [(t, a)]) = (replay eng s₀ steps).step eng a := by
  rw [replay, List.map_append, List.map_singleton, Concurrent.run_snoc, replay]

/-- The ledger after something was done. -/
theorem ledger_act (h : Timely eng limit s₀ c) (a : Action) (left : List (Nat × Action)) :
    ledger eng s₀ (c.act eng a left).done
      = ledger eng s₀ c.done ++ .ofStep a (c.manager.made eng a) := by
  rw [ledger, act, List.map_append, List.map_singleton, Concurrent.ledger_snoc, ← h.manager, ledger]

/-- The books balance at any time. -/
theorem Timely.balanced (h : Timely eng limit s₀ c) (hn : eng.GivesNew s₀)
    (hk : eng.KeepsHashes s₀) : Balanced eng c.manager (ledger eng s₀ c.done) := by
  rw [h.manager]
  exact balanced_run hn hk _

/-- No two adds have the same handle. -/
theorem Timely.nodup (h : Timely eng limit s₀ c) (hn : eng.GivesNew s₀) :
    c.manager.handles.Nodup := by
  rw [h.manager, ← given_ledger]
  exact hn.nodup (ran_ledger eng s₀ _)

/-- The handle of an add keeps its identifier. -/
theorem Timely.hash_act (h : Timely eng limit s₀ c) (hk : eng.KeepsHashes s₀) {x : Adding}
    (hi : c.manager.adds[i]? = some x) (a : Action) :
    eng.hash (c.manager.step eng a).sessions.engine x.pending.handle
      = eng.hash c.manager.sessions.engine x.pending.handle := by
  have hm : x.pending.handle ∈ c.manager.handles :=
    List.mem_map.mpr ⟨x, List.mem_of_getElem? hi, rfl⟩
  have hran := ran_ledger eng s₀ (c.done.map Prod.snd)
  rw [← h.manager] at hran
  refine hk.hash_eq hran (exists_effect eng c.manager a).2 ?_
  rwa [given_ledger, ← h.manager]

/-- An add that has a twin keeps it. -/
theorem Twin.act (h : Timely eng limit s₀ c) (hk : eng.KeepsHashes s₀) {st : Stage}
    (hi : c.manager.adds[i]? = some ⟨p, st⟩) (ht : Twin eng c.manager i p) (a : Action) :
    Twin eng (c.manager.step eng a) i p := by
  obtain ⟨j, ⟨q, st'⟩, hne, hj, hh⟩ := ht
  have hq := h.hash_act hk hj a
  have hp := h.hash_act hk hi a
  obtain ⟨st'', hnew⟩ := (exists_effect eng c.manager a).1.exists_stage hj
  exact ⟨j, _, hne, hnew, hq.trans (hh.trans hp.symm)⟩

/-- What ended an add, ended it for good. -/
theorem EndedBy.act {r : Except Error InfoHash} {t : Nat} {past : List (Nat × Action)}
    {clock : Int} (h : EndedBy eng s₀ c.done i p r t past clock) (a : Action)
    (left : List (Nat × Action)) : EndedBy eng s₀ (c.act eng a left).done i p r t past clock :=
  { h with done := h.done.trans (List.prefix_append _ _) }

/-- A torrent that was discarded first of all is left alone. -/
theorem on_act_of_discarded (h : Timely eng limit s₀ c) (hn : eng.GivesNew s₀)
    (hk : eng.KeepsHashes s₀) {r : Except Error InfoHash} {x : Except Error Unit} {clock : Int}
    (hi : c.manager.adds[i]? = some ⟨p, .ended r⟩)
    (hl : (ledger eng s₀ c.done).on p.handle = [(.conclude i clock, .perform .dropTorrent p.handle x)])
    (a : Action) (left : List (Nat × Action)) :
    (ledger eng s₀ (c.act eng a left).done).on p.handle = (ledger eng s₀ c.done).on p.handle := by
  have he := (exists_effect eng c.manager a).1
  have hgone : ∀ id, held c.manager.sessions.store id ≠ some p.handle := by
    obtain hs | hd : IsStored .. ∨ IsDiscarded .. := (h.balanced hn hk).adds i p _ hi
    · obtain ⟨b, hb⟩ := hs.mem_on
      rw [hl] at hb
      simp at hb
    · exact hd.gone
  rw [ledger_act h]
  exact on_append_eq (he.leaves hgone (not_moves (h.nodup hn) hi (he.ended hi))).1

/-- **What became of an add, became of it for good.** -/
theorem Fate.act (h : Timely eng limit s₀ c) (hn : eng.GivesNew s₀) (hk : eng.KeepsHashes s₀)
    {r : Except Error InfoHash} {past : List (Nat × Action)} {clock : Int}
    (hi : c.manager.adds[i]? = some ⟨p, .ended r⟩)
    (hf : Fate eng limit s₀ c.manager c.done i p wait past clock r) (a : Action)
    (left : List (Nat × Action)) :
    Fate eng limit s₀ (c.act eng a left).manager (c.act eng a left).done i p wait past clock r := by
  have hhash := h.hash_act hk hi a
  have later : ∀ e ∈ ledger eng s₀ c.done, e ∈ ledger eng s₀ (c.act eng a left).done := fun e he => by
    rw [ledger_act h]
    exact List.mem_append_left _ he
  cases hf with
  | gaveUp hv hl hs =>
    exact .gaveUp hv ((on_act_of_discarded h hn hk hi hl a left).trans hl) hs
  | refused _ hv hl => exact .refused _ hv (later _ hl)
  | started hv hl =>
    rw [← hhash]
    exact .started hv (later _ hl)
  | live hv ht =>
    rw [← hhash]
    exact .live hv (ht.act h hk hi a)

/-! ## The end of an add -/

/-- A handle that is stored already is that of another add. -/
theorem Timely.twin_of_held (h : Timely eng limit s₀ c) (hk : eng.KeepsHashes s₀) {g : Handle}
    (hg : held c.manager.sessions.store (eng.hash c.manager.sessions.engine p.handle) = some g)
    {st : Stage} (hi : c.manager.adds[i]? = some ⟨p, st⟩) (hne : g ≠ p.handle) :
    Twin eng c.manager i p := by
  rw [h.manager] at hg
  obtain ⟨hm, hid⟩ := keyed_run hk _ hg
  rw [← h.manager] at hm hid
  obtain ⟨x, hx, rfl⟩ := List.mem_map.mp hm
  obtain ⟨j, hj⟩ := List.getElem?_of_mem hx
  refine ⟨j, x, ?_, hj, hid.symm⟩
  rintro rfl
  cases hi.symm.trans hj
  exact hne rfl

/-- What becomes of an add without metadata. -/
theorem Fate.of_gaveUp (h : Timely eng limit s₀ c) (hn : eng.GivesNew s₀) (hk : eng.KeepsHashes s₀)
    (left : List (Nat × Action)) {w : Waited} {e : Error} {x : Except Error Unit} {clock : Int}
    (hi : c.manager.adds[i]? = some ⟨p, .waited w⟩) (hv : (wait.verdict limit).error? = some e)
    (hcalls : c.manager.made eng (.conclude i clock) = [.perform .dropTorrent p.handle x])
    (hstore : (c.manager.step eng (.conclude i clock)).sessions.store
      = c.manager.sessions.store) :
    Fate eng limit s₀ (c.act eng (.conclude i clock) left).manager
      (c.act eng (.conclude i clock) left).done i p wait c.done clock (.error e) := by
  have hbook := (h.balanced hn hk).adds i p _ hi
  have hreplay : replay eng s₀ c.done = c.manager := h.manager.symm
  refine .gaveUp (r := x) hv ?_ ?_
  · rw [ledger_act h, hcalls, on_append_perform, Untouched.untouched hbook, List.nil_append]
  · rw [replay_snoc, hreplay, hstore]

/-- What becomes of an add that gets hold of the store and ends there. -/
theorem Fate.of_entered (h : Timely eng limit s₀ c) (hn : eng.GivesNew s₀)
    (hk : eng.KeepsHashes s₀) (left : List (Nat × Action)) {id : InfoHash} {clock : Int}
    {store : Store} (hi : c.manager.adds[i]? = some ⟨p, .waited .ready⟩)
    (hv : wait.verdict limit = .ready)
    (hx : Entered eng c.manager.sessions p clock (.ok id)
      (c.manager.made eng (.conclude i clock)) store) :
    Fate eng limit s₀ (c.act eng (.conclude i clock) left).manager
      (c.act eng (.conclude i clock) left).done i p wait c.done clock (.ok id) := by
  have hbook := (h.balanced hn hk).adds i p _ hi
  have hhash := h.hash_act hk hi (.conclude i clock)
  have hledger := ledger_act h (.conclude i clock) left
  generalize c.manager.made eng (.conclude i clock) = calls at hx hledger
  cases hx with
  | live hlive hsame => exact absurd (hsame ▸ held_of_get? hlive) (hbook.unheld _)
  | duplicate hlive hne =>
    rw [← hhash]
    exact .live hv ((h.twin_of_held hk (held_of_get? hlive) hi hne).act h hk hi _)
  | stored =>
    rw [← hhash]
    refine .started hv ?_
    rw [hledger]
    simp [Ledger.ofStep]

/-- What becomes of an add whose torrent was not started. -/
theorem Fate.of_abandoned (h : Timely eng limit s₀ c) (hn : eng.GivesNew s₀)
    (hk : eng.KeepsHashes s₀) (left : List (Nat × Action)) {e : Error}
    (hi : c.manager.adds[i]? = some ⟨p, .failed e⟩) (hv : wait.verdict limit = .ready)
    (a : Action) (clock : Int) :
    Fate eng limit s₀ (c.act eng a left).manager (c.act eng a left).done i p wait c.done clock
      (.error e) := by
  obtain ⟨⟨clock', hl⟩, -⟩ := (h.balanced hn hk).adds i p _ hi
  refine .refused clock' hv ?_
  rw [ledger_act h]
  refine List.mem_append_left _ (List.mem_of_mem_filter (p := fun e => e.2.target? = some p.handle) ?_)
  rw [← Ledger.on, hl]
  exact List.mem_singleton_self _

/-- **What becomes of an add that ends now.** -/
theorem Fate.of_move (h : Timely eng limit s₀ c) (hn : eng.GivesNew s₀) (hk : eng.KeepsHashes s₀)
    (left : List (Nat × Action))
    {st : Stage} {r : Except Error InfoHash} (hi : c.manager.adds[i]? = some ⟨p, st⟩)
    (hw : c.waits[i]? = some wait)
    (hi' : (c.manager.step eng a).adds[i]? = some ⟨p, .ended r⟩)
    (hm : Move eng c.manager i p a st (c.manager.made eng a) (.ended r)
      (c.manager.step eng a).lock (c.manager.step eng a).sessions.store) :
    ∃ clock, a = .conclude i clock ∧ c.now = wait.due limit
      ∧ Fate eng limit s₀ (c.act eng a left).manager (c.act eng a left).done i p wait c.done clock
        r := by
  have hon := h.adds i p st wait hi hw
  generalize hcalls : c.manager.made eng a = calls at hm
  generalize (c.manager.step eng a).lock = lock at hm
  generalize hstore : (c.manager.step eng a).sessions.store = store at hm
  cases hm with
  | @gaveUp clock w _ x hwr =>
    obtain ⟨hnow, rfl⟩ := hon
    obtain ⟨e, he⟩ := Waited.exists_error hwr
    rw [step_conclude_of_error eng hi he clock, Concurrent.advance,
      List.getElem?_set_self (List.getElem?_eq_some_iff.mp hi).1] at hi'
    cases hi'
    exact ⟨clock, rfl, hnow, .of_gaveUp h hn hk left hi he hcalls hstore⟩
  | @entered clock id _ _ _ hx =>
    obtain ⟨hnow, hv⟩ := hon
    subst hcalls
    exact ⟨clock, rfl, hnow, .of_entered h hn hk left hi hv.symm hx⟩
  | @abandoned clock =>
    obtain ⟨hnow, hv⟩ := hon
    exact ⟨clock, rfl, hnow, .of_abandoned h hn hk left hi hv _ clock⟩

/-- **Whatever is done, the adds that have ended did so when they were due.** -/
theorem Fated.work (hf : Fated eng limit s₀ c) (h : Timely eng limit s₀ c) (hn : eng.GivesNew s₀)
    (hk : eng.KeepsHashes s₀) (hc : c.Works eng limit c') : Fated eng limit s₀ c' := by
  obtain ⟨a, left, hr, rfl⟩ := hc
  intro i p r wait hi hw
  have hnew := (exists_effect eng c.manager a).1.stage_inv hi
  have hlt : i < c.manager.adds.length := by
    obtain hold | ⟨he, -⟩ | ⟨_, hold, -⟩ := hnew
    · exact (List.getElem?_eq_some_iff.mp hold).1
    · cases he
    · exact (List.getElem?_eq_some_iff.mp hold).1
  rw [waits_act h.waits, if_pos hlt] at hw
  obtain hold | ⟨he, -⟩ | ⟨st, hold, hm⟩ := hnew
  · obtain ⟨past, clock, hend, hfate⟩ := hf i p r wait hold hw
    exact ⟨past, clock, hend.act a left, hfate.act h hn hk hold a left⟩
  · cases he
  · obtain ⟨clock, rfl, hnow, hfate⟩ := Fate.of_move h hn hk left hold hw hi hm
    have hreplay : replay eng s₀ c.done = c.manager := h.manager.symm
    refine ⟨c.done, clock, ⟨?_, fun r' hr' => ?_, ?_⟩, hfate⟩
    · rw [← hnow]
      exact List.prefix_rfl
    · rw [hreplay, hold] at hr'
      cases hr'
      cases hm
    · rw [replay_snoc, hreplay]
      exact hi

end Work

/-- **Every add that has ended did so when it was due**, whatever came about. -/
theorem fated (hn : eng.GivesNew s₀) (hk : eng.KeepsHashes s₀) (hc : Reached eng limit s₀ c) :
    Fated eng limit s₀ c := by
  induction hc with
  | refl => nofun
  | tail hc hs ih =>
    obtain ⟨a, -, rfl⟩ | hw | ⟨-, d, -, rfl⟩ := hs
    · exact ih
    · exact ih.work (timely hc) hn hk hw
    · exact ih

/-! ## The step in which an add began -/

variable (eng s₀) in
/-- **The step in which an add began**, and with it its wait: the engine said then when the metadata
comes. -/
def BegunBy (done : List (Nat × Action)) (i : Nat) (p : Pending) (wait : Wait) : Prop :=
  ∃ past magnet, past ++ [(wait.since, .begin magnet)] <+: done
    ∧ (replay eng s₀ past).adds.length = i
    ∧ (replay eng s₀ (past ++ [(wait.since, .begin magnet)])).adds[i]? = some ⟨p, .waiting⟩
    ∧ wait.metadata = eng.metadata
      (replay eng s₀ (past ++ [(wait.since, .begin magnet)])).sessions.engine p.handle

/-- **A step that adds an add begins it.** -/
theorem begun_of_length_le {c : Concurrent σ} {a : Action} {calls : List Call} {adds : List Adding}
    {lock : Option Holder} {store : Store} (he : Effect eng c a calls adds lock store)
    {x : Adding} (hi : adds[i]? = some x) (hle : c.adds.length ≤ i) :
    i = c.adds.length ∧ x.stage = .waiting ∧ ∃ magnet, a = .begin magnet := by
  have none_of : c.adds[i]? = none := List.getElem?_eq_none hle
  cases he with
  | idle | refused | kept | removed | switched | tornDown | cleared =>
    rw [none_of] at hi
    cases hi
  | begun =>
    rw [List.getElem?_append_right hle, List.getElem?_singleton] at hi
    split at hi <;> cases hi
    exact ⟨by omega, rfl, _, rfl⟩
  | moved =>
    rw [List.getElem?_eq_none (by rwa [List.length_set])] at hi
    cases hi

/-- **Every wait began with its add.** -/
theorem begun (hc : Reached eng limit s₀ c) {st : Stage}
    (hi : c.manager.adds[i]? = some ⟨p, st⟩) (hw : c.waits[i]? = some wait) :
    BegunBy eng s₀ c.done i p wait := by
  induction hc generalizing st with
  | refl => cases hi
  | @tail c c' hc hs ih =>
    obtain ⟨a, -, rfl⟩ | ⟨a, left, -, rfl⟩ | ⟨-, d, -, rfl⟩ := hs
    · exact ih hi hw
    · have ht := timely hc
      have hreplay : replay eng s₀ c.done = c.manager := ht.manager.symm
      have he := (exists_effect eng c.manager a).1
      rw [waits_act ht.waits] at hw
      split at hw
      · obtain ⟨⟨q, st₀⟩, hold⟩ : ∃ x, c.manager.adds[i]? = some x :=
          ⟨_, List.getElem?_eq_getElem ‹_›⟩
        obtain ⟨_, hnew⟩ := he.exists_stage hold
        cases hnew.symm.trans hi
        obtain ⟨past, magnet, hpre, hrest⟩ := ih hold hw
        exact ⟨past, magnet, hpre.trans (List.prefix_append _ _), hrest⟩
      · obtain ⟨x, hx, rfl⟩ := Option.map_eq_some_iff.mp hw
        cases hx.symm.trans hi
        obtain ⟨rfl, rfl, magnet, rfl⟩ := begun_of_length_le he hi (Nat.le_of_not_lt ‹_›)
        refine ⟨c.done, magnet, List.prefix_rfl, by rw [hreplay], ?_, ?_⟩ <;>
          rw [replay_snoc, hreplay]
        exact hi
    · exact ih hi hw

/-! ## Punctuality -/

/-- **What an add comes to by itself**: by its own metadata, and if that comes in time, by what the
engine answers to its own download. -/
def outcome (limit : Nat) (wait : Wait) (id : InfoHash) (answer : Except Error Unit) :
    Except Error InfoHash :=
  match (wait.verdict limit).error? with
  | some e => .error e
  | none => answer.map fun _ => id

variable (eng limit) in
/-- **Nothing waits for an add.** -/
structure Undelayed (c : Clocked σ) : Prop where
  /-- Whatever was asked for was done at the time of that, or it is still asked for. -/
  requests : c.requests.Subperm (c.asked ++ c.done)
  /-- What is still asked for was asked for just now. -/
  asked : ∀ q ∈ c.asked, q.1 = c.now
  /-- Time passes only when nothing is asked for and nobody has the store. -/
  passes : ∀ c', c.Passes limit c' → c.asked = [] ∧ c.manager.lock = none
  /-- Whatever can be done at this time gets done. -/
  settles : ∃ c', ReflTransGen (Works eng limit) c c' ∧ c'.now = c.now ∧ c'.asked = []
    ∧ c'.Settled limit
  /-- Nobody can keep time from passing. -/
  finite : Acc (fun c' c : Clocked σ => c.Works eng limit c') c

variable (eng limit s₀) in
/-- **What holds of an add** that began a wait. -/
structure Punctual (c : Clocked σ) (i : Nat) (p : Pending) (wait : Wait) : Prop where
  /-- It began when its wait did, and the engine said then when its metadata comes. -/
  begun : BegunBy eng s₀ c.done i p wait
  /-- It has ended, unless it is not due before now. -/
  pending : (∃ r, c.manager.adds[i]? = some ⟨p, .ended r⟩) ∨ c.now ≤ wait.due limit
  /-- It does end, whether anything more is asked for or not. -/
  ends : ∃ c', ReflTransGen (Goes eng limit) c c'
    ∧ ∃ r, c'.manager.adds[i]? = some ⟨p, .ended r⟩
  /-- The step that ended it was made when it was due. -/
  ended : ∀ r, c.manager.adds[i]? = some ⟨p, .ended r⟩ →
    ∃ past clock, EndedBy eng s₀ c.done i p r (wait.due limit) past clock
  /-- It ran out of time if its metadata was late, and only then: unless the engine itself answered
  that. -/
  timedOut : ∀ r, c.manager.adds[i]? = some ⟨p, .ended r⟩ →
    (wait.Late limit → r = .error .metadataTimeout)
      ∧ (r = .error .metadataTimeout → wait.Late limit
        ∨ (∃ d, wait.metadata = .after d (.error .metadataTimeout) ∧ d ≤ limit)
        ∨ ∃ clock, (.conclude i clock, .perform .downloadAll p.handle (.error .metadataTimeout))
          ∈ ledger eng s₀ c.done)
  /-- An error in place of the metadata is its own error, if it comes in time. -/
  failed : ∀ r, c.manager.adds[i]? = some ⟨p, .ended r⟩ → ∀ d e, wait.metadata = .after d (.error e) →
    d ≤ limit → r = .error e
  /-- In both cases it discarded its torrent, once, did nothing else to it, and left the store as it
  was. -/
  discarded : ∀ r, c.manager.adds[i]? = some ⟨p, .ended r⟩ →
    (wait.Late limit ∨ ∃ d e, wait.metadata = .after d (.error e) ∧ d ≤ limit) →
      ∃ past clock x, EndedBy eng s₀ c.done i p r (wait.due limit) past clock
        ∧ (ledger eng s₀ c.done).on p.handle
          = [(.conclude i clock, .perform .dropTorrent p.handle x)]
        ∧ (replay eng s₀ (past ++ [(wait.due limit, .conclude i clock)])).sessions.store
          = (replay eng s₀ past).sessions.store
  /-- With an identifier of its own it comes to what it comes to by itself. -/
  own : ∀ r, c.manager.adds[i]? = some ⟨p, .ended r⟩ → ¬ Twin eng c.manager i p →
    ∃ answer, r = outcome limit wait (eng.hash c.manager.sessions.engine p.handle) answer
      ∧ (wait.verdict limit = .ready → ∃ clock,
        (.conclude i clock, .perform .downloadAll p.handle answer) ∈ ledger eng s₀ c.done)

/-- **Nothing is ever delayed by an add.** -/
theorem Timely.undelayed (h : Timely eng limit s₀ c) : Undelayed eng limit c where
  requests := h.requests
  asked q hq := (h.asked q hq).1
  passes c' hp := ⟨(h.of_settled hp.1).1, (h.of_settled hp.1).2.1⟩
  settles := by
    obtain ⟨c', hw, hn, hs, ht⟩ := h.exists_settled
    exact ⟨c', hw, hn, (ht.of_settled hs).1, hs⟩
  finite := by
    induction c using (wellFounded_works eng limit s₀).induction with
    | h c ih => exact ⟨c, fun c' hw => ih c' ⟨h, hw⟩ (h.work hw)⟩

/-- A wait without metadata in time ends with an error. -/
theorem error?_verdict_ne_none
    (h : wait.Late limit ∨ ∃ d e, wait.metadata = .after d (.error e) ∧ d ≤ limit) :
    (wait.verdict limit).error? ≠ none := by
  obtain h | ⟨d, e, h⟩ := h
  · rw [Wait.verdict_eq_timedOut_iff.mpr h]
    nofun
  · rw [Wait.verdict_eq_failed_iff.mpr ⟨d, h⟩]
    nofun

section Fate

variable {r : Except Error InfoHash} {past : List (Nat × Action)} {clock : Int}
  {m : Concurrent σ} {done : List (Nat × Action)}

/-- An add without metadata comes to the error of its wait. -/
theorem Fate.of_error {e : Error} (hf : Fate eng limit s₀ m done i p wait past clock r)
    (hv : (wait.verdict limit).error? = some e) : r = .error e
      ∧ (∃ x, (ledger eng s₀ done).on p.handle
        = [(.conclude i clock, .perform .dropTorrent p.handle x)])
      ∧ (replay eng s₀ (past ++ [(wait.due limit, .conclude i clock)])).sessions.store
        = (replay eng s₀ past).sessions.store := by
  cases hf with
  | gaveUp hv' hl hs =>
    cases hv.symm.trans hv'
    exact ⟨rfl, ⟨_, hl⟩, hs⟩
  | refused _ hv' | started hv' | live hv' =>
    rw [hv'] at hv
    cases hv

/-- An add fails with the error of its wait, or with that of its download. -/
theorem Fate.error_cases {e : Error}
    (hf : Fate eng limit s₀ m done i p wait past clock (.error e)) :
    (wait.verdict limit).error? = some e
      ∨ ∃ clock', (.conclude i clock', .perform .downloadAll p.handle (.error e))
        ∈ ledger eng s₀ done := by
  cases hf with
  | gaveUp hv => exact .inl hv
  | refused _ _ hl => exact .inr ⟨_, hl⟩

/-- An add runs out of time when its metadata is late, unless the engine itself answers that. -/
theorem Fate.timedOut_cases
    (hf : Fate eng limit s₀ m done i p wait past clock (.error .metadataTimeout)) :
    wait.Late limit ∨ (∃ d, wait.metadata = .after d (.error .metadataTimeout) ∧ d ≤ limit)
      ∨ ∃ clock', (.conclude i clock', .perform .downloadAll p.handle (.error .metadataTimeout))
        ∈ ledger eng s₀ done := by
  obtain hv | hl := hf.error_cases
  · cases hverdict : wait.verdict limit with
    | ready =>
      rw [hverdict] at hv
      cases hv
    | failed e =>
      rw [hverdict] at hv
      cases hv
      exact .inr (.inl (Wait.verdict_eq_failed_iff.mp hverdict))
    | timedOut => exact .inl (Wait.verdict_eq_timedOut_iff.mp hverdict)
  · exact .inr (.inr hl)

/-- **With an identifier of its own, an add comes to what it comes to by itself.** -/
theorem Fate.own (hf : Fate eng limit s₀ m done i p wait past clock r) (ht : ¬ Twin eng m i p) :
    ∃ answer, r = outcome limit wait (eng.hash m.sessions.engine p.handle) answer
      ∧ (wait.verdict limit = .ready → ∃ clock,
        (.conclude i clock, .perform .downloadAll p.handle answer) ∈ ledger eng s₀ done) := by
  cases hf with
  | @gaveUp e _ hv =>
    refine ⟨.ok (), by rw [outcome, hv], fun hready => ?_⟩
    rw [hready] at hv
    cases hv
  | @refused e _ hv hl => exact ⟨.error e, by rw [outcome, hv]; rfl, fun _ => ⟨_, hl⟩⟩
  | started hv hl => exact ⟨.ok (), by rw [outcome, hv]; rfl, fun _ => ⟨_, hl⟩⟩
  | live _ htwin => exact absurd htwin ht

end Fate

/-- An add is punctual. -/
theorem punctual (hn : eng.GivesNew s₀) (hk : eng.KeepsHashes s₀) (hc : Reached eng limit s₀ c)
    {st : Stage} (hi : c.manager.adds[i]? = some ⟨p, st⟩) (hw : c.waits[i]? = some wait) :
    Punctual eng limit s₀ c i p wait := by
  have ht := timely hc
  have hfate := fun r hr => fated hn hk hc i p r wait hr hw
  refine ⟨Clocked.begun hc hi hw, ?_, ht.exists_ended hi hw, fun r hr => ?_,
    fun r hr => ⟨fun hlate => ?_, fun he => ?_⟩, fun r hr d e hm hd => ?_, fun r hr hno => ?_,
    fun r hr hown => ?_⟩
  · have hon := ht.adds i p st wait hi hw
    cases st with
    | waiting => exact .inr hon
    | waited | failed => exact .inr (Nat.le_of_eq hon.1)
    | ended r => exact .inl ⟨r, hi⟩
  · obtain ⟨past, clock, hend, -⟩ := hfate r hr
    exact ⟨past, clock, hend⟩
  · obtain ⟨past, clock, -, hf⟩ := hfate r hr
    exact (hf.of_error (by rw [Wait.verdict_eq_timedOut_iff.mpr hlate]; rfl)).1
  · obtain ⟨past, clock, -, hf⟩ := hfate r hr
    subst he
    exact hf.timedOut_cases
  · obtain ⟨past, clock, -, hf⟩ := hfate r hr
    exact (hf.of_error (by rw [Wait.verdict_eq_failed_iff.mpr ⟨d, hm, hd⟩]; rfl)).1
  · obtain ⟨past, clock, hend, hf⟩ := hfate r hr
    obtain ⟨e, he⟩ := Option.ne_none_iff_exists'.mp (error?_verdict_ne_none hno)
    obtain ⟨-, ⟨x, hl⟩, hs⟩ := hf.of_error he
    exact ⟨past, clock, x, hend, hl, hs⟩
  · obtain ⟨past, clock, -, hf⟩ := hfate r hr
    exact hf.own hown

/-- **One add, as far as the engine goes**: with the same metadata, the same identifier, and the
same answer to its download. -/
structure Same (eng : Engine σ) (s₀ s₁ : σ) (c d : Clocked σ) (i j : Nat) (p q : Pending)
    (wait wait' : Wait) : Prop where
  metadata : wait'.metadata = wait.metadata
  hash : eng.hash d.manager.sessions.engine q.handle = eng.hash c.manager.sessions.engine p.handle
  answer : ∀ clock clock' x y,
    (.conclude i clock, .perform .downloadAll p.handle x) ∈ ledger eng s₀ c.done →
      (.conclude j clock', .perform .downloadAll q.handle y) ∈ ledger eng s₁ d.done → y = x

/-- **Punctuality.**  However many adds wait and whatever else is asked for, nothing is delayed; and
every add ends exactly when its wait does, as told.  With an identifier of its own it comes to the
same, after the same time, whoever else is there. -/
theorem adds_punctual (hn : eng.GivesNew s₀) (hk : eng.KeepsHashes s₀)
    (hc : Reached eng limit s₀ c) :
    Undelayed eng limit c
      ∧ (∀ (i : Nat) (p : Pending) (st : Stage), c.manager.adds[i]? = some ⟨p, st⟩ →
        ∃ wait, c.waits[i]? = some wait ∧ Punctual eng limit s₀ c i p wait)
      ∧ ∀ (s₁ : σ) (d : Clocked σ), eng.GivesNew s₁ → eng.KeepsHashes s₁ →
        Reached eng limit s₁ d → ∀ (i j : Nat) (p q : Pending) (r r' : Except Error InfoHash)
          (wait wait' : Wait),
          c.manager.adds[i]? = some ⟨p, .ended r⟩ → c.waits[i]? = some wait →
          d.manager.adds[j]? = some ⟨q, .ended r'⟩ → d.waits[j]? = some wait' →
          ¬ Twin eng c.manager i p → ¬ Twin eng d.manager j q →
          Same eng s₀ s₁ c d i j p q wait wait' →
            r' = r ∧ wait'.due limit - wait'.since = wait.due limit - wait.since := by
  refine ⟨(timely hc).undelayed, fun i p st hi => ?_,
    fun s₁ d hn' hk' hd i j p q r r' wait wait' hi hw hj hw' ht ht' hs => ⟨?_, ?_⟩⟩
  · have hlt := (List.getElem?_eq_some_iff.mp hi).1
    rw [← (timely hc).waits] at hlt
    exact ⟨_, List.getElem?_eq_getElem hlt,
      punctual hn hk hc hi (List.getElem?_eq_getElem hlt)⟩
  · obtain ⟨x, rfl, hx⟩ := (punctual hn hk hc hi hw).own r hi ht
    obtain ⟨y, rfl, hy⟩ := (punctual hn' hk' hd hj hw').own r' hj ht'
    have hverdict : wait'.verdict limit = wait.verdict limit := by
      rw [Wait.verdict, Wait.verdict, hs.metadata]
    rw [outcome, outcome, hs.hash, hverdict]
    cases hv : wait.verdict limit with
    | ready =>
      obtain ⟨clock, hl⟩ := hx hv
      obtain ⟨clock', hl'⟩ := hy (hverdict.trans hv)
      rw [hs.answer clock clock' x y hl hl']
    | failed | timedOut => rfl
  · rw [Wait.due_eq, Wait.due_eq, hs.metadata, Nat.add_sub_cancel_left, Nat.add_sub_cancel_left]

/-! ## A prompt add, alone and in company -/

/-- A torrent whose metadata comes as stated. -/
def reply (hash : String) (metadata : Metadata) : Reply :=
  .give (some hash) false ⟨hash, 1, 0, 0, 0, 0, metadata, none, none, none⟩

/-- A torrent with metadata after a while. -/
def prompt : Reply := reply "0101010101010101010101010101010101010101" (.after 30 (.ok ()))

/-- A torrent without. -/
def stalled : Reply := reply "0202020202020202020202020202020202020202" .never

/-- An add by itself, until it has ended. -/
def alone : Clocked Scripted :=
  (((((initial ⟨[prompt], []⟩).ask (.begin "a")).act Scripted.engine (.begin "a") []).pass 30).act
    Scripted.engine (.resolve 0 .ready) []).act Scripted.engine (.conclude 0 0) []

/-- Two adds, the first without metadata. -/
def accompanied : Clocked Scripted :=
  ((((((((initial ⟨[stalled, prompt], []⟩).ask (.begin "b")).act Scripted.engine (.begin "b")
    []).ask (.begin "a")).act Scripted.engine (.begin "a") []).pass 30).act Scripted.engine
    (.resolve 1 .ready) []).act Scripted.engine (.conclude 1 0) [])

/-- Time passes while adds wait that are not due. -/
theorem passes_of_waiting {d : Nat} (hq : c.asked = []) (hl : c.manager.lock = none)
    (hadds : ∀ x ∈ c.manager.adds, x.stage = .waiting)
    (hw : ∀ wait ∈ c.waits, c.now < wait.due limit ∧ c.now + d ≤ wait.due limit) :
    c.Passes limit (c.pass d) := by
  refine ⟨settled_of_quiet hq hl fun i p st hi => .inl ⟨?_, fun wait hi => ?_⟩, d,
    fun t _ ht i p wait _ hi => ?_, rfl⟩
  · exact hadds _ (List.mem_of_getElem? hi)
  · exact Wait.look_eq_none_iff.mpr (hw wait (List.mem_of_getElem? hi)).1
  · exact Wait.look_eq_none_iff.mpr (Nat.lt_of_lt_of_le ht (hw wait (List.mem_of_getElem? hi)).2)

theorem reached_alone : Reached Scripted.engine 60 ⟨[prompt], []⟩ alone := by
  have begun : Reached Scripted.engine 60 ⟨[prompt], []⟩ (((initial ⟨[prompt], []⟩).ask
      (.begin "a")).act Scripted.engine (.begin "a") []) :=
    (ReflTransGen.refl.tail (.inl ⟨.begin "a", trivial, rfl⟩)).tail
      (.inr (.inl ⟨_, _, .asked [] rfl (.inr rfl), rfl⟩))
  refine ((begun.tail (.inr (.inr (passes_of_waiting rfl rfl ?_ ?_)))).tail
    (.inr (.inl ⟨_, _, .resolve (i := 0) rfl rfl rfl, rfl⟩))).tail
    (.inr (.inl ⟨_, _, .enter 0 (i := 0) rfl rfl, rfl⟩))
  · intro x hx
    obtain rfl := List.mem_singleton.mp hx
    rfl
  · intro wait hw
    obtain rfl := List.mem_singleton.mp hw
    decide

theorem reached_accompanied :
    Reached Scripted.engine 60 ⟨[stalled, prompt], []⟩ accompanied := by
  have begun : Reached Scripted.engine 60 ⟨[stalled, prompt], []⟩
      (((((initial ⟨[stalled, prompt], []⟩).ask (.begin "b")).act Scripted.engine (.begin "b")
        []).ask (.begin "a")).act Scripted.engine (.begin "a") []) :=
    (((ReflTransGen.refl.tail (.inl ⟨.begin "b", trivial, rfl⟩)).tail
      (.inr (.inl ⟨_, _, .asked [] rfl (.inr rfl), rfl⟩))).tail
      (.inl ⟨.begin "a", trivial, rfl⟩)).tail
      (.inr (.inl ⟨_, _, .asked [] rfl (.inr rfl), rfl⟩))
  refine ((begun.tail (.inr (.inr (passes_of_waiting rfl rfl ?_ ?_)))).tail
    (.inr (.inl ⟨_, _, .resolve (i := 1) rfl rfl rfl, rfl⟩))).tail
    (.inr (.inl ⟨_, _, .enter 0 (i := 1) rfl rfl, rfl⟩))
  · intro x hx
    obtain rfl | hx := List.mem_cons.mp hx
    · rfl
    · obtain rfl := List.mem_singleton.mp hx
      rfl
  · intro wait hw
    obtain rfl | hw := List.mem_cons.mp hw
    · decide
    · obtain rfl := List.mem_singleton.mp hw
      decide

/-- The two adds of one torrent are one as far as the engine goes. -/
theorem same_accompanied : Same Scripted.engine ⟨[prompt], []⟩ ⟨[stalled, prompt], []⟩ alone
    accompanied 0 1 ⟨0, "a"⟩ ⟨1, "a"⟩ ⟨0, .after 30 (.ok ())⟩ ⟨0, .after 30 (.ok ())⟩ where
  metadata := rfl
  hash := by rfl
  answer clock clock' x y hx hy := by
    have ha : ledger Scripted.engine ⟨[prompt], []⟩ alone.done
        = [(.begin "a", .add "a" (.ok 0)), (.conclude 0 0, .perform .downloadAll 0 (.ok ()))] := by
      rfl
    have hb : ledger Scripted.engine ⟨[stalled, prompt], []⟩ accompanied.done
        = [(.begin "b", .add "b" (.ok 0)), (.begin "a", .add "a" (.ok 1)),
          (.conclude 1 0, .perform .downloadAll 1 (.ok ()))] := by rfl
    rw [ha] at hx
    rw [hb] at hy
    simp only [List.mem_cons, Prod.mk.injEq, reduceCtorEq, List.not_mem_nil, or_false,
      false_or, Call.perform.injEq, and_false, true_and] at hx hy
    rw [hx.2, hy.2]

/-- The add comes to the same in company. -/
theorem adds_punctual_accompanied :
    Undelayed Scripted.engine 60 alone
      ∧ (∃ wait, alone.waits[0]? = some wait
        ∧ Punctual Scripted.engine 60 ⟨[prompt], []⟩ alone 0 ⟨0, "a"⟩ wait)
      ∧ ∃ r r', alone.manager.adds[0]? = some ⟨⟨0, "a"⟩, .ended r⟩
        ∧ accompanied.manager.adds[1]? = some ⟨⟨1, "a"⟩, .ended r'⟩ ∧ r' = r := by
  have hnew : ∀ rs : List Reply, (∀ r ∈ rs, r = prompt ∨ r = stalled) →
      Scripted.engine.GivesNew ⟨rs, []⟩ := fun rs hrs => by
    refine Scripted.givesNew fun r hr => ?_
    obtain rfl | rfl := hrs r hr <;> rfl
  obtain ⟨hundelayed, hpunctual, hsame⟩ := adds_punctual (hnew [prompt] (by simp))
    (Scripted.keepsHashes _) reached_alone
  have hi : alone.manager.adds[0]? = some ⟨⟨0, "a"⟩, .ended (.ok ⟨Vector.replicate 20 1⟩)⟩ := by
    rfl
  have hj : accompanied.manager.adds[1]?
      = some ⟨⟨1, "a"⟩, .ended (.ok ⟨Vector.replicate 20 1⟩)⟩ := by rfl
  refine ⟨hundelayed, hpunctual 0 _ _ hi, _, _, hi, hj, ?_⟩
  refine (hsame _ accompanied (hnew [stalled, prompt] (by simp)) (Scripted.keepsHashes _)
    reached_accompanied 0 1 _ _ _ _ _ _ hi rfl hj rfl ?_ ?_ same_accompanied).1
  · rintro ⟨j, x, hne, hx, -⟩
    obtain ⟨hlt, -⟩ := List.getElem?_eq_some_iff.mp hx
    exact hne (Nat.lt_one_iff.mp hlt)
  · rintro ⟨j, x, hne, hx, hh⟩
    obtain ⟨hlt, -⟩ := List.getElem?_eq_some_iff.mp hx
    obtain rfl : j = 0 := by
      have : j < 2 := hlt
      omega
    obtain rfl := Option.some.inj hx
    revert hh
    decide +kernel

end Clocked

end HopTorrent.Session
