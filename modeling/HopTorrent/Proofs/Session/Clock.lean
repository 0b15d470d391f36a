import HopTorrent.Proofs.Session.Ledger
import Mathlib.Data.List.Perm.Subperm
import Mathlib.Logic.Relation

/-!
# Proofs/Session/Clock — operations in time

The engine answers every call at once; only metadata takes its time.  So whoever can do something
does it, and time passes while nobody can, though never beyond the end of a wait (`Clocked.Step`).
An add that waits has no lock, and whoever has it can go on.  Hence nobody waits for a lock while
time passes (`Timely.of_settled`): what is asked for gets its turn at once, and a wait that is over
is noticed when it is over (`timely`).  Nothing can be done without end at one time
(`wellFounded_works`), so time always goes on.
-/

namespace HopTorrent.Session

open Relation

variable {σ : Type} {eng : Engine σ} {limit : Nat}

/-! ## A wait in time -/

/-- The error with which an add fails whose wait ended so. -/
def Waited.error? : Waited → Option Error
  | .ready => none
  | .failed e => some e
  | .timedOut => some .metadataTimeout

/-- Without metadata an add fails. -/
theorem Waited.exists_error {w : Waited} (hw : w ≠ .ready) : ∃ e, w.error? = some e := by
  cases w with
  | ready => exact absurd rfl hw
  | failed | timedOut => exact ⟨_, rfl⟩

/-- The wait of an add: when it began, and what the engine says of the metadata. -/
structure Wait where
  since : Nat
  metadata : Metadata

namespace Wait

variable {wait : Wait}

/-- How metadata, or an error in its place, ends a wait. -/
def ofResult : Except Error Unit → Waited
  | .ok _ => .ready
  | .error e => .failed e

/-- **Looking whether a wait is over**: first for the metadata, and only then at the time. -/
def look (limit : Nat) (wait : Wait) (t : Nat) : Option Waited :=
  let timeUp := if wait.since + limit ≤ t then some .timedOut else none
  match wait.metadata with
  | .after d r => if wait.since + d ≤ t then some (ofResult r) else timeUp
  | .never => timeUp

/-- When a wait is over: with the metadata, or when the time is up. -/
def due (limit : Nat) (wait : Wait) : Nat :=
  match wait.metadata with
  | .after d _ => wait.since + min d limit
  | .never => wait.since + limit

/-- How a wait ends. -/
def verdict (limit : Nat) (wait : Wait) : Waited := (waitAtMost limit wait.metadata).2

/-- The metadata comes when the time is up already, or never. -/
def Late (limit : Nat) (wait : Wait) : Prop :=
  match wait.metadata with
  | .after d _ => limit < d
  | .never => True

/-- A wait takes as long as that of an add by itself. -/
theorem due_eq (limit : Nat) (wait : Wait) :
    wait.due limit = wait.since + (waitAtMost limit wait.metadata).1 := by
  unfold due waitAtMost
  rcases wait.metadata with _ | ⟨d, _ | _⟩
  · rfl
  all_goals
    dsimp only
    split
    · rw [Nat.min_eq_left ‹_›]
    · rw [Nat.min_eq_right (Nat.le_of_not_le ‹_›)]

theorem since_le_due (limit : Nat) (wait : Wait) : wait.since ≤ wait.due limit :=
  due_eq limit wait ▸ Nat.le_add_right _ _

/-- **A wait is not over before it is due.** -/
theorem look_eq_none_iff {t : Nat} : wait.look limit t = none ↔ t < wait.due limit := by
  rw [look, due]
  cases wait.metadata with
  | never => simp
  | after d r =>
    dsimp only
    split
    · simp only [reduceCtorEq, false_iff]
      omega
    · simp only [ite_eq_right_iff, reduceCtorEq, imp_false]
      omega

/-- **When it is due, it ends like that of an add by itself**: metadata at the last moment
counts. -/
theorem look_due (limit : Nat) (wait : Wait) :
    wait.look limit (wait.due limit) = some (wait.verdict limit) := by
  unfold look due verdict waitAtMost
  rcases wait.metadata with _ | ⟨d, _ | _⟩
  · simp
  all_goals
    dsimp only
    by_cases hd : d ≤ limit
    · simp [hd, ofResult]
    · have hl : limit ≤ d := Nat.le_of_not_le hd
      simp [hd, hl]

/-- A wait runs out of time exactly when the metadata is late. -/
theorem verdict_eq_timedOut_iff : wait.verdict limit = .timedOut ↔ wait.Late limit := by
  unfold verdict Late waitAtMost
  rcases wait.metadata with _ | ⟨d, _ | _⟩
  · simp
  all_goals
    dsimp only
    split
    · simp [‹d ≤ limit›]
    · simpa using ‹¬ d ≤ limit›

/-- A wait ends with an error exactly when that comes in time, in place of the metadata. -/
theorem verdict_eq_failed_iff {e : Error} : wait.verdict limit = .failed e
    ↔ ∃ d, wait.metadata = .after d (.error e) ∧ d ≤ limit := by
  unfold verdict waitAtMost
  rcases wait.metadata with _ | ⟨d, e' | _⟩
  · simp
  · dsimp only
    split
    · simp [‹d ≤ limit›, and_comm, eq_comm]
    · simp [‹¬ d ≤ limit›]
  · dsimp only
    split <;> simp

end Wait

/-! ## The manager with a clock -/

/-- What can be asked of the manager. -/
def Action.IsRequest : Action → Prop
  | .resolve .. | .conclude .. => False
  | _ => True

/-- The manager with a clock. -/
structure Clocked (σ : Type) where
  now : Nat
  manager : Concurrent σ
  /-- The waits of the adds, in the order these were begun. -/
  waits : List Wait
  /-- Everything that was asked for, with the time of that. -/
  requests : List (Nat × Action)
  /-- What of it has not had its turn. -/
  asked : List (Nat × Action)
  /-- Every step that was made, with its time. -/
  done : List (Nat × Action)

namespace Clocked

/-- No live transfers, and nothing was asked for. -/
def initial (engine : σ) : Clocked σ := ⟨0, .initial engine, [], [], [], []⟩

/-- **What can be done now**, and what is asked for then. -/
inductive Ready (limit : Nat) (c : Clocked σ) : Action → List (Nat × Action) → Prop
  /-- What is asked for has its turn, unless it needs the store and someone else has that. -/
  | asked (front : List (Nat × Action)) {t : Nat} {a : Action} {back : List (Nat × Action)}
      (hq : c.asked = front ++ (t, a) :: back)
      (hl : (∃ magnet, a = .begin magnet) ∨ c.manager.lock = none) :
    Ready limit c a (front ++ back)
  /-- The shutdown goes on. -/
  | shutdown (order : Order) {count : Nat} (hl : c.manager.lock = some (.shutdown count)) :
    Ready limit c (.shutdown order) c.asked
  /-- An add finds its wait over. -/
  | resolve {i : Nat} {p : Pending} {wait : Wait} {w : Waited}
      (hi : c.manager.adds[i]? = some ⟨p, .waiting⟩) (hw : c.waits[i]? = some wait)
      (hl : wait.look limit c.now = some w) :
    Ready limit c (.resolve i w) c.asked
  /-- An add without metadata discards its torrent, whoever has the store. -/
  | discard (clock : Int) {i : Nat} {p : Pending} {w : Waited}
      (hi : c.manager.adds[i]? = some ⟨p, .waited w⟩) (hw : w ≠ .ready) :
    Ready limit c (.conclude i clock) c.asked
  /-- An add with metadata gets hold of the store, unless someone else has it. -/
  | enter (clock : Int) {i : Nat} {p : Pending}
      (hi : c.manager.adds[i]? = some ⟨p, .waited .ready⟩) (hl : c.manager.lock = none) :
    Ready limit c (.conclude i clock) c.asked
  /-- An add whose torrent was not started discards it. -/
  | abandon (clock : Int) {i : Nat} {p : Pending} {e : Error}
      (hi : c.manager.adds[i]? = some ⟨p, .failed e⟩) :
    Ready limit c (.conclude i clock) c.asked

variable (eng) in
/-- Does something, so that `left` is still asked for.  An add that begins starts its wait. -/
def act (c : Clocked σ) (a : Action) (left : List (Nat × Action)) : Clocked σ where
  now := c.now
  manager := c.manager.step eng a
  waits := c.waits ++ ((c.manager.step eng a).adds.drop c.manager.adds.length).map fun x =>
    ⟨c.now, eng.metadata (c.manager.step eng a).sessions.engine x.pending.handle⟩
  requests := c.requests
  asked := left
  done := c.done ++ [(c.now, a)]

/-- Somebody asks for something. -/
def ask (c : Clocked σ) (a : Action) : Clocked σ :=
  { c with requests := c.requests ++ [(c.now, a)], asked := c.asked ++ [(c.now, a)] }

/-- Time passes. -/
def pass (c : Clocked σ) (d : Nat) : Clocked σ := { c with now := c.now + d }

/-- Something is asked for. -/
def Asks (c c' : Clocked σ) : Prop := ∃ a : Action, a.IsRequest ∧ c' = c.ask a

variable (eng limit) in
/-- Something is done that can be done. -/
def Works (c c' : Clocked σ) : Prop := ∃ a left, c.Ready limit a left ∧ c' = c.act eng a left

/-- Nothing can be done. -/
def Settled (limit : Nat) (c : Clocked σ) : Prop := ∀ a left, ¬ c.Ready limit a left

/-- No wait is over before a time. -/
def Unbroken (limit : Nat) (c : Clocked σ) (until_ : Nat) : Prop :=
  ∀ t, c.now ≤ t → t < until_ → ∀ (i : Nat) (p : Pending) (wait : Wait),
    c.manager.adds[i]? = some ⟨p, .waiting⟩ → c.waits[i]? = some wait → wait.look limit t = none

/-- **Time passes**, if nothing can be done, and no wait is over meanwhile. -/
def Passes (limit : Nat) (c c' : Clocked σ) : Prop :=
  c.Settled limit ∧ ∃ d, c.Unbroken limit (c.now + d) ∧ c' = c.pass d

variable (eng limit) in
/-- **What can happen**: something is asked for, something is done, or time passes. -/
def Step (c c' : Clocked σ) : Prop := c.Asks c' ∨ c.Works eng limit c' ∨ c.Passes limit c'

variable (eng limit) in
/-- What can happen when nothing more is asked for. -/
def Goes (c c' : Clocked σ) : Prop := c.Works eng limit c' ∨ c.Passes limit c'

variable (eng limit) in
/-- What can come about. -/
def Reached (s₀ : σ) (c : Clocked σ) : Prop := ReflTransGen (Step eng limit) (initial s₀) c

variable {c c' : Clocked σ} {a : Action} {left : List (Nat × Action)} {s₀ : σ}

/-! ## What a step leaves as it is -/

variable (eng) in
/-- A step of the manager forgets no add. -/
theorem length_le_step (c : Concurrent σ) (a : Action) :
    c.adds.length ≤ (c.step eng a).adds.length := by
  have hm := congrArg List.length (exists_effect eng c a).1.map_handle
  simp only [List.length_map, List.length_append, Concurrent.handles] at hm
  omega

/-- **The waits after something was done**: those before it, and one for an add that began. -/
theorem waits_act (hw : c.waits.length = c.manager.adds.length) (a : Action)
    (left : List (Nat × Action)) (i : Nat) :
    (c.act eng a left).waits[i]?
      = if i < c.manager.adds.length then c.waits[i]?
        else (c.manager.step eng a).adds[i]?.map fun x =>
          ⟨c.now, eng.metadata (c.manager.step eng a).sessions.engine x.pending.handle⟩ := by
  rw [act, List.getElem?_append, hw]
  split
  · rfl
  · rw [List.getElem?_map, List.getElem?_drop, Nat.add_sub_cancel' (Nat.le_of_not_lt ‹_›)]

/-- Every add has its wait. -/
theorem length_waits_act (hw : c.waits.length = c.manager.adds.length) (a : Action)
    (left : List (Nat × Action)) :
    (c.act eng a left).waits.length = (c.act eng a left).manager.adds.length := by
  have := length_le_step eng c.manager a
  simp only [act, List.length_append, List.length_map, List.length_drop]
  omega

/-! ## Being on time -/

/-- **What the clock says of an add at a stage.** -/
def OnTime (limit now : Nat) (wait : Wait) : Stage → Prop
  | .waiting => now ≤ wait.due limit
  | .waited w => now = wait.due limit ∧ w = wait.verdict limit
  | .failed _ => now = wait.due limit ∧ wait.verdict limit = .ready
  | .ended _ => wait.due limit ≤ now

variable (eng limit) in
/-- **Being on time**: what is asked for is asked for now, whoever has the lock can go on, and every
add is as far as the clock says. -/
structure Timely (s₀ : σ) (c : Clocked σ) : Prop where
  manager : c.manager = (Concurrent.initial s₀).run eng (c.done.map Prod.snd)
  waits : c.waits.length = c.manager.adds.length
  requests : c.requests.Subperm (c.asked ++ c.done)
  asked : ∀ q ∈ c.asked, q.1 = c.now ∧ q.2.IsRequest
  holder : ∀ i, c.manager.lock = some (.add i) →
    ∃ p e, c.manager.adds[i]? = some ⟨p, .failed e⟩
  adds : ∀ (i : Nat) (p : Pending) (st : Stage) (wait : Wait),
    c.manager.adds[i]? = some ⟨p, st⟩ → c.waits[i]? = some wait → OnTime limit c.now wait st

theorem timely_initial (eng : Engine σ) (limit : Nat) (s₀ : σ) :
    Timely eng limit s₀ (initial s₀) where
  manager := rfl
  waits := rfl
  requests := .refl _
  asked := nofun
  holder := nofun
  adds := nofun

theorem Timely.ask (h : Timely eng limit s₀ c) (hc : c.Asks c') : Timely eng limit s₀ c' := by
  obtain ⟨a, ha, rfl⟩ := hc
  refine { h with requests := ?_, asked := fun q hq => ?_ }
  · refine ((List.subperm_append_right [(c.now, a)]).mpr h.requests).trans (List.Perm.subperm ?_)
    rw [ask, List.append_assoc, List.append_assoc]
    exact List.perm_append_comm.append_left _
  · obtain hq | hq := List.mem_append.mp hq
    · exact h.asked q hq
    · obtain rfl := List.mem_singleton.mp hq
      exact ⟨rfl, ha⟩

/-- **Nobody waits for a lock while time passes**: everything asked for has had its turn, and every
add has ended or is not due yet. -/
theorem Timely.of_settled (h : Timely eng limit s₀ c) (hs : c.Settled limit) :
    c.asked = [] ∧ c.manager.lock = none
      ∧ ∀ (i : Nat) (p : Pending) (st : Stage) (wait : Wait),
        c.manager.adds[i]? = some ⟨p, st⟩ → c.waits[i]? = some wait →
          st = .waiting ∧ c.now < wait.due limit ∨ ∃ r, st = .ended r := by
  have hl : c.manager.lock = none := by
    rcases hl : c.manager.lock with _ | i | count
    · rfl
    · obtain ⟨p, e, hi⟩ := h.holder i hl
      exact absurd (.abandon 0 hi) (hs _ _)
    · exact absurd (.shutdown .asPut hl) (hs _ _)
  refine ⟨?_, hl, fun i p st wait hi hw => ?_⟩
  · rcases hq : c.asked with _ | ⟨⟨t, a⟩, back⟩
    · rfl
    · exact absurd (.asked [] hq (.inr hl)) (hs _ _)
  · cases st with
    | waiting =>
      refine .inl ⟨rfl, Wait.look_eq_none_iff.mp ?_⟩
      cases hk : wait.look limit c.now with
      | none => rfl
      | some w => exact absurd (.resolve hi hw hk) (hs _ _)
    | waited w =>
      cases w with
      | ready => exact absurd (.enter 0 hi hl) (hs _ _)
      | failed e => exact absurd (.discard 0 hi nofun) (hs _ _)
      | timedOut => exact absurd (.discard 0 hi nofun) (hs _ _)
    | failed e => exact absurd (.abandon 0 hi) (hs _ _)
    | ended r => exact .inr ⟨r, rfl⟩

/-- **When nothing can be done**: nothing is asked for, nobody has the store, and every add has ended
or finds its wait not over. -/
theorem settled_of_quiet (hq : c.asked = []) (hl : c.manager.lock = none)
    (hadds : ∀ (i : Nat) (p : Pending) (st : Stage), c.manager.adds[i]? = some ⟨p, st⟩ →
      (st = .waiting ∧ ∀ wait, c.waits[i]? = some wait → wait.look limit c.now = none)
        ∨ ∃ r, st = .ended r) : c.Settled limit := by
  intro a left hr
  cases hr with
  | asked _ hm => simp [hq] at hm
  | shutdown _ hl' => cases hl.symm.trans hl'
  | resolve hi hw hk =>
    obtain ⟨-, hnone⟩ | ⟨r, hr⟩ := hadds _ _ _ hi
    · cases (hnone _ hw).symm.trans hk
    · cases hr
  | discard _ hi | enter _ hi | abandon _ hi =>
    obtain ⟨hw, -⟩ | ⟨r, hr⟩ := hadds _ _ _ hi
    · cases hw
    · cases hr

/-- **Nobody is late when time passes.** -/
theorem Timely.pass (h : Timely eng limit s₀ c) (hc : c.Passes limit c') :
    Timely eng limit s₀ c' := by
  obtain ⟨hs, d, hd, rfl⟩ := hc
  obtain ⟨hq, -, hadds⟩ := h.of_settled hs
  refine { h with asked := fun q hm => ?_, adds := fun i p st wait hi hw => ?_ }
  · have hm : q ∈ c.asked := hm
    rw [hq] at hm
    cases hm
  · obtain ⟨rfl, hlt⟩ | ⟨r, rfl⟩ := hadds i p st wait hi hw
    · refine Nat.le_of_not_lt fun hover => ?_
      have hk := hd _ (Nat.le_of_lt hlt) hover i p wait hi hw
      rw [Wait.look_due] at hk
      cases hk
    · exact Nat.le_trans (h.adds i p _ wait hi hw) (Nat.le_add_right _ _)

/-- What is done was asked for or is not, and then it is still asked for. -/
theorem Ready.subperm (h : Timely eng limit s₀ c) (hr : c.Ready limit a left) :
    (c.asked ++ c.done).Subperm (left ++ (c.done ++ [(c.now, a)])) := by
  cases hr with
  | @asked front t _ back hq =>
    obtain ⟨rfl, -⟩ : t = c.now ∧ _ := h.asked (t, a) (by rw [hq]; simp)
    rw [hq, List.append_assoc, List.append_assoc]
    refine List.Perm.subperm (.append_left _ ?_)
    rw [← List.append_assoc]
    exact (List.perm_append_singleton _ _).symm
  | shutdown | resolve | discard | enter | abandon =>
    exact ((List.prefix_append _ _).sublist.append_left _).subperm

/-- Only what is asked for is a request. -/
theorem Ready.asked_sublist (hr : c.Ready limit a left) : left.Sublist c.asked := by
  cases hr with
  | asked _ hq =>
    rw [hq]
    exact (List.sublist_cons_self _ _).append_left _
  | shutdown | resolve | discard | enter | abandon => exact .refl _

/-- An add that finds its wait over finds what is due. -/
theorem Timely.of_resolve (h : Timely eng limit s₀ c) {i : Nat} {w : Waited} {p : Pending}
    {wait : Wait} (hr : c.Ready limit (.resolve i w) left)
    (hi : c.manager.adds[i]? = some ⟨p, .waiting⟩) (hw : c.waits[i]? = some wait) :
    c.now = wait.due limit ∧ w = wait.verdict limit := by
  cases hr with
  | @asked _ t _ _ hq => exact (h.asked (t, .resolve i w) (by rw [hq]; simp)).2.elim
  | @resolve _ _ wait' _ _ hw' hk =>
    obtain rfl : wait' = wait := Option.some.inj (hw'.symm.trans hw)
    have hle : c.now ≤ wait'.due limit := h.adds i p .waiting wait' hi hw
    have hge : ¬ c.now < wait'.due limit := fun hlt => by
      rw [Wait.look_eq_none_iff.mpr hlt] at hk
      cases hk
    have hnow : c.now = wait'.due limit := by omega
    rw [hnow, Wait.look_due] at hk
    exact ⟨hnow, (Option.some.inj hk).symm⟩

/-- **An add that moves on is on time.** -/
theorem Timely.move (h : Timely eng limit s₀ c) (hr : c.Ready limit a left) {i : Nat} {p : Pending}
    {st st' : Stage} {wait : Wait} (hi : c.manager.adds[i]? = some ⟨p, st⟩)
    (hw : c.waits[i]? = some wait) {calls : List Call} {lock : Option Holder} {store : Store}
    (hm : Move eng c.manager i p a st calls st' lock store) : OnTime limit c.now wait st' := by
  have hon := h.adds i p st wait hi hw
  cases hm with
  | resolved => exact h.of_resolve hr hi hw
  | gaveUp | entered | abandoned => exact Nat.le_of_eq hon.1.symm
  | failed => exact ⟨hon.1, hon.2.symm⟩

/-- **Who has the lock can go on**: only an add whose torrent was not started keeps it. -/
theorem failed_of_lock {c : Concurrent σ} {calls : List Call} {adds : List Adding}
    {lock : Option Holder} {store : Store} (he : Effect eng c a calls adds lock store)
    (hx : ∀ i, c.lock = some (.add i) → ∃ p e, c.adds[i]? = some ⟨p, .failed e⟩) {i : Nat}
    (hl : lock = some (.add i)) : ∃ p e, adds[i]? = some ⟨p, .failed e⟩ := by
  cases he with
  | idle | refused | kept | removed | switched => exact hx i hl
  | begun =>
    obtain ⟨p, e, hi⟩ := hx i hl
    exact ⟨p, e, by rw [List.getElem?_append_left (List.getElem?_eq_some_iff.mp hi).1, hi]⟩
  | tornDown | cleared => cases hl
  | @moved _ j q st st' _ _ _ hj hm =>
    have other : c.lock = some (.add i) → (∀ e, st ≠ .failed e) →
        ∃ p e, (c.adds.set j ⟨q, st'⟩)[i]? = some ⟨p, .failed e⟩ := fun hl hst => by
      obtain ⟨p, e, hi⟩ := hx i hl
      refine ⟨p, e, ?_⟩
      rw [List.getElem?_set_ne, hi]
      rintro rfl
      cases hj.symm.trans hi
      exact hst e rfl
    cases hm with
    | resolved => exact other hl nofun
    | gaveUp => exact other hl nofun
    | entered => exact other hl nofun
    | @failed _ e =>
      obtain rfl := Holder.add.inj (Option.some.inj hl)
      exact ⟨q, e, List.getElem?_set_self (List.getElem?_eq_some_iff.mp hj).1⟩
    | abandoned => cases hl

/-- **Whatever is done, is done on time.** -/
theorem Timely.work (h : Timely eng limit s₀ c) (hc : c.Works eng limit c') :
    Timely eng limit s₀ c' := by
  obtain ⟨a, left, hr, rfl⟩ := hc
  have he := (exists_effect eng c.manager a).1
  refine ⟨?_, length_waits_act h.waits a left, h.requests.trans (hr.subperm h),
    fun q hq => h.asked q (hr.asked_sublist.subset hq), fun i hl => failed_of_lock he h.holder hl,
    fun i p st wait hi hw => ?_⟩
  · rw [act, List.map_append, h.manager, Concurrent.run_append]
    rfl
  · rw [waits_act h.waits] at hw
    split at hw
    · obtain ⟨⟨p₀, st₀⟩, hold⟩ : ∃ x, c.manager.adds[i]? = some x :=
        ⟨_, List.getElem?_eq_getElem ‹_›⟩
      obtain hsame | ⟨st', hnew, hm⟩ := he.stage_cases hold
      · cases hsame.symm.trans hi
        exact h.adds i p st wait hold hw
      · cases hnew.symm.trans hi
        exact h.move hr hold hw hm
    · obtain hold | ⟨rfl, -⟩ | ⟨_, hold, -⟩ := he.stage_inv hi
      · exact absurd (List.getElem?_eq_some_iff.mp hold).1 ‹_›
      · obtain ⟨x, -, rfl⟩ := Option.map_eq_some_iff.mp hw
        exact Wait.since_le_due limit ⟨c.now, _⟩
      · exact absurd (List.getElem?_eq_some_iff.mp hold).1 ‹_›

theorem Timely.step (h : Timely eng limit s₀ c) (hc : c.Step eng limit c') :
    Timely eng limit s₀ c' :=
  hc.elim h.ask fun hc => hc.elim h.work h.pass

/-- **Everything that can come about is on time.** -/
theorem timely (hc : Reached eng limit s₀ c) : Timely eng limit s₀ c := by
  induction hc with
  | refl => exact timely_initial eng limit s₀
  | tail _ hs ih => exact ih.step hs

/-! ## Time goes on -/

/-- How many steps an add is from its end. -/
def rank : Stage → Nat
  | .waiting => 3
  | .waited _ => 2
  | .failed _ => 1
  | .ended _ => 0

/-- How many steps of the adds are still to be made. -/
def ranks : List Adding → Nat
  | [] => 0
  | x :: adds => rank x.stage + ranks adds

theorem ranks_append (adds adds' : List Adding) :
    ranks (adds ++ adds') = ranks adds + ranks adds' := by
  induction adds with
  | nil => exact (Nat.zero_add _).symm
  | cons x adds ih => rw [List.cons_append, ranks, ranks, ih, Nat.add_assoc]

/-- A shutdown that is under way is still to be ended. -/
def closing : Option Holder → Nat
  | some (.shutdown _) => 1
  | _ => 0

/-- **What is still to be done**, apart from the sessions that a shutdown tears down. -/
def effort (c : Clocked σ) : Nat :=
  5 * c.asked.length + ranks c.manager.adds + closing c.manager.lock

/-- An add that gets further has less before it. -/
theorem ranks_set {adds : List Adding} {i : Nat} {p : Pending} {st st' : Stage}
    (hi : adds[i]? = some ⟨p, st⟩) (h : rank st' < rank st) :
    ranks (adds.set i ⟨p, st'⟩) < ranks adds := by
  obtain ⟨hlt, he⟩ := List.getElem?_eq_some_iff.mp hi
  have hsplit : adds = adds.take i ++ ⟨p, st⟩ :: adds.drop (i + 1) := by
    rw [← he, List.getElem_cons_drop, List.take_append_drop]
  rw [List.set_eq_take_append_cons_drop, if_pos hlt]
  conv_rhs => rw [hsplit]
  rw [ranks_append, ranks_append, ranks, ranks]
  exact Nat.add_lt_add_left (Nat.add_lt_add_right h _) _

/-- **A request that has its turn begins one add at most**, and one shutdown. -/
theorem ranks_of_request {c : Concurrent σ} {calls : List Call} {adds : List Adding}
    {lock : Option Holder} {store : Store} (he : Effect eng c a calls adds lock store)
    (ha : a.IsRequest) :
    ranks adds + closing lock ≤ ranks c.adds + closing c.lock + 4 := by
  cases he with
  | idle | refused | kept | removed | switched => omega
  | begun => simp [ranks_append, ranks, rank]; omega
  | tornDown | cleared => simp [closing]; omega
  | moved _ hm => cases hm <;> cases ha

variable (eng) in
/-- **How an add without metadata ends.** -/
theorem step_conclude_of_error {c : Concurrent σ} {i : Nat} {p : Pending} {w : Waited} {e : Error}
    (hi : c.adds[i]? = some ⟨p, .waited w⟩) (hw : w.error? = some e) (clock : Int) :
    c.step eng (.conclude i clock)
      = { c with sessions := ((Session.conclude eng p w clock).run c.sessions).2 }.advance i p
        (.ended (.error e)) := by
  simp only [Concurrent.step, Concurrent.conclude, hi]
  cases w with
  | ready => cases hw
  | failed e' =>
    cases hw
    rfl
  | timedOut =>
    cases hw
    rfl

variable (eng) in
/-- **How an add gets hold of the store**: it ends, or it keeps the store if its torrent is not
started. -/
theorem step_conclude_of_ready {c : Concurrent σ} {i : Nat} {p : Pending}
    (hi : c.adds[i]? = some ⟨p, .waited .ready⟩) (hl : c.lock = none) (clock : Int) :
    (∃ id t, (enter eng p clock).run c.sessions = (.ok id, t)
        ∧ c.step eng (.conclude i clock) = { c with sessions := t }.advance i p (.ended (.ok id)))
      ∨ ∃ e t, (enter eng p clock).run c.sessions = (.error e, t)
        ∧ c.step eng (.conclude i clock)
          = { c with sessions := t, lock := some (.add i) }.advance i p (.failed e) := by
  simp only [Concurrent.step, Concurrent.conclude, hi, hl]
  rcases (enter eng p clock).run c.sessions with ⟨e | id, t⟩
  · exact .inr ⟨e, t, rfl, rfl⟩
  · exact .inl ⟨id, t, rfl, rfl⟩

variable (eng) in
/-- **How an add ends whose torrent was not started.** -/
theorem step_conclude_of_failed {c : Concurrent σ} {i : Nat} {p : Pending} {e : Error}
    (hi : c.adds[i]? = some ⟨p, .failed e⟩) (clock : Int) :
    c.step eng (.conclude i clock)
      = { c with sessions := ((abandon eng p e).run c.sessions).2, lock := none }.advance i p
        (.ended (.error e)) := by
  simp only [Concurrent.step, Concurrent.conclude, hi]
  rfl

variable (eng) in
/-- **How the wait of an add ends.** -/
theorem step_resolve {c : Concurrent σ} {i : Nat} {p : Pending}
    (hi : c.adds[i]? = some ⟨p, .waiting⟩) (w : Waited) :
    c.step eng (.resolve i w)
      = { c with sessions := ((Session.resolve p w).run c.sessions).2 }.advance i p
        (.waited w) := by
  simp only [Concurrent.step, hi]
  rfl

variable (eng) in
/-- **How a shutdown goes on**: it tears a session down, or it is over. -/
theorem step_shutdown_of_lock (order : Order) {c : Concurrent σ} {count : Nat}
    (hl : c.lock = some (.shutdown count)) :
    (c.step eng (.shutdown order)).adds = c.adds
      ∧ ((c.step eng (.shutdown order)).lock = none
        ∨ (c.step eng (.shutdown order)).lock = c.lock
          ∧ (c.step eng (.shutdown order)).sessions.store.size < c.sessions.store.size) := by
  simp only [Concurrent.step, hl, Concurrent.tearDown]
  cases he : order.met c.sessions.store with
  | nil => exact ⟨rfl, .inl rfl⟩
  | cons entry es =>
    obtain ⟨r, hd⟩ := tearDown_does eng entry c.sessions
    refine ⟨rfl, .inr ⟨rfl, ?_⟩⟩
    rw [show ({ c.perform (Session.tearDown eng entry) with
      lock := some (.shutdown count) } : Concurrent σ).sessions.store = _ from hd.store]
    exact Table.size_erase_lt ((order.perm _).mem_iff.mp (he ▸ List.mem_cons_self))

/-- What an add does before it ends brings it nearer to its end. -/
theorem effort_lt_of_advance {i : Nat} {p : Pending} {st st' : Stage} {m : Concurrent σ}
    (hi : c.manager.adds[i]? = some ⟨p, st⟩) (ha : c.manager.step eng a = m.advance i p st')
    (hm : m.adds = c.manager.adds) (hl : closing m.lock ≤ closing c.manager.lock)
    (hr : rank st' < rank st) : (c.act eng a c.asked).effort < c.effort := by
  have := ranks_set hi hr
  simp only [effort, act, ha, Concurrent.advance, hm]
  omega

/-- **Whatever is done leaves less to do.** -/
theorem Works.lt (hq : ∀ q ∈ c.asked, q.2.IsRequest) (h : c.Works eng limit c') :
    Prod.Lex (· < ·) (· < ·) (c'.effort, c'.manager.sessions.store.size)
      (c.effort, c.manager.sessions.store.size) := by
  obtain ⟨a, left, hr, rfl⟩ := h
  cases hr with
  | @asked front t _ back hm _ =>
    have hreq : a.IsRequest := hq (t, a) (by rw [hm]; simp)
    have := ranks_of_request (exists_effect eng c.manager a).1 hreq
    refine .left _ _ ?_
    simp only [effort, act, hm, List.length_append, List.length_cons]
    omega
  | @shutdown order count hl =>
    obtain ⟨ha, hnone | ⟨hsame, hlt⟩⟩ := step_shutdown_of_lock eng order hl
    · refine .left _ _ ?_
      simp only [effort, act, ha, hnone, hl, closing]
      omega
    · have heq : (c.act eng (.shutdown order) c.asked).effort = c.effort := by
        simp only [effort, act, ha, hsame]
      rw [heq]
      exact .right _ hlt
  | @resolve i p wait w hi _ _ =>
    exact .left _ _ (effort_lt_of_advance hi (step_resolve eng hi w) rfl (Nat.le_refl _)
      (Nat.lt_succ_self 2))
  | @discard clock i p w hi hw =>
    obtain ⟨e, he⟩ := Waited.exists_error hw
    exact .left _ _ (effort_lt_of_advance hi (step_conclude_of_error eng hi he clock) rfl
      (Nat.le_refl _) Nat.two_pos)
  | @enter clock i p hi hl =>
    obtain ⟨id, t, -, ha⟩ | ⟨e, t, -, ha⟩ := step_conclude_of_ready eng hi hl clock
    · exact .left _ _ (effort_lt_of_advance hi ha rfl (Nat.le_refl _) Nat.two_pos)
    · exact .left _ _ (effort_lt_of_advance hi ha rfl (Nat.zero_le _) Nat.one_lt_two)
  | @abandon clock i p e hi =>
    exact .left _ _ (effort_lt_of_advance hi (step_conclude_of_failed eng hi clock) rfl
      (Nat.zero_le _) Nat.one_pos)

variable (eng limit) in
/-- **Nothing can be done without end at one time.** -/
theorem wellFounded_works (s₀ : σ) :
    WellFounded fun c' c : Clocked σ => Timely eng limit s₀ c ∧ c.Works eng limit c' := by
  have wf := (Prod.lex Nat.lt_wfRel Nat.lt_wfRel).wf
  refine Subrelation.wf ?_
    (InvImage.wf (fun c : Clocked σ => (c.effort, c.manager.sessions.store.size)) wf)
  rintro c' c ⟨ht, hw⟩
  exact hw.lt fun q hq => (ht.asked q hq).2

/-- **All that can be done at one time gets done.** -/
theorem Timely.exists_settled (h : Timely eng limit s₀ c) :
    ∃ c', ReflTransGen (Works eng limit) c c' ∧ c'.now = c.now ∧ c'.Settled limit
      ∧ Timely eng limit s₀ c' := by
  induction c using (wellFounded_works eng limit s₀).induction with
  | h c ih =>
    by_cases hs : c.Settled limit
    · exact ⟨c, .refl, rfl, hs, h⟩
    · obtain ⟨a, left, hr⟩ : ∃ a left, c.Ready limit a left := by simpa [Settled] using hs
      have hw : c.Works eng limit (c.act eng a left) := ⟨a, left, hr, rfl⟩
      obtain ⟨c', hc, hn, hs', ht⟩ := ih _ ⟨h, hw⟩ (h.work hw)
      exact ⟨c', hc.head hw, hn, hs', ht⟩

/-- An add keeps its torrent and its wait. -/
theorem Timely.keeps (h : Timely eng limit s₀ c) (hc : c.Step eng limit c') {i : Nat} {p : Pending}
    {st : Stage} {wait : Wait} (hi : c.manager.adds[i]? = some ⟨p, st⟩)
    (hw : c.waits[i]? = some wait) :
    (∃ st', c'.manager.adds[i]? = some ⟨p, st'⟩) ∧ c'.waits[i]? = some wait := by
  obtain ⟨a, -, rfl⟩ | ⟨a, left, -, rfl⟩ | ⟨-, d, -, rfl⟩ := hc
  · exact ⟨⟨st, hi⟩, hw⟩
  · have hlt := (List.getElem?_eq_some_iff.mp hi).1
    exact ⟨(exists_effect eng c.manager a).1.exists_stage hi,
      by rw [waits_act h.waits, if_pos hlt, hw]⟩
  · exact ⟨⟨st, hi⟩, hw⟩

/-- An add keeps its torrent and its wait in the long run. -/
theorem Timely.keeps_works (h : Timely eng limit s₀ c) (hc : ReflTransGen (Works eng limit) c c')
    {i : Nat} {p : Pending} {st : Stage} {wait : Wait}
    (hi : c.manager.adds[i]? = some ⟨p, st⟩) (hw : c.waits[i]? = some wait) :
    (∃ st', c'.manager.adds[i]? = some ⟨p, st'⟩) ∧ c'.waits[i]? = some wait := by
  induction hc using ReflTransGen.head_induction_on generalizing st with
  | refl => exact ⟨⟨st, hi⟩, hw⟩
  | head hs _ ih =>
    obtain ⟨⟨st', hi'⟩, hw'⟩ := h.keeps (.inr (.inl hs)) hi hw
    exact ih (h.work hs) hi' hw'

/-- **Every add ends**, even if nothing more is asked for. -/
theorem Timely.exists_ended (h : Timely eng limit s₀ c) {i : Nat} {p : Pending} {st : Stage}
    {wait : Wait} (hi : c.manager.adds[i]? = some ⟨p, st⟩) (hw : c.waits[i]? = some wait) :
    ∃ c', ReflTransGen (Goes eng limit) c c' ∧ ∃ r, c'.manager.adds[i]? = some ⟨p, .ended r⟩ := by
  -- each round brings the end of the wait nearer, as long as it is not over
  induction hn : wait.due limit - c.now using Nat.strongRecOn generalizing c st with
  | ind n ih =>
    obtain ⟨c₁, hc₁, hnow, hs₁, ht₁⟩ := h.exists_settled
    have hgoes : ReflTransGen (Goes eng limit) c c₁ := hc₁.lift id fun _ _ => .inl
    obtain ⟨⟨st₁, hi₁⟩, hw₁⟩ := h.keeps_works hc₁ hi hw
    obtain ⟨rfl, hlt⟩ | ⟨r, rfl⟩ := (ht₁.of_settled hs₁).2.2 i p st₁ wait hi₁ hw₁
    · have hp : c₁.Passes limit (c₁.pass 1) := by
        refine ⟨hs₁, 1, fun t hge hle j q wait' hj hw' => ?_, rfl⟩
        obtain rfl : t = c₁.now := by omega
        obtain ⟨-, hlt'⟩ | ⟨r, hr⟩ := (ht₁.of_settled hs₁).2.2 j q _ wait' hj hw'
        · exact Wait.look_eq_none_iff.mpr hlt'
        · cases hr
      have hless : wait.due limit - (c₁.now + 1) < n := by omega
      obtain ⟨c₂, hc₂, hend⟩ := ih _ hless (ht₁.pass hp) hi₁ hw₁ rfl
      exact ⟨c₂, (hgoes.tail (.inr hp)).trans hc₂, hend⟩
    · exact ⟨c₁, hgoes, r, hi₁⟩

end Clocked

end HopTorrent.Session
