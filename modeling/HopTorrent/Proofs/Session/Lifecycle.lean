import HopTorrent.Proofs.Session.Book
import HopTorrent.Proofs.Session.Ledger
import Mathlib.Data.List.Chain
import Mathlib.Logic.Relation

/-!
# Proofs/Session/Lifecycle — what successive polls of a transfer see

The status of a transfer is computed anew at each poll.  Once all content is there it stays there,
so a transfer that was seen complete is complete at every later poll; and a transfer with a verified
byte is never seen to start again.  One way remains to leave the lifecycle: a transfer that was
paused before its first byte is resumed, and looks as if it were just starting.  Whether successive
polls follow the lifecycle depends on nothing else (`follows_lifecycle_iff`).

`Turn` is a step of one operation, before which the engine may have moved on by itself.
-/

namespace HopTorrent

/-! ## The lifecycle -/

namespace Status

/-- **One move along the lifecycle.** -/
inductive Leads : Status → Status → Prop
  | begun : Leads starting downloading
  | halted : Leads starting paused
  | paused : Leads downloading paused
  | resumed : Leads paused downloading
  /-- All content is verified: from then on it matters only whether some of it is uploaded. -/
  | complete {a b : Status} (hb : b.isComplete = true) : Leads a b

/-- **The lifecycle**: any number of moves. -/
def Lifecycle : Status → Status → Prop := Relation.ReflTransGen Leads

/-- How far a transfer got: it waits for its first byte, is under way, or is complete. -/
def phase : Status → Nat
  | starting => 0
  | downloading | paused => 1
  | completed | seeding => 2

/-- **The lifecycle never goes back to an earlier phase**, and that is all it asks. -/
theorem lifecycle_iff {a b : Status} : Lifecycle a b ↔ a.phase ≤ b.phase := by
  constructor
  · intro h
    induction h with
    | refl => exact le_rfl
    | @tail b c _ hm ih =>
      refine ih.trans ?_
      cases hm with
      | begun | halted | paused | resumed => decide
      | complete hc => cases b <;> cases c <;> first | decide | cases hc
  · intro h
    cases b with
    | completed | seeding => exact .single (.complete rfl)
    | starting =>
      cases a with
      | starting => exact .refl
      | downloading | paused | completed | seeding => simp [phase] at h
    | downloading =>
      cases a with
      | starting => exact .single .begun
      | downloading => exact .refl
      | paused => exact .single .resumed
      | completed | seeding => simp [phase] at h
    | paused =>
      cases a with
      | starting => exact .single .halted
      | downloading => exact .single .paused
      | paused => exact .refl
      | completed | seeding => simp [phase] at h

instance : DecidableRel Lifecycle := fun _ _ => decidable_of_iff _ lifecycle_iff.symm

theorem eq_starting_iff {s : Status} : s = starting ↔ s.phase = 0 := by
  cases s <;> simp [phase]

theorem isComplete_iff {s : Status} : s.isComplete = true ↔ s.phase = 2 := by
  cases s <;> simp [phase, isComplete]

/-- **How far a transfer got** follows from its verified bytes and the pause flag. -/
theorem phase_infer {length : Nat} (hl : 0 < length) (completed : Nat) (isPaused : Bool)
    (rate : Nat) :
    (infer completed length isPaused rate).phase
      = if length ≤ completed then 2 else if isPaused = true ∨ 0 < completed then 1 else 0 := by
  rw [infer]
  by_cases hc : length ≤ completed
  · rw [if_pos ⟨hl, hc⟩, if_pos hc]
    split <;> rfl
  · rw [if_neg fun h => hc h.2, if_neg hc]
    cases isPaused with
    | true => rfl
    | false =>
      by_cases hz : completed = 0
      · rw [if_neg Bool.false_ne_true, if_pos (.inl hz), if_neg (by simp [hz])]
        rfl
      · rw [if_neg Bool.false_ne_true, if_neg (by omega), if_pos (by omega)]
        rfl

end Status

/-! ## Torrents that fill up -/

namespace Engine

variable {σ : Type} {eng : Engine σ} {Given : σ → Handle → Prop} {e e' e'' : σ}

/-- From one state to a later one no torrent given before loses a byte or changes its length. -/
def Onward (eng : Engine σ) (Given : σ → Handle → Prop) (e e' : σ) : Prop :=
  ∀ h, Given e h → Given e' h ∧ (eng.torrent e' h).length = (eng.torrent e h).length
    ∧ (eng.torrent e h).completed ≤ (eng.torrent e' h).completed

/-- **Torrents only fill up**: whatever is asked of the engine, those it gave (`Given` tells which)
keep their length, which is positive, and lose no verified byte. -/
structure FillsUp (eng : Engine σ) (Given : σ → Handle → Prop) : Prop where
  given : ∀ m e h, (eng.addMagnet m e).1 = .ok h → Given (eng.addMagnet m e).2 h
  length_pos : ∀ e h, Given e h → 0 < (eng.torrent e h).length
  addMagnet : ∀ m e, eng.Onward Given e (eng.addMagnet m e).2
  perform : ∀ op h e, eng.Onward Given e (eng.perform op h e).2

theorem Onward.refl (e : σ) : eng.Onward Given e e := fun _ hg => ⟨hg, rfl, le_rfl⟩

theorem Onward.trans (h : eng.Onward Given e e') (k : eng.Onward Given e' e'') :
    eng.Onward Given e e'' := by
  intro g hg
  obtain ⟨hg', hl, hc⟩ := h g hg
  obtain ⟨hg'', hl', hc'⟩ := k g hg'
  exact ⟨hg'', hl'.trans hl, hc.trans hc'⟩

/-- What a history does to the torrents that were given before, and to those it gives. -/
theorem FillsUp.ran (hf : eng.FillsUp Given) {calls : List Call} (hr : eng.Ran e calls e') :
    eng.Onward Given e e' ∧ ∀ h ∈ Call.given calls, Given e' h := by
  induction hr with
  | start => exact ⟨.refl e, nofun⟩
  | @call _ t _ _ _ hm ih =>
    obtain ⟨ho, hg⟩ := ih
    cases hm with
    | add m =>
      refine ⟨ho.trans (hf.addMagnet m t), fun h hh => ?_⟩
      rw [Call.given_append, List.mem_append] at hh
      rcases hh with hh | hh
      · exact (hf.addMagnet m t h (hg h hh)).1
      · cases hr : (eng.addMagnet m t).1 with
        | error x =>
          rw [hr] at hh
          cases hh
        | ok g =>
          rw [hr, Call.given_add_ok, List.mem_singleton] at hh
          subst hh
          exact hf.given m t h hr
    | perform op g =>
      refine ⟨ho.trans (hf.perform op g t), fun h hh => ?_⟩
      rw [Call.given_append, Call.given_perform, List.append_nil] at hh
      exact (hf.perform op g t h (hg h hh)).1

end Engine

namespace Session

variable {σ : Type} {eng : Engine σ} {Given : σ → Handle → Prop}

/-! ## Runs during which the engine moves on -/

/-- A step of one operation.  Until then the engine may have moved on by itself. -/
structure Turn (σ : Type) where
  meanwhile : σ → σ
  action : Action

/-- The state in which a turn finds the manager. -/
def Turn.before (t : Turn σ) (c : Concurrent σ) : Concurrent σ :=
  { c with sessions := { c.sessions with engine := t.meanwhile c.sessions.engine } }

/-- The state that a turn leaves. -/
def Turn.step (eng : Engine σ) (c : Concurrent σ) (t : Turn σ) : Concurrent σ :=
  (t.before c).step eng t.action

/-- The state that turns leave. -/
def Concurrent.play (eng : Engine σ) (c : Concurrent σ) (turns : List (Turn σ)) : Concurrent σ :=
  turns.foldl (Turn.step eng) c

/-- What a step shows of a transfer. -/
def Concurrent.shown? (eng : Engine σ) (c : Concurrent σ) (id : InfoHash) :
    Action → Option Snapshot
  | .get j now =>
    if c.lock = none ∧ j = id then ((Session.get? eng id now).run c.sessions).1.toOption else none
  | .list now =>
    if c.lock = none then ((Session.list eng now).run c.sessions).1.find? (·.infoHash = id)
    else none
  | _ => none

/-- **A poll of a transfer**: what it shows, and whether the transfer is paused at that moment. -/
structure Reading where
  view : Snapshot
  paused : Bool

/-- The poll of a transfer that a step is, if it is one. -/
def Concurrent.reading? (eng : Engine σ) (c : Concurrent σ) (id : InfoHash) (a : Action) :
    Option Reading :=
  match c.shown? eng id a, c.sessions.store.get? id with
  | some view, some session => some ⟨view, session.paused⟩
  | _, _ => none

variable (eng) in
/-- **The polls of a transfer during a run**, in order. -/
def readings (id : InfoHash) (c : Concurrent σ) : List (Turn σ) → List Reading
  | [] => []
  | t :: ts => ((t.before c).reading? eng id t.action).toList ++ readings id (t.step eng c) ts

/-- **What is shown of a transfer is a view of its session.** -/
theorem Concurrent.get?_of_shown? {c : Concurrent σ} {id : InfoHash} {a : Action} {view : Snapshot}
    (hs : c.shown? eng id a = some view) :
    ∃ session now, c.sessions.store.get? id = some session
      ∧ view = (session.sampled (eng.torrent c.sessions.engine session.handle) now).view
        (eng.torrent c.sessions.engine session.handle) id := by
  cases a with
  | get j now =>
    rw [shown?] at hs
    split at hs
    · obtain ⟨-, he⟩ | ⟨session, hg, he⟩ := get?_cases eng id now c.sessions
      · rw [he] at hs
        cases hs
      · rw [he] at hs
        exact ⟨session, now, hg, (Option.some.inj hs).symm⟩
    · cases hs
  | list now =>
    rw [shown?] at hs
    split at hs
    · have hid := List.find?_some hs
      have hm := (list_perm eng now c.sessions).mem_iff.mp (List.mem_of_find?_eq_some hs)
      obtain ⟨⟨j, session⟩, he, rfl⟩ := List.mem_map.mp hm
      obtain rfl : j = id := of_decide_eq_true hid
      exact ⟨session, now, (c.sessions.store.mem_entries_iff j session).mp he, rfl⟩
    · cases hs
  | begin | resolve | conclude | remove | pause | resume | shutdown => cases hs

/-- A reading tells the verified bytes of a torrent of some length, and the status they imply. -/
structure Reading.Of (r : Reading) (t : Torrent) : Prop where
  downloaded : r.view.downloaded = t.completed
  status : ∃ rate, r.view.status = .infer t.completed t.length r.paused rate

/-- **A poll reads the torrent of the stored session.** -/
theorem Concurrent.of_reading? {c : Concurrent σ} {id : InfoHash} {a : Action} {r : Reading}
    (hr : c.reading? eng id a = some r) :
    ∃ h, held c.sessions.store id = some h ∧ r.Of (eng.torrent c.sessions.engine h) := by
  rw [reading?] at hr
  split at hr
  · rename_i view session hv hs
    obtain ⟨session', now, hs', rfl⟩ := get?_of_shown? hv
    obtain rfl : session = session' := Option.some.inj (hs.symm.trans hs')
    cases hr
    exact ⟨session.handle, held_of_get? hs, rfl, _, rfl⟩
  · cases hr

/-! ## What a turn leaves -/

/-- **A stored session stays** unless it is removed or the service goes down. -/
theorem Effect.held_stays {c : Concurrent σ} {a : Action} {calls : List Call} {adds : List Adding}
    {lock : Option Holder} {store : Store} (he : Effect eng c a calls adds lock store)
    {id : InfoHash} (hr : a ≠ .remove id) (hd : ∀ order, a ≠ .shutdown order) {h : Handle}
    (hh : held c.sessions.store id = some h) : held store id = some h := by
  cases he with
  | idle hs | switched _ _ _ _ hs => rwa [hs]
  | refused | begun | kept => exact hh
  | removed =>
    rw [held_erase, if_neg, hh]
    rintro rfl
    exact hr rfl
  | tornDown | cleared => exact absurd rfl (hd _)
  | moved _ hm =>
    cases hm with
    | resolved | gaveUp | failed | abandoned => exact hh
    | entered _ hx =>
      cases hx with
      | live | duplicate => exact hh
      | stored hn =>
        rw [held_put, if_neg, hh]
        rintro rfl
        rw [held, hn] at hh
        cases hh

/-- The torrents of all adds and of all stored sessions were given by the engine. -/
structure Vouched (Given : σ → Handle → Prop) (c : Concurrent σ) : Prop where
  adds : ∀ h ∈ c.handles, Given c.sessions.engine h
  stored : ∀ id h, held c.sessions.store id = some h → Given c.sessions.engine h

/-- A step keeps to torrents that were given, and they only fill up. -/
theorem Vouched.act (hf : eng.FillsUp Given) {c : Concurrent σ} (hv : Vouched Given c)
    (a : Action) :
    Vouched Given (c.step eng a)
      ∧ eng.Onward Given c.sessions.engine (c.step eng a).sessions.engine := by
  obtain ⟨he, hr⟩ := exists_effect eng c a
  obtain ⟨ho, hg⟩ := hf.ran hr
  refine ⟨⟨fun h hh => ?_, fun id h hh => ?_⟩, ho⟩
  · rw [Concurrent.handles, he.map_handle, List.mem_append] at hh
    exact hh.elim (fun hh => (ho h (hv.adds h hh)).1) (hg h)
  · obtain hold | ⟨i, now, p, -, hi, rfl, -⟩ := he.held_cases hh
    · exact (ho h (hv.stored id h hold)).1
    · exact (ho _ (hv.adds _ (List.mem_map.mpr ⟨_, List.mem_of_getElem? hi, rfl⟩))).1

/-- A turn keeps to torrents that were given, and they only fill up. -/
theorem Vouched.turn (hf : eng.FillsUp Given) {c : Concurrent σ} (hv : Vouched Given c)
    {t : Turn σ} (ht : ∀ e, eng.Onward Given e (t.meanwhile e)) :
    Vouched Given (t.before c) ∧ Vouched Given (t.step eng c)
      ∧ eng.Onward Given c.sessions.engine (t.before c).sessions.engine
      ∧ eng.Onward Given (t.before c).sessions.engine (t.step eng c).sessions.engine := by
  have ho := ht c.sessions.engine
  have hb : Vouched Given (t.before c) :=
    ⟨fun h hh => (ho h (hv.adds h hh)).1, fun id h hh => (ho h (hv.stored id h hh)).1⟩
  obtain ⟨hs, ho'⟩ := hb.act hf t.action
  exact ⟨hb, hs, ho, ho'⟩

/-- **A stored session stays over a turn**, and its torrent fills up before the step and during
it. -/
theorem Vouched.stays (hf : eng.FillsUp Given) {c : Concurrent σ} (hv : Vouched Given c)
    {t : Turn σ} (ht : ∀ e, eng.Onward Given e (t.meanwhile e)) {id : InfoHash}
    (hr : t.action ≠ .remove id) (hd : ∀ order, t.action ≠ .shutdown order) {h : Handle}
    (hh : held c.sessions.store id = some h) :
    held (t.step eng c).sessions.store id = some h
      ∧ ((eng.torrent (t.before c).sessions.engine h).length
          = (eng.torrent c.sessions.engine h).length
        ∧ (eng.torrent c.sessions.engine h).completed
          ≤ (eng.torrent (t.before c).sessions.engine h).completed)
      ∧ (eng.torrent (t.step eng c).sessions.engine h).length
          = (eng.torrent (t.before c).sessions.engine h).length
        ∧ (eng.torrent (t.before c).sessions.engine h).completed
          ≤ (eng.torrent (t.step eng c).sessions.engine h).completed := by
  obtain ⟨hb, -, ho, ho'⟩ := hv.turn hf ht
  exact ⟨(exists_effect eng (t.before c) t.action).1.held_stays hr hd hh,
    (ho h (hv.stored id h hh)).2, (ho' h (hb.stored id h hh)).2⟩

/-- Turns keep to torrents that were given. -/
theorem Vouched.play (hf : eng.FillsUp Given) {turns : List (Turn σ)}
    (ht : ∀ t ∈ turns, ∀ e, eng.Onward Given e (t.meanwhile e)) {c : Concurrent σ}
    (hv : Vouched Given c) : Vouched Given (c.play eng turns) := by
  induction turns generalizing c with
  | nil => exact hv
  | cons t ts ih =>
    exact ih (fun t' h => ht t' (List.mem_cons_of_mem t h))
      (hv.turn hf (ht t List.mem_cons_self)).2.1

/-! ## Successive polls -/

/-- The polls of one transfer: of one length, which is positive, and with ever more bytes. -/
structure Filling (length : Nat) (rs : List Reading) : Prop where
  status : ∀ r ∈ rs, ∃ rate, r.view.status = .infer r.view.downloaded length r.paused rate
  mono : rs.Pairwise fun p q => p.view.downloaded ≤ q.view.downloaded

/-- One more poll, at which no more bytes were there than at the others. -/
theorem Filling.cons {length : Nat} {r : Reading} {rs : List Reading} (hf : Filling length rs)
    (hs : ∃ rate, r.view.status = .infer r.view.downloaded length r.paused rate)
    (hle : ∀ q ∈ rs, r.view.downloaded ≤ q.view.downloaded) : Filling length (r :: rs) where
  status := List.forall_mem_cons.mpr ⟨hs, hf.status⟩
  mono := List.pairwise_cons.mpr ⟨hle, hf.mono⟩

/-- **The polls of a transfer see it fill up**, from the bytes it has when they begin. -/
theorem readings_filling (hf : eng.FillsUp Given) {id : InfoHash} {turns : List (Turn σ)}
    (hm : ∀ t ∈ turns, ∀ e, eng.Onward Given e (t.meanwhile e))
    (hk : ∀ t ∈ turns, t.action ≠ .remove id ∧ ∀ order, t.action ≠ .shutdown order)
    {c : Concurrent σ} (hv : Vouched Given c) :
    ∃ length, 0 < length ∧ Filling length (readings eng id c turns)
      ∧ ∀ h, held c.sessions.store id = some h →
        length = (eng.torrent c.sessions.engine h).length
          ∧ ∀ r ∈ readings eng id c turns,
            (eng.torrent c.sessions.engine h).completed ≤ r.view.downloaded := by
  induction turns generalizing c with
  | nil =>
    cases hh : held c.sessions.store id with
    | none => exact ⟨1, Nat.one_pos, ⟨nofun, .nil⟩, nofun⟩
    | some h =>
      refine ⟨_, hf.length_pos _ h (hv.stored id h hh), ⟨nofun, .nil⟩, fun h' he => ?_⟩
      cases he
      exact ⟨rfl, nofun⟩
  | cons t ts ih =>
    have ht := hm t List.mem_cons_self
    obtain ⟨hr, hd⟩ := hk t List.mem_cons_self
    obtain ⟨length, hl, hfill, hfrom⟩ := ih (fun t' h => hm t' (List.mem_cons_of_mem t h))
      (fun t' h => hk t' (List.mem_cons_of_mem t h)) (hv.turn hf ht).2.1
    -- the poll that this turn may be reads the torrent as it is before the step
    have hnow : ∀ h, held c.sessions.store id = some h →
        length = (eng.torrent (t.before c).sessions.engine h).length
          ∧ ∀ r ∈ readings eng id (t.step eng c) ts,
            (eng.torrent (t.before c).sessions.engine h).completed ≤ r.view.downloaded := by
      intro h hh
      obtain ⟨hh', -, hlen, hle⟩ := hv.stays hf ht hr hd hh
      obtain ⟨hl', hle'⟩ := hfrom h hh'
      exact ⟨hl'.trans hlen, fun r hr => hle.trans (hle' r hr)⟩
    refine ⟨length, hl, ?_, fun h hh => ?_⟩
    · cases hq : (t.before c).reading? eng id t.action with
      | none =>
        rw [readings, hq]
        exact hfill
      | some r =>
        obtain ⟨h, hh, hdl, rate, hrs⟩ := Concurrent.of_reading? hq
        obtain ⟨hlen, hle⟩ := hnow h hh
        rw [readings, hq]
        exact hfill.cons ⟨rate, by rw [hrs, hdl, hlen]⟩ fun q hq => hdl ▸ hle q hq
    · obtain ⟨-, ⟨hlen, hle⟩, -⟩ := hv.stays hf ht hr hd hh
      obtain ⟨hl', hle'⟩ := hnow h hh
      refine ⟨hl'.trans hlen, fun r hm => hle.trans ?_⟩
      rw [readings, List.mem_append, Option.mem_toList] at hm
      rcases hm with hm | hm
      · obtain ⟨h', hh', hdl, -⟩ := Concurrent.of_reading? hm
        obtain rfl : h = h' := Option.some.inj (hh.symm.trans hh')
        exact le_of_eq hdl.symm
      · exact hle' r hm

/-- **A transfer is taken up again before its first byte**: one poll finds it paused, the other not
paused and without a verified byte. -/
def TakenUpEmpty (p q : Reading) : Prop :=
  p.paused = true ∧ q.paused = false ∧ q.view.downloaded = 0

instance : DecidableRel TakenUpEmpty := fun _ _ => inferInstanceAs (Decidable (_ ∧ _ ∧ _))

/-- A poll follows an earlier one along the lifecycle. -/
def Follows (p q : Reading) : Prop := p.view.status.Lifecycle q.view.status

instance : IsTrans Reading Follows := ⟨fun _ _ _ => Relation.ReflTransGen.trans⟩

section Filling

variable {length : Nat} {rs : List Reading} {p q : Reading}

/-- How far a poll saw the transfer. -/
theorem Filling.phase_eq (hf : Filling length rs) (hl : 0 < length) (hp : p ∈ rs) :
    p.view.status.phase = if length ≤ p.view.downloaded then 2
      else if p.paused = true ∨ 0 < p.view.downloaded then 1 else 0 := by
  obtain ⟨rate, hs⟩ := hf.status p hp
  rw [hs, Status.phase_infer hl]

/-- **Of two polls the later one follows the earlier one**, unless the transfer was taken up again
before its first byte. -/
theorem Filling.follows_iff (hf : Filling length rs) (hl : 0 < length) (hp : p ∈ rs) (hq : q ∈ rs)
    (hle : p.view.downloaded ≤ q.view.downloaded) : Follows p q ↔ ¬ TakenUpEmpty p q := by
  rw [Follows, Status.lifecycle_iff, hf.phase_eq hl hp, hf.phase_eq hl hq, TakenUpEmpty]
  split
  · rw [if_pos (by omega)]
    exact iff_of_true le_rfl fun h => by omega
  · split
    · split
      · exact iff_of_true (by decide) fun h => by omega
      · rename_i hx _
        cases hqp : q.paused with
        | true => simp
        | false =>
          by_cases hz : q.view.downloaded = 0
          · have hpp : p.paused = true := hx.resolve_right (by omega)
            simp [hz, hpp]
          · simp [hz, Nat.pos_of_ne_zero hz]
    · rename_i hx
      exact iff_of_true (Nat.zero_le _) fun h => hx (.inl h.1)

/-- **A transfer that was seen complete is complete ever after.** -/
theorem Filling.complete (hf : Filling length rs) (hl : 0 < length) (hp : p ∈ rs) (hq : q ∈ rs)
    (hle : p.view.downloaded ≤ q.view.downloaded) (hc : p.view.status.isComplete = true) :
    q.view.status.isComplete = true := by
  rw [Status.isComplete_iff, hf.phase_eq hl hp] at hc
  rw [Status.isComplete_iff, hf.phase_eq hl hq, if_pos]
  by_contra hn
  rw [if_neg (by omega)] at hc
  split at hc <;> omega

/-- A poll follows an earlier one exactly when it does not see the transfer start again. -/
theorem Filling.follows_iff_starting (hf : Filling length rs) (hl : 0 < length) (hp : p ∈ rs)
    (hq : q ∈ rs) (hle : p.view.downloaded ≤ q.view.downloaded) :
    Follows p q ↔ (p.view.status ≠ .starting → q.view.status ≠ .starting) := by
  have hc := hf.complete hl hp hq hle
  rw [Status.isComplete_iff, Status.isComplete_iff] at hc
  have bounded : ∀ s : Status, s.phase ≤ 2 := by
    intro s
    cases s <;> decide
  have h₁ := bounded p.view.status
  rw [Follows, Status.lifecycle_iff, ne_eq, ne_eq, Status.eq_starting_iff, Status.eq_starting_iff]
  omega

/-- What is the same for any two polls in order is the same for all of them. -/
theorem Filling.pairwise_congr {R S : Reading → Reading → Prop} (hf : Filling length rs)
    (h : ∀ p ∈ rs, ∀ q ∈ rs, p.view.downloaded ≤ q.view.downloaded → (R p q ↔ S p q)) :
    rs.Pairwise R ↔ rs.Pairwise S := by
  have go : ∀ {R S : Reading → Reading → Prop},
      (∀ p ∈ rs, ∀ q ∈ rs, p.view.downloaded ≤ q.view.downloaded → R p q → S p q) →
      rs.Pairwise R → rs.Pairwise S := fun h hR =>
    (hf.mono.and hR).imp_of_mem fun hp hq hpq => h _ hp _ hq hpq.1 hpq.2
  exact ⟨go fun p hp q hq hle => (h p hp q hq hle).mp, go fun p hp q hq hle => (h p hp q hq hle).mpr⟩

/-- What is the same for any two polls in order is the same for successive ones. -/
theorem Filling.isChain_congr {R S : Reading → Reading → Prop} (hf : Filling length rs)
    (h : ∀ p ∈ rs, ∀ q ∈ rs, p.view.downloaded ≤ q.view.downloaded → (R p q ↔ S p q)) :
    rs.IsChain R ↔ rs.IsChain S := by
  have hm := List.pairwise_iff_getElem.mp hf.mono
  rw [List.isChain_iff_getElem, List.isChain_iff_getElem]
  refine forall₂_congr fun i hi => h _ (List.getElem_mem _) _ (List.getElem_mem _) ?_
  exact hm i (i + 1) (by omega) hi (Nat.lt_succ_self i)

end Filling

/-- **Exactly when successive polls follow the lifecycle.**  Let torrents only fill up, whatever is
asked of the engine and whatever it does meanwhile.  Let any steps be done `early`; then let a
transfer `live`, with any steps but its removal and the shutdown.  Once a poll saw it complete every
later poll does.  Successive polls follow the lifecycle if and only if it is never taken up again
before its first byte, from one poll to the next; and the same decides whether it is ever seen to
start after it was seen otherwise. -/
theorem follows_lifecycle_iff (hf : eng.FillsUp Given) (s₀ : σ) (early live : List (Turn σ))
    (id : InfoHash) (hm : ∀ t ∈ early ++ live, ∀ e, eng.Onward Given e (t.meanwhile e))
    (hk : ∀ t ∈ live, t.action ≠ .remove id ∧ ∀ order, t.action ≠ .shutdown order) :
    let polls := readings eng id ((Concurrent.initial s₀).play eng early) live
    (polls.Pairwise fun p q => p.view.status.isComplete = true → q.view.status.isComplete = true)
      ∧ (polls.IsChain (fun p q => p.view.status.Lifecycle q.view.status)
        ↔ polls.IsChain fun p q => ¬ TakenUpEmpty p q)
      ∧ (polls.Pairwise (fun p q => p.view.status ≠ .starting → q.view.status ≠ .starting)
        ↔ polls.IsChain fun p q => ¬ TakenUpEmpty p q) := by
  intro polls
  have hv : Vouched Given ((Concurrent.initial s₀).play eng early) :=
    Vouched.play hf (fun t ht => hm t (List.mem_append_left live ht)) ⟨nofun, nofun⟩
  obtain ⟨length, hl, hfill, -⟩ :=
    readings_filling hf (fun t ht => hm t (List.mem_append_right early ht)) hk hv
  have hchain : polls.IsChain Follows ↔ polls.IsChain fun p q => ¬ TakenUpEmpty p q :=
    hfill.isChain_congr fun _ hp _ hq hle => hfill.follows_iff hl hp hq hle
  refine ⟨?_, hchain, ?_⟩
  · exact hfill.mono.imp_of_mem fun hp hq hle => hfill.complete hl hp hq hle
  · rw [← hchain, List.isChain_iff_pairwise]
    exact hfill.pairwise_congr fun _ hp _ hq hle => (hfill.follows_iff_starting hl hp hq hle).symm

/-! ## A transfer that starts again -/

/-- The identifier of the one torrent of `seedless`. -/
def seedlessHash : InfoHash := ⟨Vector.replicate 20 1⟩

/-- An engine with one torrent, of which no byte ever comes. -/
def seedless : Engine Unit where
  addMagnet _ e := (.ok 0, e)
  torrent _ _ := ⟨seedlessHash, "", 2000, 0, 0, 0, 0⟩
  metadata _ _ := .after 0 (.ok ())
  downloadAll _ e := (.ok (), e)
  cancelPieces _ e := (.ok (), e)
  dropTorrent _ e := (.ok (), e)

theorem seedless_fillsUp : seedless.FillsUp fun _ _ => True where
  given _ _ _ _ := trivial
  length_pos _ _ _ := Nat.succ_pos 1999
  addMagnet _ _ _ _ := ⟨trivial, rfl, le_rfl⟩
  perform _ _ _ _ _ := ⟨trivial, rfl, le_rfl⟩

/-- A transfer is added. -/
def added : List (Turn Unit) :=
  [.begin "a magnet", .resolve 0 .ready, .conclude 0 0].map (Turn.mk fun e => e)

/-- It is paused before its first byte and seen, resumed and seen again. -/
def resumedEmpty : List (Turn Unit) :=
  [.pause seedlessHash, .get seedlessHash 0, .resume seedlessHash, .get seedlessHash 0].map
    (Turn.mk fun e => e)

/-- **Successive polls may leave the lifecycle**: from paused to starting. -/
theorem not_forall_follows_lifecycle :
    ¬ ∀ (σ : Type) (eng : Engine σ) (Given : σ → Handle → Prop), eng.FillsUp Given →
      ∀ (s₀ : σ) (early live : List (Turn σ)) (id : InfoHash),
        (∀ t ∈ early ++ live, ∀ e, eng.Onward Given e (t.meanwhile e)) →
        (∀ t ∈ live, t.action ≠ .remove id ∧ ∀ order, t.action ≠ .shutdown order) →
        (readings eng id ((Concurrent.initial s₀).play eng early) live).IsChain fun p q =>
          p.view.status.Lifecycle q.view.status := by
  intro h
  have hc := h Unit seedless _ seedless_fillsUp () added resumedEmpty seedlessHash
    (fun t _ e g _ => ⟨trivial, rfl, le_rfl⟩) (by simp [resumedEmpty])
  have hs : (readings seedless seedlessHash ((Concurrent.initial ()).play seedless added)
      resumedEmpty).map (fun p => p.view.status) = [.paused, .starting] := by
    decide +kernel
  rw [← List.isChain_map (R := Status.Lifecycle), hs] at hc
  exact absurd hc (by decide)

/-- What it takes for the polls of this transfer to follow the lifecycle. -/
theorem follows_lifecycle_iff_resumedEmpty :
    let polls := readings seedless seedlessHash ((Concurrent.initial ()).play seedless added)
      resumedEmpty
    (polls.Pairwise fun p q => p.view.status.isComplete = true → q.view.status.isComplete = true)
      ∧ (polls.IsChain (fun p q => p.view.status.Lifecycle q.view.status)
        ↔ polls.IsChain fun p q => ¬ TakenUpEmpty p q)
      ∧ (polls.Pairwise (fun p q => p.view.status ≠ .starting → q.view.status ≠ .starting)
        ↔ polls.IsChain fun p q => ¬ TakenUpEmpty p q) :=
  follows_lifecycle_iff seedless_fillsUp () added resumedEmpty seedlessHash
    (fun t _ e g _ => ⟨trivial, rfl, le_rfl⟩) (by simp [resumedEmpty])

end Session

end HopTorrent
