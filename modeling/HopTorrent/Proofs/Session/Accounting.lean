import HopTorrent.Proofs.Engine.Scripted
import HopTorrent.Proofs.Session.Ledger

/-!
# Proofs/Session/Accounting — where every handle is

When every add gets a handle of its own, each handle that was ever given is in exactly one of three
classes: pending in its add, stored, or discarded.  A step moves a handle from one class to the next
and never back: an add that ends takes its handle out of the first class, a removal or the shutdown
takes it out of the second, and a discarded handle is left alone for good.
-/

namespace HopTorrent.Session

variable {σ : Type} {eng : Engine σ} {c : Concurrent σ} {l : Ledger} {h : Handle}

/-! ## The three classes -/

/-- **Pending**: the handle of an add that has not ended.  Nothing was done to it before the add got
hold of the store; one whose start the engine refused is still to be discarded. -/
inductive IsPending (c : Concurrent σ) (l : Ledger) (h : Handle) : Prop
  | waiting {i : Nat} {p : Pending} {st : Stage} (hi : c.adds[i]? = some ⟨p, st⟩)
      (hp : p.handle = h) (hs : st = .waiting ∨ ∃ w, st = .waited w) (hl : l.on h = [])
  | failed {i : Nat} {now : Int} {p : Pending} {e : Error} (hi : c.adds[i]? = some ⟨p, .failed e⟩)
      (hp : p.handle = h) (hl : l.on h = [(.conclude i now, .perform .downloadAll h (.error e))])

/-- **Stored**: the handle is held under its own identifier and no other; its download was started,
and the engine was never made to discard it. -/
structure IsStored (eng : Engine σ) (c : Concurrent σ) (l : Ledger) (h : Handle) : Prop where
  key : ∀ id, held c.sessions.store id = some h ↔ id = eng.hash c.sessions.engine h
  started : .perform .downloadAll h (.ok ()) ∈ l.calls
  undropped : ¬ Call.Dropped h l.calls

/-- By whom a handle was discarded: what was done to it in all, or last. -/
inductive DiscardedBy (eng : Engine σ) (c : Concurrent σ) (l : Ledger) (h : Handle) : Prop
  /-- Its own add, which has ended, told the engine once, and that was all that was done to it. -/
  | ownAdd {i : Nat} {now : Int} {p : Pending} {result : Except Error InfoHash}
      {r : Except Error Unit} (hi : c.adds[i]? = some ⟨p, .ended result⟩) (hp : p.handle = h)
      (hl : l.on h = [(.conclude i now, .perform .dropTorrent h r)])
  /-- Its own add told the engine once, after the engine had refused to start it. -/
  | unstarted {i : Nat} {now now' : Int} {p : Pending} {e : Error} {r : Except Error Unit}
      (hi : c.adds[i]? = some ⟨p, .ended (.error e)⟩) (hp : p.handle = h)
      (hl : l.on h = [(.conclude i now, .perform .downloadAll h (.error e)),
        (.conclude i now', .perform .dropTorrent h r)])
  /-- A removal, which succeeded. -/
  | removal (hl : (l.on h).getLast? = some
      (.remove (eng.hash c.sessions.engine h), .perform .dropTorrent h (.ok ())))
  /-- The shutdown. -/
  | shutdown {order : Order} {r : Except Error Unit}
      (hl : (l.on h).getLast? = some (.shutdown order, .perform .dropTorrent h r))

/-- **Discarded**: the handle is not stored, and the engine was told to discard it. -/
structure IsDiscarded (eng : Engine σ) (c : Concurrent σ) (l : Ledger) (h : Handle) : Prop where
  gone : ∀ id, held c.sessions.store id ≠ some h
  discardedBy : DiscardedBy eng c l h

/-- Where a handle can be. -/
inductive Place where
  | pending
  | stored
  | discarded
deriving DecidableEq

/-- A handle is at a place. -/
def Place.Holds (eng : Engine σ) (c : Concurrent σ) (l : Ledger) (h : Handle) : Place → Prop
  | .pending => IsPending c l h
  | .stored => IsStored eng c l h
  | .discarded => IsDiscarded eng c l h

/-- The last that was done to a discarded handle is that it was discarded. -/
theorem DiscardedBy.getLast?_on (hd : DiscardedBy eng c l h) :
    ∃ a r, (l.on h).getLast? = some (a, .perform .dropTorrent h r) := by
  cases hd with
  | ownAdd _ _ hl | unstarted _ _ hl => exact ⟨_, _, by rw [hl]; rfl⟩
  | removal hl | shutdown hl => exact ⟨_, _, hl⟩

/-- The call that started a stored handle is among the operations on it. -/
theorem IsStored.mem_on (hs : IsStored eng c l h) :
    ∃ a, (a, .perform .downloadAll h (.ok ())) ∈ l.on h := by
  obtain ⟨⟨a, call⟩, he, hc⟩ := List.mem_map.mp hs.started
  obtain rfl : call = .perform .downloadAll h (.ok ()) := hc
  exact ⟨a, List.mem_filter.mpr ⟨he, by simp [Call.target?]⟩⟩

/-- What is pending is not stored: it was not started. -/
theorem IsPending.not_isStored (hp : IsPending c l h) : ¬ IsStored eng c l h := by
  intro hs
  obtain ⟨a, ha⟩ := hs.mem_on
  cases hp with
  | waiting _ _ _ hl | failed _ _ hl => simp [hl] at ha

/-- What is pending is not discarded: the engine was not told yet. -/
theorem IsPending.not_isDiscarded (hp : IsPending c l h) : ¬ IsDiscarded eng c l h := by
  intro hd
  obtain ⟨a, r, ha⟩ := hd.discardedBy.getLast?_on
  cases hp with
  | waiting _ _ _ hl | failed _ _ hl => simp [hl] at ha

/-- **A handle is at one place only.** -/
theorem Place.Holds.unique {k k' : Place} (hk : k.Holds eng c l h) (hk' : k'.Holds eng c l h) :
    k = k' := by
  have hps : IsPending c l h → ¬ IsStored eng c l h := IsPending.not_isStored
  have hpd : IsPending c l h → ¬ IsDiscarded eng c l h := IsPending.not_isDiscarded
  have hsd : IsStored eng c l h → ¬ IsDiscarded eng c l h :=
    fun s d => d.gone _ ((s.key _).mpr rfl)
  cases k <;> cases k' <;> simp_all [Place.Holds]

/-! ## What one step does to a handle -/

section Step

variable {a : Action} {calls : List Call} {adds : List Adding} {lock : Option Holder}
  {store : Store}

/-- An add that holds the handle moves on. -/
def Moves (c : Concurrent σ) (adds : List Adding) (h : Handle) : Prop :=
  ∃ (i : Nat) (p : Pending) (st st' : Stage), c.adds[i]? = some ⟨p, st⟩
    ∧ adds[i]? = some ⟨p, st'⟩ ∧ st ≠ st' ∧ p.handle = h

/-- An add that moves on does so with its handle. -/
theorem Move.moves {i : Nat} {p : Pending} {st st' : Stage} (hi : c.adds[i]? = some ⟨p, st⟩)
    (hm : Move eng c i p a st calls st' lock store) : Moves c (c.adds.set i ⟨p, st'⟩) p.handle :=
  ⟨i, p, st, st', hi, List.getElem?_set_self (List.getElem?_eq_some_iff.mp hi).1, hm.ne, rfl⟩

/-- An operation on one handle is nothing to another. -/
theorem target?_ne {op : Operation} {h h' : Handle} {r : Except Error Unit} (hne : h' ≠ h) :
    ∀ call ∈ [Call.perform op h' r], call.target? ≠ some h := by
  intro call hc
  rw [List.mem_singleton.mp hc]
  exact fun he => hne (Option.some.inj he)

/-- What is not stored is not stored with a session less. -/
theorem held_erase_ne {store : Store} (hn : ∀ id, held store id ≠ some h) (id j : InfoHash) :
    held (store.erase id) j ≠ some h := by
  rw [held_erase]
  split
  · nofun
  · exact hn j

/-- **An add that moves on leaves every other handle alone.** -/
theorem Move.leaves {i : Nat} {p : Pending} {st st' : Stage}
    (hm : Move eng c i p a st calls st' lock store) (hne : p.handle ≠ h) :
    (∀ call ∈ calls, call.target? ≠ some h)
      ∧ ∀ id, held store id = some h ↔ held c.sessions.store id = some h := by
  cases hm with
  | resolved => exact ⟨List.forall_mem_nil _, fun _ => .rfl⟩
  | gaveUp | failed | abandoned => exact ⟨target?_ne hne, fun _ => .rfl⟩
  | entered _ hx =>
    cases hx with
    | live => exact ⟨List.forall_mem_nil _, fun _ => .rfl⟩
    | duplicate => exact ⟨target?_ne hne, fun _ => .rfl⟩
    | stored hl =>
      refine ⟨target?_ne hne, fun id => ?_⟩
      rw [held_put]
      split
      · rename_i hid
        have hn : held c.sessions.store id = none := by rw [hid, held, hl]; rfl
        rw [hn]
        exact iff_of_false (fun e => hne (Option.some.inj e)) (Option.some_ne_none h).symm
      · exact .rfl

/-- **A step leaves alone every handle that is neither stored nor held by an add that moves on.** -/
theorem Effect.leaves (he : Effect eng c a calls adds lock store)
    (hn : ∀ id, held c.sessions.store id ≠ some h) (hd : ¬ Moves c adds h) :
    (∀ call ∈ calls, call.target? ≠ some h) ∧ ∀ id, held store id ≠ some h := by
  have ne : ∀ {id : InfoHash} {session : Session}, c.sessions.store.get? id = some session →
      session.handle ≠ h := fun hs e => hn _ (e ▸ held_of_get? hs)
  cases he with
  | idle hs => exact ⟨nofun, hs ▸ hn⟩
  | refused | begun => exact ⟨by simp [Call.target?], hn⟩
  | moved hi hm =>
    obtain ⟨hq, hh⟩ := hm.leaves (h := h) fun hp => hd (hp ▸ hm.moves hi)
    exact ⟨hq, fun id => (hh id).not.mpr (hn id)⟩
  | kept _ hs => exact ⟨target?_ne (ne hs), hn⟩
  | removed _ hs | tornDown _ hs => exact ⟨target?_ne (ne hs), held_erase_ne hn _⟩
  | switched _ _ _ hs hh => exact ⟨target?_ne (ne hs), hh ▸ hn⟩
  | cleared => exact ⟨nofun, hn⟩

/-- A handle stored under one identifier is not stored without it. -/
theorem held_erase_of_iff {store : Store} {id : InfoHash}
    (hs : ∀ j, held store j = some h ↔ j = id) (j : InfoHash) :
    held (store.erase id) j ≠ some h := by
  rw [held_erase]
  split
  · nofun
  · rename_i hne
    exact fun e => hne ((hs j).mp e)

/-- A handle stays where it is stored when another session is taken away. -/
theorem held_erase_iff {store : Store} {id k : InfoHash}
    (hs : ∀ j, held store j = some h ↔ j = id) (hk : held store k ≠ some h) (j : InfoHash) :
    held (store.erase k) j = some h ↔ j = id := by
  rw [held_erase]
  split
  · rename_i hj
    subst hj
    exact iff_of_false nofun fun e => hk ((hs j).mpr e)
  · exact hs j

/-- A session that is taken away is the one with the handle, or leaves that where it is stored. -/
theorem erase_cases {store : Store} {id k : InfoHash} {session : Session}
    (hs : ∀ j, held store j = some h ↔ j = id) (hk : store.get? k = some session) :
    (k = id ∧ session.handle = h ∧ ∀ j, held (store.erase k) j ≠ some h)
      ∨ session.handle ≠ h ∧ ∀ j, held (store.erase k) j = some h ↔ j = id := by
  by_cases hh : session.handle = h
  · obtain rfl : k = id := (hs k).mp (hh ▸ held_of_get? hk)
    exact .inl ⟨rfl, hh, held_erase_of_iff hs⟩
  · have hne : held store k ≠ some h :=
      fun e => hh (Option.some.inj ((held_of_get? hk).symm.trans e))
    exact .inr ⟨hh, held_erase_iff hs hne⟩

/-- **What a step does to a stored handle**: it stays stored, a removal takes it, or the shutdown
does. -/
theorem Effect.stored_cases (he : Effect eng c a calls adds lock store) {id : InfoHash}
    (hs : ∀ j, held c.sessions.store j = some h ↔ j = id) (hd : ¬ Moves c adds h) :
    ((∀ j, held store j = some h ↔ j = id) ∧ ¬ Call.Dropped h calls)
      ∨ (∀ j, held store j ≠ some h)
        ∧ ((a = .remove id ∧ calls = [.perform .dropTorrent h (.ok ())])
          ∨ ∃ order, a = .shutdown order ∧ ∃ r, calls = [.perform .dropTorrent h r]) := by
  cases he with
  | idle hh => exact .inl ⟨hh ▸ hs, nofun⟩
  | refused | begun => exact .inl ⟨hs, by simp⟩
  | moved hi hm =>
    obtain ⟨hq, hh⟩ := hm.leaves (h := h) fun hp => hd (hp ▸ hm.moves hi)
    exact .inl ⟨fun j => (hh j).trans (hs j), fun hm => hq _ hm rfl⟩
  | kept => exact .inl ⟨hs, by simp⟩
  | @removed k session _ hk =>
    obtain ⟨rfl, rfl, hgone⟩ | ⟨hh, hkept⟩ := erase_cases hs hk
    · exact .inr ⟨hgone, .inl ⟨rfl, rfl⟩⟩
    · exact .inl ⟨hkept, fun hm => target?_ne hh _ hm rfl⟩
  | switched _ _ ho _ hh =>
    exact .inl ⟨hh ▸ hs, fun hm => ho (Call.dropped_perform_iff.mp hm).1⟩
  | @tornDown order k session r _ _ hk =>
    obtain ⟨rfl, rfl, hgone⟩ | ⟨hh, hkept⟩ := erase_cases hs hk
    · exact .inr ⟨hgone, .inr ⟨order, rfl, r, rfl⟩⟩
    · exact .inl ⟨hkept, fun hm => target?_ne hh _ hm rfl⟩
  | cleared => exact .inl ⟨hs, nofun⟩

end Step

/-! ## Keeping the books -/

/-- **Left alone**: nothing was done to a handle, and it is not stored. -/
structure Untouched (c : Concurrent σ) (l : Ledger) (h : Handle) : Prop where
  untouched : l.on h = []
  unheld : ∀ id, held c.sessions.store id ≠ some h

/-- What the books say of an add at a stage. -/
def Booked (eng : Engine σ) (c : Concurrent σ) (l : Ledger) (i : Nat) (p : Pending) : Stage → Prop
  | .waiting | .waited _ => Untouched c l p.handle
  | .failed e =>
    (∃ now, l.on p.handle = [(.conclude i now, .perform .downloadAll p.handle (.error e))])
      ∧ ∀ id, held c.sessions.store id ≠ some p.handle
  | .ended _ => IsStored eng c l p.handle ∨ IsDiscarded eng c l p.handle

/-- **The books balance**: each add is where its stage says, and what no add holds was left
alone. -/
structure Balanced (eng : Engine σ) (c : Concurrent σ) (l : Ledger) : Prop where
  unknown : ∀ h, h ∉ c.handles → Untouched c l h
  adds : ∀ (i : Nat) (p : Pending) (st : Stage), c.adds[i]? = some ⟨p, st⟩ → Booked eng c l i p st

section Books

variable {a : Action}

/-- The ledger after a step that leaves a handle alone. -/
theorem on_append_eq {calls : List Call} (hq : ∀ call ∈ calls, call.target? ≠ some h) :
    (l ++ .ofStep a calls).on h = l.on h := by
  rw [Ledger.on_append, Ledger.on_ofStep_eq_nil hq, List.append_nil]

/-- The ledger after one operation on a handle. -/
theorem on_append_perform (l : Ledger) (a : Action) (op : Operation) (h : Handle)
    (r : Except Error Unit) :
    (l ++ .ofStep a [.perform op h r]).on h = l.on h ++ [(a, .perform op h r)] := by
  simp [Ledger.on, Ledger.ofStep, Call.target?]

/-- What was left alone is left alone until its add moves on. -/
theorem Untouched.step (hu : Untouched c l h) (hd : ¬ Moves c (c.step eng a).adds h) :
    Untouched (c.step eng a) (l ++ .ofStep a (c.made eng a)) h := by
  obtain ⟨hq, hn⟩ := (exists_effect eng c a).1.leaves hu.unheld hd
  exact ⟨(on_append_eq hq).trans hu.untouched, hn⟩

/-- **A discarded handle stays discarded**, and nothing is done to it any more. -/
theorem IsDiscarded.step (hs : IsDiscarded eng c l h) (hd : ¬ Moves c (c.step eng a).adds h)
    (hh : eng.hash (c.step eng a).sessions.engine h = eng.hash c.sessions.engine h) :
    IsDiscarded eng (c.step eng a) (l ++ .ofStep a (c.made eng a)) h := by
  have he := (exists_effect eng c a).1
  obtain ⟨hq, hn⟩ := he.leaves hs.gone hd
  refine ⟨hn, ?_⟩
  rcases hs.discardedBy with ⟨hi, hp, hl⟩ | ⟨hi, hp, hl⟩ | hl | hl
  · exact .ownAdd (he.ended hi) hp ((on_append_eq hq).trans hl)
  · exact .unstarted (he.ended hi) hp ((on_append_eq hq).trans hl)
  · exact .removal (by rw [on_append_eq hq, hh, hl])
  · exact .shutdown (by rw [on_append_eq hq, hl])

/-- **A stored handle stays stored**, or is discarded by a removal or by the shutdown. -/
theorem IsStored.step (hs : IsStored eng c l h) (hd : ¬ Moves c (c.step eng a).adds h)
    (hh : eng.hash (c.step eng a).sessions.engine h = eng.hash c.sessions.engine h) :
    IsStored eng (c.step eng a) (l ++ .ofStep a (c.made eng a)) h
      ∨ IsDiscarded eng (c.step eng a) (l ++ .ofStep a (c.made eng a)) h := by
  obtain ⟨hk, hu⟩ | ⟨hn, ⟨ha, hc⟩ | ⟨order, ha, r, hc⟩⟩ :=
    (exists_effect eng c a).1.stored_cases hs.key hd
  · refine .inl ⟨fun id => hh ▸ hk id, ?_, ?_⟩
    · rw [Ledger.calls_append]
      exact List.mem_append_left _ hs.started
    · rw [Ledger.calls_append, Ledger.calls_ofStep, Call.dropped_append, not_or]
      exact ⟨hs.undropped, hu⟩
  · exact .inr ⟨hn, .removal (by rw [hc, on_append_perform, hh, ← ha, List.getLast?_concat])⟩
  · exact .inr ⟨hn, .shutdown (by rw [hc, on_append_perform, ← ha, List.getLast?_concat])⟩

/-- What is left alone was not discarded. -/
theorem Untouched.not_dropped (hu : Untouched c l h) : ¬ Call.Dropped h l.calls := by
  intro hm
  obtain ⟨⟨a, call⟩, he, hc⟩ := List.mem_map.mp hm
  obtain rfl : call = .perform .dropTorrent h (.ok ()) := hc
  have hon : (a, Call.perform .dropTorrent h (.ok ())) ∈ l.on h :=
    List.mem_filter.mpr ⟨he, by simp [Call.target?]⟩
  rw [hu.untouched] at hon
  cases hon

/-- **An add that gets hold of the store has stored its handle or discarded it.** -/
theorem Untouched.entered (hu : Untouched c l h) {i : Nat} {now : Int} {p : Pending} {id : InfoHash}
    (hp : p.handle = h) {c' : Concurrent σ} {calls : List Call}
    (hi : c'.adds[i]? = some ⟨p, .ended (.ok id)⟩)
    (hx : Entered eng c.sessions p now (.ok id) calls c'.sessions.store)
    (hh : eng.hash c'.sessions.engine h = eng.hash c.sessions.engine h) :
    IsStored eng c' (l ++ .ofStep (.conclude i now) calls) h
      ∨ IsDiscarded eng c' (l ++ .ofStep (.conclude i now) calls) h := by
  subst hp
  generalize hs : c'.sessions.store = store at hx
  cases hx with
  | live hl hsame => exact absurd (hsame ▸ held_of_get? hl) (hu.unheld _)
  | @duplicate _ r =>
    have hl := on_append_perform l (.conclude i now) .dropTorrent p.handle r
    rw [hu.untouched, List.nil_append] at hl
    exact .inr ⟨hs ▸ hu.unheld, .ownAdd hi rfl hl⟩
  | stored hl =>
    refine .inl ⟨fun id => ?_, by simp [Ledger.calls, Ledger.ofStep], ?_⟩
    · rw [hs, held_put, hh]
      split
      · rename_i hid
        exact iff_of_true rfl hid
      · rename_i hid
        exact iff_of_false (hu.unheld id) hid
    · rw [Ledger.calls_append, Ledger.calls_ofStep, Call.dropped_append, not_or]
      exact ⟨hu.not_dropped, by simp⟩

/-- **An add that moves on is where its new stage says.** -/
theorem Booked.move {i : Nat} {p : Pending} {st st' : Stage} (hb : Booked eng c l i p st)
    (hi : (c.step eng a).adds[i]? = some ⟨p, st'⟩)
    (hm : Move eng c i p a st (c.made eng a) st' (c.step eng a).lock (c.step eng a).sessions.store)
    (hh : eng.hash (c.step eng a).sessions.engine p.handle = eng.hash c.sessions.engine p.handle) :
    Booked eng (c.step eng a) (l ++ .ofStep a (c.made eng a)) i p st' := by
  generalize (c.step eng a) = c' at *
  generalize c.made eng a = calls at *
  generalize hs : c'.sessions.store = store at hm
  generalize c'.lock = lock at hm
  cases hm with
  | resolved => exact ⟨by simpa [Ledger.ofStep] using hb.untouched, hs ▸ hb.unheld⟩
  | @gaveUp now _ _ r =>
    have hl := on_append_perform l (.conclude i now) .dropTorrent p.handle r
    rw [hb.untouched, List.nil_append] at hl
    exact .inr ⟨hs ▸ hb.unheld, .ownAdd hi rfl hl⟩
  | entered _ hx =>
    rw [← hs] at hx
    exact hb.entered rfl hi hx hh
  | @failed now e =>
    refine ⟨⟨now, ?_⟩, hs ▸ hb.unheld⟩
    rw [on_append_perform, hb.untouched, List.nil_append]
  | @abandoned now e r =>
    obtain ⟨⟨now', hl⟩, hn⟩ := hb
    have hl' := on_append_perform l (.conclude i now) .dropTorrent p.handle r
    rw [hl] at hl'
    exact .inr ⟨hs ▸ hn, .unstarted hi rfl hl'⟩

/-- An add that does not move on stays where its stage says. -/
theorem Booked.stay {i : Nat} {p : Pending} {st : Stage} (hb : Booked eng c l i p st)
    (hd : ¬ Moves c (c.step eng a).adds p.handle)
    (hh : eng.hash (c.step eng a).sessions.engine p.handle = eng.hash c.sessions.engine p.handle) :
    Booked eng (c.step eng a) (l ++ .ofStep a (c.made eng a)) i p st := by
  cases st with
  | waiting => exact Untouched.step hb hd
  | waited w => exact Untouched.step hb hd
  | failed e =>
    obtain ⟨⟨now, hl⟩, hn⟩ := hb
    obtain ⟨hq, hn'⟩ := (exists_effect eng c a).1.leaves hn hd
    exact ⟨⟨now, (on_append_eq hq).trans hl⟩, hn'⟩
  | ended r => exact hb.elim (fun hs => hs.step hd hh) fun hs => .inr (hs.step hd hh)

/-- Adds with one handle are one add. -/
theorem eq_of_handle_eq (hn : c.handles.Nodup) {i j : Nat} {x y : Adding}
    (hi : c.adds[i]? = some x) (hj : c.adds[j]? = some y)
    (hh : x.pending.handle = y.pending.handle) : i = j := by
  have hi' : c.handles[i]? = some x.pending.handle := by simp [Concurrent.handles, hi]
  have hj' : c.handles[j]? = some x.pending.handle := by simp [Concurrent.handles, hj, hh]
  obtain ⟨hil, -⟩ := List.getElem?_eq_some_iff.mp hi'
  exact (List.getElem?_inj hil hn).mp (hi'.trans hj'.symm)

/-- An add that stays at its stage is the only one that could have moved its handle. -/
theorem not_moves (hn : c.handles.Nodup) {adds : List Adding} {i : Nat} {p : Pending} {st : Stage}
    (hi : c.adds[i]? = some ⟨p, st⟩) (hi' : adds[i]? = some ⟨p, st⟩) :
    ¬ Moves c adds p.handle := by
  rintro ⟨j, q, st₀, st', hj, hj', hne, hq⟩
  obtain rfl := eq_of_handle_eq hn hi hj hq.symm
  rw [hi] at hj
  rw [hi'] at hj'
  cases hj
  cases hj'
  exact hne rfl

/-- What no add holds is not moved. -/
theorem not_moves_of_notMem {adds : List Adding} (hn : h ∉ c.handles) : ¬ Moves c adds h := by
  rintro ⟨i, p, st, -, hi, -, -, rfl⟩
  exact hn (List.mem_map.mpr ⟨_, List.mem_of_getElem? hi, rfl⟩)

/-- **A step keeps the books balanced.** -/
theorem Balanced.step (hb : Balanced eng c l) (a : Action) (hn : (c.step eng a).handles.Nodup)
    (hh : ∀ h ∈ c.handles,
      eng.hash (c.step eng a).sessions.engine h = eng.hash c.sessions.engine h) :
    Balanced eng (c.step eng a) (l ++ .ofStep a (c.made eng a)) := by
  have he := (exists_effect eng c a).1
  have hhandles : (c.step eng a).handles = c.handles ++ Call.given (c.made eng a) := he.map_handle
  rw [hhandles, List.nodup_append] at hn
  obtain ⟨hnodup, -, hdisj⟩ := hn
  have mem : ∀ {i : Nat} {p : Pending} {st : Stage}, c.adds[i]? = some ⟨p, st⟩ →
      p.handle ∈ c.handles := fun hi => List.mem_map.mpr ⟨_, List.mem_of_getElem? hi, rfl⟩
  refine ⟨fun h hnew => ?_, fun i p st hi => ?_⟩
  · rw [hhandles, List.mem_append, not_or] at hnew
    exact (hb.unknown h hnew.1).step (not_moves_of_notMem hnew.1)
  · obtain hsame | ⟨rfl, m, hc⟩ | ⟨st₀, hold, hm⟩ := he.stage_inv hi
    · exact (hb.adds i p st hsame).stay (not_moves hnodup hsame hi) (hh _ (mem hsame))
    · have hnew : p.handle ∉ c.handles := fun hmem =>
        hdisj _ hmem p.handle (by rw [hc]; exact List.mem_cons_self) rfl
      exact (hb.unknown _ hnew).step (not_moves_of_notMem hnew)
    · exact (hb.adds i p st₀ hold).move hi hm (hh _ (mem hold))

end Books

/-! ## All runs -/

section Run

variable {s₀ : σ}

/-- The books of every run balance. -/
theorem balanced_run (hn : eng.GivesNew s₀) (hk : eng.KeepsHashes s₀) (as : List Action) :
    Balanced eng ((Concurrent.initial s₀).run eng as) ((Concurrent.initial s₀).ledger eng as) := by
  induction as using List.reverseRecOn with
  | nil => exact ⟨fun h _ => ⟨rfl, nofun⟩, nofun⟩
  | append_singleton as a ih =>
    have hnodup : ((Concurrent.initial s₀).run eng (as ++ [a])).handles.Nodup :=
      given_ledger eng s₀ (as ++ [a]) ▸ hn.nodup (ran_ledger eng s₀ (as ++ [a]))
    rw [Concurrent.run_snoc] at hnodup ⊢
    rw [Concurrent.ledger_snoc]
    refine ih.step a hnodup fun h hg => ?_
    exact hk.hash_eq (ran_ledger eng s₀ as) (exists_effect eng _ a).2
      (given_ledger eng s₀ as ▸ hg)

/-- **Handle accounting.**  Whatever order the steps of any number of operations come in, and
whatever the engine refuses, each handle that was given is in exactly one class: pending, stored or
discarded. -/
theorem existsUnique_place (hn : eng.GivesNew s₀) (hk : eng.KeepsHashes s₀) (as : List Action)
    {h : Handle} (hg : h ∈ Call.given ((Concurrent.initial s₀).ledger eng as).calls) :
    ∃! k : Place, k.Holds eng ((Concurrent.initial s₀).run eng as)
      ((Concurrent.initial s₀).ledger eng as) h := by
  rw [given_ledger] at hg
  obtain ⟨⟨p, st⟩, hx, rfl⟩ := List.mem_map.mp hg
  obtain ⟨i, hi⟩ := List.getElem?_of_mem hx
  have hb := (balanced_run hn hk as).adds i p st hi
  refine existsUnique_of_exists_of_unique ?_ fun k k' => Place.Holds.unique
  cases st with
  | waiting => exact ⟨.pending, .waiting hi rfl (.inl rfl) hb.untouched⟩
  | waited w => exact ⟨.pending, .waiting hi rfl (.inr ⟨w, rfl⟩) hb.untouched⟩
  | failed e =>
    obtain ⟨⟨now, hl⟩, -⟩ := hb
    exact ⟨.pending, .failed hi rfl hl⟩
  | ended r => exact hb.elim (fun hs => ⟨.stored, hs⟩) fun hd => ⟨.discarded, hd⟩

end Run

/-! ## A duplicate -/

/-- Two replies that make a torrent each. -/
def twins : Scripted :=
  let script : Script := ⟨"twin", 1, 0, 0, 0, 0, .after 0 (.ok ()), none, none, none⟩
  ⟨[.give none false script, .give none false script], []⟩

/-- Two adds of one magnet wait side by side; the second ends after the first was stored. -/
def duplicateAdd : List Action :=
  let magnet := "0101010101010101010101010101010101010101"
  [.begin magnet, .begin magnet, .resolve 1 .ready, .resolve 0 .ready, .conclude 0 0,
    .conclude 1 0]

/-- The handle of the second add is at one place. -/
theorem existsUnique_place_twins :
    ∃! k : Place, k.Holds Scripted.engine
      ((Concurrent.initial twins).run Scripted.engine duplicateAdd)
      ((Concurrent.initial twins).ledger Scripted.engine duplicateAdd) 1 :=
  existsUnique_place (Scripted.givesNew (by simp [Scripted.NoReuse, twins]))
    (Scripted.keepsHashes twins) duplicateAdd (by decide +kernel)

end HopTorrent.Session
