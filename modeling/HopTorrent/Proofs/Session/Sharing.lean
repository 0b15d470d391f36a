import HopTorrent.Proofs.Engine.Registry
import HopTorrent.Proofs.Session.Ledger

/-!
# Proofs/Session/Sharing — stored sessions when the engine shares handles

An engine may give an add the handle of a torrent it already manages, so the handle that an add
holds may be the one in the store.  Then there are two ways, and no others, for a stored session to
lose its torrent: an add without metadata discards its handle although it is stored, and an add
stores its handle although somebody discarded it while the add was waiting (`backed_iff`).
-/

namespace HopTorrent.Session

variable {σ : Type} {eng : Engine σ} {s₀ : σ}

/-- **Every stored session has its torrent**: the engine was never made to discard it. -/
def Backed (c : Concurrent σ) (l : Ledger) : Prop :=
  ∀ id h, held c.sessions.store id = some h → ¬ Call.Dropped h l.calls

/-- **An add without metadata discards a stored torrent.** -/
def DropsStored (eng : Engine σ) (c : Concurrent σ) (a : Action) : Prop :=
  ∃ i now p w id, a = .conclude i now ∧ c.adds[i]? = some ⟨p, .waited w⟩ ∧ w ≠ .ready
    ∧ held c.sessions.store id = some p.handle ∧ Call.Dropped p.handle (c.made eng a)

/-- Somebody made the engine discard the torrent of an add after the add was begun. -/
def DroppedMeanwhile (eng : Engine σ) (s₀ : σ) (as : List Action) (i : Nat) (p : Pending) : Prop :=
  ∃ before b after, as = before ++ b :: after
    ∧ (∃ st, ((Concurrent.initial s₀).run eng before).adds[i]? = some ⟨p, st⟩)
    ∧ Call.Dropped p.handle (((Concurrent.initial s₀).run eng before).made eng b)

/-- **An add stores a torrent that was discarded while the add was waiting.** -/
def StoresDropped (eng : Engine σ) (s₀ : σ) (as : List Action) (a : Action) : Prop :=
  ∃ i now p, a = .conclude i now
    ∧ ((Concurrent.initial s₀).run eng as).adds[i]? = some ⟨p, .waited .ready⟩
    ∧ .perform .downloadAll p.handle (.ok ()) ∈ ((Concurrent.initial s₀).run eng as).made eng a
    ∧ DroppedMeanwhile eng s₀ as i p

/-! ## What an add holds -/

/-- A torrent discarded before one more step was discarded meanwhile. -/
theorem DroppedMeanwhile.snoc {as : List Action} {i : Nat} {p : Pending}
    (h : DroppedMeanwhile eng s₀ as i p) (a : Action) :
    DroppedMeanwhile eng s₀ (as ++ [a]) i p := by
  obtain ⟨before, b, after, rfl, hst, hd⟩ := h
  exact ⟨before, b, after ++ [a], by simp, hst, hd⟩

/-- **The torrent of an add was not discarded before the add was begun**: whoever discarded it did
so since. -/
theorem droppedMeanwhile (hs : eng.Shares s₀) (as : List Action) {i : Nat} {p : Pending}
    {st : Stage} (hi : ((Concurrent.initial s₀).run eng as).adds[i]? = some ⟨p, st⟩)
    (hd : Call.Dropped p.handle ((Concurrent.initial s₀).ledger eng as).calls) :
    DroppedMeanwhile eng s₀ as i p := by
  induction as using List.reverseRecOn generalizing st with
  | nil => cases hd
  | append_singleton as a ih =>
    rw [Concurrent.calls_ledger_snoc, Call.dropped_append] at hd
    rw [Concurrent.run_snoc] at hi
    have old : ∀ st₀, ((Concurrent.initial s₀).run eng as).adds[i]? = some ⟨p, st₀⟩ →
        DroppedMeanwhile eng s₀ (as ++ [a]) i p := fun st₀ hold =>
      hd.elim (fun hd => (ih hold hd).snoc a) fun hd => ⟨as, a, [], rfl, ⟨st₀, hold⟩, hd⟩
    obtain ⟨he, hr⟩ := exists_effect eng ((Concurrent.initial s₀).run eng as) a
    obtain hsame | ⟨-, m, hc⟩ | ⟨st₀, hold, -⟩ := he.stage_inv hi
    · exact old _ hsame
    · rw [hc] at hr hd
      have hgiven := congrArg Prod.fst hr.of_singleton.add_eq
      have hnot := hs.anew _ _ m _ (ran_ledger eng s₀ as) hgiven
      exact absurd (hd.resolve_right Call.not_dropped_add) hnot
    · exact old _ hold

/-- **An add whose torrent was not started has the store for itself**, and keeps it until the
torrent is discarded. -/
theorem Effect.lock_of_failed {c : Concurrent σ} {a : Action} {calls : List Call}
    {adds : List Adding} {lock : Option Holder} {store : Store}
    (he : Effect eng c a calls adds lock store)
    (hx : ∀ (j : Nat) (q : Pending) (e : Error), c.adds[j]? = some ⟨q, .failed e⟩ →
      c.lock = some (.add j))
    {i : Nat} {p : Pending} {e : Error} (hi : adds[i]? = some ⟨p, .failed e⟩) :
    lock = some (.add i) ∧ (c.adds[i]? = some ⟨p, .failed e⟩
      ∨ store = c.sessions.store
        ∧ c.sessions.store.get? (eng.hash c.sessions.engine p.handle) = none) := by
  obtain hsame | ⟨h, -⟩ | ⟨st₀, -, hm⟩ := he.stage_inv hi
  · have hl := hx i p e hsame
    refine ⟨?_, .inl hsame⟩
    cases he with
    | idle | refused | begun | kept | removed | switched => exact hl
    | tornDown hl' | cleared hl' => exact absurd hl (hl' i)
    | @moved _ j _ _ _ _ _ _ hj hm =>
      cases hm with
      | resolved | gaveUp | entered => exact hl
      | failed hl' => exact absurd (hl.symm.trans hl') nofun
      | abandoned =>
        -- the add that discards its torrent has the lock, so it is this one
        obtain rfl := Holder.add.inj (Option.some.inj ((hx j _ _ hj).symm.trans hl))
        rw [List.getElem?_set_self (List.getElem?_eq_some_iff.mp hj).1] at hi
        cases hi
  · cases h
  · cases hm with
    | failed _ hs => exact ⟨rfl, .inr ⟨rfl, hs⟩⟩

/-- The handle of an add whose torrent was not started is not in the store. -/
theorem unheld_of_failed (hk : eng.KeepsHashes s₀) (as : List Action) {i : Nat} {p : Pending}
    {e : Error} (hi : ((Concurrent.initial s₀).run eng as).adds[i]? = some ⟨p, .failed e⟩) :
    ((Concurrent.initial s₀).run eng as).lock = some (.add i)
      ∧ ∀ id, held ((Concurrent.initial s₀).run eng as).sessions.store id ≠ some p.handle := by
  induction as using List.reverseRecOn generalizing i p e with
  | nil => cases hi
  | append_singleton as a ih =>
    rw [Concurrent.run_snoc] at hi ⊢
    obtain ⟨he, -⟩ := exists_effect eng ((Concurrent.initial s₀).run eng as) a
    obtain ⟨hl, hcase⟩ := he.lock_of_failed (fun _ _ _ hj => (ih hj).1) hi
    refine ⟨hl, fun id hh => ?_⟩
    obtain hold | ⟨hs, hnone⟩ := hcase
    · obtain hh | ⟨_, _, _, _, _, _, _, hl', _⟩ := he.held_cases hh
      · exact (ih hold).2 id hh
      · exact absurd ((ih hold).1.symm.trans hl') nofun
    · rw [hs] at hh
      obtain ⟨-, rfl⟩ := keyed_run hk as hh
      rw [held, hnone] at hh
      cases hh

/-! ## The two ways to lose a torrent -/

/-- **A stored torrent is discarded only by an add without metadata**, or it is taken out of the
store. -/
theorem Effect.gaveUp_of_dropped {c : Concurrent σ} {a : Action} {calls : List Call}
    {adds : List Adding} {lock : Option Holder} {store : Store}
    (he : Effect eng c a calls adds lock store) {id : InfoHash} {h : Handle}
    (hs : ∀ j, held c.sessions.store j = some h ↔ j = id)
    (hid : id = eng.hash c.sessions.engine h)
    (hf : ∀ (i : Nat) (p : Pending) (e : Error), c.adds[i]? = some ⟨p, .failed e⟩ → p.handle ≠ h)
    (hh : held store id = some h) (hd : Call.Dropped h calls) :
    ∃ i now p w, a = .conclude i now ∧ c.adds[i]? = some ⟨p, .waited w⟩ ∧ w ≠ .ready
      ∧ p.handle = h := by
  have hold : held c.sessions.store id = some h := (hs id).mpr rfl
  cases he with
  | idle | cleared | refused | begun | kept => simp at hd
  | switched _ _ ho => exact absurd (Call.dropped_perform_iff.mp hd).1 ho
  | @removed k session _ hk | @tornDown _ k session _ _ _ hk =>
    obtain ⟨-, rfl, -⟩ := Call.dropped_perform_iff.mp hd
    obtain rfl := (hs k).mp (held_of_get? hk)
    rw [held_erase, if_pos rfl] at hh
    cases hh
  | @moved _ i p _ _ _ _ _ hi hm =>
    cases hm with
    | resolved | failed => simp at hd
    | @gaveUp now w _ _ hw =>
      obtain ⟨-, rfl, -⟩ := Call.dropped_perform_iff.mp hd
      exact ⟨i, now, p, w, rfl, hi, hw, rfl⟩
    | abandoned =>
      obtain ⟨-, rfl, -⟩ := Call.dropped_perform_iff.mp hd
      exact absurd rfl (hf i p _ hi)
    | entered _ hx =>
      cases hx with
      | live | stored => simp at hd
      | duplicate hl hne =>
        obtain ⟨-, rfl, -⟩ := Call.dropped_perform_iff.mp hd
        rw [hid, held, hl] at hold
        exact absurd (Option.some.inj hold) hne

/-- **One step cannot cost a stored session its torrent but in the two ways.** -/
theorem Backed.step (hs : eng.Shares s₀) (hk : eng.KeepsHashes s₀) {as : List Action}
    (hb : Backed ((Concurrent.initial s₀).run eng as) ((Concurrent.initial s₀).ledger eng as))
    {a : Action} (h₁ : ¬ DropsStored eng ((Concurrent.initial s₀).run eng as) a)
    (h₂ : ¬ StoresDropped eng s₀ as a) :
    Backed ((Concurrent.initial s₀).run eng (as ++ [a]))
      ((Concurrent.initial s₀).ledger eng (as ++ [a])) := by
  intro id h hh hd
  rw [Concurrent.run_snoc] at hh
  rw [Concurrent.calls_ledger_snoc, Call.dropped_append] at hd
  obtain ⟨he, -⟩ := exists_effect eng ((Concurrent.initial s₀).run eng as) a
  obtain hold | ⟨i, now, p, ha, hi, rfl, -, -, hc⟩ := he.held_cases hh
  · obtain hd | hd := hd
    · exact hb id h hold hd
    · have hid := (keyed_run hk as hold).2
      have hkey : ∀ j, held ((Concurrent.initial s₀).run eng as).sessions.store j = some h
          ↔ j = id := fun j =>
        ⟨fun hj => (keyed_run hk as hj).2.trans hid.symm, fun hj => hj ▸ hold⟩
      have hf : ∀ (i : Nat) (p : Pending) (e : Error),
          ((Concurrent.initial s₀).run eng as).adds[i]? = some ⟨p, .failed e⟩ → p.handle ≠ h := by
        rintro i p e hi rfl
        exact (unheld_of_failed hk as hi).2 id hold
      obtain ⟨i, now, p, w, ha, hi, hw, rfl⟩ := he.gaveUp_of_dropped hkey hid hf hh hd
      exact h₁ ⟨i, now, p, w, id, ha, hi, hw, hold, hd⟩
  · have hold : Call.Dropped p.handle ((Concurrent.initial s₀).ledger eng as).calls := by
      rw [hc] at hd
      exact hd.resolve_right (by simp)
    exact h₂ ⟨i, now, p, ha, hi, hc ▸ List.mem_cons_self, droppedMeanwhile hs as hi hold⟩

/-- A torrent that is stored and discarded is lost. -/
theorem not_backed_of_dropsStored {as : List Action} {a : Action}
    (h : DropsStored eng ((Concurrent.initial s₀).run eng as) a) :
    ¬ Backed ((Concurrent.initial s₀).run eng (as ++ [a]))
      ((Concurrent.initial s₀).ledger eng (as ++ [a])) := by
  intro hb
  obtain ⟨i, now, p, w, id, rfl, hi, hw, hh, hd⟩ := h
  refine hb id p.handle ?_ ?_
  · rw [Concurrent.run_snoc]
    obtain ⟨e, r, -, hg⟩ := giveUp_does eng p hw now ((Concurrent.initial s₀).run eng as).sessions
    have hs : (((Concurrent.initial s₀).run eng as).step eng (.conclude i now)).sessions.store
        = ((Concurrent.initial s₀).run eng as).sessions.store := by
      rw [← hg.store, Concurrent.step, Concurrent.conclude, hi]
      cases w with
      | ready => exact absurd rfl hw
      | failed | timedOut => rfl
    rwa [hs]
  · rw [Concurrent.calls_ledger_snoc, Call.dropped_append]
    exact .inr hd

/-- What was discarded meanwhile was discarded. -/
theorem DroppedMeanwhile.dropped {as : List Action} {i : Nat} {p : Pending}
    (h : DroppedMeanwhile eng s₀ as i p) :
    Call.Dropped p.handle ((Concurrent.initial s₀).ledger eng as).calls := by
  obtain ⟨before, b, after, rfl, -, hd⟩ := h
  rw [Concurrent.ledger_append, Ledger.calls_append, Concurrent.ledger, Ledger.calls_append,
    Ledger.calls_ofStep]
  exact List.mem_append_right _ (List.mem_append_left _ hd)

/-- A torrent that was discarded and is stored is lost. -/
theorem not_backed_of_storesDropped {as : List Action} {a : Action}
    (h : StoresDropped eng s₀ as a) :
    ¬ Backed ((Concurrent.initial s₀).run eng (as ++ [a]))
      ((Concurrent.initial s₀).ledger eng (as ++ [a])) := by
  intro hb
  obtain ⟨i, now, p, rfl, -, hc, hd⟩ := h
  have hh := ((exists_effect eng _ _).1.stored_of_started hc).2
  rw [← Concurrent.run_snoc] at hh
  refine hb _ p.handle hh ?_
  rw [Concurrent.calls_ledger_snoc, Call.dropped_append]
  exact .inl hd.dropped

/-- **Exactly when every stored session keeps its torrent.**  Let the engine share its handles.  In
every state along an interleaving each stored session has its torrent if and only if no add without
metadata discards a stored torrent, and no add stores a torrent that was discarded while the add was
waiting. -/
theorem backed_iff (hs : eng.Shares s₀) (hk : eng.KeepsHashes s₀) (as : List Action) :
    (∀ bs, bs <+: as → Backed ((Concurrent.initial s₀).run eng bs)
        ((Concurrent.initial s₀).ledger eng bs))
      ↔ ∀ bs a, bs ++ [a] <+: as →
        ¬ DropsStored eng ((Concurrent.initial s₀).run eng bs) a ∧ ¬ StoresDropped eng s₀ bs a := by
  constructor
  · exact fun hb bs a hp => ⟨fun h => not_backed_of_dropsStored h (hb _ hp),
      fun h => not_backed_of_storesDropped h (hb _ hp)⟩
  · intro hn bs hp
    induction bs using List.reverseRecOn with
    | nil => exact fun id h hh => nomatch hh
    | append_singleton bs a ih =>
      obtain ⟨h₁, h₂⟩ := hn bs a hp
      exact (ih ((List.prefix_append bs [a]).trans hp)).step hs hk h₁ h₂

/-! ## A stored session that lost its torrent -/

/-- A magnet is added and stored; it is added again, gets the same handle, and its metadata
fails. -/
def sharedFailure : List Action :=
  let magnet := "0101010101010101010101010101010101010101"
  [.begin magnet, .resolve 0 .ready, .conclude 0 0,
    .begin magnet, .resolve 1 (.failed (.engine "shared handle fails")), .conclude 1 0]

/-- **Sharing alone does not keep the torrents of stored sessions**: a failed add discards one. -/
theorem not_forall_backed :
    ¬ ∀ (σ : Type) (eng : Engine σ) (s₀ : σ), eng.Shares s₀ → eng.KeepsHashes s₀ → ∀ as,
      Backed ((Concurrent.initial s₀).run eng as) ((Concurrent.initial s₀).ledger eng as) := by
  intro h
  have hb := h Registry Registry.engine [] Registry.shares Registry.keepsHashes sharedFailure
  refine hb ⟨Vector.replicate 20 1⟩ 0 (by decide +kernel) ?_
  exact List.mem_of_getElem? (i := 3) rfl

/-- What it takes for the registry to keep the torrents in this interleaving. -/
theorem backed_iff_sharedFailure :
    (∀ bs, bs <+: sharedFailure → Backed ((Concurrent.initial []).run Registry.engine bs)
        ((Concurrent.initial []).ledger Registry.engine bs))
      ↔ ∀ bs a, bs ++ [a] <+: sharedFailure →
        ¬ DropsStored Registry.engine ((Concurrent.initial []).run Registry.engine bs) a
          ∧ ¬ StoresDropped Registry.engine [] bs a :=
  backed_iff Registry.shares Registry.keepsHashes sharedFailure

end HopTorrent.Session
