import HopTorrent.Proofs.Session.Book
import HopTorrent.Proofs.Session.Ledger
import Mathlib.Data.List.Nodup

/-!
# Proofs/Session/Filed — every session under the identifier of its torrent

The identifier of a torrent is the hash of its content, so it is settled once the torrent was
started, whatever is asked of the engine afterwards (`Engine.Settles`).  Then a session stays filed
under the identifier that its torrent reports (`Filed`): the steps of overlapping operations keep it
so (`Filed.act`), and so do whole tasks (`Filed.task`).  Hence no two sessions have the same handle
(`Filed.nodup_handles`).
-/

namespace HopTorrent

/-! ## Engines whose identifiers are settled -/

namespace Engine

variable {σ : Type} {eng : Engine σ} {Settled : σ → Handle → Prop} {e e' : σ} {cs : List Call}
  {h : Handle}

/-- A settled torrent is settled still after a change of the engine, and reports the same
identifier. -/
def KeepsSettled (eng : Engine σ) (Settled : σ → Handle → Prop) (f : σ → σ) : Prop :=
  ∀ e h, Settled e h → Settled (f e) h ∧ eng.hash (f e) h = eng.hash e h

/-- **Identifiers are settled once a torrent was started**, and every call leaves them so. -/
structure Settles (eng : Engine σ) (Settled : σ → Handle → Prop) : Prop where
  started : ∀ e h, (eng.downloadAll h e).1 = .ok () →
    Settled (eng.downloadAll h e).2 h ∧ eng.hash (eng.downloadAll h e).2 h = eng.hash e h
  addMagnet : ∀ m, eng.KeepsSettled Settled fun e => (eng.addMagnet m e).2
  perform : ∀ op h, eng.KeepsSettled Settled fun e => (eng.perform op h e).2

/-- Settled torrents stay so over any calls. -/
theorem Settles.ran (hE : eng.Settles Settled) (hr : eng.Ran e cs e') (hs : Settled e h) :
    Settled e' h ∧ eng.hash e' h = eng.hash e h := by
  induction hr with
  | start => exact ⟨hs, rfl⟩
  | @call _ t _ _ _ hc ih =>
    obtain ⟨hs', he⟩ := ih
    cases hc with
    | add m =>
      obtain ⟨hs'', he'⟩ := hE.addMagnet m t h hs'
      exact ⟨hs'', he'.trans he⟩
    | perform op g =>
      obtain ⟨hs'', he'⟩ := hE.perform op g t h hs'
      exact ⟨hs'', he'.trans he⟩

/-- The call that starts a torrent settles it. -/
theorem Settles.of_started (hE : eng.Settles Settled)
    (hm : eng.Makes e (.perform .downloadAll h (.ok ())) e') :
    Settled e' h ∧ eng.hash e' h = eng.hash e h := by
  have hp : eng.downloadAll h e = (.ok (), e') := hm.perform_eq
  have hs := hE.started e h (congrArg Prod.fst hp)
  rwa [hp] at hs

end Engine

namespace Session

variable {σ : Type} {eng : Engine σ} {Settled : σ → Handle → Prop} {s s' : Sessions σ}

/-! ## Sessions that are filed -/

/-- **Every session is filed under the identifier of its torrent**, which is settled. -/
def Filed (eng : Engine σ) (Settled : σ → Handle → Prop) (s : Sessions σ) : Prop :=
  ∀ id h, held s.store id = some h → Settled s.engine h ∧ eng.hash s.engine h = id

theorem filed_initial (eng : Engine σ) (Settled : σ → Handle → Prop) (e : σ) :
    Filed eng Settled (.initial e) := nofun

/-- **No two sessions have the same handle.** -/
theorem Filed.nodup_handles (hf : Filed eng Settled s) :
    (s.store.entries.map fun entry => entry.2.handle).Nodup := by
  have hkeys : (s.store.entries.map fun entry => entry.2.handle).map (eng.hash s.engine)
      = s.store.entries.map Prod.fst := by
    rw [List.map_map]
    refine List.map_congr_left fun entry he => ?_
    exact (hf _ _ (held_of_get? ((s.store.mem_entries_iff _ _).mp he))).2
  exact List.Nodup.of_map (eng.hash s.engine) (hkeys ▸ s.store.nodup)

/-- Sessions stay filed when the engine moves on by itself and keeps what is settled. -/
theorem Filed.drift (hf : Filed eng Settled s) {f : σ → σ} (hk : eng.KeepsSettled Settled f) :
    Filed eng Settled { s with engine := f s.engine } := by
  intro id h hh
  obtain ⟨hs, hid⟩ := hf id h hh
  obtain ⟨hs', he⟩ := hk s.engine h hs
  exact ⟨hs', he.trans hid⟩

/-- What stays in the store over some calls stays filed. -/
theorem Filed.stays (hE : eng.Settles Settled) (hf : Filed eng Settled s) {cs : List Call}
    (hr : eng.Ran s.engine cs s'.engine) {id : InfoHash} {h : Handle}
    (hh : held s.store id = some h) : Settled s'.engine h ∧ eng.hash s'.engine h = id := by
  obtain ⟨hs, hid⟩ := hf id h hh
  obtain ⟨hs', he⟩ := hE.ran hr hs
  exact ⟨hs', he.trans hid⟩

/-! ## Steps and tasks -/

/-- **A step keeps every session filed.** -/
theorem Filed.act (hE : eng.Settles Settled) {c : Concurrent σ} (hf : Filed eng Settled c.sessions)
    (a : Action) : Filed eng Settled (c.step eng a).sessions := by
  obtain ⟨he, hr⟩ := exists_effect eng c a
  intro id h hh
  obtain hold | ⟨i, now, p, -, -, -, rfl, -, hc⟩ := he.held_cases hh
  · exact hf.stays hE hr hold
  · rw [hc] at hr
    exact hE.of_started hr.of_singleton

/-- **What is in the book after a task** was there before it, under the same handle, or is of the
add that started it. -/
theorem Serves.entry_cases {timeout : Nat} {now : Int} {e₀ : σ} {b b' : Book} {task : Task}
    {a : Answer} {calls : List Call} (h : Serves eng timeout now e₀ b task a calls b')
    {id : InfoHash} {x : Entry} (hx : b' id = some x) :
    (∃ y, b id = some y ∧ y.handle = x.handle)
      ∨ ∃ m e₁, eng.addMagnet m e₀ = (.ok x.handle, e₁) ∧ id = eng.hash e₁ x.handle
        ∧ calls = [.add m (.ok x.handle), .perform .downloadAll x.handle (.ok ())] := by
  cases h with
  | blank | refused | gaveUp | live | duplicate | unstarted | shown | unseen | listed | absent
  | kept => exact .inl ⟨x, hx, rfl⟩
  | tornDown => cases hx
  | entered hg =>
    rw [Function.update_apply] at hx
    split at hx
    · rename_i hid
      cases hx
      exact .inr ⟨_, _, hg.2, hid, rfl⟩
    · exact .inl ⟨x, hx, rfl⟩
  | @changed _ j op f y ht hb =>
    rw [Function.update_apply] at hx
    split at hx
    · rename_i hid
      refine .inl ⟨y, hid ▸ hb, ?_⟩
      cases task <;> cases ht <;> cases hx <;> rfl
    · exact .inl ⟨x, hx, rfl⟩

/-- The handle in the store is that in the book. -/
theorem held_eq_book (store : Store) (id : InfoHash) :
    held store id = (book store id).map Entry.handle := by
  rw [held, book, Option.map_map]
  rfl

/-- **A task keeps every session filed.** -/
theorem Filed.task (hE : eng.Settles Settled) (hf : Filed eng Settled s) (timeout : Nat)
    (now : Int) (task : Task) : Filed eng Settled ((task.perform eng timeout now).run s).2 := by
  obtain ⟨calls, store, hs, hd⟩ := task.perform_serves eng timeout now s
  intro id h hh
  rw [hd.store, held_eq_book] at hh
  obtain ⟨x, hx, rfl⟩ := Option.map_eq_some_iff.mp hh
  obtain ⟨y, hy, hyx⟩ | ⟨m, e₁, ha, rfl, rfl⟩ := hs.entry_cases hx
  · refine hf.stays hE hd.engine ?_
    rw [held_eq_book, hy, ← hyx]
    rfl
  · have hran : eng.Ran s.engine ([.add m (.ok x.handle)]
        ++ [.perform .downloadAll x.handle (.ok ())])
        ((task.perform eng timeout now).run s).2.engine :=
      hd.engine
    obtain ⟨t, hadd, hstart⟩ := hran.of_concat
    obtain rfl : e₁ = t := congrArg Prod.snd (ha.symm.trans hadd.of_singleton.add_eq)
    exact hE.of_started hstart

end Session

end HopTorrent
