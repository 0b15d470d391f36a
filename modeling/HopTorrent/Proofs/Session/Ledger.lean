import HopTorrent.Proofs.Session.Sections
import Mathlib.Data.List.Induction

/-!
# Proofs/Session/Ledger — the calls of an interleaving, each with the step that made it

The ledger of a run lists every call of the engine in order and keeps by whom it was made, so that
one can say "its own add discarded it" or "the last call on it was the shutdown's".  Two facts tie
the ledger to the state: the handles it gave are those of the adds, in order (`given_ledger`), and
what is stored is stored under the identifier of a given handle (`keyed_run`).
-/

namespace HopTorrent

/-- The handle that an operation is performed on. -/
def Call.target? : Call → Option Handle
  | .perform _ h _ => some h
  | .add .. => none

namespace Session

/-- Calls, each with the step that made it. -/
abbrev Ledger := List (Action × Call)

namespace Ledger

/-- The calls alone. -/
def calls (l : Ledger) : List Call := l.map Prod.snd

@[simp] theorem calls_append (l m : Ledger) : calls (l ++ m) = calls l ++ calls m :=
  List.map_append

/-- The calls of one step. -/
def ofStep (a : Action) (calls : List Call) : Ledger := calls.map (Prod.mk a)

@[simp] theorem calls_ofStep (a : Action) (calls : List Call) :
    Ledger.calls (ofStep a calls) = calls := by
  simp [Ledger.calls, ofStep, Function.comp_def]

/-- The operations on a handle. -/
def on (h : Handle) (l : Ledger) : Ledger := l.filter fun e => e.2.target? = some h

@[simp] theorem on_append (h : Handle) (l m : Ledger) : on h (l ++ m) = on h l ++ on h m :=
  List.filter_append ..

/-- A step that leaves a handle alone adds nothing to what was done to it. -/
theorem on_ofStep_eq_nil {h : Handle} {a : Action} {calls : List Call}
    (hq : ∀ c ∈ calls, c.target? ≠ some h) : on h (ofStep a calls) = [] := by
  rw [on, List.filter_eq_nil_iff]
  intro e he
  obtain ⟨c, hc, rfl⟩ := List.mem_map.mp he
  simpa using hq c hc

end Ledger

variable {σ : Type} {eng : Engine σ}

namespace Concurrent

variable (eng) in
/-- The calls that a step makes. -/
def made (c : Concurrent σ) (a : Action) : List Call :=
  SessionEvent.calls ((c.step eng a).sessions.events.drop c.sessions.events.length)

variable (eng) in
/-- **The ledger of an interleaving.** -/
def ledger (c : Concurrent σ) : List Action → Ledger
  | [] => []
  | a :: as => .ofStep a (c.made eng a) ++ ledger (c.step eng a) as

variable {c : Concurrent σ} {a : Action}

theorem run_append (as bs : List Action) : c.run eng (as ++ bs) = (c.run eng as).run eng bs :=
  List.foldl_append

theorem run_snoc (as : List Action) (a : Action) :
    c.run eng (as ++ [a]) = (c.run eng as).step eng a :=
  run_append as [a]

/-- The ledger goes on with what the run goes on with. -/
theorem ledger_append (as bs : List Action) :
    c.ledger eng (as ++ bs) = c.ledger eng as ++ (c.run eng as).ledger eng bs := by
  induction as generalizing c with
  | nil => rfl
  | cons b as ih => simp [ledger, ih, run]

/-- One more step adds its calls to the ledger. -/
theorem ledger_snoc (as : List Action) (a : Action) :
    c.ledger eng (as ++ [a]) = c.ledger eng as ++ .ofStep a ((c.run eng as).made eng a) := by
  rw [ledger_append]
  simp [ledger]

/-- The calls of one step more. -/
theorem calls_ledger_snoc (as : List Action) (a : Action) :
    (c.ledger eng (as ++ [a])).calls = (c.ledger eng as).calls ++ (c.run eng as).made eng a := by
  rw [ledger_snoc, Ledger.calls_append, Ledger.calls_ofStep]

end Concurrent

/-- What an activity does tells which calls it made. -/
theorem Does.made {c : Concurrent σ} {a : Action} {calls : List Call} {store : Store}
    (h : Does eng c.sessions calls store (c.step eng a).sessions) : c.made eng a = calls := by
  obtain ⟨new, he, hc⟩ := h.events
  rw [Concurrent.made, he, List.drop_left, hc]

variable (eng) in
/-- **One step of a run**: its effect, its calls, and what it leaves. -/
theorem exists_effect (c : Concurrent σ) (a : Action) :
    Effect eng c a (c.made eng a) (c.step eng a).adds (c.step eng a).lock
        (c.step eng a).sessions.store
      ∧ eng.Ran c.sessions.engine (c.made eng a) (c.step eng a).sessions.engine := by
  obtain ⟨calls, store, he, hd⟩ := step_acts eng c a
  rw [hd.made, hd.store]
  exact ⟨he, hd.engine⟩

/-! ## The adds of a run -/

/-- The handles of the adds, in the order they were begun. -/
def Concurrent.handles (c : Concurrent σ) : List Handle := c.adds.map fun x => x.pending.handle

/-- An add that gets hold of the store is given no handle. -/
theorem Entered.given_eq_nil {s : Sessions σ} {p : Pending} {now : Int}
    {r : Except Error InfoHash} {calls : List Call} {store : Store}
    (hx : Entered eng s p now r calls store) : Call.given calls = [] := by
  cases hx <;> rfl

/-- An add that moves on is given no handle. -/
theorem Move.given_eq_nil {c : Concurrent σ} {i : Nat} {p : Pending} {a : Action} {st st' : Stage}
    {calls : List Call} {lock : Option Holder} {store : Store}
    (hm : Move eng c i p a st calls st' lock store) : Call.given calls = [] := by
  cases hm with
  | entered _ hx => exact hx.given_eq_nil
  | resolved | gaveUp | failed | abandoned => rfl

/-- An add that moves on does not stay at its stage. -/
theorem Move.ne {c : Concurrent σ} {i : Nat} {p : Pending} {a : Action} {st st' : Stage}
    {calls : List Call} {lock : Option Holder} {store : Store}
    (hm : Move eng c i p a st calls st' lock store) : st ≠ st' := by
  cases hm <;> nofun

namespace Effect

variable {c : Concurrent σ} {a : Action} {calls : List Call} {adds : List Adding}
  {lock : Option Holder} {store : Store}

/-- Putting an add at its own place keeps its handle. -/
theorem map_handle_set {i : Nat} {p : Pending} {st st' : Stage}
    {adds : List Adding} (hi : adds[i]? = some ⟨p, st⟩) :
    (adds.set i ⟨p, st'⟩).map (fun x => x.pending.handle)
      = adds.map fun x => x.pending.handle := by
  obtain ⟨hl, he⟩ := List.getElem?_eq_some_iff.mp hi
  rw [List.map_set]
  refine List.ext_getElem? fun j => ?_
  by_cases hj : i = j
  · subst hj
    simp [hl, he]
  · rw [List.getElem?_set_ne hj]

/-- The handles that a step is given are those of the adds it begins. -/
theorem map_handle (he : Effect eng c a calls adds lock store) :
    adds.map (fun x => x.pending.handle) = c.handles ++ Call.given calls := by
  cases he with
  | idle | refused | kept | removed | switched | tornDown | cleared | begun =>
    simp [Concurrent.handles, Call.given, Call.handle?]
  | moved hi hm => rw [map_handle_set hi, hm.given_eq_nil, List.append_nil, Concurrent.handles]

/-- **What a step does to an add that was begun**: nothing, or it moves on. -/
theorem stage_cases (he : Effect eng c a calls adds lock store) {i : Nat} {p : Pending}
    {st : Stage} (hi : c.adds[i]? = some ⟨p, st⟩) :
    adds[i]? = some ⟨p, st⟩
      ∨ ∃ st', adds[i]? = some ⟨p, st'⟩ ∧ Move eng c i p a st calls st' lock store := by
  cases he with
  | idle | refused | kept | removed | switched | tornDown | cleared => exact .inl hi
  | begun =>
    exact .inl (by rw [List.getElem?_append_left (List.getElem?_eq_some_iff.mp hi).1, hi])
  | @moved _ j q _ st' _ _ _ hj hm =>
    by_cases hji : j = i
    · subst hji
      rw [hi] at hj
      cases hj
      exact .inr ⟨st', List.getElem?_set_self (List.getElem?_eq_some_iff.mp hi).1, hm⟩
    · exact .inl (by rw [List.getElem?_set_ne hji, hi])

/-- An add that was begun stays what it is, at whatever stage. -/
theorem exists_stage (he : Effect eng c a calls adds lock store) {i : Nat} {p : Pending}
    {st : Stage} (hi : c.adds[i]? = some ⟨p, st⟩) : ∃ st', adds[i]? = some ⟨p, st'⟩ := by
  obtain h | ⟨st', h, -⟩ := he.stage_cases hi
  · exact ⟨st, h⟩
  · exact ⟨st', h⟩

/-- **An add that has ended stays as it is.** -/
theorem ended (he : Effect eng c a calls adds lock store) {i : Nat} {p : Pending}
    {r : Except Error InfoHash} (hi : c.adds[i]? = some ⟨p, .ended r⟩) :
    adds[i]? = some ⟨p, .ended r⟩ := by
  obtain h | ⟨_, -, hm⟩ := he.stage_cases hi
  · exact h
  · cases hm

/-- **Where an add was before a step**: at the same stage, not begun, or at the stage it moved on
from. -/
theorem stage_inv (he : Effect eng c a calls adds lock store) {i : Nat} {p : Pending} {st : Stage}
    (hi : adds[i]? = some ⟨p, st⟩) :
    c.adds[i]? = some ⟨p, st⟩
      ∨ st = .waiting ∧ (∃ m, calls = [.add m (.ok p.handle)])
      ∨ ∃ st₀, c.adds[i]? = some ⟨p, st₀⟩ ∧ Move eng c i p a st₀ calls st lock store := by
  cases he with
  | idle | refused | kept | removed | switched | tornDown | cleared => exact .inl hi
  | begun =>
    rw [List.getElem?_append] at hi
    split at hi
    · exact .inl hi
    · rw [List.getElem?_singleton] at hi
      split at hi <;> cases hi
      exact .inr (.inl ⟨rfl, _, rfl⟩)
  | @moved _ j q st₀ _ _ _ _ hj hm =>
    by_cases hji : j = i
    · subst hji
      rw [List.getElem?_set_self (List.getElem?_eq_some_iff.mp hj).1] at hi
      cases hi
      exact .inr (.inr ⟨st₀, hj, hm⟩)
    · exact .inl (by rwa [List.getElem?_set_ne hji] at hi)

end Effect

section Run

variable {s₀ : σ}

/-- The ledger of a run from the start is a history of the engine. -/
theorem ran_ledger (eng : Engine σ) (s₀ : σ) (as : List Action) :
    eng.Ran s₀ ((Concurrent.initial s₀).ledger eng as).calls
      ((Concurrent.initial s₀).run eng as).sessions.engine := by
  induction as using List.reverseRecOn with
  | nil => exact .start
  | append_singleton as a ih =>
    rw [Concurrent.calls_ledger_snoc, Concurrent.run_snoc]
    exact ih.append (exists_effect _ _ a).2

/-- **The handles that a run was given are those of its adds**, in order. -/
theorem given_ledger (eng : Engine σ) (s₀ : σ) (as : List Action) :
    Call.given ((Concurrent.initial s₀).ledger eng as).calls
      = ((Concurrent.initial s₀).run eng as).handles := by
  induction as using List.reverseRecOn with
  | nil => rfl
  | append_singleton as a ih =>
    rw [Concurrent.calls_ledger_snoc, Concurrent.run_snoc, Call.given_append, ih]
    exact (exists_effect _ _ a).1.map_handle.symm

/-- What a step stores was stored before, or is the handle of the add that ends. -/
theorem Effect.held_cases {c : Concurrent σ} {a : Action} {calls : List Call} {adds : List Adding}
    {lock : Option Holder} {store : Store} (he : Effect eng c a calls adds lock store)
    {id : InfoHash} {h : Handle} (hh : held store id = some h) :
    held c.sessions.store id = some h
      ∨ ∃ i now p, a = .conclude i now ∧ c.adds[i]? = some ⟨p, .waited .ready⟩ ∧ p.handle = h
        ∧ id = eng.hash c.sessions.engine h ∧ c.lock = none
        ∧ calls = [.perform .downloadAll h (.ok ())] := by
  cases he with
  | idle hs | switched _ _ _ _ hs => exact .inl (hs ▸ hh)
  | refused | begun | kept | cleared => exact .inl hh
  | removed | tornDown =>
    rw [held_erase] at hh
    split at hh
    · cases hh
    · exact .inl hh
  | @moved _ i p _ _ _ _ _ hi hm =>
    cases hm with
    | resolved | gaveUp | failed | abandoned => exact .inl hh
    | @entered now _ _ _ hl hx =>
      cases hx with
      | live | duplicate => exact .inl hh
      | stored =>
        rw [held_put] at hh
        split at hh
        · rename_i hid
          cases hh
          exact .inr ⟨i, now, p, rfl, hi, rfl, hid, hl, rfl⟩
        · exact .inl hh

/-- **An add whose torrent is started stores its transfer**, and there was none of that identifier
before. -/
theorem Effect.stored_of_started {c : Concurrent σ} {i : Nat} {now : Int} {calls : List Call}
    {adds : List Adding} {lock : Option Holder} {store : Store} {h : Handle}
    (he : Effect eng c (.conclude i now) calls adds lock store)
    (hd : .perform .downloadAll h (.ok ()) ∈ calls) :
    held c.sessions.store (eng.hash c.sessions.engine h) = none
      ∧ held store (eng.hash c.sessions.engine h) = some h := by
  cases he with
  | idle => cases hd
  | switched ha => simp at ha
  | moved hi hm =>
    cases hm with
    | gaveUp | failed | abandoned => simp at hd
    | entered _ hx =>
      cases hx with
      | live => cases hd
      | duplicate => simp at hd
      | @stored hn =>
        obtain ⟨-, rfl, -⟩ := by simpa using hd
        exact ⟨by rw [held, hn]; rfl, by rw [held_put, if_pos rfl]; rfl⟩

/-- **What is stored is stored under its own identifier**, and it is the handle of an add. -/
theorem keyed_run (hk : eng.KeepsHashes s₀) (as : List Action) {id : InfoHash} {h : Handle}
    (hh : held ((Concurrent.initial s₀).run eng as).sessions.store id = some h) :
    h ∈ ((Concurrent.initial s₀).run eng as).handles
      ∧ id = eng.hash ((Concurrent.initial s₀).run eng as).sessions.engine h := by
  induction as using List.reverseRecOn generalizing id h with
  | nil => cases hh
  | append_singleton as a ih =>
    rw [Concurrent.run_snoc] at hh ⊢
    obtain ⟨he, hr⟩ := exists_effect eng ((Concurrent.initial s₀).run eng as) a
    have hm : ∀ h ∈ ((Concurrent.initial s₀).run eng as).handles,
        h ∈ (((Concurrent.initial s₀).run eng as).step eng a).handles := by
      intro h hg
      rw [Concurrent.handles, he.map_handle]
      exact List.mem_append_left _ hg
    have hash_eq : ∀ h ∈ ((Concurrent.initial s₀).run eng as).handles, _ := fun h hg =>
      hk.hash_eq (ran_ledger eng s₀ as) hr (given_ledger eng s₀ as ▸ hg)
    obtain hold | ⟨i, now, p, -, hi, rfl, rfl, -⟩ := he.held_cases hh
    · obtain ⟨hg, hid⟩ := ih hold
      exact ⟨hm h hg, hid.trans (hash_eq h hg).symm⟩
    · have hg : p.handle ∈ ((Concurrent.initial s₀).run eng as).handles :=
        List.mem_map.mpr ⟨_, List.mem_of_getElem? hi, rfl⟩
      exact ⟨hm _ hg, (hash_eq _ hg).symm⟩

end Run

end Session

end HopTorrent
