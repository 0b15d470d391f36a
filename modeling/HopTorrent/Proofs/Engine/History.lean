import HopTorrent.Engine

/-!
# Proofs/Engine/History — what was asked of an engine, and what it promises

An engine is seen from outside by its history: the calls made of it, in order, each with its result.
What may be expected of an engine is a statement about all its histories.

* `GivesNew`: every add gets a handle that was never given before.
* `Shares`: a torrent that is still managed keeps the handle it was first added with.
* `KeepsHashes`: what a handle says of its identifier does not change.
* `Knowing`: no operation is refused because a transfer is missing.
-/

namespace HopTorrent

/-- A call of the engine, with its result. -/
inductive Call where
  | add (magnet : String) (result : Except Error Handle)
  | perform (op : Operation) (h : Handle) (result : Except Error Unit)

namespace Call

/-- The handle that a call gave. -/
def handle? : Call → Option Handle
  | .add _ (.ok h) => some h
  | _ => none

/-- The handles that were given, in order. -/
def given (calls : List Call) : List Handle := calls.filterMap handle?

@[simp] theorem given_nil : given [] = [] := rfl

@[simp] theorem given_append (cs ds : List Call) : given (cs ++ ds) = given cs ++ given ds :=
  List.filterMap_append

theorem given_perform (op : Operation) (h : Handle) (r : Except Error Unit) :
    given [.perform op h r] = [] := rfl

theorem given_add_error (m : String) (e : Error) : given [.add m (.error e)] = [] := rfl

theorem given_add_ok (m : String) (h : Handle) : given [.add m (.ok h)] = [h] := rfl

/-- **A torrent was discarded**: the engine was told to and did not refuse. -/
def Dropped (h : Handle) (calls : List Call) : Prop :=
  .perform .dropTorrent h (.ok ()) ∈ calls

variable {h g : Handle} {cs ds : List Call} {m : String} {op : Operation}

@[simp] theorem not_dropped_nil : ¬ Dropped h [] := List.not_mem_nil

@[simp] theorem dropped_append : Dropped h (cs ++ ds) ↔ Dropped h cs ∨ Dropped h ds :=
  List.mem_append

@[simp] theorem not_dropped_add {r : Except Error Handle} : ¬ Dropped h [.add m r] := by
  simp [Dropped]

@[simp] theorem dropped_perform_iff {r : Except Error Unit} :
    Dropped h [.perform op g r] ↔ op = .dropTorrent ∧ g = h ∧ r = .ok () := by
  simp [Dropped, eq_comm]

end Call

namespace Engine

variable {σ : Type} {eng : Engine σ} {s s' s'' s₀ : σ} {cs ds : List Call}

/-- The identifier that a handle reports. -/
def hash (eng : Engine σ) (s : σ) (h : Handle) : InfoHash := (eng.torrent s h).infoHash

variable (eng) in
/-- One call. -/
inductive Makes : σ → Call → σ → Prop
  | add (m : String) (s : σ) : Makes s (.add m (eng.addMagnet m s).1) (eng.addMagnet m s).2
  | perform (op : Operation) (h : Handle) (s : σ) :
    Makes s (.perform op h (eng.perform op h s).1) (eng.perform op h s).2

variable (eng) in
/-- Calls one after another. -/
inductive Ran (s : σ) : List Call → σ → Prop
  | start : Ran s [] s
  | call {cs : List Call} {t t' : σ} {c : Call} :
    Ran s cs t → eng.Makes t c t' → Ran s (cs ++ [c]) t'

/-- A history goes on with another one. -/
theorem Ran.append (h : eng.Ran s cs s') (k : eng.Ran s' ds s'') : eng.Ran s (cs ++ ds) s'' := by
  induction k with
  | start => rwa [List.append_nil]
  | call _ hc ih =>
    rw [← List.append_assoc]
    exact ih.call hc

/-- A single call is a history. -/
theorem Makes.ran {c : Call} (h : eng.Makes s c s') : eng.Ran s [c] s' := Ran.start.call h

/-- Every call of a history was made in some state. -/
theorem Ran.makes_of_mem {c : Call} (h : eng.Ran s cs s') (hc : c ∈ cs) :
    ∃ t t', eng.Makes t c t' := by
  induction h with
  | start => cases hc
  | call _ hm ih =>
    rcases List.mem_append.mp hc with hc | hc
    · exact ih hc
    · exact ⟨_, _, List.mem_singleton.mp hc ▸ hm⟩

/-- An add comes out as the engine answers. -/
theorem Makes.add_eq {m : String} {r : Except Error Handle} (hm : eng.Makes s (.add m r) s') :
    eng.addMagnet m s = (r, s') := by
  generalize hc : Call.add m r = c at hm
  cases hm with
  | add =>
    cases hc
    rfl
  | perform => cases hc

/-- An operation comes out as the engine answers. -/
theorem Makes.perform_eq {op : Operation} {h : Handle} {r : Except Error Unit}
    (hm : eng.Makes s (.perform op h r) s') : eng.perform op h s = (r, s') := by
  generalize hc : Call.perform op h r = c at hm
  cases hm with
  | add => cases hc
  | perform =>
    cases hc
    rfl

/-- The last call of a history. -/
theorem Ran.of_concat {c : Call} (h : eng.Ran s (cs ++ [c]) s') :
    ∃ t, eng.Ran s cs t ∧ eng.Makes t c s' := by
  generalize hds : cs ++ [c] = ds at h
  cases h with
  | start => simp at hds
  | @call _ t _ _ hr hm =>
    obtain ⟨rfl, hc⟩ := List.append_inj' hds rfl
    obtain rfl := List.singleton_inj.mp hc
    exact ⟨t, hr, hm⟩

/-- A history of one call. -/
theorem Ran.of_singleton {c : Call} (h : eng.Ran s [c] s') : eng.Makes s c s' := by
  obtain ⟨t, hr, hm⟩ : ∃ t, eng.Ran s [] t ∧ eng.Makes t c s' := h.of_concat
  generalize hn : ([] : List Call) = ds at hr
  cases hr with
  | start => exact hm
  | call => simp at hn

/-! ## What may be expected of an engine -/

/-- **Every add gives a handle that was never given before.** -/
def GivesNew (eng : Engine σ) (s₀ : σ) : Prop :=
  ∀ cs s m h, eng.Ran s₀ cs s → (eng.addMagnet m s).1 = .ok h → h ∉ Call.given cs

/-- **The engine knows its torrents**: it never refuses an operation because a transfer is
missing. -/
def Knowing (eng : Engine σ) : Prop :=
  ∀ op h s d, (eng.perform op h s).1 ≠ .error (.notFound d)

/-- **A handle, once given, always reports the same identifier.** -/
def KeepsHashes (eng : Engine σ) (s₀ : σ) : Prop :=
  ∀ cs s c s' h, eng.Ran s₀ cs s → eng.Makes s c s' → h ∈ Call.given cs →
    eng.hash s' h = eng.hash s h

/-- **An engine that shares its handles**: adding a torrent that is managed already gives the handle
it was first added with.  A torrent that was discarded is managed no more: added again, it gets a
handle of its own. -/
structure Shares (eng : Engine σ) (s₀ : σ) : Prop where
  again : ∀ cs s m h h', eng.Ran s₀ cs s → (eng.addMagnet m s).1 = .ok h → h' ∈ Call.given cs →
    ¬ Call.Dropped h' cs → eng.hash (eng.addMagnet m s).2 h' = eng.hash (eng.addMagnet m s).2 h →
    h = h'
  anew : ∀ cs s m h, eng.Ran s₀ cs s → (eng.addMagnet m s).1 = .ok h → ¬ Call.Dropped h cs

/-- The identifier of a handle stays the same however the history goes on. -/
theorem KeepsHashes.hash_eq (hk : eng.KeepsHashes s₀) (h₀ : eng.Ran s₀ cs s)
    (hr : eng.Ran s ds s') {h : Handle} (hg : h ∈ Call.given cs) :
    eng.hash s' h = eng.hash s h := by
  induction hr with
  | start => rfl
  | @call ds' _ _ _ hr hc ih =>
    refine (hk _ _ _ _ h (h₀.append hr) hc ?_).trans ih
    rw [Call.given_append]
    exact List.mem_append_left _ hg

/-- The handles that such an engine ever gave are distinct. -/
theorem GivesNew.nodup (hn : eng.GivesNew s₀) (h : eng.Ran s₀ cs s) : (Call.given cs).Nodup := by
  induction h with
  | start => exact .nil
  | @call _ t _ _ hr hc ih =>
    rw [Call.given_append]
    cases hc with
    | perform op h => rwa [Call.given_perform, List.append_nil]
    | add m =>
      cases ha : (eng.addMagnet m t).1 with
      | error e => rwa [Call.given_add_error, List.append_nil]
      | ok h =>
        rw [Call.given_add_ok, List.nodup_append]
        refine ⟨ih, by simp, ?_⟩
        rintro g hg g' hg' rfl
        exact hn _ _ m h hr ha (List.mem_singleton.mp hg' ▸ hg)

end Engine

end HopTorrent
