import HopTorrent.Proofs.Engine.Registry
import HopTorrent.Proofs.Session.Ledger

/-!
# Proofs/Session/Finality — what comes back after a shutdown

A shutdown empties the store, but it knows nothing of the adds that still wait for metadata.  Such
an add goes on, and once its metadata comes it stores its transfer as if nothing had happened.  This
is the only way back: a session of an add that was begun before the shutdown shows up afterwards
exactly when such an add starts its torrent afterwards, and the store stays empty exactly when no
add at all does (`final_iff`).
-/

namespace HopTorrent.Session

variable {σ : Type} {eng : Engine σ} {s₀ : σ}

/-! ## Whose session is stored -/

variable (eng s₀) in
/-- **A stored session is that of an add**: the add concluded when the session came into the store,
and the session is there since. -/
inductive Owns : List Action → InfoHash → Nat → Prop
  /-- An add that concludes puts something where nothing was. -/
  | stored {as : List Action} {i : Nat} {now : Int} {id : InfoHash}
      (hn : held ((Concurrent.initial s₀).run eng as).sessions.store id = none)
      (hs : held ((Concurrent.initial s₀).run eng (as ++ [.conclude i now])).sessions.store id
        ≠ none) :
    Owns (as ++ [.conclude i now]) id i
  /-- What was there before a step is still there after it. -/
  | kept {as : List Action} {a : Action} {i : Nat} {id : InfoHash} (ho : Owns as id i)
      (hs : held ((Concurrent.initial s₀).run eng (as ++ [a])).sessions.store id ≠ none) :
    Owns (as ++ [a]) id i

/-- What an add owns is stored. -/
theorem Owns.held_ne_none {as : List Action} {id : InfoHash} {i : Nat} (h : Owns eng s₀ as id i) :
    held ((Concurrent.initial s₀).run eng as).sessions.store id ≠ none := by
  cases h with
  | stored _ hs | kept _ hs => exact hs

variable (eng) in
/-- An add starts its torrent in a step: it concludes, and the engine downloads all of it. -/
def StartsIn (c : Concurrent σ) (a : Action) (i : Nat) : Prop :=
  ∃ now h, a = .conclude i now ∧ .perform .downloadAll h (.ok ()) ∈ c.made eng a

/-- **What comes into the store is owned**: the step concludes an add and starts its torrent. -/
theorem exists_startsIn {as : List Action} {a : Action} {id : InfoHash}
    (hn : held ((Concurrent.initial s₀).run eng as).sessions.store id = none)
    (hs : held ((Concurrent.initial s₀).run eng (as ++ [a])).sessions.store id ≠ none) :
    ∃ i, StartsIn eng ((Concurrent.initial s₀).run eng as) a i := by
  obtain ⟨h, hh⟩ := Option.ne_none_iff_exists'.mp hs
  rw [Concurrent.run_snoc] at hh
  obtain hold | ⟨i, now, p, ha, -, -, -, -, hc⟩ := (exists_effect eng _ a).1.held_cases hh
  · rw [hn] at hold
    cases hold
  · exact ⟨i, now, h, ha, by rw [hc]; exact List.mem_singleton_self _⟩

/-- **An add that starts its torrent owns a session.** -/
theorem StartsIn.exists_owns {as : List Action} {a : Action} {i : Nat}
    (h : StartsIn eng ((Concurrent.initial s₀).run eng as) a i) :
    ∃ id, Owns eng s₀ (as ++ [a]) id i := by
  obtain ⟨now, h, rfl, hc⟩ := h
  obtain ⟨hn, hs⟩ := (exists_effect eng _ _).1.stored_of_started hc
  rw [← Concurrent.run_snoc] at hs
  exact ⟨_, .stored hn (by rw [hs]; nofun)⟩

/-- **Whose a session is after one more step**: it was so before, or the add started its torrent. -/
theorem Owns.of_snoc {as : List Action} {a : Action} {id : InfoHash} {i : Nat}
    (h : Owns eng s₀ (as ++ [a]) id i) :
    Owns eng s₀ as id i ∨ StartsIn eng ((Concurrent.initial s₀).run eng as) a i := by
  generalize hb : as ++ [a] = bs at h
  cases h with
  | stored hn hs =>
    obtain ⟨rfl, ha⟩ := List.append_inj' hb rfl
    obtain rfl := List.singleton_inj.mp ha
    obtain ⟨j, now, h, he, hc⟩ := exists_startsIn hn hs
    cases he
    exact .inr ⟨_, h, rfl, hc⟩
  | kept ho _ =>
    obtain ⟨rfl, -⟩ := List.append_inj' hb rfl
    exact .inl ho

/-- **Every stored session is that of an add.** -/
theorem exists_owns {as : List Action} {id : InfoHash}
    (hs : held ((Concurrent.initial s₀).run eng as).sessions.store id ≠ none) :
    ∃ i, Owns eng s₀ as id i := by
  induction as using List.reverseRecOn with
  | nil => exact absurd rfl hs
  | append_singleton as a ih =>
    by_cases hn : held ((Concurrent.initial s₀).run eng as).sessions.store id = none
    · obtain ⟨i, now, h, rfl, -⟩ := exists_startsIn hn hs
      exact ⟨i, .stored hn hs⟩
    · obtain ⟨i, hi⟩ := ih hn
      exact ⟨i, .kept hi hs⟩

/-- Nothing is stored exactly when no add owns anything. -/
theorem entries_eq_nil_iff_owns (as : List Action) :
    ((Concurrent.initial s₀).run eng as).sessions.store.entries = []
      ↔ ∀ id i, ¬ Owns eng s₀ as id i := by
  constructor
  · intro he id i ho
    refine ho.held_ne_none ?_
    rw [held, Table.get?, he]
    rfl
  · intro hn
    refine List.eq_nil_iff_forall_not_mem.mpr fun e he => ?_
    have hg := (Table.mem_entries_iff _ e.1 e.2).mp he
    have hs : held ((Concurrent.initial s₀).run eng as).sessions.store e.1 ≠ none := by
      rw [held_of_get? hg]
      exact Option.some_ne_none _
    obtain ⟨i, hi⟩ := exists_owns hs
    exact hn e.1 i hi

/-! ## After the shutdown -/

/-- An add starts its torrent in an interleaving. -/
def Starts (eng : Engine σ) (c : Concurrent σ) (as : List Action) (i : Nat) : Prop :=
  ∃ now h, (.conclude i now, .perform .downloadAll h (.ok ())) ∈ c.ledger eng as

theorem starts_snoc_iff {c : Concurrent σ} {as : List Action} {a : Action} {i : Nat} :
    Starts eng c (as ++ [a]) i ↔ Starts eng c as i ∨ StartsIn eng (c.run eng as) a i := by
  simp only [Starts, StartsIn, Concurrent.ledger_snoc, List.mem_append, exists_or]
  refine or_congr_right (exists₂_congr fun now h => ⟨fun hm => ?_, ?_⟩)
  · obtain ⟨call, hc, he⟩ := List.mem_map.mp hm
    cases he
    exact ⟨rfl, hc⟩
  · rintro ⟨rfl, hc⟩
    exact List.mem_map_of_mem hc

/-- **What some adds own later on comes from starting their torrents.**  If they own nothing now,
they never do exactly when none of them starts its torrent. -/
theorem forall_not_owns_iff {P : Nat → Prop} {past : List Action}
    (h₀ : ∀ id i, P i → ¬ Owns eng s₀ past id i) (late : List Action) :
    (∀ seen, seen <+: late → ∀ id i, P i → ¬ Owns eng s₀ (past ++ seen) id i)
      ↔ ∀ i, P i → ¬ Starts eng ((Concurrent.initial s₀).run eng past) late i := by
  induction late using List.reverseRecOn with
  | nil =>
    constructor
    · rintro - i - ⟨now, h, hm⟩
      cases hm
    · rintro - seen hs id i hi
      rw [List.prefix_nil.mp hs, List.append_nil]
      exact h₀ id i hi
  | append_singleton as a ih =>
    simp only [starts_snoc_iff, ← Concurrent.run_append]
    constructor
    · rintro hn i hi (hs | hs)
      · exact ih.mp (fun seen hp => hn seen (hp.trans (List.prefix_append as [a]))) i hi hs
      · obtain ⟨id, ho⟩ := hs.exists_owns
        rw [List.append_assoc] at ho
        exact hn _ (List.prefix_refl _) id i hi ho
    · intro hn seen hp id i hi ho
      have hold := ih.mpr fun i hi hs => hn i hi (.inl hs)
      rcases List.prefix_concat_iff.mp hp with rfl | hp
      · rw [← List.append_assoc] at ho
        rcases ho.of_snoc with ho | hs
        · exact hold as (List.prefix_refl _) id i hi ho
        · exact hn i hi (.inr hs)
      · exact hold seen hp id i hi ho

/-- The next step of the shutdown is its last: it has the store, or can get hold of it, and no
session is left. -/
def Concurrent.Returns (c : Concurrent σ) : Prop :=
  (∀ i, c.lock ≠ some (.add i)) ∧ c.sessions.store.entries = []

/-- A shutdown that returns leaves nothing in the store. -/
theorem Concurrent.Returns.entries_eq_nil {c : Concurrent σ} (h : c.Returns) (eng : Engine σ)
    (order : Order) : (c.step eng (.shutdown order)).sessions.store.entries = [] := by
  obtain ⟨hl, he⟩ := h
  have hm : order.met c.sessions.store = [] := (he ▸ order.perm c.sessions.store).eq_nil
  rw [Concurrent.step]
  rcases hc : c.lock with _ | i | count
  · simp only [Concurrent.tearDown, hm]
    exact he
  · exact absurd hc (hl i)
  · simp only [Concurrent.tearDown, hm]
    exact he

/-- **Exactly when a shutdown is final.**  Let any steps be done `early`, a shutdown run and return
among whatever is done `during` it, and any steps be done `late`.  Then no session of an add begun
early is ever in the store again if and only if no such add starts its torrent late; and the store
stays empty if and only if no add starts its torrent late. -/
theorem final_iff (eng : Engine σ) (s₀ : σ) (early during late : List Action) (order : Order)
    (hr : ((Concurrent.initial s₀).run eng (early ++ during)).Returns) :
    ((∀ seen, seen <+: late → ∀ id i,
          Owns eng s₀ (early ++ during ++ [.shutdown order] ++ seen) id i →
          ((Concurrent.initial s₀).run eng early).adds.length ≤ i)
        ↔ ∀ i < ((Concurrent.initial s₀).run eng early).adds.length,
          ¬ Starts eng
            ((Concurrent.initial s₀).run eng (early ++ during ++ [.shutdown order])) late i)
      ∧ ((∀ seen, seen <+: late →
          ((Concurrent.initial s₀).run eng
            (early ++ during ++ [.shutdown order] ++ seen)).sessions.store.entries = [])
        ↔ ∀ i,
          ¬ Starts eng
            ((Concurrent.initial s₀).run eng (early ++ during ++ [.shutdown order])) late i) := by
  have hnil := (entries_eq_nil_iff_owns (early ++ during ++ [.shutdown order])).mp
    (by rw [Concurrent.run_snoc]; exact hr.entries_eq_nil eng order)
  constructor
  · rw [← forall_not_owns_iff (fun id i _ => hnil id i) late]
    exact ⟨fun h seen hs id i hi ho => absurd (h seen hs id i ho) (Nat.not_le_of_lt hi),
      fun h seen hs id i ho => Nat.le_of_not_lt fun hi => h seen hs id i hi ho⟩
  · have hall := forall_not_owns_iff (P := fun _ => True) (fun id i _ => hnil id i) late
    simp only [true_imp_iff] at hall
    rw [← hall]
    exact forall₂_congr fun seen _ => entries_eq_nil_iff_owns _

/-! ## An add that outlives the shutdown -/

/-- An add is begun; nothing is stored, so the shutdown returns at once. -/
def pendingAdd : List Action := [.begin "0101010101010101010101010101010101010101"]

/-- Its metadata comes, and it concludes. -/
def lateMetadata : List Action := [.resolve 0 .ready, .conclude 0 0]

/-- **A shutdown is not final**: a transfer whose add waits for metadata comes back. -/
theorem not_forall_final :
    ¬ ∀ (σ : Type) (eng : Engine σ) (s₀ : σ) (early during late : List Action)
        (order : Order),
      ((Concurrent.initial s₀).run eng (early ++ during)).Returns →
      ∀ seen, seen <+: late → ∀ id i,
        Owns eng s₀ (early ++ during ++ [.shutdown order] ++ seen) id i →
        ((Concurrent.initial s₀).run eng early).adds.length ≤ i := by
  intro h
  have hw : lateMetadata = [.resolve 0 .ready] ++ [.conclude 0 0] := rfl
  have ho : Owns Registry.engine [] (pendingAdd ++ [] ++ [.shutdown .asPut] ++ lateMetadata)
      ⟨Vector.replicate 20 1⟩ 0 := by
    rw [hw, ← List.append_assoc]
    exact .stored (by decide +kernel) (by decide +kernel)
  exact absurd (h Registry Registry.engine [] pendingAdd [] lateMetadata .asPut
    ⟨nofun, by decide +kernel⟩ lateMetadata (List.prefix_refl _) _ 0 ho) (by decide +kernel)

/-- What it takes for the shutdown to be final in this interleaving. -/
theorem final_iff_pendingAdd :
    ((∀ seen, seen <+: lateMetadata → ∀ id i,
          Owns Registry.engine [] (pendingAdd ++ [] ++ [.shutdown .asPut] ++ seen) id i →
          ((Concurrent.initial []).run Registry.engine pendingAdd).adds.length ≤ i)
        ↔ ∀ i < ((Concurrent.initial []).run Registry.engine pendingAdd).adds.length,
          ¬ Starts Registry.engine ((Concurrent.initial []).run Registry.engine
            (pendingAdd ++ [] ++ [.shutdown .asPut])) lateMetadata i)
      ∧ ((∀ seen, seen <+: lateMetadata →
          ((Concurrent.initial []).run Registry.engine
            (pendingAdd ++ [] ++ [.shutdown .asPut] ++ seen)).sessions.store.entries = [])
        ↔ ∀ i, ¬ Starts Registry.engine ((Concurrent.initial []).run Registry.engine
          (pendingAdd ++ [] ++ [.shutdown .asPut])) lateMetadata i) :=
  final_iff Registry.engine [] pendingAdd [] lateMetadata .asPut ⟨nofun, by decide +kernel⟩

end HopTorrent.Session
