import HopTorrent.Timeline

/-!
# Proofs/Timeline — how a timeline reads at another time, and cut off

A timeline knows no clock: run later, everything in it happens that much later (`run_add`).  Cutting
one off keeps exactly what happens in time (`run_within`).
-/

namespace HopTorrent.Timeline

variable {ε α β : Type}

/-- Nothing happens before an activity starts. -/
theorem le_of_mem_events (t : Timeline ε α) (now : Nat) :
    ∀ e ∈ (t.run now).events, now ≤ e.1 := by
  induction t generalizing now with
  | done a => nofun
  | never => nofun
  | note e next ih =>
    rintro e' he
    obtain rfl | he := List.mem_cons.mp he
    · exact Nat.le_refl _
    · exact ih now e' he
  | wait ms next ih =>
    intro e he
    exact Nat.le_trans (Nat.le_add_right now ms) (ih () (now + ms) e he)

/-- An activity does not end before it starts. -/
theorem le_of_result (t : Timeline ε α) (now : Nat) {r : Nat × α}
    (hr : (t.run now).result = some r) : now ≤ r.1 := by
  induction t generalizing now with
  | done a =>
    obtain rfl := Option.some.inj hr
    exact Nat.le_refl _
  | never => cases hr
  | note e next ih => exact ih now hr
  | wait ms next ih => exact Nat.le_trans (Nat.le_add_right now ms) (ih () (now + ms) hr)

/-- Nothing happens after an activity has ended. -/
theorem le_of_mem_events_of_result (t : Timeline ε α) (now : Nat) {r : Nat × α}
    (hr : (t.run now).result = some r) : ∀ e ∈ (t.run now).events, e.1 ≤ r.1 := by
  induction t generalizing now with
  | done a => nofun
  | never => nofun
  | note e next ih =>
    rintro e' he
    obtain rfl | he := List.mem_cons.mp he
    · exact le_of_result next now hr
    · exact ih now hr e' he
  | wait ms next ih => exact ih () (now + ms) hr

/-- What happens up to some time comes first. -/
theorem exists_events_eq_append (t : Timeline ε α) (now stop : Nat) :
    ∃ rest, (t.run now).events = ((t.run now).events.filter fun e => e.1 ≤ stop) ++ rest
      ∧ ∀ e ∈ rest, stop < e.1 := by
  induction t generalizing now with
  | done a => exact ⟨[], rfl, nofun⟩
  | never => exact ⟨[], rfl, nofun⟩
  | note e next ih =>
    by_cases hs : now ≤ stop
    · obtain ⟨rest, heq, hrest⟩ := ih now
      refine ⟨rest, ?_, hrest⟩
      rw [run, List.filter_cons_of_pos (by simpa using hs), List.cons_append, ← heq]
    · have late : ∀ e' ∈ ((note e next).run now).events, stop < e'.1 := fun e' he =>
        Nat.lt_of_lt_of_le (Nat.lt_of_not_le hs) (le_of_mem_events _ now e' he)
      refine ⟨_, ?_, late⟩
      rw [List.filter_eq_nil_iff.mpr fun e' he => by simpa using late e' he, List.nil_append]
  | wait ms next ih => exact ih () (now + ms)

/-- What happens, that much later. -/
def Record.later (d : Nat) (r : Record ε α) : Record ε α :=
  ⟨r.events.map fun e => (e.1 + d, e.2), r.result.map fun a => (a.1 + d, a.2)⟩

/-- **An activity that starts later happens later.** -/
theorem run_add (t : Timeline ε α) (now d : Nat) : t.run (now + d) = (t.run now).later d := by
  induction t generalizing now with
  | done a => rfl
  | never => rfl
  | note e next ih => simp [run, ih, Record.later]
  | wait ms next ih =>
    rw [run, run, Nat.add_right_comm]
    exact ih () (now + ms)

/-- **Cutting an activity off keeps exactly what happens in time.** -/
theorem run_within (t : Timeline ε α) (limit now : Nat) :
    (t.within limit).run now
      = ⟨(t.run now).events.filter fun e => e.1 ≤ now + limit,
        match (t.run now).result with
        | some (at_, a) => if at_ ≤ now + limit then some (at_, some a)
            else some (now + limit, none)
        | none => some (now + limit, none)⟩ := by
  induction t generalizing limit now with
  | done a => simp [within, run]
  | never => simp [within, run]
  | note e next ih =>
    simp only [within, run, ih]
    rw [List.filter_cons_of_pos (by simp)]
  | wait ms next ih =>
    rw [within, run]
    by_cases hms : ms ≤ limit
    · rw [if_pos hms, run, ih, Nat.add_assoc, Nat.add_sub_cancel' hms]
    · have late : now + limit < now + ms := Nat.add_lt_add_left (Nat.lt_of_not_le hms) now
      rw [if_neg hms, run, run]
      congr 1
      · refine (List.filter_eq_nil_iff.mpr fun e he => ?_).symm
        have := le_of_mem_events _ _ e he
        simpa using Nat.lt_of_lt_of_le late this
      · cases hr : ((next ()).run (now + ms)).result with
        | none => rfl
        | some r =>
          have := le_of_result _ _ hr
          simp [Nat.lt_of_lt_of_le late this]

/-- The result seen through a function. -/
theorem run_map (t : Timeline ε α) (f : α → β) (now : Nat) :
    (t.map f).run now = ⟨(t.run now).events, (t.run now).result.map fun r => (r.1, f r.2)⟩ := by
  rw [map, run_bind]
  cases (t.run now).result with
  | none => rfl
  | some r => simp [run]

/-- Three activities one after another. -/
theorem bind_assoc {γ : Type} (t : Timeline ε α) (f : α → Timeline ε β) (g : β → Timeline ε γ) :
    (t.bind f).bind g = t.bind fun a => (f a).bind g := by
  induction t with
  | done a => rfl
  | never => rfl
  | note e next ih => rw [bind, bind, ih, bind]
  | wait ms next ih =>
    rw [bind, bind, bind]
    congr 1
    funext u
    exact ih u

end HopTorrent.Timeline
