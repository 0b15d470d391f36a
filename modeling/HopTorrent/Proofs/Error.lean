import HopTorrent.Error

/-!
# Proofs/Error — steps that can fail, one after another

A step after another succeeds when both do (`bind_eq_ok_iff`) and fails as the first of the two that
does (`bind_eq_error_iff`).  Where the later step does not depend on what the earlier one gives, only
the refusals of that one matter (`bind_const_eq_iff`).
-/

namespace HopTorrent.Error

variable {α β : Type} {e : Error}

/-- **A step after another succeeds when both do.** -/
theorem bind_eq_ok_iff {x : Except Error α} {f : α → Except Error β} {b : β} :
    x >>= f = .ok b ↔ ∃ a, x = .ok a ∧ f a = .ok b := by
  cases x with
  | error e =>
    constructor
    · intro h
      cases h
    · rintro ⟨_, ⟨⟩, -⟩
  | ok a =>
    constructor
    · exact fun h => ⟨a, rfl, h⟩
    · rintro ⟨_, ⟨⟩, h⟩
      exact h

/-- **It fails as the first of the two that does.** -/
theorem bind_eq_error_iff {x : Except Error α} {f : α → Except Error β} :
    x >>= f = .error e ↔ x = .error e ∨ ∃ a, x = .ok a ∧ f a = .error e := by
  cases x with
  | error e' =>
    constructor
    · intro h
      cases h
      exact .inl rfl
    · rintro (h | ⟨_, ⟨⟩, -⟩)
      cases h
      rfl
  | ok a =>
    constructor
    · exact fun h => .inr ⟨a, rfl, h⟩
    · rintro (h | ⟨_, ⟨⟩, h⟩)
      · cases h
      · exact h

/-- A refusal that would come anyway makes no difference. -/
theorem bind_const_eq_error {x : Except Error α} {r : Except Error β}
    (hr : r = .error e) (h : ∀ e', x = .error e' → e' = e) : (x >>= fun _ => r) = .error e := by
  cases x with
  | error e' => rw [h e' rfl]; rfl
  | ok a => exact hr

/-- **What goes before the same makes no difference** exactly when both are refused alike, or when
their refusals are the one that would come anyway. -/
theorem bind_const_eq_iff {x y : Except Error α} {r : Except Error β} :
    (x >>= fun _ => r) = (y >>= fun _ => r)
      ↔ (∀ e, x = .error e ↔ y = .error e)
        ∨ ∃ e, r = .error e ∧ ∀ e', x = .error e' ∨ y = .error e' → e' = e := by
  constructor
  · intro h
    cases x with
    | error e =>
      cases y with
      | error e' => cases h; exact .inl fun _ => Iff.rfl
      | ok b => exact .inr ⟨e, h.symm, fun e' he => he.elim (fun he => by cases he; rfl) nofun⟩
    | ok a =>
      cases y with
      | error e => exact .inr ⟨e, h, fun e' he => he.elim nofun fun he => by cases he; rfl⟩
      | ok b => exact .inl fun e => iff_of_false nofun nofun
  · rintro (h | ⟨e, hr, h⟩)
    · cases x with
      | error e => rw [(h e).mp rfl]
      | ok a =>
        cases y with
        | error e => cases (h e).mpr rfl
        | ok b => rfl
    · rw [bind_const_eq_error hr fun e' he => h e' (.inl he),
        bind_const_eq_error hr fun e' he => h e' (.inr he)]

end HopTorrent.Error
