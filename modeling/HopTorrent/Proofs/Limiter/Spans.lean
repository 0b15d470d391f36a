import HopTorrent.Limiter
import Mathlib.Data.List.TakeWhile

/-!
# Proofs/Limiter/Spans — the uses of one route, window by window

The uses of a route fall into **spans** (`Policy.spans`): the first use opens a window, and the
first use that comes more than the interval later opens the next one.  A route whose window answers
its uses (`Policy.Answers`) is **metered**: within each span the first uses are allowed, as many as
the capacity says, and no later one (`Answers.metered`).  The window that is left over is that of
the last span, with one token less for each of its uses (`Answers.eq_window`).
-/

namespace HopTorrent

namespace Limiter

/-! ## Uses and spans -/

/-- A use of a route, and whether it was allowed. -/
structure Use where
  now : Int
  allowed : Bool
deriving DecidableEq, Repr

/-- The uses of one window: the one that opens it, and those that follow. -/
structure Span where
  opening : Use
  later : List Use

/-- All uses of one window. -/
def Span.uses (w : Span) : List Use := w.opening :: w.later

/-- A use comes no more than the interval after a window was opened. -/
def Policy.within (p : Policy) (openedAt : Int) (u : Use) : Bool := u.now - openedAt ≤ p.interval

/-- **The spans of a route's uses.**  The first use opens a window; the first use more than the
interval later opens the next. -/
def Policy.spans (p : Policy) : List Use → List Span
  | [] => []
  | u :: us =>
    ⟨u, us.takeWhile (p.within u.now)⟩ :: p.spans (us.dropWhile (p.within u.now))
termination_by us => us.length
decreasing_by exact Nat.lt_succ_of_le (List.length_dropWhile_le _ _)

/-- The first uses are allowed, so many of them, and no other. -/
def FirstAllowed (c : Nat) (us : List Use) : Prop :=
  ∀ i u, us[i]? = some u → (u.allowed = true ↔ i < c)

/-- **Within each span the first uses are allowed**, as many as the capacity says, and no other. -/
def Policy.Metered (p : Policy) (us : List Use) : Prop :=
  ∀ w ∈ p.spans us, FirstAllowed p.capacity w.uses

/-- The uses left: the capacity less what was allowed in the last span. -/
def Policy.left (p : Policy) (us : List Use) : Nat :=
  p.capacity - (((p.spans us).getLast?.map fun w => w.uses.countP Use.allowed).getD 0)

/-- **The uses allowed since the last reset**, to a use that comes now: those of the last span, or
none if that has ended. -/
def Policy.admitted (p : Policy) (us : List Use) (now : Int) : Nat :=
  match (p.spans us).getLast? with
  | some w => if now - w.opening.now ≤ p.interval then w.uses.countP Use.allowed else 0
  | none => 0

variable {p : Policy} {u : Use} {us vs : List Use} {w : Window} {now : Int} {c : Nat}

theorem Policy.spans_nil (p : Policy) : p.spans [] = [] := by rw [spans]

theorem Policy.spans_cons (p : Policy) (u : Use) (us : List Use) :
    p.spans (u :: us)
      = ⟨u, us.takeWhile (p.within u.now)⟩ :: p.spans (us.dropWhile (p.within u.now)) := by
  rw [spans]

/-- The spans are all uses, in order. -/
theorem Policy.flatMap_spans (p : Policy) (us : List Use) :
    (p.spans us).flatMap Span.uses = us := by
  induction us using spans.induct p with
  | case1 => rw [spans_nil, List.flatMap_nil]
  | case2 u us ih =>
    rw [spans_cons, List.flatMap_cons, ih]
    exact congrArg (u :: ·) List.takeWhile_append_dropWhile

/-- What opens a window comes within it. -/
theorem Policy.within_self (p : Policy) (u : Use) : p.within u.now u = true := by
  simp [within]

/-- A use that ends the takings of a window comes more than the interval after its opening. -/
theorem Policy.lt_of_dropWhile {openedAt : Int} (h : us.dropWhile (p.within openedAt) = u :: vs) :
    openedAt + p.interval < u.now := by
  have hu : p.within openedAt u = false := by
    have hd := List.head?_dropWhile_not (p.within openedAt) us
    rwa [h] at hd
  rw [within, decide_eq_false_iff_not] at hu
  omega

/-! ## The first uses -/

theorem firstAllowed_nil (c : Nat) : FirstAllowed c [] := nofun

theorem firstAllowed_cons_iff :
    FirstAllowed c (u :: us) ↔ (u.allowed = true ↔ 0 < c) ∧ FirstAllowed (c - 1) us := by
  constructor
  · intro h
    refine ⟨h 0 u rfl, fun i v hv => ?_⟩
    rw [h (i + 1) v hv]
    omega
  · rintro ⟨hu, h⟩ i v hv
    cases i with
    | zero =>
      cases hv
      exact hu
    | succ i =>
      rw [h i v hv]
      omega

/-- As many are allowed as there are, and no more than the capacity says. -/
theorem FirstAllowed.countP (h : FirstAllowed c us) :
    us.countP Use.allowed = min us.length c := by
  induction us generalizing c with
  | nil => exact (Nat.zero_min c).symm
  | cons u us ih =>
    obtain ⟨hu, hus⟩ := firstAllowed_cons_iff.mp h
    rw [List.countP_cons, ih hus, List.length_cons]
    split
    · have := hu.mp ‹_›
      omega
    · have := mt hu.mpr ‹_›
      omega

theorem FirstAllowed.countP_le (h : FirstAllowed c us) : us.countP Use.allowed ≤ c := by
  rw [h.countP]
  exact Nat.min_le_right _ _

theorem Policy.metered_nil (p : Policy) : p.Metered [] := by
  rw [Metered, spans_nil]
  exact nofun

/-- Uses are metered where those of the first window are, and those after it. -/
theorem Policy.metered_cons_iff :
    p.Metered (u :: us) ↔ FirstAllowed p.capacity (u :: us.takeWhile (p.within u.now))
      ∧ p.Metered (us.dropWhile (p.within u.now)) := by
  rw [Metered, spans_cons, List.forall_mem_cons]
  rfl

/-! ## A window answers -/

/-- **The uses of a route are answered by its window**, from one state of it to another. -/
inductive Policy.Answers (p : Policy) : Option Window → List Use → Option Window → Prop
  | nil (w? : Option Window) : p.Answers w? [] w?
  | cons {w? last : Option Window} {u : Use} {us : List Use}
      (ha : u.allowed = (p.windowAt w? u.now).use.1)
      (h : p.Answers (some (p.windowAt w? u.now).use.2) us last) : p.Answers w? (u :: us) last

theorem Window.use_eq (w : Window) :
    w.use = (decide (0 < w.tokens), ⟨w.tokens - 1, w.openedAt⟩) := by
  rw [use]
  split
  · rw [decide_eq_true ‹_›]
  · have ht : w.tokens - 1 = w.tokens := by omega
    rw [decide_eq_false ‹_›, ht]

theorem Policy.windowAt_of_le (h : now - w.openedAt ≤ p.interval) :
    p.windowAt (some w) now = w := if_neg (by omega)

theorem Policy.windowAt_of_within (h : p.within w.openedAt u = true) :
    p.windowAt (some w) u.now = w :=
  windowAt_of_le (decide_eq_true_iff.mp h)

theorem Policy.windowAt_of_lt (h : w.openedAt + p.interval < now) :
    p.windowAt (some w) now = p.fullWindow now := if_pos (by omega)

namespace Policy.Answers

variable {w? last last' : Option Window}

/-- What is answered first is answered by itself. -/
theorem exists_of_append (h : p.Answers w? (us ++ vs) last) :
    ∃ mid, p.Answers w? us mid ∧ p.Answers mid vs last := by
  induction us generalizing w? with
  | nil => exact ⟨w?, .nil w?, h⟩
  | cons u us ih =>
    cases h with
    | cons ha h =>
      obtain ⟨mid, hm, hv⟩ := ih h
      exact ⟨mid, .cons ha hm, hv⟩

/-- Answers depend on the instants alone. -/
theorem unique (h : p.Answers w? us last) (k : p.Answers w? vs last')
    (hn : us.map Use.now = vs.map Use.now) : us = vs := by
  -- By induction on the answers: the first uses agree, and so do the windows after them.
  induction h generalizing vs with
  | nil => exact (List.map_eq_nil_iff.mp hn.symm).symm
  | @cons w? last u us ha _ ih =>
    cases k with
    | nil => cases hn
    | @cons _ _ v vs hb k =>
      obtain ⟨hu, hus⟩ := List.cons.inj hn
      rw [← hu] at hb k
      have huv : u = v := by
        cases u
        cases v
        simp_all
      rw [huv, ih k hus]

/-- **While a window is open** its tokens are used up one by one. -/
theorem of_within (h : p.Answers (some w) us last)
    (hw : ∀ u ∈ us, p.within w.openedAt u = true) :
    FirstAllowed w.tokens us ∧ last = some ⟨w.tokens - us.length, w.openedAt⟩ := by
  induction us generalizing w with
  | nil =>
    cases h
    exact ⟨firstAllowed_nil _, rfl⟩
  | cons u us ih =>
    obtain ⟨hu, hus⟩ := List.forall_mem_cons.mp hw
    cases h with
    | cons ha h =>
      rw [windowAt_of_within hu, Window.use_eq] at ha h
      obtain ⟨hf, hl⟩ := ih h hus
      refine ⟨firstAllowed_cons_iff.mpr ⟨?_, hf⟩, ?_⟩
      · rw [ha]
        exact decide_eq_true_iff
      · rw [hl, List.length_cons, Nat.sub_sub, Nat.add_comm 1]

/-- A use that finds no window opens a full one. -/
theorem opened (h : p.Answers none (u :: us) last) :
    p.Answers (some (p.fullWindow u.now)) (u :: us) last := by
  cases h with
  | cons ha h =>
    have hw : p.windowAt (some (p.fullWindow u.now)) u.now = p.windowAt none u.now :=
      windowAt_of_within (p.within_self u)
    rw [← hw] at ha h
    exact .cons ha h

/-- What was used after a window ended is answered as if there had been none. -/
theorem reopened (h : p.Answers (some w) (u :: us) last) (hu : w.openedAt + p.interval < u.now) :
    p.Answers none (u :: us) last := by
  cases h with
  | cons ha h =>
    rw [windowAt_of_lt hu] at ha h
    exact .cons ha h

/-- The uses of a first window are answered by it, and what is left of it answers those after it. -/
theorem first (h : p.Answers none (u :: us) last) :
    FirstAllowed p.capacity (u :: us.takeWhile (p.within u.now))
      ∧ p.Answers (some ⟨p.capacity - (us.takeWhile (p.within u.now)).length - 1, u.now⟩)
        (us.dropWhile (p.within u.now)) last := by
  have happ : u :: us
      = (u :: us.takeWhile (p.within u.now)) ++ us.dropWhile (p.within u.now) := by
    rw [List.cons_append, List.takeWhile_append_dropWhile]
  have ho := h.opened
  rw [happ] at ho
  obtain ⟨mid, htake, hdrop⟩ := ho.exists_of_append
  obtain ⟨hf, rfl⟩ := htake.of_within <| List.forall_mem_cons.mpr
    ⟨p.within_self u, fun v hv => List.mem_takeWhile_imp hv⟩
  exact ⟨hf, hdrop⟩

/-- **After a first window** there are no more uses, or they are answered as if there had been
none. -/
theorem split (h : p.Answers none (u :: us) last) :
    us.dropWhile (p.within u.now) = []
        ∧ last = some ⟨p.capacity - (us.takeWhile (p.within u.now)).length - 1, u.now⟩
      ∨ us.dropWhile (p.within u.now) ≠ []
        ∧ p.Answers none (us.dropWhile (p.within u.now)) last := by
  have hdrop := h.first.2
  cases hd : us.dropWhile (p.within u.now) with
  | nil =>
    rw [hd] at hdrop
    cases hdrop
    exact .inl ⟨rfl, rfl⟩
  | cons v vs =>
    rw [hd] at hdrop
    exact .inr ⟨List.cons_ne_nil v vs, hdrop.reopened (lt_of_dropWhile hd)⟩

/-- **A route whose window answers its uses is metered.** -/
theorem metered (h : p.Answers none us last) : p.Metered us := by
  induction us using spans.induct p with
  | case1 => exact p.metered_nil
  | case2 u us ih =>
    refine metered_cons_iff.mpr ⟨h.first.1, ?_⟩
    obtain ⟨hd, -⟩ | ⟨-, hd⟩ := h.split
    · rw [hd]
      exact p.metered_nil
    · exact ih hd

end Policy.Answers

/-- The window of a span, after its uses. -/
def Policy.windowOf (p : Policy) (w : Span) : Window :=
  ⟨p.capacity - w.uses.length, w.opening.now⟩

/-- The tokens left of a window are the capacity less what was allowed in its span. -/
theorem Policy.tokens_windowOf {w : Span} (h : FirstAllowed p.capacity w.uses) :
    (p.windowOf w).tokens = p.capacity - w.uses.countP Use.allowed := by
  rw [h.countP, windowOf]
  dsimp only
  omega

theorem Policy.spans_ne_nil (h : us ≠ []) : p.spans us ≠ [] := by
  cases us with
  | nil => exact absurd rfl h
  | cons u us =>
    rw [spans_cons]
    exact List.cons_ne_nil _ _

/-- The last span is found among those after the first window, if there are any. -/
theorem Policy.getLast?_spans_cons (p : Policy) (u : Use) (us : List Use) :
    (p.spans (u :: us)).getLast?
      = if us.dropWhile (p.within u.now) = [] then some ⟨u, us.takeWhile (p.within u.now)⟩
        else (p.spans (us.dropWhile (p.within u.now))).getLast? := by
  rw [spans_cons, List.getLast?_cons]
  split
  · rename_i hd
    rw [hd, spans_nil]
    rfl
  · rename_i hd
    obtain ⟨w, ws, hw⟩ := List.exists_cons_of_ne_nil (spans_ne_nil (p := p) hd)
    rw [hw, List.getLast?_cons]
    rfl

/-- **The window that is left is that of the last span.** -/
theorem Policy.Answers.eq_window {last : Option Window} (h : p.Answers none us last) :
    last = (p.spans us).getLast?.map p.windowOf := by
  induction us using spans.induct p with
  | case1 =>
    cases h
    rw [spans_nil]
    rfl
  | case2 u us ih =>
    rw [getLast?_spans_cons]
    obtain ⟨hd, hl⟩ | ⟨hd, hl⟩ := h.split
    · rw [if_pos hd, hl]
      rfl
    · rw [if_neg hd]
      exact ih hl

/-- **The tokens left are the capacity less what was allowed in the last span.** -/
theorem Policy.Answers.tokens_eq {last : Option Window} (h : p.Answers none us last) :
    (last.map Window.tokens).getD p.capacity = p.left us := by
  rw [h.eq_window, left]
  cases hw : (p.spans us).getLast? with
  | none => exact (Nat.sub_zero _).symm
  | some w => exact tokens_windowOf (h.metered w (List.mem_of_getLast? hw))

/-- **A use is refused exactly when the capacity was used up since the last reset.** -/
theorem Policy.Answers.refused_iff {last : Option Window} (h : p.Answers none us last) (now : Int) :
    (p.windowAt last now).use.1 = false ↔ p.admitted us now = p.capacity := by
  have hfull : ¬ 0 < (p.fullWindow now).tokens ↔ 0 = p.capacity :=
    Nat.pos_iff_ne_zero.not_left.trans eq_comm
  rw [h.eq_window, admitted, Window.use_eq, decide_eq_false_iff_not]
  cases hw : (p.spans us).getLast? with
  | none => exact hfull
  | some w =>
    have hf := h.metered w (List.mem_of_getLast? hw)
    dsimp only [Option.map_some]
    split
    · rename_i hle
      have hopen : p.windowAt (some (p.windowOf w)) now = p.windowOf w := windowAt_of_le hle
      have hcap := hf.countP_le
      rw [hopen, tokens_windowOf hf]
      omega
    · rename_i hlt
      have hended : w.opening.now + p.interval < now := by omega
      rw [windowAt_of_lt hended]
      exact hfull

end Limiter

end HopTorrent
