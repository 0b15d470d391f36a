import HopTorrent.Json.Reader
import Mathlib.Data.List.TakeWhile

/-!
# Proofs/Json/Values — values that are passed over

A value is a scalar, or holds others between brackets, to any depth (`Passed`).  The reader keeps
the brackets that are open on a stack; what such a stack still asks for is written down as `Closes`,
and a run of the reader is the same as a derivation (`skipOpen_sound`, `Passed.runs`).  It ends
within its bound because every step passes over a byte (`skipOpen_of_lt`), so it passes over exactly
the values (`skipValue_eq_some_iff`).
-/

namespace HopTorrent.Json

/-! ## What is passed over -/

/-- The mark that opens an array or an object; `true` stands for an object. -/
def opening : Bool → UInt8
  | true => openObject
  | false => openArray

/-- The mark that closes it. -/
def closing : Bool → UInt8
  | true => closeObject
  | false => closeArray

/-- Parts of a text. -/
inductive Part where
  /-- A value. -/
  | value
  /-- An element of an array, or a member of an object. -/
  | entry (o : Bool)
  /-- What follows it: more of them, and the mark that closes. -/
  | more (o : Bool)

/-- **Bytes begin with a part**, behind which are others. -/
inductive Passed : Part → Bytes → Bytes → Prop
  | scalar {bs rest : Bytes} (h : skipScalar (skipBlanks bs) = some rest) : Passed .value bs rest
  | hollow {bs r rest : Bytes} (o : Bool) (h : skipBlanks bs = opening o :: r)
    (hr : skipBlanks r = closing o :: rest) : Passed .value bs rest
  | nested {bs r r' rest : Bytes} (o : Bool) (h : skipBlanks bs = opening o :: r)
    (he : Passed (.entry o) r r') (hm : Passed (.more o) r' rest) : Passed .value bs rest
  | element {bs rest : Bytes} (h : Passed .value bs rest) : Passed (.entry false) bs rest
  | member {bs r r' r'' rest : Bytes} (h : skipBlanks bs = quote :: r) (ht : skipText r = some r')
    (hr : skipBlanks r' = colon :: r'') (hv : Passed .value r'' rest) : Passed (.entry true) bs rest
  | closed {bs rest : Bytes} (o : Bool) (h : skipBlanks bs = closing o :: rest) :
    Passed (.more o) bs rest
  | next {bs r r' rest : Bytes} (o : Bool) (h : skipBlanks bs = comma :: r)
    (he : Passed (.entry o) r r') (hm : Passed (.more o) r' rest) : Passed (.more o) bs rest

variable {bs bs' r r' rest : Bytes} {o : Bool} {open_ open' : List Bool} {e e' : Expecting}
  {fuel fuel' : ℕ}

/-- Blanks in front do not matter. -/
theorem Passed.congr {p : Part} (h : Passed p bs rest) (hb : skipBlanks r = skipBlanks bs) :
    Passed p r rest := by
  induction h generalizing r with
  | scalar h => exact .scalar (hb ▸ h)
  | hollow o h hr => exact .hollow o (hb ▸ h) hr
  | nested o h he hm => exact .nested o (hb ▸ h) he hm
  | element h ih => exact .element (ih hb)
  | member h ht hr hv => exact .member (hb ▸ h) ht hr hv
  | closed o h => exact .closed o (hb ▸ h)
  | next o h he hm => exact .next o (hb ▸ h) he hm

/-! ## Steps of the reader -/

/-- What the reader meets first of an entry. -/
def Expecting.ofEntry : Bool → Expecting
  | true => name
  | false => value

/-- **A step of the reader**: what it expects, which values are open, and what is left, before the
step and after it. -/
inductive Step : Expecting → List Bool → Bytes → Expecting → List Bool → Bytes → Prop
  | scalar (open_ : List Bool) {bs r : Bytes} (h : skipScalar (skipBlanks bs) = some r) :
    Step .value open_ bs .more open_ r
  | hollow (o : Bool) (open_ : List Bool) {bs r r' : Bytes} (h : skipBlanks bs = opening o :: r)
    (hr : skipBlanks r = closing o :: r') : Step .value open_ bs .more open_ r'
  | nested (o : Bool) (open_ : List Bool) {bs r : Bytes} (h : skipBlanks bs = opening o :: r)
    (hr : ∀ r', skipBlanks r ≠ closing o :: r') :
    Step .value open_ bs (.ofEntry o) (o :: open_) (skipBlanks r)
  | name (open_ : List Bool) {bs r r' r'' : Bytes} (h : skipBlanks bs = quote :: r)
    (ht : skipText r = some r') (hr : skipBlanks r' = colon :: r'') :
    Step .name open_ bs .value open_ r''
  | next (o : Bool) (outer : List Bool) {bs r : Bytes} (h : skipBlanks bs = comma :: r) :
    Step .more (o :: outer) bs (.ofEntry o) (o :: outer) r
  | closed (o : Bool) (outer : List Bool) {bs r : Bytes} (h : skipBlanks bs = closing o :: r) :
    Step .more (o :: outer) bs .more outer r

/-- Behind a mark that opens, the reader looks for the one that closes. -/
theorem skipOpen_opening (h : skipBlanks bs = opening o :: r) :
    (∀ r', skipBlanks r = closing o :: r' →
        skipOpen (fuel + 1) .value open_ bs = skipOpen fuel .more open_ r')
      ∧ ((∀ r', skipBlanks r ≠ closing o :: r') → skipOpen (fuel + 1) .value open_ bs
        = skipOpen fuel (.ofEntry o) (o :: open_) (skipBlanks r)) := by
  rw [skipOpen.eq_def]
  dsimp only
  split
  case h_1 hb | h_2 hb =>
    rw [h] at hb
    cases o <;> cases hb
    split
    case h_1 hc =>
      rw [hc]
      refine ⟨fun r' hr => ?_, fun hr => absurd rfl (hr _)⟩
      cases hr
      rfl
    case h_2 hc => exact ⟨fun r' hr => absurd hr (hc r'), fun _ => rfl⟩
  case h_3 ha hb =>
    cases o with
    | false => exact (ha _ h).elim
    | true => exact (hb _ h).elim
  all_goals contradiction

/-- **The reader makes one step after another**, until nothing is open any more. -/
theorem skipOpen_succ_iff : skipOpen (fuel + 1) e open_ bs = some rest
    ↔ e = .more ∧ open_ = [] ∧ bs = rest
      ∨ ∃ e' open' bs', Step e open_ bs e' open' bs'
        ∧ skipOpen fuel e' open' bs' = some rest := by
  constructor
  · intro h
    rw [skipOpen.eq_def] at h
    dsimp only at h
    split at h
    case h_1 hb =>
      split at h
      case h_1 hr => exact .inr ⟨_, _, _, .hollow false _ hb hr, h⟩
      case h_2 hr => exact .inr ⟨_, _, _, .nested false _ hb hr, h⟩
    case h_2 hb =>
      split at h
      case h_1 hr => exact .inr ⟨_, _, _, .hollow true _ hb hr, h⟩
      case h_2 hr => exact .inr ⟨_, _, _, .nested true _ hb hr, h⟩
    case h_3 =>
      obtain ⟨r, hs, hrun⟩ := Option.bind_eq_some_iff.mp h
      exact .inr ⟨_, _, _, .scalar _ hs, hrun⟩
    case h_4 hb =>
      split at h
      case h_1 hr =>
        obtain ⟨r', ht, hr⟩ := Option.map_eq_some_iff.mp hr
        exact .inr ⟨_, _, _, .name _ hb ht hr, h⟩
      case h_2 => cases h
    case h_5 => cases h
    case h_6 => exact .inl ⟨rfl, rfl, Option.some.inj h⟩
    case h_7 hb => exact .inr ⟨_, _, _, .next false _ hb, h⟩
    case h_8 hb => exact .inr ⟨_, _, _, .next true _ hb, h⟩
    case h_9 hb => exact .inr ⟨_, _, _, .closed false _ hb, h⟩
    case h_10 hb => exact .inr ⟨_, _, _, .closed true _ hb, h⟩
    case h_11 => cases h
  · rintro (⟨rfl, rfl, rfl⟩ | ⟨e', open', bs', hstep, hrun⟩)
    · rfl
    cases hstep with
    | scalar _ h =>
      -- No scalar begins with a mark that opens.
      rw [skipOpen.eq_def]
      dsimp only
      split
      case h_1 hb | h_2 hb =>
        rw [hb] at h
        cases h
      case h_3 =>
        rw [h]
        exact hrun
      all_goals contradiction
    | hollow o _ h hr => rw [(skipOpen_opening h).1 _ hr, hrun]
    | nested o _ h hr => rw [(skipOpen_opening h).2 hr, hrun]
    | name _ h ht hr =>
      rw [skipOpen.eq_def]
      dsimp only
      split
      case h_4 hb =>
        rw [h] at hb
        cases hb
        rw [ht, Option.map_some, hr]
        exact hrun
      case h_5 hne => exact (hne _ h).elim
      all_goals contradiction
    | next o _ h | closed o _ h =>
      rw [skipOpen.eq_def]
      dsimp only
      rw [h]
      cases o <;> exact hrun

/-! ## Runs and derivations -/

theorem skipBlanks_skipBlanks (bs : Bytes) : skipBlanks (skipBlanks bs) = skipBlanks bs := by
  rw [skipBlanks, skipBlanks, List.dropWhile_eq_self_iff]
  exact fun hl => List.dropWhile_get_zero_not _ _ hl

/-- What closes the values that are open, the innermost one first. -/
def Closes : List Bool → Bytes → Bytes → Prop
  | [], bs, rest => bs = rest
  | o :: outer, bs, rest => ∃ r, Passed (.more o) bs r ∧ Closes outer r rest

/-- What the reader passes over while values are open. -/
def Awaits : Expecting → List Bool → Bytes → Bytes → Prop
  | .value, open_, bs, rest => ∃ r, Passed .value bs r ∧ Closes open_ r rest
  | .name, open_, bs, rest => ∃ r, Passed (.entry true) bs r ∧ Closes open_ r rest
  | .more, open_, bs, rest => Closes open_ bs rest

/-- An entry comes first, then what follows it. -/
theorem Awaits.entry (h : Awaits (.ofEntry o) open_ bs rest) :
    ∃ r, Passed (.entry o) bs r ∧ Closes open_ r rest := by
  cases o with
  | true => exact h
  | false =>
    obtain ⟨r, hv, hc⟩ := h
    exact ⟨r, .element hv, hc⟩

/-- **What is passed over after a step is passed over before it.** -/
theorem Step.awaits (hs : Step e open_ bs e' open' bs') (h : Awaits e' open' bs' rest) :
    Awaits e open_ bs rest := by
  cases hs with
  | scalar _ hb => exact ⟨_, .scalar hb, h⟩
  | hollow o _ hb hr => exact ⟨_, .hollow o hb hr, h⟩
  | nested o _ hb =>
    obtain ⟨r, he, r', hm, hc⟩ := h.entry
    exact ⟨r', .nested o hb (he.congr (skipBlanks_skipBlanks _).symm) hm, hc⟩
  | name _ hb ht hr =>
    obtain ⟨r, hv, hc⟩ := h
    exact ⟨r, .member hb ht hr hv, hc⟩
  | next o _ hb =>
    obtain ⟨r, he, r', hm, hc⟩ := h.entry
    exact ⟨r', .next o hb he hm, hc⟩
  | closed o _ hb => exact ⟨_, .closed o hb, h⟩

/-- **Each run of the reader is a derivation.** -/
theorem skipOpen_sound (h : skipOpen fuel e open_ bs = some rest) : Awaits e open_ bs rest := by
  induction fuel generalizing e open_ bs with
  | zero => cases h
  | succ fuel ih =>
    obtain ⟨rfl, rfl, rfl⟩ | ⟨e', open', bs', hs, hrun⟩ := skipOpen_succ_iff.mp h
    · rfl
    · exact hs.awaits (ih hrun)

/-- Some bound lets the reader come to its end. -/
def Runs (e : Expecting) (open_ : List Bool) (bs rest : Bytes) : Prop :=
  ∃ fuel, skipOpen fuel e open_ bs = some rest

theorem Step.runs (hs : Step e open_ bs e' open' bs') (h : Runs e' open' bs' rest) :
    Runs e open_ bs rest := by
  obtain ⟨fuel, hrun⟩ := h
  exact ⟨fuel + 1, skipOpen_succ_iff.mpr (.inr ⟨e', open', bs', hs, hrun⟩)⟩

/-- An entry does not begin with the mark that closes. -/
theorem Passed.ne_closing (h : Passed (.entry o) bs r) : skipBlanks bs ≠ closing o :: r' := by
  intro hb
  cases h with
  | element h =>
    cases h with
    | scalar h =>
      rw [hb] at h
      cases h
    | hollow o h | nested o h =>
      rw [hb] at h
      cases o <;> cases h
  | member h =>
    rw [hb] at h
    cases h

/-- What the reader meets first of a part, while some values are open. -/
def Part.start (open_ : List Bool) : Part → Expecting × List Bool
  | value => (.value, open_)
  | entry o => (.ofEntry o, o :: open_)
  | more o => (.more, o :: open_)

/-- What is open behind it. -/
def Part.behind (open_ : List Bool) : Part → List Bool
  | value | more _ => open_
  | entry o => o :: open_

/-- **Each derivation is a run of the reader**, whatever blanks stand in front. -/
theorem Passed.runs {p : Part} (h : Passed p bs r) (open_ : List Bool)
    (hb : skipBlanks bs' = skipBlanks bs) (hr : Runs .more (p.behind open_) r rest) :
    Runs (p.start open_).1 (p.start open_).2 bs' rest := by
  induction h generalizing open_ bs' with
  | scalar h => exact (Step.scalar _ (hb ▸ h)).runs hr
  | hollow o h hc => exact (Step.hollow o _ (hb ▸ h) hc).runs hr
  | nested o h he _ ihe ihm =>
    exact (Step.nested o _ (hb ▸ h) fun _ => he.ne_closing).runs
      (ihe open_ (skipBlanks_skipBlanks _) (ihm open_ rfl hr))
  | element _ ih => exact ih _ hb hr
  | member h ht hc _ ih => exact (Step.name _ (hb ▸ h) ht hc).runs (ih _ rfl hr)
  | closed o h => exact (Step.closed o _ (hb ▸ h)).runs hr
  | next o h _ _ ihe ihm =>
    exact (Step.next o _ (hb ▸ h)).runs (ihe open_ rfl (ihm open_ rfl hr))

/-! ## The bound -/

theorem length_skipBlanks_le (bs : Bytes) : (skipBlanks bs).length ≤ bs.length :=
  (List.dropWhile_suffix _).length_le

theorem length_lt_of_skipBlanks {b : UInt8} (h : skipBlanks bs = b :: r) :
    r.length < bs.length := by
  have hl := length_skipBlanks_le bs
  rw [h, List.length_cons] at hl
  exact hl

/-- The end of a text is passed over at least. -/
theorem length_skipText (h : skipText bs = some r) : r.length < bs.length := by
  fun_induction skipText bs with
  | case1 => cases h
  | case2 rest => cases h; simp
  | case3 a b c d rest hx ih => have := ih h; simp only [List.length_cons]; omega
  | case4 => cases h
  | case5 b rest _ hx ih => have := ih h; simp only [List.length_cons]; omega
  | case6 => cases h
  | case7 => cases h
  | case8 b rest _ _ _ hx ih => have := ih h; simp only [List.length_cons]; omega

theorem length_skipDigits (h : skipDigits bs = some r) : r.length < bs.length := by
  rw [skipDigits.eq_def] at h
  split at h
  · split at h
    · cases h
      exact Nat.lt_succ_of_le (List.dropWhile_suffix _).length_le
    · cases h
  · cases h

theorem length_skipExponent (h : skipExponent bs = some r) : r.length ≤ bs.length := by
  rw [skipExponent.eq_def] at h
  split at h
  · split at h
    · split at h
      · split at h
        · exact (length_skipDigits h).le.trans (by simp only [List.length_cons]; omega)
        · exact (length_skipDigits h).le.trans (Nat.le_succ _)
      · cases h
    · cases h
      rfl
  · cases h
    rfl

theorem length_skipFraction (h : skipFraction bs = some r) : r.length ≤ bs.length := by
  rw [skipFraction.eq_def] at h
  split at h
  · obtain ⟨r', hd, he⟩ := Option.bind_eq_some_iff.mp h
    have := length_skipDigits hd
    have := length_skipExponent he
    simp only [List.length_cons]
    omega
  · exact length_skipExponent h

theorem length_skipNumber (h : skipNumber bs = some r) : r.length < bs.length := by
  rw [skipNumber.eq_def] at h
  split at h
  · split at h
    · split at h
      · cases h
      · have := length_skipFraction h
        exact Nat.lt_succ_of_le this
    · cases h
      simp
  · obtain ⟨r', hd, hf⟩ := Option.bind_eq_some_iff.mp h
    exact (length_skipFraction hf).trans_lt (length_skipDigits hd)

theorem length_expect {word : Bytes} (hw : word ≠ []) (h : expect word bs = some r) :
    r.length < bs.length := by
  rw [expect] at h
  split at h
  · rename_i ht
    cases h
    have hl := congrArg List.length ht
    have hpos := List.length_pos_iff.mpr hw
    rw [List.length_take] at hl
    rw [List.length_drop]
    omega
  · cases h

/-- A scalar has a byte at least. -/
theorem length_skipScalar (h : skipScalar bs = some r) : r.length < bs.length := by
  rw [skipScalar.eq_def] at h
  split at h
  · exact (length_skipText h).trans (Nat.lt_succ_self _)
  · exact (length_skipNumber h).trans (Nat.lt_succ_self _)
  · exact length_expect (by decide) h
  · exact length_expect (by decide) h
  · exact length_expect (by decide) h
  · exact length_skipNumber h

/-- **Every step passes over a byte.** -/
theorem Step.length_lt (hs : Step e open_ bs e' open' bs') : bs'.length < bs.length := by
  cases hs with
  | scalar _ h => exact (length_skipScalar h).trans_le (length_skipBlanks_le bs)
  | hollow o _ h hr => exact (length_lt_of_skipBlanks hr).trans (length_lt_of_skipBlanks h)
  | nested o _ h => exact (length_skipBlanks_le _).trans_lt (length_lt_of_skipBlanks h)
  | name _ h ht hr =>
    exact (length_lt_of_skipBlanks hr).trans
      ((length_skipText ht).trans (length_lt_of_skipBlanks h))
  | next o _ h | closed o _ h => exact length_lt_of_skipBlanks h

/-- A bound above the number of bytes is never met. -/
theorem skipOpen_of_lt (h : skipOpen fuel e open_ bs = some rest) (hf : bs.length < fuel') :
    skipOpen fuel' e open_ bs = some rest := by
  induction fuel generalizing fuel' e open_ bs with
  | zero => cases h
  | succ fuel ih =>
    obtain ⟨fuel', rfl⟩ := Nat.exists_eq_succ_of_ne_zero (Nat.ne_zero_of_lt hf)
    obtain hdone | ⟨e', open', bs', hs, hrun⟩ := skipOpen_succ_iff.mp h
    · exact skipOpen_succ_iff.mpr (.inl hdone)
    · have hlt := hs.length_lt
      exact skipOpen_succ_iff.mpr (.inr ⟨e', open', bs', hs, ih hrun (by omega)⟩)

/-- **The reader passes over exactly the values.** -/
theorem skipValue_eq_some_iff : skipValue bs = some rest ↔ Passed .value bs rest := by
  constructor
  · intro h
    obtain ⟨r, hv, rfl⟩ := skipOpen_sound h
    exact hv
  · intro h
    obtain ⟨fuel, hrun⟩ := h.runs [] rfl ⟨1, rfl⟩
    exact skipOpen_of_lt hrun (by omega)

end HopTorrent.Json
