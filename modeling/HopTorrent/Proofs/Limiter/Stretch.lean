import HopTorrent.Proofs.Limiter.Routes
import Mathlib.Tactic.Linarith

/-!
# Proofs/Limiter/Stretch — how much is allowed in any stretch of time

Windows open whenever the first use comes, so a stretch of time may begin in the middle of one.  A
stretch as long as `k` intervals meets at most `k` windows that open in it (`allowedIn_le_of_lt`),
and one that was open before.  So no more uses are allowed in it than `k + 1` windows allow
(`allowedIn_stretch_le`), provided the clock does not go back.
-/

namespace HopTorrent

namespace Limiter

/-- How many uses were allowed in a stretch of time, its two ends included. -/
def allowedIn (a b : Int) (us : List Use) : Nat :=
  us.countP fun u => u.allowed ∧ a ≤ u.now ∧ u.now ≤ b

/-- The uses come in the order of their instants. -/
def Chronological (us : List Use) : Prop := us.Pairwise fun u v => u.now ≤ v.now

/-- The instant of a query, if it is a use. -/
def Query.now? : Query → Option Int
  | use _ now => some now
  | remaining _ => none

variable {p : Policy} {u v : Use} {us vs : List Use} {a b : Int} {c k n : Nat}

/-! ## Parts of a stretch -/

theorem allowedIn_append (a b : Int) (us vs : List Use) :
    allowedIn a b (us ++ vs) = allowedIn a b us + allowedIn a b vs := List.countP_append

/-- Nothing is allowed before the stretch. -/
theorem allowedIn_eq_zero_of_lt (h : ∀ u ∈ us, u.now < a) : allowedIn a b us = 0 := by
  refine List.countP_eq_zero.mpr fun u hu => ?_
  have := h u hu
  simp only [decide_eq_true_eq]
  omega

/-- Nothing is allowed after the stretch. -/
theorem allowedIn_eq_zero_of_gt (h : ∀ u ∈ us, b < u.now) : allowedIn a b us = 0 := by
  refine List.countP_eq_zero.mpr fun u hu => ?_
  have := h u hu
  simp only [decide_eq_true_eq]
  omega

/-- One window allows no more than the capacity says. -/
theorem FirstAllowed.allowedIn_le (h : FirstAllowed c us) (a b : Int) : allowedIn a b us ≤ c := by
  have hle : allowedIn a b us ≤ us.countP Use.allowed :=
    List.countP_mono_left fun u _ hu => (of_decide_eq_true hu).1
  exact hle.trans h.countP_le

/-- The first window of some uses, and what is after it. -/
theorem allowedIn_cons (p : Policy) (a b : Int) (u : Use) (us : List Use) :
    allowedIn a b (u :: us)
      = allowedIn a b (u :: us.takeWhile (p.within u.now))
        + allowedIn a b (us.dropWhile (p.within u.now)) := by
  rw [← allowedIn_append, List.cons_append, List.takeWhile_append_dropWhile]

theorem Chronological.le (h : Chronological (u :: us)) : ∀ v ∈ u :: us, u.now ≤ v.now := by
  intro v hv
  obtain rfl | hv := List.mem_cons.mp hv
  · exact Int.le_refl _
  · exact List.rel_of_pairwise_cons h hv

theorem Chronological.dropWhile (h : Chronological (u :: us)) (f : Use → Bool) :
    Chronological (us.dropWhile f) :=
  (List.Pairwise.of_cons h).sublist (List.dropWhile_sublist f)

/-- What is in the first window comes before what is after it. -/
theorem Chronological.le_of_dropWhile (h : Chronological (u :: us)) {f : Use → Bool}
    (hd : us.dropWhile f = v :: vs) : ∀ x ∈ u :: us.takeWhile f, x.now ≤ v.now := by
  have happ : u :: us = (u :: us.takeWhile f) ++ v :: vs := by
    rw [← hd, List.cons_append, List.takeWhile_append_dropWhile]
  rw [happ, Chronological, List.pairwise_append] at h
  exact fun x hx => h.2.2 x hx v List.mem_cons_self

/-- Nothing is allowed in a stretch that ends before the first use. -/
theorem Chronological.allowedIn_eq_zero (h : Chronological (u :: us)) (hb : b < u.now) (a : Int) :
    allowedIn a b (u :: us) = 0 :=
  allowedIn_eq_zero_of_gt fun v hv => Int.lt_of_lt_of_le hb (h.le v hv)

/-- Nothing is allowed in the first window once what is after it comes too early. -/
theorem Chronological.allowedIn_takeWhile_eq_zero (h : Chronological (u :: us)) {f : Use → Bool}
    (hd : us.dropWhile f = v :: vs) (hv : v.now < a) (b : Int) :
    allowedIn a b (u :: us.takeWhile f) = 0 :=
  allowedIn_eq_zero_of_lt fun x hx => Int.lt_of_le_of_lt (h.le_of_dropWhile hd x hx) hv

/-! ## Windows in a stretch -/

/-- **Windows that open in a stretch** are more than an interval apart, so `n` of them are enough
where the stretch ends before an `n`-th interval has passed. -/
theorem allowedIn_le_of_lt (hc : Chronological us) (hm : p.Metered us)
    (hb : ∀ u, us.head? = some u → b < u.now + n * (p.interval + 1)) :
    allowedIn a b us ≤ n * p.capacity := by
  induction us using Policy.spans.induct p generalizing n with
  | case1 => exact Nat.zero_le _
  | case2 u us ih =>
    have hu := hb u rfl
    cases n with
    | zero =>
      rw [Nat.cast_zero, Int.zero_mul, Int.add_zero] at hu
      rw [hc.allowedIn_eq_zero hu]
      exact Nat.zero_le _
    | succ n =>
      obtain ⟨hf, hm'⟩ := Policy.metered_cons_iff.mp hm
      have hrest : allowedIn a b (us.dropWhile (p.within u.now)) ≤ n * p.capacity := by
        refine ih (hc.dropWhile _) hm' fun v hv => ?_
        obtain ⟨vs, hd⟩ := List.head?_eq_some_iff.mp hv
        have hv' := Policy.lt_of_dropWhile hd
        push_cast at hu
        linarith
      rw [allowedIn_cons p, Nat.succ_mul, Nat.add_comm]
      exact Nat.add_le_add hrest (hf.allowedIn_le a b)

/-- In `k` intervals that begin before the first use no more is allowed than in `k` windows. -/
theorem allowedIn_le_of_le (hc : Chronological (u :: us)) (hm : p.Metered (u :: us))
    (ha : a ≤ u.now) (hk : 1 ≤ k) :
    allowedIn a (a + k * p.interval) (u :: us) ≤ k * p.capacity := by
  refine allowedIn_le_of_lt hc hm fun x hx => ?_
  obtain rfl : u = x := Option.some.inj hx
  have hk' : (1 : Int) ≤ k := by exact_mod_cast hk
  linarith

/-- **In a stretch of `k` intervals** no more is allowed than in `k + 1` windows. -/
theorem allowedIn_le_of_metered (hc : Chronological us) (hm : p.Metered us) (hk : 1 ≤ k) :
    allowedIn a (a + k * p.interval) us ≤ (k + 1) * p.capacity := by
  induction us using Policy.spans.induct p with
  | case1 => exact Nat.zero_le _
  | case2 u us ih =>
    obtain ⟨hf, hm'⟩ := Policy.metered_cons_iff.mp hm
    have hfirst := hf.allowedIn_le a (a + k * p.interval)
    rw [allowedIn_cons p, Nat.succ_mul]
    cases hd : us.dropWhile (p.within u.now) with
    | nil => exact hfirst.trans (Nat.le_add_left _ _)
    | cons v vs =>
      rw [hd] at ih hm'
      have hc' : Chronological (v :: vs) := hd ▸ hc.dropWhile _
      by_cases hv : v.now < a
      · -- The first window has ended before the stretch begins.
        rw [hc.allowedIn_takeWhile_eq_zero hd hv, Nat.zero_add, ← Nat.succ_mul]
        exact ih hc' hm'
      · -- All other windows open in the stretch or after it.
        rw [Nat.add_comm]
        exact Nat.add_le_add (allowedIn_le_of_le hc' hm' (Int.not_lt.mp hv) hk) hfirst

/-! ## Many routes -/

/-- The uses of a route are among all uses, in the same order. -/
theorem sublist_uses (l : Limiter) (route : String) (qs : List Query) :
    ((uses route (l.events qs)).map Use.now).Sublist (qs.filterMap Query.now?) := by
  induction qs generalizing l with
  | nil => exact .slnil
  | cons q qs ih =>
    have hq := ih (l.asked q)
    cases q with
    | remaining r => exact hq
    | use r now =>
      show List.Sublist _ (now :: qs.filterMap Query.now?)
      by_cases hr : r = route
      · subst hr
        rw [events, answer, uses_cons_used]
        exact hq.cons_cons now
      · have he : ((l.answer (.use r now)).route ≠ route) := hr
        rw [events, uses_cons_of_ne he]
        exact hq.cons now

/-- **The bound for any stretch of time.**  Where the clock does not go back, in a stretch of `k`
intervals no more uses of a route are allowed than `k + 1` windows allow; so in one interval no more
than two windows allow. -/
theorem allowedIn_stretch_le (p : Policy) (qs : List Query)
    (hq : (qs.filterMap Query.now?).Pairwise (· ≤ ·)) (route : String) (a : Int) :
    allowedIn a (a + p.interval) (uses route ((ofPolicy p).events qs)) ≤ 2 * p.capacity
      ∧ ∀ k : Nat, 1 ≤ k →
        allowedIn a (a + k * p.interval) (uses route ((ofPolicy p).events qs))
          ≤ (k + 1) * p.capacity := by
  have hc : Chronological (uses route ((ofPolicy p).events qs)) :=
    List.pairwise_map.mp (hq.sublist (sublist_uses (ofPolicy p) route qs))
  have hm := (answers_ofPolicy p route qs).metered
  have hbound : ∀ k : Nat, 1 ≤ k →
      allowedIn a (a + k * p.interval) (uses route ((ofPolicy p).events qs))
        ≤ (k + 1) * p.capacity := fun k hk => allowedIn_le_of_metered hc hm hk
  refine ⟨?_, hbound⟩
  have hone := hbound 1 (Nat.le_refl 1)
  rwa [Nat.cast_one, Int.one_mul] at hone

/-- Two uses in ten: the second window opens at 11, so that three uses are allowed from 9 to 19. -/
def twoWindows : List Query :=
  [.use "/a" 0, .use "/b" 3, .use "/a" 9, .use "/a" 10, .remaining "/a", .use "/a" 11,
    .use "/b" 12, .use "/a" 12, .use "/a" 19, .use "/a" 22]

theorem allowedIn_stretch_le_twoWindows :
    (twoWindows.filterMap Query.now?).Pairwise (· ≤ ·)
      ∧ allowedIn 9 (9 + 10) (uses "/a" ((ofPolicy ⟨2, 10⟩).events twoWindows)) ≤ 2 * 2
      ∧ allowedIn 9 (9 + 2 * 10) (uses "/a" ((ofPolicy ⟨2, 10⟩).events twoWindows)) ≤ 3 * 2
      ∧ allowedIn 9 (9 + 10) (uses "/a" ((ofPolicy ⟨2, 10⟩).events twoWindows)) = 3 := by
  have hq : (twoWindows.filterMap Query.now?).Pairwise (· ≤ ·) := by decide
  obtain ⟨hone, hall⟩ := allowedIn_stretch_le ⟨2, 10⟩ twoWindows hq "/a" 9
  exact ⟨hq, hone, hall 2 (by decide), by decide⟩

end Limiter

end HopTorrent
