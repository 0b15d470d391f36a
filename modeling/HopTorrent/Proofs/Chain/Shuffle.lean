import HopTorrent.Chain.Dial
import Mathlib.Data.ENNReal.BigOperators
import Mathlib.Data.Nat.Factorial.BigOperators
import Mathlib.Probability.Distributions.Uniform
import Mathlib.Probability.Independence.Basic

/-!
# Proofs/Chain/Shuffle — every order from exactly one sequence of draws

A shuffle settles the positions of a list from the last one down: the step for a position puts the
drawn element there, and no later step touches it (`getElem?_shuffleFrom`).  So every order can be
drawn (`exists_shuffle_eq`), and of a list without duplicates it can be drawn in one way only
(`shuffle_eq_iff`).  Draws that are independent and uniform therefore make all orders equally likely
(`measure_shuffle`).
-/

namespace HopTorrent.Chain

open MeasureTheory ProbabilityTheory
open scoped ENNReal Nat

variable {α : Type} {xs ys : List α}

/-! ## What one step settles -/

theorem length_swap (xs : List α) (i j : Nat) : (swap xs i j).length = xs.length :=
  (swap_perm xs i j).length_eq

/-- The element that changes places with the one at a position is there afterwards. -/
theorem getElem?_swap_left {i j : Nat} (hi : i < xs.length) (hj : j < xs.length) :
    (swap xs i j)[i]? = xs[j]? := by
  rw [swap, List.getElem?_eq_getElem hi, List.getElem?_eq_getElem hj]
  dsimp only
  by_cases h : i = j
  · subst h
    rw [List.getElem?_set_self (by simpa using hi)]
  · rw [List.getElem?_set_ne (Ne.symm h), List.getElem?_set_self hi]

/-- All other elements keep their places. -/
theorem getElem?_swap_of_ne {i j k : Nat} (hi : k ≠ i) (hj : k ≠ j) :
    (swap xs i j)[k]? = xs[k]? := by
  rw [swap]
  split
  · rw [List.getElem?_set_ne hj.symm, List.getElem?_set_ne hi.symm]
  · rfl

/-- **A settled position stays settled.** -/
theorem getElem?_shuffleFrom (draws : Draws) {i k : Nat} (h : i < k) (xs : List α) :
    (shuffleFrom draws i xs)[k]? = xs[k]? := by
  induction i generalizing xs with
  | zero => rfl
  | succ i ih =>
    have hj := (draws (i + 1)).isLt
    rw [shuffleFrom, ih (by omega), getElem?_swap_of_ne (by omega) (by omega)]

/-- **Each draw is told by the order it leads to.** -/
theorem getElem?_shuffleFrom_succ (draws : Draws) {i : Nat} (hi : i + 1 < xs.length) :
    (shuffleFrom draws (i + 1) xs)[i + 1]? = xs[(draws (i + 1)).val]? := by
  have hj := (draws (i + 1)).isLt
  rw [shuffleFrom, getElem?_shuffleFrom draws (Nat.lt_succ_self i),
    getElem?_swap_left hi (by omega)]

/-! ## Every order has its draws -/

/-- Two orders that differ in the first position at most are one order. -/
theorem eq_of_perm_of_tail (hp : ys.Perm xs) (hk : ∀ k, 0 < k → ys[k]? = xs[k]?) : ys = xs := by
  cases xs with
  | nil => exact hp.eq_nil
  | cons x xs =>
    cases ys with
    | nil => exact absurd hp.length_eq (by simp)
    | cons y ys =>
      obtain rfl : ys = xs := List.ext_getElem? fun k => by simpa using hk (k + 1) (Nat.succ_pos k)
      have hm : y ::ₘ (ys : Multiset α) = x ::ₘ (ys : Multiset α) := Multiset.coe_eq_coe.mpr hp
      rw [(Multiset.cons_inj_left _).mp hm]

/-- The element that belongs at a position stands not behind it, if what is behind is settled. -/
theorem exists_getElem?_eq {i : Nat} (hi : i < xs.length) (hp : ys.Perm xs)
    (hk : ∀ k, i < k → ys[k]? = xs[k]?) : ∃ j : Fin (i + 1), xs[j.val]? = ys[i]? := by
  have hiy : i < ys.length := hp.length_eq ▸ hi
  have hdrop : ys.drop (i + 1) = xs.drop (i + 1) := List.ext_getElem? fun k => by
    rw [List.getElem?_drop, List.getElem?_drop, hk _ (by omega)]
  have htake : (ys.take (i + 1)).Perm (xs.take (i + 1)) := by
    rw [← List.take_append_drop (i + 1) ys, ← List.take_append_drop (i + 1) xs, hdrop] at hp
    exact (List.perm_append_right_iff _).mp hp
  have hmem : ys[i] ∈ ys.take (i + 1) :=
    List.mem_take_iff_getElem.mpr ⟨i, by omega, rfl⟩
  obtain ⟨j, hj, hxj⟩ := List.mem_take_iff_getElem.mp (htake.subset hmem)
  exact ⟨⟨j, by omega⟩, by rw [List.getElem?_eq_getElem (by omega), hxj, List.getElem?_eq_getElem]⟩

/-- The draws behind a position are of no account for those up to it. -/
theorem shuffleFrom_congr {d d' : Draws} {i : Nat} (h : ∀ k, k < i → d (k + 1) = d' (k + 1))
    (xs : List α) : shuffleFrom d i xs = shuffleFrom d' i xs := by
  induction i generalizing xs with
  | zero => rfl
  | succ i ih =>
    rw [shuffleFrom, shuffleFrom, h i (Nat.lt_succ_self i)]
    exact ih (fun k hk => h k (Nat.lt_succ_of_lt hk)) _

/-- **An order that agrees behind a position can be drawn** up to that position. -/
theorem exists_shuffleFrom_eq {i : Nat} (hi : i < xs.length) (hp : ys.Perm xs)
    (hk : ∀ k, i < k → ys[k]? = xs[k]?) : ∃ d : Draws, shuffleFrom d i xs = ys := by
  induction i generalizing xs with
  | zero => exact ⟨fun _ => 0, (eq_of_perm_of_tail hp hk).symm⟩
  | succ i ih =>
    obtain ⟨j, hj⟩ := exists_getElem?_eq hi hp hk
    have hjl : j.val < xs.length := Nat.lt_of_le_of_lt (Nat.le_of_lt_succ j.isLt) hi
    have hsettled : ∀ k, i < k → ys[k]? = (swap xs (i + 1) j.val)[k]? := by
      intro k hik
      by_cases hki : k = i + 1
      · rw [hki, getElem?_swap_left hi hjl, hj]
      · rw [getElem?_swap_of_ne hki (by omega), hk k (by omega)]
    obtain ⟨d, hd⟩ := ih (by rw [length_swap]; omega) (hp.trans (swap_perm xs _ _).symm) hsettled
    refine ⟨Function.update d (i + 1) j, ?_⟩
    rw [shuffleFrom, Function.update_self, ← hd]
    refine shuffleFrom_congr (fun k hk => ?_) _
    have hne : k + 1 ≠ i + 1 := by omega
    rw [Function.update_of_ne hne]

/-- **An order can be drawn in one way only**, if no element occurs twice. -/
theorem draws_eq_of_shuffleFrom_eq {d d' : Draws} {i : Nat} (hn : xs.Nodup) (hi : i < xs.length)
    (h : shuffleFrom d i xs = shuffleFrom d' i xs) : ∀ k, k < i → d (k + 1) = d' (k + 1) := by
  induction i generalizing xs with
  | zero => nofun
  | succ i ih =>
    have hj := (d (i + 1)).isLt
    have hlast : d (i + 1) = d' (i + 1) := by
      have hx := congrArg (·[i + 1]?) h
      rw [getElem?_shuffleFrom_succ d hi, getElem?_shuffleFrom_succ d' hi] at hx
      exact Fin.ext ((List.getElem?_inj (by omega) hn).mp hx)
    intro k hk
    obtain rfl | hk := Nat.eq_or_lt_of_le (Nat.le_of_lt_succ hk)
    · exact hlast
    · rw [shuffleFrom, shuffleFrom, ← hlast] at h
      exact ih ((swap_perm xs _ _).nodup_iff.mpr hn) (by rw [length_swap]; omega) h k hk

/-- **Every order can be drawn.** -/
theorem exists_shuffle_eq (hp : ys.Perm xs) : ∃ d : Draws, shuffle d xs = ys := by
  cases hx : xs.length with
  | zero =>
    obtain rfl := List.length_eq_zero_iff.mp hx
    exact ⟨fun _ => 0, hp.eq_nil.symm⟩
  | succ n =>
    have hl := hp.length_eq
    refine exists_shuffleFrom_eq (by omega) hp fun k hk => ?_
    rw [List.getElem?_eq_none (by omega), List.getElem?_eq_none (by omega)]

/-- **Draws lead to one order exactly when they agree**, if no element occurs twice. -/
theorem shuffle_eq_iff {d d' : Draws} (hn : xs.Nodup) :
    shuffle d xs = shuffle d' xs ↔ ∀ k, k < xs.length - 1 → d (k + 1) = d' (k + 1) := by
  refine ⟨fun h k hk => ?_, fun h => shuffleFrom_congr h xs⟩
  exact draws_eq_of_shuffleFrom_eq hn (by omega) h k hk

/-! ## As many sequences of draws as orders -/

/-- The draws made for a list of so many elements: one for each position but the first. -/
abbrev Choices (n : Nat) := (i : Fin (n - 1)) → Fin (i.val + 2)

/-- Choices as draws; those that are never made are of no account. -/
def Choices.draws {n : Nat} (c : Choices n) : Draws
  | 0 => 0
  | k + 1 => if h : k < n - 1 then c ⟨k, h⟩ else 0

theorem Choices.draws_succ {n : Nat} (c : Choices n) (i : Fin (n - 1)) :
    c.draws (i.val + 1) = c i := dif_pos i.isLt

/-- The order that choices lead to. -/
def ordered (xs : List α) (c : Choices xs.length) : {ys : List α // ys.Perm xs} :=
  ⟨shuffle c.draws xs, shuffleFrom_perm c.draws _ xs⟩

/-- Draws lead to the order of the choices among them. -/
theorem ordered_choices (d : Draws) (xs : List α) :
    (ordered xs fun i => d (i.val + 1)).val = shuffle d xs :=
  shuffleFrom_congr (fun k hk => Choices.draws_succ _ ⟨k, hk⟩) xs

/-- **Choices and orders correspond one to one.** -/
theorem bijective_ordered (hn : xs.Nodup) : Function.Bijective (ordered xs) := by
  constructor
  · intro c c' h
    funext i
    have hd := (shuffle_eq_iff hn).mp (congrArg Subtype.val h) i i.isLt
    rwa [c.draws_succ, c'.draws_succ] at hd
  · rintro ⟨ys, hp⟩
    obtain ⟨d, rfl⟩ := exists_shuffle_eq hp
    exact ⟨_, Subtype.ext (ordered_choices d xs)⟩

/-! ## All orders are equally likely -/

section Chance

variable {Ω : Type} [MeasurableSpace Ω]

/-- **Fair draws**: those made for a list of so many elements are independent, and each is uniform
on the positions it can name. -/
structure Fair (μ : Measure Ω) (n : Nat) (draws : Ω → Draws) : Prop where
  independent : iIndepFun (fun (i : Fin (n - 1)) ω => draws ω (i.val + 1)) μ
  uniform : ∀ (i : Fin (n - 1)) (j : Fin (i.val + 2)),
    μ {ω | draws ω (i.val + 1) = j} = (i.val + 2 : ENNReal)⁻¹

/-- The chances of the draws for `n` elements multiply to that of one order. -/
theorem prod_chances (n : Nat) :
    ∏ i : Fin (n - 1), (i.val + 2 : ENNReal)⁻¹ = (n ! : ENNReal)⁻¹ := by
  have hfact : n ! = ∏ i : Fin (n - 1), (i.val + 2) := by
    cases n with
    | zero => rfl
    | succ n =>
      rw [← Finset.prod_range_add_one_eq_factorial, Finset.prod_range_succ', Nat.zero_add, mul_one]
      exact Finset.prod_range fun i => i + 1 + 1
  rw [← ENNReal.prod_inv_distrib fun i _ j _ _ => .inl (by positivity), hfact]
  push_cast
  rfl

/-- **Fair draws make every order equally likely.** -/
theorem measure_shuffle {μ : Measure Ω} {draws : Ω → Draws} (hf : Fair μ xs.length draws)
    (hn : xs.Nodup) (hp : ys.Perm xs) :
    μ {ω | shuffle (draws ω) xs = ys} = (xs.length ! : ENNReal)⁻¹ := by
  obtain ⟨d, rfl⟩ := exists_shuffle_eq hp
  have hset : {ω | shuffle (draws ω) xs = shuffle d xs}
      = ⋂ i : Fin (xs.length - 1), {ω | draws ω (i.val + 1) = d (i.val + 1)} := by
    ext ω
    rw [Set.mem_iInter]
    exact (shuffle_eq_iff hn).trans ⟨fun h i => h i i.isLt, fun h k hk => h ⟨k, hk⟩⟩
  rw [hset, hf.independent.meas_iInter (s := fun i => {ω | draws ω (i.val + 1) = d (i.val + 1)})
      fun i => ⟨{d (i.val + 1)}, measurableSet_singleton _, rfl⟩,
    Finset.prod_congr rfl fun i _ => hf.uniform i (d (i.val + 1)), prod_chances]

/-- Each of the choices for so many elements uniform by itself. -/
noncomputable def chances (n : Nat) : Measure (Choices n) :=
  Measure.pi fun i => (PMF.uniformOfFintype (Fin (i.val + 2))).toMeasure

/-- **There are fair draws.** -/
theorem fair_chances (n : Nat) : Fair (chances n) n Choices.draws where
  independent := by
    simp only [Choices.draws_succ]
    exact iIndepFun_pi fun i => measurable_id.aemeasurable
  uniform i j := by
    have hev := (measurePreserving_eval
      (fun i : Fin (n - 1) => (PMF.uniformOfFintype (Fin (i.val + 2))).toMeasure) i).measure_preimage
        (measurableSet_singleton j).nullMeasurableSet
    rw [PMF.toMeasure_apply_singleton _ _ (measurableSet_singleton j), PMF.uniformOfFintype_apply,
      Fintype.card_fin] at hev
    simp only [Choices.draws_succ]
    exact hev.trans (by push_cast; rfl)

end Chance

/-! ## The shuffle is unbiased -/

/-- **The shuffle is an unbiased permutation.**  Whatever is drawn, nothing is lost, and each attempt
of a dial shuffles the hops as the chain has them, whatever was drawn for the others.  If no element
occurs twice, each order comes from exactly one sequence of draws; so with fair draws all orders are
equally likely. -/
theorem shuffle_unbiased (xs : List α) :
    (∀ draws, (shuffle draws xs).Perm xs)
      ∧ (∀ (s : Setup) (i : Nat), s.route i = shuffle (s.random.draws i) s.chain.hops
        ∧ (s.route i).Perm s.chain.hops)
      ∧ (xs.Nodup → Function.Bijective (ordered xs)
        ∧ ∀ (Ω : Type) [MeasurableSpace Ω] (μ : Measure Ω) (draws : Ω → Draws),
          Fair μ xs.length draws → ∀ ys, ys.Perm xs →
            μ {ω | shuffle (draws ω) xs = ys} = (xs.length ! : ENNReal)⁻¹) :=
  ⟨fun draws => shuffleFrom_perm draws _ xs, fun _ _ => ⟨rfl, shuffleFrom_perm _ _ _⟩,
    fun hn => ⟨bijective_ordered hn, fun _ _ _ _ hf _ hp => measure_shuffle hf hn hp⟩⟩

/-- Three hops: six sequences of draws, and each order has a chance of one in six. -/
theorem shuffle_unbiased_threeHops : ["a:1", "b:2", "c:3"].Nodup
    ∧ Fair (chances 3) 3 Choices.draws
    ∧ Function.Bijective (ordered ["a:1", "b:2", "c:3"])
    ∧ ∀ ys : List String, ys.Perm ["a:1", "b:2", "c:3"] →
      chances 3 {c | shuffle c.draws ["a:1", "b:2", "c:3"] = ys} = (3 ! : ENNReal)⁻¹ := by
  have hn : ["a:1", "b:2", "c:3"].Nodup := by decide
  obtain ⟨-, -, h⟩ := shuffle_unbiased ["a:1", "b:2", "c:3"]
  exact ⟨hn, fair_chances 3, (h hn).1, (h hn).2 _ _ _ (fair_chances 3)⟩

end HopTorrent.Chain
