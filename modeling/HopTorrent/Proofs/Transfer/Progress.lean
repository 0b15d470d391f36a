import HopTorrent.Proofs.Transfer.Rates

/-!
# Proofs/Transfer/Progress — the percentage and the status that a poll is shown

Both are computed from the same byte counts, each in its own way: the percentage by a division that
rounds, the status by comparing.  They agree all the same (`polls_agree`), whatever the division
returns: what is not complete is held at the number just below one hundred, and `min` and `clamp`
hold it there because they order nonnegative numbers by their values (`value_belowHundred`).
-/

namespace HopTorrent

namespace Binary64

variable {x y : Binary64}

theorem hundred_eq : hundred = ⟨0x4059000000000000⟩ := by decide +kernel

theorem negative_hundred : hundred.negative = false := negative_ofRatio 100 1

theorem negative_pred_hundred : hundred.pred.negative = false := by decide +kernel

theorem value_zero : zero.value = 0 := by
  rw [value_eq (by decide), div_eq_zero_iff]
  exact .inl (Nat.cast_eq_zero.mpr (by decide))

theorem value_hundred : hundred.value = 100 := by
  have hr : hundred.ratio = (100 * 2 ^ 46, 2 ^ 46) := by
    rw [hundred_eq]
    decide
  rw [value_eq_ratio negative_hundred, hr]
  norm_num

/-- **There is no number between one hundred and the one just below it.** -/
theorem value_lt_hundred_iff (hx : x.negative = false) :
    x.value < 100 ↔ x.value ≤ hundred.pred.value := by
  rw [← value_hundred, value_lt_value_iff hx negative_hundred,
    value_le_value_iff hx negative_pred_hundred, UInt64.lt_iff_toNat_lt, UInt64.le_iff_toNat_le]
  have hh : hundred.bits.toNat = 0x4059000000000000 := by decide +kernel
  have hp : hundred.pred.bits.toNat = 0x4058ffffffffffff := by decide +kernel
  omega

/-- The smaller bits stand for the smaller value. -/
theorem value_min (hx : x.negative = false) (hy : y.negative = false) :
    (x.min y).value = Min.min x.value y.value := by
  rw [min]
  split
  · rename_i h
    exact (min_eq_left ((value_le_value_iff hx hy).mpr h)).symm
  · rename_i h
    exact (min_eq_right (le_of_not_ge fun hle => h ((value_le_value_iff hx hy).mp hle))).symm

/-- The larger bits stand for the larger value. -/
theorem value_max (hx : x.negative = false) (hy : y.negative = false) :
    (x.max y).value = Max.max x.value y.value := by
  rw [max]
  split
  · rename_i h
    exact (max_eq_right ((value_le_value_iff hx hy).mpr h)).symm
  · rename_i h
    exact (max_eq_left (le_of_not_ge fun hle => h ((value_le_value_iff hx hy).mp hle))).symm

theorem negative_min (hx : x.negative = false) (hy : y.negative = false) :
    (x.min y).negative = false := by
  rw [min]
  split <;> assumption

theorem negative_max (hx : x.negative = false) (hy : y.negative = false) :
    (x.max y).negative = false := by
  rw [max]
  split <;> assumption

end Binary64

namespace Progress

open Binary64

variable {x : Binary64} {completed total : ℕ}

/-- The percentage, given what the division returned. -/
def percentOf (x : Binary64) (completed total : ℕ) : Binary64 :=
  if total = 0 then .zero else if total ≤ completed then .hundred else belowHundred x

theorem percent_eq (completed total : ℕ) :
    percent completed total = percentOf (quotient completed total) completed total := rfl

theorem negative_quotient (completed total : ℕ) : (quotient completed total).negative = false :=
  negative_ofRatio _ _

theorem percentOf_of_complete (h : 0 < total ∧ total ≤ completed) :
    percentOf x completed total = .hundred := by
  rw [percentOf, if_neg h.1.ne', if_pos h.2]

theorem percentOf_of_lt (h : completed < total) :
    percentOf x completed total = belowHundred x := by
  rw [percentOf, if_neg (Nat.ne_zero_of_lt h), if_neg (Nat.not_le_of_lt h)]

theorem negative_belowHundred (hx : x.negative = false) : (belowHundred x).negative = false :=
  negative_min (negative_min (negative_max hx rfl) negative_hundred) negative_pred_hundred

/-- **What is held below one hundred** is what was returned, or the number just below it. -/
theorem value_belowHundred (hx : x.negative = false) :
    (belowHundred x).value = min x.value hundred.pred.value := by
  have hm : (x.max zero).negative = false := negative_max hx rfl
  have hc : (clamp zero hundred x).negative = false := negative_min hm negative_hundred
  have hp : hundred.pred.value ≤ 100 :=
    ((value_lt_hundred_iff negative_pred_hundred).mpr le_rfl).le
  calc (belowHundred x).value
      = min (min (max x.value 0) 100) hundred.pred.value := by
        rw [belowHundred, value_min hc negative_pred_hundred, clamp, value_min hm negative_hundred,
          value_max hx rfl, value_zero, value_hundred]
    _ = min x.value hundred.pred.value := by
        rw [max_eq_left (value_nonneg hx), min_assoc, min_eq_right hp]

theorem negative_percentOf (hx : x.negative = false) (completed total : ℕ) :
    (percentOf x completed total).negative = false := by
  rw [percentOf]
  split
  · rfl
  split
  · exact negative_hundred
  · exact negative_belowHundred hx

/-- **Content that is not complete is done to less than one hundred percent.** -/
theorem value_percentOf_lt (hx : x.negative = false) (h : ¬ (0 < total ∧ total ≤ completed)) :
    (percentOf x completed total).value < 100 := by
  obtain rfl | hlt : total = 0 ∨ completed < total := by omega
  · rw [percentOf, if_pos rfl, value_zero]
    norm_num
  · rw [percentOf_of_lt hlt, value_lt_hundred_iff (negative_belowHundred hx),
      value_belowHundred hx]
    exact min_le_right _ _

/-- **Only complete content is done to one hundred percent.** -/
theorem value_percentOf_eq_iff (hx : x.negative = false) :
    (percentOf x completed total).value = 100 ↔ 0 < total ∧ total ≤ completed := by
  refine ⟨fun h => ?_, fun h => by rw [percentOf_of_complete h, value_hundred]⟩
  by_contra hn
  exact (value_percentOf_lt hx hn).ne h

theorem value_percentOf_le (hx : x.negative = false) (completed total : ℕ) :
    (percentOf x completed total).value ≤ 100 := by
  by_cases h : 0 < total ∧ total ≤ completed
  · rw [percentOf_of_complete h, value_hundred]
  · exact (value_percentOf_lt hx h).le

/-- The numbers below one hundred have a largest one. -/
theorem isGreatest_below_hundred : IsGreatest
    (Set.image value {x | x.isFinite = true ∧ x.negative = false ∧ x.value < 100})
    hundred.pred.value := by
  refine ⟨⟨_, ⟨by decide +kernel, negative_pred_hundred, ?_⟩, rfl⟩, ?_⟩
  · exact (value_lt_hundred_iff negative_pred_hundred).mpr le_rfl
  · rintro _ ⟨x, ⟨-, hx, hlt⟩, rfl⟩
    exact (value_lt_hundred_iff hx).mp hlt

/-- Over all that the division may return, it is the most that is reported of incomplete
content. -/
theorem isGreatest_percentOf (h : completed < total) : IsGreatest
    (Set.image (fun x => (percentOf x completed total).value)
      {x | x.isFinite = true ∧ x.negative = false}) hundred.pred.value := by
  constructor
  · refine ⟨hundred.pred, ⟨by decide +kernel, negative_pred_hundred⟩, ?_⟩
    show (percentOf hundred.pred completed total).value = _
    rw [percentOf_of_lt h, value_belowHundred negative_pred_hundred, min_self]
  · rintro _ ⟨x, ⟨-, hx⟩, rfl⟩
    show (percentOf x completed total).value ≤ _
    rw [percentOf_of_lt h, value_belowHundred hx]
    exact min_le_right _ _

/-- The division of these counts rounds to one. -/
theorem percent_last : percent (2 ^ 64 - 2) (2 ^ 64 - 1) = hundred.pred := by decide +kernel

/-- Over all incomplete content of which the bytes can be counted, it is also the most that is
reported. -/
theorem isGreatest_percent : IsGreatest
    {v | ∃ completed total, completed < total ∧ total < 2 ^ 64
      ∧ v = (percent completed total).value} hundred.pred.value := by
  refine ⟨⟨2 ^ 64 - 2, 2 ^ 64 - 1, by norm_num, by norm_num, by rw [percent_last]⟩, ?_⟩
  rintro _ ⟨completed, total, h, -, rfl⟩
  rw [percent_eq, percentOf_of_lt h, value_belowHundred (negative_quotient _ _)]
  exact min_le_right _ _

end Progress

namespace Status

theorem eq_completed_or_seeding_iff {status : Status} :
    status = .completed ∨ status = .seeding ↔ status.isComplete = true := by
  cases status <;> decide

variable {completed total : ℕ} {paused : Bool} {uploadRate : ℕ}

theorem infer_of_complete (h : 0 < total ∧ total ≤ completed) :
    infer completed total paused uploadRate = if 0 < uploadRate then seeding else .completed :=
  if_pos h

theorem isComplete_infer :
    (infer completed total paused uploadRate).isComplete = true
      ↔ 0 < total ∧ total ≤ completed := by
  by_cases h : 0 < total ∧ total ≤ completed
  · rw [infer_of_complete h]
    refine iff_of_true ?_ h
    split <;> rfl
  · rw [infer, if_neg h]
    refine iff_of_false ?_ h
    split
    · decide
    · split <;> decide

theorem infer_eq_seeding_iff :
    infer completed total paused uploadRate = seeding
      ↔ (0 < total ∧ total ≤ completed) ∧ 0 < uploadRate := by
  by_cases h : 0 < total ∧ total ≤ completed
  · rw [infer_of_complete h]
    by_cases hu : 0 < uploadRate <;> simp [h, hu]
  · refine iff_of_false (fun hs => h ?_) (fun hc => h hc.1)
    exact isComplete_infer.mp (by rw [hs]; rfl)

end Status

namespace Snapshot

/-- All content is there, and there is some. -/
def Complete (view : Snapshot) : Prop := 0 < view.totalSize ∧ view.totalSize ≤ view.downloaded

/-- **The percentage and the status do not contradict each other**, nor the byte counts. -/
structure Agrees (view : Snapshot) : Prop where
  nonnegative : view.progress.negative = false
  bounded : 0 ≤ view.progress.value ∧ view.progress.value ≤ 100
  hundred_iff : view.progress.value = 100 ↔ view.Complete
  finished_iff : view.status = .completed ∨ view.status = .seeding ↔ view.Complete
  seeding_iff : view.status = .seeding ↔ view.Complete ∧ 0 < view.uploadRate

end Snapshot

namespace Session

open Progress (percentOf)

/-- What is seen of a session, given what the division returned. -/
def viewOf (x : Binary64) (s : Session) (t : Torrent) (id : InfoHash) : Snapshot :=
  { s.view t id with progress := percentOf x t.completed t.length }

theorem view_eq (s : Session) (t : Torrent) (id : InfoHash) :
    s.view t id = s.viewOf (Progress.quotient t.completed t.length) t id := rfl

/-- **Whatever the division returns**, what is seen does not contradict itself. -/
theorem agrees_viewOf {x : Binary64} (hx : x.negative = false) (s : Session) (t : Torrent)
    (id : InfoHash) : (s.viewOf x t id).Agrees where
  nonnegative := Progress.negative_percentOf hx _ _
  bounded := ⟨Binary64.value_nonneg (Progress.negative_percentOf hx _ _),
    Progress.value_percentOf_le hx _ _⟩
  hundred_iff := Progress.value_percentOf_eq_iff hx
  finished_iff := Status.eq_completed_or_seeding_iff.trans Status.isComplete_infer
  seeding_iff := Status.infer_eq_seeding_iff

end Session

namespace Poll

open Binary64 Progress

/-- **What polls are shown never contradicts itself**, whatever was polled before and whatever the
division returns; and of what is not complete the most that is shown is the number just below one
hundred. -/
theorem polls_agree (s : Session) (id : InfoHash) (p : Poll) (earlier : List Poll) :
    (s.seen id p earlier).Agrees
      ∧ (∀ x : Binary64, x.isFinite = true → x.negative = false →
        ((s.watched (p :: earlier)).viewOf x p.torrent id).Agrees)
      ∧ IsGreatest
        (Set.image Binary64.value {x | x.isFinite = true ∧ x.negative = false ∧ x.value < 100})
        hundred.pred.value
      ∧ (∀ completed total, completed < total → IsGreatest
        (Set.image (fun x => (percentOf x completed total).value)
          {x | x.isFinite = true ∧ x.negative = false})
        hundred.pred.value)
      ∧ IsGreatest
        {v | ∃ completed total, completed < total ∧ total < 2 ^ 64
          ∧ v = (percent completed total).value}
        hundred.pred.value := by
  have hview : ∀ x : Binary64, x.isFinite = true → x.negative = false →
      ((s.watched (p :: earlier)).viewOf x p.torrent id).Agrees :=
    fun _ _ hx => Session.agrees_viewOf hx _ _ _
  refine ⟨?_, hview, isGreatest_below_hundred, fun _ _ => isGreatest_percentOf, isGreatest_percent⟩
  rw [Session.seen, Session.view_eq]
  exact Session.agrees_viewOf (negative_quotient _ _) _ _ _

/-- Even where a division returns one hundred for all but one of the bytes. -/
theorem polls_agree_all_but_one :
    let t : Torrent := ⟨⟨.replicate 20 0⟩, "a", 2 ^ 64 - 1, 2 ^ 64 - 2, 0, 0, 0⟩
    let s : Session := .fresh 0 "magnet:" 0
    hundred.isFinite = true ∧ hundred.negative = false ∧ 2 ^ 64 - 2 < 2 ^ 64 - 1
      ∧ ((s.watched [⟨t, 1, true⟩, ⟨t, 0, false⟩]).viewOf hundred t t.infoHash).Agrees
      ∧ (percentOf hundred (2 ^ 64 - 2) (2 ^ 64 - 1)).value ≤ hundred.pred.value := by
  intro t s
  have hfinite : hundred.isFinite = true := by decide +kernel
  have hagree := polls_agree s t.infoHash ⟨t, 1, true⟩ [⟨t, 0, false⟩]
  refine ⟨hfinite, negative_hundred, by norm_num, hagree.2.1 _ hfinite negative_hundred, ?_⟩
  exact (hagree.2.2.2.1 _ _ (by norm_num)).2 ⟨_, ⟨hfinite, negative_hundred⟩, rfl⟩

end Poll

end HopTorrent
