import HopTorrent.Proofs.Binary64
import HopTorrent.Session
import Mathlib.Tactic.NormNum

/-!
# Proofs/Transfer/Rates — what successive polls of a session find of its traffic

A poll is accepted if it is the first one, or comes a tenth of a second or more after the last one
that was accepted (`Due`).  The accepted polls determine what a session remembers of its counters
(`sample_watched`), so a poll that is not accepted changes nothing and is shown the old rates, and
an accepted one is measured against the accepted one before it (`polls_metered`).  Hence no byte is
lost between two accepted polls and none is counted twice (`counted_watched`).
-/

namespace HopTorrent

/-! ## A tenth of a second -/

namespace Binary64

variable {x x' y y' : Binary64} {m n : ℕ}

theorem negative_ofNat (n : ℕ) : (ofNat n).negative = false := negative_ofRatio n 1

theorem negative_add (x y : Binary64) : (x.add y).negative = false := negative_ofRatio _ _

theorem negative_div (x y : Binary64) : (x.div y).negative = false := negative_ofRatio _ _

theorem value_ofNat_mono (h : m ≤ n) : (ofNat m).value ≤ (ofNat n).value :=
  (value_le_value_iff (negative_ofNat m) (negative_ofNat n)).mpr
    (ofRatio_mono Nat.one_pos Nat.one_pos (Nat.mul_le_mul_right 1 h))

/-- A larger number is not divided to a smaller one. -/
theorem value_div_mono (hx : x.negative = false) (hx' : x'.negative = false)
    (hy : 0 < y.ratio.1) (h : x.value ≤ x'.value) : (x.div y).value ≤ (x'.div y).value := by
  have hr := ratio_le_ratio hx hx' h
  refine (value_le_value_iff (negative_div x y) (negative_div x' y)).mpr ?_
  refine ofRatio_mono (Nat.mul_pos x.ratio_snd_pos hy) (Nat.mul_pos x'.ratio_snd_pos hy) ?_
  calc x.ratio.1 * y.ratio.2 * (x'.ratio.2 * y.ratio.1)
      = x.ratio.1 * x'.ratio.2 * (y.ratio.2 * y.ratio.1) := by ring
    _ ≤ x'.ratio.1 * x.ratio.2 * (y.ratio.2 * y.ratio.1) := by gcongr
    _ = x'.ratio.1 * y.ratio.2 * (x.ratio.2 * y.ratio.1) := by ring

/-- Larger numbers are not added to a smaller one. -/
theorem value_add_mono (hx : x.negative = false) (hx' : x'.negative = false)
    (hy : y.negative = false) (hy' : y'.negative = false) (h : x.value ≤ x'.value)
    (k : y.value ≤ y'.value) : (x.add y).value ≤ (x'.add y').value := by
  have hr := ratio_le_ratio hx hx' h
  have kr := ratio_le_ratio hy hy' k
  refine (value_le_value_iff (negative_add x y) (negative_add x' y')).mpr ?_
  refine ofRatio_mono (Nat.mul_pos x.ratio_snd_pos y.ratio_snd_pos)
    (Nat.mul_pos x'.ratio_snd_pos y'.ratio_snd_pos) ?_
  calc (x.ratio.1 * y.ratio.2 + y.ratio.1 * x.ratio.2) * (x'.ratio.2 * y'.ratio.2)
      = x.ratio.1 * x'.ratio.2 * (y.ratio.2 * y'.ratio.2)
        + y.ratio.1 * y'.ratio.2 * (x.ratio.2 * x'.ratio.2) := by ring
    _ ≤ x'.ratio.1 * x.ratio.2 * (y.ratio.2 * y'.ratio.2)
        + y'.ratio.1 * y.ratio.2 * (x.ratio.2 * x'.ratio.2) := by gcongr
    _ = (x'.ratio.1 * y'.ratio.2 + y'.ratio.1 * x'.ratio.2) * (x.ratio.2 * y.ratio.2) := by ring

end Binary64

namespace Rates

open Binary64

theorem negative_secondsOf (nanos : ℕ) : (secondsOf nanos).negative = false := negative_add _ _

theorem secondsOf_tenth : secondsOf 100000000 = ⟨0x3fb999999999999a⟩ := by decide +kernel

theorem secondsOf_one : secondsOf 1000000000 = ⟨0x3ff0000000000000⟩ := by decide +kernel

/-- Longer spans are not shorter in seconds, if they differ in whole seconds or in the rest only. -/
theorem value_secondsOf_mono {m n : ℕ} (hq : m / 1000000000 ≤ n / 1000000000)
    (hr : m % 1000000000 ≤ n % 1000000000) : (secondsOf m).value ≤ (secondsOf n).value :=
  value_add_mono (negative_ofNat _) (negative_ofNat _) (negative_div _ _) (negative_div _ _)
    (value_ofNat_mono hq)
    (value_div_mono (negative_ofNat _) (negative_ofNat _) (by decide +kernel) (value_ofNat_mono hr))

/-- **A tenth of a second or more** is at least 0.1 in seconds, as it is divided by. -/
theorem tenth_le_value_secondsOf {nanos : ℕ} (h : 100000000 ≤ nanos) :
    1 / 10 ≤ (secondsOf nanos).value := by
  have htenth : 1 / 10 ≤ (secondsOf 100000000).value := by
    have hr : (secondsOf 100000000).ratio = (0x1999999999999a, 2 ^ 56) := by
      rw [secondsOf_tenth]
      decide
    rw [value_eq_ratio (negative_secondsOf _), hr]
    norm_num
  have hone : 1 / 10 ≤ (secondsOf 1000000000).value := by
    have hr : (secondsOf 1000000000).ratio = (2 ^ 52, 2 ^ 52) := by
      rw [secondsOf_one]
      decide
    rw [value_eq_ratio (negative_secondsOf _), hr]
    norm_num
  obtain hq | hq : 1000000000 / 1000000000 ≤ nanos / 1000000000
      ∨ 100000000 % 1000000000 ≤ nanos % 1000000000 := by
    omega
  · exact hone.trans (value_secondsOf_mono hq (Nat.zero_le _))
  · exact htenth.trans (value_secondsOf_mono (Nat.zero_le _) hq)

end Rates

/-! ## Polls -/

/-- **A poll**: the torrent as it stands at an instant, and whether the transfer is paused then. -/
structure Poll where
  torrent : Torrent
  now : Int
  paused : Bool

/-- Which way bytes go. -/
inductive Direction where
  | received
  | sent

namespace Direction

/-- The bytes that went one way since the torrent was added. -/
def count : Direction → Torrent → ℕ
  | received, t => t.read
  | sent, t => t.written

/-- The bytes that a sample saw. -/
def baseline : Direction → Rates.Sample → ℕ
  | received, s => s.read
  | sent, s => s.written

/-- The rate of one direction. -/
def rate : Direction → Rates → ℕ
  | received, r => r.download
  | sent, r => r.upload

/-- The rate that is shown. -/
def shown : Direction → Snapshot → ℕ
  | received, view => view.downloadRate
  | sent, view => view.uploadRate

end Direction

namespace Session

/-- The session after a poll. -/
def polled (s : Session) (p : Poll) : Session :=
  { s with paused := p.paused }.sampled p.torrent p.now

/-- The session after some polls, the latest one first. -/
def watched (s : Session) : List Poll → Session
  | [] => s
  | p :: earlier => (s.watched earlier).polled p

/-- What a poll is shown after some others. -/
def seen (s : Session) (id : InfoHash) (p : Poll) (earlier : List Poll) : Snapshot :=
  (s.watched (p :: earlier)).view p.torrent id

end Session

namespace Poll

open Rates (perSecond secondsOf)

/-- **A poll is due** if none was accepted before, or a tenth of a second went by since the last
one that was. -/
def Due : List Poll → Poll → Prop
  | [], _ => True
  | last :: _, p => last.now + 100000000 ≤ p.now

instance : (taken : List Poll) → (p : Poll) → Decidable (Due taken p)
  | [], _ => .isTrue trivial
  | last :: _, p => inferInstanceAs (Decidable (last.now + 100000000 ≤ p.now))

/-- **The polls that are accepted**, the latest one first. -/
def accepted : List Poll → List Poll
  | [] => []
  | p :: earlier => if Due (accepted earlier) p then p :: accepted earlier else accepted earlier

/-- The rate that the last of some accepted polls is shown: that since the one before it. -/
def rateOf (d : Direction) : List Poll → ℕ
  | p :: last :: _ =>
    perSecond (d.count p.torrent - d.count last.torrent) (p.now - last.now).toNat
  | _ => 0

/-- What is remembered of some accepted polls. -/
def sampleOf : List Poll → Rates.Sample
  | [] => .initial
  | p :: before =>
    ⟨some p.now, p.torrent.read, p.torrent.written,
      ⟨rateOf .received (p :: before), rateOf .sent (p :: before)⟩⟩

/-- The bytes by which a poll is measured against what a session remembers: none if it is the
first, or changes nothing. -/
def gain (d : Direction) (s : Session) (p : Poll) : ℕ :=
  if s.sample.taken = none ∨ (s.polled p).sample = s.sample then 0
  else d.count p.torrent - d.baseline s.sample

/-- **All bytes by which polls are measured.** -/
def counted (d : Direction) (s : Session) : List Poll → ℕ
  | [] => 0
  | p :: earlier => counted d s earlier + gain d (s.watched earlier) p

variable {s : Session} {p q last : Poll} {earlier taken before : List Poll} {d : Direction}

/-! ## What is remembered -/

theorem accepted_of_due (h : Due (accepted earlier) p) :
    accepted (p :: earlier) = p :: accepted earlier := if_pos h

theorem accepted_of_not_due (h : ¬ Due (accepted earlier) p) :
    accepted (p :: earlier) = accepted earlier := if_neg h

/-- A poll that is due is measured against the last one that was accepted. -/
theorem update_of_due (h : Due taken p) :
    (sampleOf taken).update p.torrent.read p.torrent.written p.now = sampleOf (p :: taken) := by
  cases taken with
  | nil => rfl
  | cons last before =>
    have hlast : last.now + 100000000 ≤ p.now := h
    rw [sampleOf, Rates.Sample.update]
    exact if_neg (by rw [Rates.minSampleMillis]; omega)

/-- Any other poll changes nothing. -/
theorem update_of_not_due (h : ¬ Due taken p) :
    (sampleOf taken).update p.torrent.read p.torrent.written p.now = sampleOf taken := by
  cases taken with
  | nil => exact absurd trivial h
  | cons last before =>
    have hlast : ¬ last.now + 100000000 ≤ p.now := h
    rw [sampleOf, Rates.Sample.update]
    exact if_pos (by rw [Rates.minSampleMillis]; omega)

/-- **A session remembers the accepted polls.** -/
theorem sample_watched (hs : s.sample = .initial) (polls : List Poll) :
    (s.watched polls).sample = sampleOf (accepted polls) := by
  induction polls with
  | nil => exact hs
  | cons p earlier ih =>
    have hp : (s.watched (p :: earlier)).sample
        = (sampleOf (accepted earlier)).update p.torrent.read p.torrent.written p.now := by
      rw [← ih]
      rfl
    by_cases hd : Due (accepted earlier) p
    · rw [hp, update_of_due hd, accepted_of_due hd]
    · rw [hp, update_of_not_due hd, accepted_of_not_due hd]

/-- What is remembered tells the last accepted poll. -/
theorem sampleOf_ne (h : Due taken p) : sampleOf (p :: taken) ≠ sampleOf taken := by
  intro he
  have ht : some p.now = (sampleOf taken).taken := congrArg Rates.Sample.taken he
  cases taken with
  | nil => cases ht
  | cons last before =>
    have hlast : last.now + 100000000 ≤ p.now := h
    have hnow : p.now = last.now := Option.some.inj ht
    omega

/-- **A poll changes what is remembered exactly when it is due.** -/
theorem sample_watched_ne_iff (hs : s.sample = .initial) (p : Poll) (earlier : List Poll) :
    (s.watched (p :: earlier)).sample ≠ (s.watched earlier).sample
      ↔ Due (accepted earlier) p := by
  rw [sample_watched hs, sample_watched hs]
  by_cases hd : Due (accepted earlier) p
  · rw [accepted_of_due hd]
    exact iff_of_true (sampleOf_ne hd) hd
  · rw [accepted_of_not_due hd]
    exact iff_of_false (not_not.mpr rfl) hd

theorem baseline_sampleOf (d : Direction) (p : Poll) (before : List Poll) :
    d.baseline (sampleOf (p :: before)) = d.count p.torrent := by
  cases d <;> rfl

theorem rate_sampleOf (d : Direction) (taken : List Poll) :
    d.rate (sampleOf taken).rates = rateOf d taken := by
  cases taken <;> cases d <;> rfl

/-- **A poll is shown the rate of the last accepted one**, which it may be itself. -/
theorem shown_seen (hs : s.sample = .initial) (d : Direction) (id : InfoHash) (p : Poll)
    (earlier : List Poll) : d.shown (s.seen id p earlier) = rateOf d (accepted (p :: earlier)) := by
  rw [← rate_sampleOf, ← sample_watched hs]
  cases d <;> rfl

/-- No bytes are no bytes per second. -/
theorem perSecond_zero (nanos : ℕ) : perSecond 0 nanos = 0 := by
  have hz : (Binary64.ofNat 0).ratio.1 = 0 := by decide +kernel
  rw [perSecond, Binary64.div, hz, Nat.zero_mul, Binary64.ofRatio_zero]
  decide +kernel

/-! ## What is counted -/

theorem gain_of_first (hs : s.sample = .initial) (h : accepted earlier = []) :
    gain d (s.watched earlier) p = 0 := by
  rw [gain, sample_watched hs, h]
  exact if_pos (.inl rfl)

theorem gain_of_not_due (hs : s.sample = .initial) (h : ¬ Due (accepted earlier) p) :
    gain d (s.watched earlier) p = 0 :=
  if_pos (.inr (not_not.mp ((sample_watched_ne_iff hs p earlier).not.mpr h)))

theorem gain_of_due (hs : s.sample = .initial) (ha : accepted earlier = last :: before)
    (h : Due (accepted earlier) p) :
    gain d (s.watched earlier) p = d.count p.torrent - d.count last.torrent := by
  have hne : ¬ (((s.watched earlier).polled p).sample = (s.watched earlier).sample) :=
    (sample_watched_ne_iff hs p earlier).mpr h
  rw [gain, sample_watched hs, ha, baseline_sampleOf, ← ha, ← sample_watched hs]
  refine if_neg (not_or.mpr ⟨?_, hne⟩)
  rw [sample_watched hs, ha]
  exact nofun

theorem accepted_sublist (polls : List Poll) : (accepted polls).Sublist polls := by
  induction polls with
  | nil => exact .slnil
  | cons p earlier ih =>
    rw [accepted]
    split
    · exact ih.cons_cons p
    · exact ih.cons p

/-- The first poll is accepted. -/
theorem accepted_eq_nil_iff {polls : List Poll} : accepted polls = [] ↔ polls = [] := by
  refine ⟨fun h => ?_, by rintro rfl; rfl⟩
  induction polls with
  | nil => rfl
  | cons p earlier ih =>
    rw [accepted] at h
    split at h
    · cases h
    · rename_i hd
      rw [h] at hd
      exact absurd trivial hd

/-- **Between the first and the last accepted poll every byte is counted, and counted once**, as
long as the counter never falls. -/
theorem counted_watched (hs : s.sample = .initial) (d : Direction) (polls : List Poll)
    (hm : polls.Pairwise fun later sooner => d.count sooner.torrent ≤ d.count later.torrent)
    {first : Poll} (hl : (accepted polls).head? = some last)
    (hf : (accepted polls).getLast? = some first) :
    counted d s polls + d.count first.torrent = d.count last.torrent := by
  induction polls generalizing last with
  | nil => cases hl
  | cons p earlier ih =>
    obtain ⟨hp, hm⟩ := List.pairwise_cons.mp hm
    rw [counted]
    by_cases hd : Due (accepted earlier) p
    · rw [accepted_of_due hd] at hl hf
      obtain rfl : p = last := Option.some.inj hl
      cases ha : accepted earlier with
      | nil =>
        rw [ha] at hf
        obtain rfl : p = first := Option.some.inj hf
        rw [gain_of_first hs ha, accepted_eq_nil_iff.mp ha, counted]
        exact Nat.zero_add _
      | cons last' before =>
        have hle : d.count last'.torrent ≤ d.count p.torrent :=
          hp last' ((accepted_sublist earlier).subset (ha ▸ List.mem_cons_self))
        rw [ha, List.getLast?_cons_cons, ← ha] at hf
        have hc := ih hm (by rw [ha]; rfl) hf
        rw [gain_of_due hs ha hd]
        omega
    · rw [accepted_of_not_due hd] at hl hf
      rw [gain_of_not_due hs hd, Nat.add_zero]
      exact ih hm hl hf

/-! ## What polls are shown -/

/-- **What a poll does and is shown** after some others. -/
structure Metered (s : Session) (earlier : List Poll) (p : Poll) : Prop where
  /-- A poll is accepted, and changes what is remembered, exactly when it is due. -/
  accepted_iff : (s.watched (p :: earlier)).sample ≠ (s.watched earlier).sample
    ↔ Due (accepted earlier) p
  /-- Otherwise it is shown the rates of the last accepted one. -/
  skipped : ¬ Due (accepted earlier) p → ∀ (d : Direction) (id : InfoHash),
    d.shown (s.seen id p earlier) = rateOf d (accepted earlier)
  /-- An accepted one is remembered, and those before it no longer. -/
  remembered : Due (accepted earlier) p →
    (s.watched (p :: earlier)).sample.taken = some p.now
      ∧ ∀ d : Direction, d.baseline (s.watched (p :: earlier)).sample = d.count p.torrent
  /-- The first one is shown no rates. -/
  first : accepted earlier = [] → ∀ (d : Direction) (id : InfoHash),
    d.shown (s.seen id p earlier) = 0
  /-- Any other accepted one is measured against the accepted one before it: by how much the
  counter is above the one seen then, and the time since then, which is 0.1 seconds or more. -/
  measured : ∀ last before, accepted earlier = last :: before → Due (accepted earlier) p →
    1 / 10 ≤ (secondsOf (p.now - last.now).toNat).value
      ∧ ∀ (d : Direction) (id : InfoHash), d.shown (s.seen id p earlier)
        = ((Binary64.ofNat (d.count p.torrent - d.count last.torrent)).div
            (secondsOf (p.now - last.now).toNat)).toNat
  /-- If the counter fell, the rate is zero; and whatever is accepted next is measured against the
  fallen counter. -/
  fallen : ∀ last before, accepted earlier = last :: before → Due (accepted earlier) p →
    ∀ (d : Direction) (id : InfoHash), d.count p.torrent < d.count last.torrent →
      d.shown (s.seen id p earlier) = 0
        ∧ ∀ next : Poll, p.now + 100000000 ≤ next.now →
          d.shown (s.seen id next (p :: earlier))
            = perSecond (d.count next.torrent - d.count p.torrent) (next.now - p.now).toNat
  /-- If the counter never fell, the bytes by which polls were measured are those between the first
  and the last accepted one. -/
  counted : ∀ d : Direction, (p :: earlier).Pairwise (fun later sooner =>
      d.count sooner.torrent ≤ d.count later.torrent) →
    ∀ first last, (accepted (p :: earlier)).getLast? = some first →
      (accepted (p :: earlier)).head? = some last →
      (counted d s (p :: earlier) : ℤ) = d.count last.torrent - d.count first.torrent

/-- A poll that is due is shown the rate since the last accepted one. -/
theorem shown_of_due (hs : s.sample = .initial) (ha : accepted earlier = last :: before)
    (h : Due (accepted earlier) p) (d : Direction) (id : InfoHash) :
    d.shown (s.seen id p earlier)
      = perSecond (d.count p.torrent - d.count last.torrent) (p.now - last.now).toNat := by
  rw [shown_seen hs, accepted_of_due h, ha]
  rfl

/-- **Successive polls of a session lose no byte and count none twice**, whenever they come. -/
theorem polls_metered (h : Handle) (magnet : String) (added : Int) (earlier : List Poll)
    (p : Poll) : Metered (.fresh h magnet added) earlier p := by
  have hs : (Session.fresh h magnet added).sample = .initial := rfl
  constructor
  case accepted_iff => exact sample_watched_ne_iff hs p earlier
  case skipped =>
    intro hd d id
    rw [shown_seen hs, accepted_of_not_due hd]
  case remembered =>
    intro hd
    rw [sample_watched hs, accepted_of_due hd]
    exact ⟨rfl, fun d => baseline_sampleOf d p _⟩
  case first =>
    intro ha d id
    rw [shown_seen hs, accepted, ha]
    rfl
  case measured =>
    intro last before ha hd
    refine ⟨?_, fun d id => shown_of_due hs ha hd d id⟩
    have hlast : last.now + 100000000 ≤ p.now := by
      rw [ha] at hd
      exact hd
    exact Rates.tenth_le_value_secondsOf (by omega)
  case fallen =>
    intro last before ha hd d id hlt
    refine ⟨?_, fun next hn => ?_⟩
    · rw [shown_of_due hs ha hd, Nat.sub_eq_zero_of_le hlt.le, perSecond_zero]
    · have ha' := accepted_of_due hd
      refine shown_of_due hs ha' ?_ d id
      rw [ha']
      exact hn
  case counted =>
    intro d hm first last hf hl
    have hc := counted_watched hs d (p :: earlier) hm hl hf
    omega

/-- Even where the clock goes back between two polls: the bytes that were received meanwhile are
counted by the next poll that is accepted. -/
theorem polls_metered_backwards :
    let s : Session := .fresh 0 "magnet:" 0
    let poll (read : ℕ) (now : Int) : Poll :=
      ⟨⟨⟨.replicate 20 0⟩, "a", 1000, 0, read, 0, 0⟩, now, false⟩
    let earlier : List Poll :=
      [poll 70 (-1), poll 50 100000000, poll 30 99999999, poll 10 0]
    Metered s earlier (poll 90 200000000)
      ∧ (accepted (poll 90 200000000 :: earlier)).map Poll.now = [200000000, 100000000, 0]
      ∧ counted .received s (poll 90 200000000 :: earlier) = 80 := by
  intro s poll earlier
  exact ⟨polls_metered 0 "magnet:" 0 earlier _, by decide +kernel, by decide +kernel⟩

end Poll

end HopTorrent
