import HopTorrent.Chain.Probe
import HopTorrent.Proofs.Chain.Retry
import Mathlib.Algebra.BigOperators.Intervals

/-!
# Proofs/Chain/Probe — a check of the hops names the first that fails

Each hop is checked on its own: the transport is dialed once, at that hop, and over the connection
nothing is said but a request for the probe address, without credentials (`inspected`).  What comes
of it, and how long that takes, does not depend on when it begins.  So a check of all hops is told
by the outcomes alone: it visits the hops in the order of the chain up to the first that fails, and
names that one (`probeHops_reports`).
-/

namespace HopTorrent

/-! ## Dialogues and closing -/

/-- After a dialogue the coming turns take as long as they would have. -/
theorem Stream.Carries.pauses {s s' : Stream} {tr : Transcript} (h : s.Carries tr s') :
    s'.pauses = s.pauses.drop tr.length := by
  induction h with
  | nil s => rfl
  | sent hs _ ih =>
    obtain ⟨-, -, -, -, hp⟩ := Stream.send_eq_none hs
    rw [ih, hp, List.length_cons, ← List.drop_one, List.drop_drop, Nat.add_comm]
  | heard hs _ ih =>
    obtain ⟨-, -, -, -, hp⟩ := Stream.receive_eq_got hs
    rw [ih, hp, List.length_cons, ← List.drop_one, List.drop_drop, Nat.add_comm]

/-- How long a dialogue takes, and closing after it. -/
def Stream.durationClosed (s : Stream) (tr : Transcript) : Nat :=
  (s.pauses.take (tr.length + 1)).sum

/-- Closing takes the pause that comes next. -/
theorem Stream.Carries.durationClosed {s s' : Stream} {tr : Transcript} (h : s.Carries tr s') :
    s.durationClosed tr = s.duration tr + s'.pause := by
  rw [Stream.durationClosed, Stream.duration, Stream.pause, h.pauses, List.take_add_one,
    List.sum_append, List.headD_eq_head?_getD, List.head?_drop]
  cases s.pauses[tr.length]? <;> simp

namespace Chain.Setup

variable (s : Setup)

/-! ## The check of one hop -/

/-- The `i`-th hop, in the order of the chain. -/
def hop (i : Nat) : String := s.chain.hops.getD i ""

/-- The check of the `i`-th hop, given all the time it needs. -/
def patientCheck (i : Nat) : Dial Unit :=
  ((Dialer.hop (s.hop i) none .base).dial s.transport (s.offset + i) "tcp"
    s.policy.probeAddress).andThen closing

/-- How long the check of the `i`-th hop takes. -/
def checkDuration (i : Nat) : Nat := ((s.patientCheck i).course s.policy.attemptTimeoutMillis).1

/-- How the check of the `i`-th hop comes out: when it has not finished by the time allowed for an
attempt, its time ran out. -/
def checkOutcome (i : Nat) : Except Error Unit :=
  ((s.patientCheck i).course s.policy.attemptTimeoutMillis).2

/-- **The `i`-th hop works**: the transport connects to it, it grants a request for the probe address
without credentials, and closing the connection is done, all in the time of an attempt. -/
def Works (i : Nat) : Prop :=
  ∃ ms s₀ tr, s.transport (s.offset + i) "tcp" (s.hop i) = .after ms (.ok s₀)
    ∧ Socks.Handshake none s.policy.probeAddress tr
    ∧ Transcript.heard tr <+: s₀.offered
    ∧ s₀.Takes (Transcript.sent tr).length
    ∧ ms + s₀.durationClosed tr ≤ s.policy.attemptTimeoutMillis

/-- What holds of the check of the `i`-th hop that begins at `now`. -/
structure Inspected (i now : Nat) : Prop where
  /-- The transport is dialed once, at once, and at this hop. -/
  dialed : DialEvent.dials ((s.probeHop i (s.hop i)).run now).events = [(now, "tcp", s.hop i)]
  /-- At every moment, what was said over the connection is the beginning of a client half for the
  probe address, without credentials. -/
  asked : ∀ at_ st, (at_, .opened st) ∈ ((s.probeHop i (s.hop i)).run now).events →
    ∃ ms s₀ half written, s.transport (s.offset + i) "tcp" (s.hop i) = .after ms (.ok s₀)
      ∧ Socks.ClientHalf none s.policy.probeAddress half
      ∧ st.wrote = s₀.wrote ++ written ∧ written <+: half
  /-- It ends as told, and no later than allowed. -/
  result : ((s.probeHop i (s.hop i)).run now).result
    = some (now + s.checkDuration i, s.checkOutcome i)
  bounded : s.checkDuration i ≤ s.policy.attemptTimeoutMillis
  /-- Nothing of it happens before it begins or after it ends. -/
  during : ∀ e ∈ ((s.probeHop i (s.hop i)).run now).events,
    now ≤ e.1 ∧ e.1 ≤ now + s.checkDuration i
  /-- It succeeds exactly when the hop works. -/
  succeeds : s.checkOutcome i = .ok () ↔ s.Works i

/-- The check of a hop is the patient one within the time of an attempt. -/
theorem probeHop_eq (i : Nat) :
    s.probeHop i (s.hop i) = (s.patientCheck i).timed s.policy.attemptTimeoutMillis := rfl

/-- **Everything that happens when a hop is checked.** -/
theorem run_patientCheck (i now : Nat) :
    (s.patientCheck i).run now
      = match s.transport (s.offset + i) "tcp" (s.hop i) with
        | .never => ⟨[(now, .dialed "tcp" (s.hop i))], none⟩
        | .after ms (.error e) =>
          ⟨[(now, .dialed "tcp" (s.hop i)), (now + ms, .refused)], some (now + ms, .error e)⟩
        | .after ms (.ok s₀) =>
          let r := ((Dial.converse (Socks.connect s.policy.probeAddress none) s₀).andThen
            closing).run (now + ms)
          ⟨(now, .dialed "tcp" (s.hop i)) :: (now + ms, .opened s₀) :: r.events, r.result⟩ := by
  rw [patientCheck, Dialer.dial_hop rfl, Dialer.dial]
  rcases s.transport (s.offset + i) "tcp" (s.hop i) with _ | ⟨ms, e | s₀⟩ <;> rfl

/-- A request and closing after it succeed when the connection carries a handshake. -/
theorem request_closing_iff {target : String} {s₀ : Stream} {now at_ : Nat} :
    (((Dial.converse (Socks.connect target none) s₀).andThen closing).run now).result
        = some (at_, .ok ())
      ↔ ∃ tr, Socks.Handshake none target tr ∧ Transcript.heard tr <+: s₀.offered
        ∧ s₀.Takes (Transcript.sent tr).length ∧ at_ = now + s₀.durationClosed tr := by
  simp only [Dial.andThen_eq_ok_iff, Dial.converse_result_iff, Socks.completes_connect_iff]
  constructor
  · rintro ⟨_, st, ⟨tr, hs, hk, rfl⟩, hc⟩
    obtain ⟨ho, ht⟩ := Stream.exists_carries_iff.mp ⟨st, hk⟩
    cases hc
    exact ⟨tr, hs, ho, ht, by rw [hk.durationClosed, Nat.add_assoc]⟩
  · rintro ⟨tr, hs, ho, ht, rfl⟩
    obtain ⟨st, hk⟩ := Stream.exists_carries_iff.mpr ⟨ho, ht⟩
    refine ⟨_, st, ⟨tr, hs, hk, rfl⟩, ?_⟩
    rw [hk.durationClosed, ← Nat.add_assoc]
    rfl

/-- **The check of a hop succeeds exactly when the hop works.** -/
theorem checkOutcome_eq_ok_iff (i : Nat) : s.checkOutcome i = .ok () ↔ s.Works i := by
  have hres : (∃ at_, ((s.probeHop i (s.hop i)).run 0).result = some (at_, .ok ()))
      ↔ s.checkOutcome i = .ok () := by
    rw [probeHop_eq, Dial.timed_result, checkOutcome]
    simp [Prod.ext_iff]
  rw [← hres, Works]
  simp only [probeHop_eq, Dial.timed_eq_ok_iff, run_patientCheck]
  rcases s.transport (s.offset + i) "tcp" (s.hop i) with _ | ⟨ms, e | s₀⟩
  · simp
  · simp
  · dsimp only
    simp only [request_closing_iff, Nat.zero_add]
    constructor
    · rintro ⟨_, ⟨tr, hs, ho, ht, rfl⟩, hle⟩
      exact ⟨ms, s₀, tr, rfl, hs, ho, ht, hle⟩
    · rintro ⟨_, _, tr, he, hs, ho, ht, hle⟩
      cases he
      exact ⟨_, ⟨tr, hs, ho, ht, rfl⟩, hle⟩

/-- **What is said to a hop** is the beginning of a request for the probe address. -/
theorem asked_of_mem {i now at_ : Nat} {st : Stream}
    (he : (at_, .opened st) ∈ ((s.probeHop i (s.hop i)).run now).events) :
    ∃ ms s₀ half written, s.transport (s.offset + i) "tcp" (s.hop i) = .after ms (.ok s₀)
      ∧ Socks.ClientHalf none s.policy.probeAddress half
      ∧ st.wrote = s₀.wrote ++ written ∧ written <+: half := by
  rw [probeHop_eq, Dial.run_timed, run_patientCheck] at he
  replace he := List.mem_of_mem_filter he
  rcases ht : s.transport (s.offset + i) "tcp" (s.hop i) with _ | ⟨ms, e | s₀⟩ <;> rw [ht] at he
  · simp at he
  · simp at he
  refine ⟨ms, s₀, ?_⟩
  obtain he | he := List.mem_cons.mp he
  · cases he
  obtain he | he := List.mem_cons.mp he
  · cases he
    obtain ⟨half, hh⟩ := Socks.exists_clientHalf none s.policy.probeAddress
    exact ⟨half, [], rfl, hh, by simp, List.nil_prefix⟩
  obtain he | ⟨t, s', hr, he⟩ := Dial.mem_andThen he
  · obtain ⟨tr, hb, hw, -⟩ := Dial.converse_opened he
    obtain ⟨half, hh, hp⟩ := Socks.begins_connect hb
    exact ⟨half, _, rfl, hh, hw, hp⟩
  · obtain ⟨tr, hc, hk, -⟩ := Dial.converse_result_iff.mp hr
    cases List.mem_singleton.mp he
    exact ⟨_, _, rfl, (Socks.completes_connect_iff.mp hc).clientHalf, hk.wrote,
      List.prefix_refl _⟩

/-- The first thing in a check is the dial of the hop, and nothing after that is one. -/
theorem dials_probeHop (i now : Nat) :
    DialEvent.dials ((s.probeHop i (s.hop i)).run now).events = [(now, "tcp", s.hop i)] := by
  have closes : ∀ {s' : Stream} {t : Nat} {e : Nat × DialEvent}, e ∈ ((closing s').run t).events →
      ∃ st, e.2 = .opened st := fun he => ⟨_, congrArg Prod.snd (List.mem_singleton.mp he)⟩
  rw [probeHop_eq, Dial.run_timed, run_patientCheck]
  rcases s.transport (s.offset + i) "tcp" (s.hop i) with _ | ⟨ms, e | s₀⟩ <;> dsimp only <;>
    rw [List.filter_cons_of_pos (by simp)] <;>
    refine congrArg (List.cons _) (dials_eq_nil fun e he n a hd => ?_) <;>
    replace he := List.mem_of_mem_filter he
  · cases he
  · obtain rfl := List.mem_singleton.mp he
    cases hd
  · obtain rfl | he := List.mem_cons.mp he
    · cases hd
    obtain ⟨st, hst⟩ := (Dial.mem_andThen he).elim Dial.exists_of_mem_converse
      fun ⟨_, _, _, he⟩ => closes he
    cases hst.symm.trans hd

/-- **The check of one hop**: it concerns this hop and the probe address only. -/
theorem inspected (i now : Nat) : s.Inspected i now where
  dialed := s.dials_probeHop i now
  asked _ _ := s.asked_of_mem
  result := Dial.timed_result _ _ _
  bounded := Dial.course_le _ _
  during e he := ⟨Timeline.le_of_mem_events _ _ e he,
    Timeline.le_of_mem_events_of_result _ _ (Dial.timed_result _ _ _) e he⟩
  succeeds := s.checkOutcome_eq_ok_iff i

/-! ## One hop after another -/

/-- When the check of the `i`-th hop begins, if it comes to that. -/
def checkBegins (now i : Nat) : Nat := now + ∑ j ∈ Finset.range i, s.checkDuration j

/-- What is logged of the check of the `i`-th hop. -/
def noted (i : Nat) : Except Error Unit → List Log.Line
  | .ok _ => []
  | .error e => [hopUnreachable i (s.hop i) e]

/-- Everything that happens from the beginning of the check of the `i`-th hop to its end. -/
def inspection (now i : Nat) : List (Nat × DialEvent) :=
  ((s.probeHop i (s.hop i)).run (s.checkBegins now i)).events
    ++ (s.noted i (s.checkOutcome i)).map fun l => (s.checkBegins now (i + 1), .logged l)

/-- The first check begins at once. -/
theorem checkBegins_zero (now : Nat) : s.checkBegins now 0 = now := by
  rw [checkBegins, Finset.sum_range_zero, Nat.add_zero]

/-- Every other check begins when the one before it ends. -/
theorem checkBegins_succ (now i : Nat) :
    s.checkBegins now (i + 1) = s.checkBegins now i + s.checkDuration i := by
  rw [checkBegins, checkBegins, Finset.sum_range_succ, Nat.add_assoc]

/-- The hops from the `i`-th on. -/
theorem drop_hops {i : Nat} (hi : i < s.chain.length) :
    s.chain.hops.drop i = s.hop i :: s.chain.hops.drop (i + 1) := by
  rw [List.drop_eq_getElem_cons hi, hop, List.getD_eq_getElem?_getD, List.getElem?_eq_getElem hi,
    Option.getD_some]

/-- After a hop that works the check goes on with the next one. -/
theorem run_probeFrom_ok {now i : Nat} (hi : i < s.chain.length) (h : s.checkOutcome i = .ok ()) :
    (s.probeFrom i (s.chain.hops.drop i)).run (s.checkBegins now i)
      = ⟨s.inspection now i ++ ((s.probeFrom (i + 1) (s.chain.hops.drop (i + 1))).run
          (s.checkBegins now (i + 1))).events,
        ((s.probeFrom (i + 1) (s.chain.hops.drop (i + 1))).run
          (s.checkBegins now (i + 1))).result⟩ := by
  have hres := (s.inspected i (s.checkBegins now i)).result
  rw [← checkBegins_succ, h] at hres
  rw [s.drop_hops hi, probeFrom, Timeline.run_bind, hres, inspection, h]
  simp [noted]

/-- A hop that fails ends the check, which names it. -/
theorem run_probeFrom_error {now i : Nat} {e : Error} (hi : i < s.chain.length)
    (h : s.checkOutcome i = .error e) :
    (s.probeFrom i (s.chain.hops.drop i)).run (s.checkBegins now i)
      = ⟨s.inspection now i,
        some (s.checkBegins now (i + 1), .error (.proxyUnreachable i e.detail))⟩ := by
  have hres := (s.inspected i (s.checkBegins now i)).result
  rw [← checkBegins_succ, h] at hres
  rw [s.drop_hops hi, probeFrom, Timeline.run_bind, hres, inspection, h]
  rfl

/-- **A check goes on while the hops work**, to the end or to the first that fails. -/
theorem run_probeFrom (now : Nat) {left i : Nat} (hi : i + left = s.chain.length) :
    ∃ k, (∀ j, i ≤ j → j < i + k → s.checkOutcome j = .ok ())
      ∧ ((k = left ∧ (s.probeFrom i (s.chain.hops.drop i)).run (s.checkBegins now i)
          = ⟨(List.range' i k).flatMap (s.inspection now),
            some (s.checkBegins now (i + k), .ok ())⟩)
        ∨ (k < left ∧ ∃ e, s.checkOutcome (i + k) = .error e
          ∧ (s.probeFrom i (s.chain.hops.drop i)).run (s.checkBegins now i)
            = ⟨(List.range' i (k + 1)).flatMap (s.inspection now),
              some (s.checkBegins now (i + k + 1),
                .error (.proxyUnreachable (i + k) e.detail))⟩)) := by
  induction left generalizing i with
  | zero =>
    have hnil : s.chain.hops.drop i = [] := List.drop_eq_nil_iff.mpr (Nat.le_of_eq hi.symm)
    refine ⟨0, fun j hj hj' => absurd hj (Nat.not_le.mpr hj'), .inl ⟨rfl, ?_⟩⟩
    rw [hnil]
    rfl
  | succ left ih =>
    have hlt : i < s.chain.length := by omega
    cases ho : s.checkOutcome i with
    | error e =>
      refine ⟨0, fun j hj hj' => absurd hj (Nat.not_le.mpr hj'), .inr ⟨Nat.succ_pos left, e, ho, ?_⟩⟩
      rw [s.run_probeFrom_error hlt ho]
      simp
    | ok =>
      obtain ⟨k, hbefore, hend⟩ := ih (i := i + 1) (by omega)
      have hidx : i + 1 + k = i + (k + 1) := by omega
      rw [hidx] at hbefore hend
      refine ⟨k + 1, fun j hj hj' => ?_, ?_⟩
      · obtain rfl | hj := Nat.eq_or_lt_of_le hj
        · exact ho
        · exact hbefore j hj hj'
      rw [s.run_probeFrom_ok hlt ho, List.range'_succ (n := k + 1), List.range'_succ (n := k),
        List.flatMap_cons, List.flatMap_cons]
      obtain ⟨hk, hrun⟩ | ⟨hk, e, he, hrun⟩ := hend
      · exact .inl ⟨congrArg Nat.succ hk, by rw [hrun]⟩
      · exact .inr ⟨Nat.succ_lt_succ hk, e, he, by rw [hrun]⟩

/-! ## The check of all hops -/

/-- How a check of all hops goes that begins at `now` and finds the first `m` of them working. -/
structure Reported (now m : Nat) : Prop where
  le : m ≤ s.chain.length
  /-- The first `m` hops work. -/
  works : ∀ i < m, s.Works i
  /-- The next one does not, if there is one. -/
  fails : m < s.chain.length → ¬ s.Works m
  /-- The check of the first hop begins at once, and each other one when the one before it ends. -/
  first : s.checkBegins now 0 = now
  next : ∀ i, s.checkBegins now (i + 1) = s.checkBegins now i + s.checkDuration i
  /-- Each hop up to the first that fails is checked on its own. -/
  inspected : ∀ i < s.chain.length, i ≤ m → s.Inspected i (s.checkBegins now i)
  /-- Nothing happens besides these checks and the line about a hop that fails. -/
  events : (s.probeHops.run now).events
    = (List.range (min (m + 1) s.chain.length)).flatMap (s.inspection now)
  /-- The transport is dialed once for each of these hops, in their order, and for no other. -/
  dials : DialEvent.dials (s.probeHops.run now).events
    = (List.range (min (m + 1) s.chain.length)).map fun i => (s.checkBegins now i, "tcp", s.hop i)
  /-- If all hops work, the check succeeds. -/
  passed : m = s.chain.length → (s.probeHops.run now).result = some (s.checkBegins now m, .ok ())
  /-- If not, it names the first that does not, with the detail of its failure. -/
  named : m < s.chain.length → ∃ e, s.checkOutcome m = .error e
    ∧ (s.probeHops.run now).result
      = some (s.checkBegins now (m + 1), .error (.proxyUnreachable m e.detail))
  /-- So it succeeds exactly when every hop works. -/
  succeeds : (∃ at_, (s.probeHops.run now).result = some (at_, .ok ()))
    ↔ ∀ i < s.chain.length, s.Works i
  /-- The state of the chain is found by the same check. -/
  sameEvents : (s.health.run now).events = (s.probeHops.run now).events
  /-- It is healthy exactly when the check succeeds, and else has a first hop that failed. -/
  health : ∃ at_ h, (s.health.run now).result = some (at_, h) ∧ h.hops = s.chain.length
    ∧ (h.healthy = true ↔ (s.probeHops.run now).result = some (at_, .ok ()))
    ∧ (h.healthy = true → h.failedHop = none)
    ∧ (h.healthy = false → h.failedHop = some m ∧ m < s.chain.length)

/-- What the check of one hop shows of the transport. -/
theorem dials_inspection (now i : Nat) :
    DialEvent.dials (s.inspection now i) = [(s.checkBegins now i, "tcp", s.hop i)] := by
  have lines : ∀ ls : List Log.Line, DialEvent.dials
      (ls.map fun l => (s.checkBegins now (i + 1), .logged l)) = [] := fun ls =>
    dials_eq_nil fun e he n a hd => by
      obtain ⟨l, -, rfl⟩ := List.mem_map.mp he
      cases hd
  rw [inspection, DialEvent.dials, List.filterMap_append]
  exact congrArg₂ (· ++ ·) (s.dials_probeHop i _) (lines _)

/-- What the checks of some hops show of the transport. -/
theorem dials_inspections (now : Nat) (is : List Nat) :
    DialEvent.dials (is.flatMap (s.inspection now))
      = is.map fun i => (s.checkBegins now i, "tcp", s.hop i) := by
  rw [DialEvent.dials, List.filterMap_flatMap, List.map_eq_flatMap]
  exact List.flatMap_congr fun i _ => s.dials_inspection now i

/-- **What a check of all hops comes to**: the first `m` hops come out well, and then there is none
left, or the next one does not. -/
theorem run_probeHops (now : Nat) : ∃ m, m ≤ s.chain.length
    ∧ (∀ i < m, s.checkOutcome i = .ok ())
    ∧ (s.probeHops.run now).events
      = (List.range (min (m + 1) s.chain.length)).flatMap (s.inspection now)
    ∧ (m = s.chain.length → (s.probeHops.run now).result = some (s.checkBegins now m, .ok ()))
    ∧ (m < s.chain.length → ∃ e, s.checkOutcome m = .error e ∧ (s.probeHops.run now).result
      = some (s.checkBegins now (m + 1), .error (.proxyUnreachable m e.detail))) := by
  obtain ⟨m, hbefore, hend⟩ := s.run_probeFrom now (Nat.zero_add s.chain.length)
  rw [s.checkBegins_zero now, List.drop_zero, ← probeHops] at hend
  simp only [Nat.zero_add, ← List.range_eq_range'] at hbefore hend
  have before : ∀ i < m, s.checkOutcome i = .ok () := fun i => hbefore i (Nat.zero_le i)
  obtain ⟨hm, hrun⟩ | ⟨hlt, e, he, hrun⟩ := hend
  · have hmin : min (m + 1) s.chain.length = m := by omega
    exact ⟨m, Nat.le_of_eq hm, before, by rw [hrun, hmin], fun _ => by rw [hrun],
      fun h => absurd hm (Nat.ne_of_lt h)⟩
  · have hmin : min (m + 1) s.chain.length = m + 1 := by omega
    exact ⟨m, Nat.le_of_lt hlt, before, by rw [hrun, hmin], fun h => absurd h (Nat.ne_of_lt hlt),
      fun _ => ⟨e, he, by rw [hrun]⟩⟩

/-- **The state of the chain is found by the check of all hops.** -/
theorem run_health (now : Nat) : s.health.run now = ⟨(s.probeHops.run now).events,
    (s.probeHops.run now).result.map fun r => (r.1, s.healthOf r.2)⟩ :=
  Timeline.run_map _ _ _

/-- A chain whose check succeeds is healthy. -/
theorem health_of_passed {now at_ : Nat} (h : (s.probeHops.run now).result = some (at_, .ok ())) :
    (s.health.run now).result = some (at_, ⟨s.chain.length, true, none⟩) := by
  rw [run_health, h]
  rfl

/-- Any other chain has the hop that failed named. -/
theorem health_of_named {now at_ m : Nat} {why : String}
    (h : (s.probeHops.run now).result = some (at_, .error (.proxyUnreachable m why))) :
    (s.health.run now).result = some (at_, ⟨s.chain.length, false, some m⟩) := by
  rw [run_health, h]
  rfl

/-- **A check of all hops names the first that fails.**  It visits the hops one by one in the order of
the chain, each on its own, up to the first that does not reach the probe address in time; the state
of the chain says the same. -/
theorem probeHops_reports (s : Setup) (now : Nat) : ∃ m, s.Reported now m := by
  obtain ⟨m, hle, hbefore, hev, passed, named⟩ := s.run_probeHops now
  have works : ∀ i < m, s.Works i := fun i hi => (s.checkOutcome_eq_ok_iff i).mp (hbefore i hi)
  have fails : m < s.chain.length → ¬ s.Works m := fun hlt hw => by
    obtain ⟨e, he, -⟩ := named hlt
    cases he.symm.trans ((s.checkOutcome_eq_ok_iff m).mpr hw)
  exact ⟨m, {
    le := hle
    works
    fails
    first := s.checkBegins_zero now
    next := s.checkBegins_succ now
    inspected := fun i _ _ => s.inspected i _
    events := hev
    dials := by rw [hev, dials_inspections]
    passed
    named
    succeeds := by
      obtain hm | hlt := Nat.eq_or_lt_of_le hle
      · exact iff_of_true ⟨_, passed hm⟩ (hm ▸ works)
      · obtain ⟨e, -, hres⟩ := named hlt
        exact iff_of_false (by simp [hres]) fun h => fails hlt (h m hlt)
    sameEvents := congrArg Timeline.Record.events (s.run_health now)
    health := by
      obtain hm | hlt := Nat.eq_or_lt_of_le hle
      · exact ⟨_, _, s.health_of_passed (passed hm), rfl, iff_of_true rfl (passed hm),
          fun _ => rfl, nofun⟩
      · obtain ⟨e, -, hres⟩ := named hlt
        exact ⟨_, _, s.health_of_named hres, rfl, iff_of_false (by simp) (by simp [hres]), nofun,
          fun _ => ⟨rfl, hlt⟩⟩ }⟩

/-- A transport that reaches the first hop only. -/
def halfDead : Transport := fun index network address =>
  if index = 0 then granting index network address else .never

/-- The second of two hops is never reached: the time for it runs out, and the check names it. -/
example : ((twoHops halfDead).health.run 0).result = some (60010, ⟨2, false, some 1⟩) := by
  decide +kernel

end Chain.Setup

end HopTorrent
