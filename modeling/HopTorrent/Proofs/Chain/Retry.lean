import HopTorrent.Proofs.Chain.Route
import Mathlib.Algebra.BigOperators.Intervals
import Mathlib.Algebra.BigOperators.Ring.Finset

/-!
# Proofs/Chain/Retry — how often a dial tries, and when

An attempt takes some time and comes out somehow, and neither depends on when it begins
(`attempt_result`).  So a dial is told by these two alone: it goes on until an attempt comes out in
a way that may not pass, or the budget is used up, and between two attempts it does nothing for a
pause that grows by the same amount each time (`dialWith_retried`).  As nothing else happens in a
dial, what holds of the route of an attempt holds of the whole (`dialWith_routed`).
-/

namespace HopTorrent.Chain.Setup

variable (s : Setup) (network address : String)

/-! ## What becomes of an attempt -/

/-- The dial of the `i`-th attempt, given all the time it needs. -/
def patient (i : Nat) : Dial Stream :=
  (Dialer.compose (s.route i) (s.auth i)).dial s.transport (s.offset + (i - 1)) network address

/-- How long the `i`-th attempt takes and how it comes out: when it has not finished by the time
allowed, its time ran out. -/
def course (i : Nat) : Nat × Except Error Stream :=
  match ((s.patient network address i).run 0).result with
  | some (d, r) => if d ≤ s.policy.attemptTimeoutMillis then (d, r)
      else (s.policy.attemptTimeoutMillis, .error .timeout)
  | none => (s.policy.attemptTimeoutMillis, .error .timeout)

/-- How long the `i`-th attempt takes. -/
def duration (i : Nat) : Nat := (s.course network address i).1

/-- How the `i`-th attempt comes out. -/
def outcome (i : Nat) : Except Error Stream := (s.course network address i).2

/-- **An attempt takes its time and comes out the same**, whenever it begins. -/
theorem attempt_result (i now : Nat) :
    ((s.attempt network address i).run now).result
      = some (now + s.duration network address i, s.outcome network address i) := by
  have hc : s.course network address i
      = (s.patient network address i).course s.policy.attemptTimeoutMillis := by
    rw [course, Dial.course]
    cases ((s.patient network address i).run 0).result <;> rfl
  rw [duration, outcome, hc]
  exact Dial.timed_result _ _ _

/-- Everything in an attempt happens between its beginning and its end. -/
theorem mem_attempt_events {i now : Nat} {e : Nat × DialEvent}
    (he : e ∈ ((s.attempt network address i).run now).events) :
    now ≤ e.1 ∧ e.1 ≤ now + s.duration network address i :=
  ⟨Timeline.le_of_mem_events _ _ e he,
    Timeline.le_of_mem_events_of_result _ _ (s.attempt_result network address i now) e he⟩

/-- A failure that may pass. -/
def Passing (r : Except Error Stream) : Prop := ∃ e, r = .error e ∧ e.retryable = true

/-- What a dial with a budget makes of the outcome of its last attempt. -/
def verdict (budget : Nat) : Except Error Stream → Except Error Stream
  | .ok stream => .ok stream
  | .error e => if e.retryable then .error (.dial budget e) else .error e

/-- What is logged of the outcome of the `i`-th attempt. -/
def told (budget i : Nat) : Except Error Stream → List Log.Line
  | .ok _ => [s.established i]
  | .error e => if e.retryable then [attemptFailed i budget e] else []

/-- A failure that may not pass is the outcome of the whole dial, and so is a connection. -/
theorem verdict_of_not_passing {budget : Nat} {r : Except Error Stream} (h : ¬ Passing r) :
    verdict budget r = r := by
  cases r with
  | ok stream => rfl
  | error e => exact if_neg fun he => h ⟨e, rfl, he⟩

/-- A failure that may pass ends a dial as its last error. -/
theorem verdict_error {budget : Nat} {e : Error} (he : e.retryable = true) :
    verdict budget (.error e) = .error (.dial budget e) := if_pos he

/-! ## One attempt after another -/

/-- When the `i`-th attempt begins, if the dial comes to it. -/
def begins (now i : Nat) : Nat :=
  now + ∑ j ∈ Finset.Ico 1 i, (s.duration network address j + s.policy.backoffMillis * j)

/-- When the `i`-th attempt ends, if the dial comes to it. -/
def ends (now i : Nat) : Nat := s.begins network address now i + s.duration network address i

/-- Everything that happens from the beginning of the `i`-th attempt to its end. -/
def round (budget now i : Nat) : List (Nat × DialEvent) :=
  ((s.attempt network address i).run (s.begins network address now i)).events
    ++ (s.told budget i (s.outcome network address i)).map
      fun l => (s.ends network address now i, .logged l)

/-- The first attempt begins at once. -/
theorem begins_one (now : Nat) : s.begins network address now 1 = now := by
  rw [begins, Finset.Ico_self, Finset.sum_empty, Nat.add_zero]

/-- Every other attempt begins a pause after the one before it ended. -/
theorem begins_succ (now : Nat) {i : Nat} (hi : 1 ≤ i) :
    s.begins network address now (i + 1)
      = s.ends network address now i + s.policy.backoffMillis * i := by
  rw [ends, begins, begins, Finset.sum_Ico_succ_top hi, Nat.add_assoc, Nat.add_assoc]

/-- **The total time**: all attempts, and the pauses between them. -/
theorem ends_eq (now : Nat) {m : Nat} (hm : 1 ≤ m) :
    s.ends network address now m
      = now + ∑ i ∈ Finset.Ico 1 (m + 1), s.duration network address i
        + s.policy.backoffMillis * (m * (m - 1) / 2) := by
  have pauses : ∑ i ∈ Finset.Ico 1 m, i = m * (m - 1) / 2 := by
    rw [← Finset.sum_range_id, Finset.range_eq_Ico, Finset.sum_eq_sum_Ico_succ_bot hm,
      Nat.zero_add]
  rw [ends, begins, Finset.sum_add_distrib, ← Finset.mul_sum, pauses,
    Finset.sum_Ico_succ_top hm]
  omega

/-- A dial ends with its last attempt. -/
theorem run_attemptsFrom_last {budget left i : Nat} (now : Nat)
    (h : Passing (s.outcome network address i) → left = 0) :
    (s.attemptsFrom network address budget left i).run (s.begins network address now i)
      = ⟨s.round network address budget now i,
        some (s.ends network address now i, verdict budget (s.outcome network address i))⟩ := by
  have hres := s.attempt_result network address i (s.begins network address now i)
  rw [round, ends]
  cases left with
  | zero =>
    rw [attemptsFrom, Timeline.run_bind, hres]
    cases s.outcome network address i with
    | ok stream => rfl
    | error e =>
      dsimp only [told, verdict]
      split <;> rfl
  | succ left =>
    rw [attemptsFrom, Timeline.run_bind, hres]
    cases ho : s.outcome network address i with
    | ok stream => rfl
    | error e =>
      have he : ¬ e.retryable = true := fun he => by cases h ⟨e, ho, he⟩
      dsimp only [told, verdict]
      rw [if_neg he, if_neg he, if_neg he]
      rfl

/-- A dial goes on after an attempt that failed in passing. -/
theorem run_attemptsFrom_again {budget left i : Nat} (now : Nat) (hi : 1 ≤ i)
    (h : Passing (s.outcome network address i)) :
    (s.attemptsFrom network address budget (left + 1) i).run (s.begins network address now i)
      = ⟨s.round network address budget now i
          ++ ((s.attemptsFrom network address budget left (i + 1)).run
            (s.begins network address now (i + 1))).events,
        ((s.attemptsFrom network address budget left (i + 1)).run
          (s.begins network address now (i + 1))).result⟩ := by
  have hres := s.attempt_result network address i (s.begins network address now i)
  obtain ⟨e, ho, he⟩ := h
  rw [attemptsFrom, Timeline.run_bind, hres, ← ends, round, ho,
    s.begins_succ network address now hi]
  dsimp only [told]
  rw [if_pos he, if_pos he]
  simp [Dial.log, Timeline.run]

/-- **A dial makes attempts until one comes out otherwise than in passing**, or until none is
left. -/
theorem run_attemptsFrom (budget now left : Nat) {i : Nat} (hi : 1 ≤ i) :
    ∃ n, n ≤ left
      ∧ (∀ j, i ≤ j → j < i + n → Passing (s.outcome network address j))
      ∧ (n < left → ¬ Passing (s.outcome network address (i + n)))
      ∧ (s.attemptsFrom network address budget left i).run (s.begins network address now i)
        = ⟨(List.range' i (n + 1)).flatMap (s.round network address budget now),
          some (s.ends network address now (i + n),
            verdict budget (s.outcome network address (i + n)))⟩ := by
  induction left generalizing i with
  | zero =>
    refine ⟨0, Nat.le_refl 0, fun j hj hj' => absurd hj (Nat.not_le.mpr hj'), nofun, ?_⟩
    rw [s.run_attemptsFrom_last network address now fun _ => rfl]
    simp
  | succ left ih =>
    by_cases hp : Passing (s.outcome network address i)
    · obtain ⟨n, hn, hbefore, hlast, hrun⟩ := ih (Nat.le_succ_of_le hi)
      have hidx : i + 1 + n = i + (n + 1) := by omega
      rw [hidx] at hbefore hlast hrun
      refine ⟨n + 1, Nat.succ_le_succ hn, fun j hj hj' => ?_,
        fun h => hlast (Nat.lt_of_succ_lt_succ h), ?_⟩
      · obtain rfl | hj := Nat.eq_or_lt_of_le hj
        · exact hp
        · exact hbefore j hj hj'
      · rw [s.run_attemptsFrom_again network address now hi hp, hrun, List.range'_succ (n := n + 1),
          List.flatMap_cons]
    · refine ⟨0, Nat.zero_le _, fun j hj hj' => absurd hj (Nat.not_le.mpr hj'), fun _ => hp, ?_⟩
      rw [s.run_attemptsFrom_last network address now fun h => absurd h hp]
      simp

/-! ## The whole dial -/

variable {s network}

/-- **A dial that may begin** makes its attempts and ends with the last of them. -/
theorem run_dialWith (hn : checkNetwork network = .ok ()) (left now : Nat) :
    ∃ m, 1 ≤ m ∧ m ≤ left + 1
      ∧ (∀ i, 1 ≤ i → i < m → Passing (s.outcome network address i))
      ∧ (m < left + 1 → ¬ Passing (s.outcome network address m))
      ∧ (s.dialWith network address (left + 1)).run now
        = ⟨(List.range' 1 m).flatMap (s.round network address (left + 1) now),
          some (s.ends network address now m,
            verdict (left + 1) (s.outcome network address m))⟩ := by
  obtain ⟨n, hle, hbefore, hlast, hrun⟩ :=
    s.run_attemptsFrom network address (left + 1) now left (Nat.le_refl 1)
  rw [Nat.add_comm 1 n] at hbefore hlast hrun
  refine ⟨n + 1, Nat.succ_pos n, Nat.succ_le_succ hle, hbefore,
    fun h => hlast (Nat.lt_of_succ_lt_succ h), ?_⟩
  rw [s.begins_one network address now] at hrun
  rw [dialWith, hn]
  exact hrun

/-- **A dial that may not begin does nothing**: without attempts, or over a network that cannot pass
a proxy. -/
theorem run_dialWith_rejected {budget : Nat}
    (h : budget = 0 ∨ checkNetwork network ≠ .ok ()) (now : Nat) :
    ∃ why, (s.dialWith network address budget).run now
      = ⟨[], some (now, .error (.validation why))⟩ := by
  cases budget with
  | zero => exact ⟨_, rfl⟩
  | succ left =>
    have hn := h.resolve_left (Nat.succ_ne_zero left)
    rw [dialWith]
    rw [checkNetwork] at hn ⊢
    split at hn
    · exact absurd rfl hn
    · rename_i hc
      rw [if_neg hc]
      exact ⟨_, rfl⟩

/-- What a round shows of the transport: one dial, when it begins, and of a hop. -/
theorem dials_round (hn : checkNetwork network = .ok ()) (budget now i : Nat) :
    ∃ first ∈ s.chain.hops, DialEvent.dials (s.round network address budget now i)
      = [(s.begins network address now i, network, first)] := by
  obtain ⟨first, rest, hr, hp⟩ := s.exists_route i
  refine ⟨first, hp.mem_iff.mp List.mem_cons_self, ?_⟩
  rw [round, DialEvent.dials, List.filterMap_append, attempt_eq hr]
  have lines : ∀ ls : List Log.Line, DialEvent.dials
      (ls.map fun l => (s.ends network address now i, .logged l)) = [] := fun ls =>
    dials_eq_nil fun e he n a hd => by
      obtain ⟨l, -, rfl⟩ := List.mem_map.mp he
      cases hd
  exact congrArg₂ (· ++ ·) (dials_run_compose hn first rest _ _ _ _) (lines _)

/-- What several rounds show of the transport. -/
theorem dials_flatMap (budget now : Nat) (is : List Nat) :
    DialEvent.dials (is.flatMap (s.round network address budget now))
      = is.flatMap fun i => DialEvent.dials (s.round network address budget now i) :=
  List.filterMap_flatMap

/-- **A dial that may begin dials a hop at once.** -/
theorem dialWith_begins (hn : checkNetwork network = .ok ()) {budget : Nat} (hb : 1 ≤ budget)
    (now : Nat) : ∃ hop ∈ s.chain.hops,
      (DialEvent.dials ((s.dialWith network address budget).run now).events).head?
        = some (now, network, hop) := by
  obtain ⟨left, rfl⟩ := Nat.exists_eq_succ_of_ne_zero (Nat.ne_of_gt hb)
  obtain ⟨m, hpos, -, -, -, hrun⟩ := s.run_dialWith address hn left now
  obtain ⟨n, rfl⟩ := Nat.exists_eq_succ_of_ne_zero (Nat.ne_of_gt hpos)
  obtain ⟨hop, hm, hd⟩ := dials_round (s := s) address hn (left + 1) now 1
  refine ⟨hop, hm, ?_⟩
  rw [Nat.succ_eq_add_one, hrun, dials_flatMap, List.range'_succ, List.flatMap_cons, hd,
    s.begins_one network address now]
  rfl

/-! ## The law of retries -/

/-- How a dial with a budget goes that begins at `now` and makes `m` attempts. -/
structure Retried (s : Setup) (network address : String) (budget now m : Nat) : Prop where
  /-- There is an attempt, and there are no more than the budget allows. -/
  bounds : 1 ≤ m ∧ m ≤ budget
  /-- Every attempt before the last one failed in a way that may pass. -/
  passing : ∀ i, 1 ≤ i → i < m → Passing (s.outcome network address i)
  /-- The last one did not, or it used the budget up. -/
  decided : m < budget → ¬ Passing (s.outcome network address m)
  /-- The first attempt begins at once. -/
  first : s.begins network address now 1 = now
  /-- Every other one begins a pause after the end of the one before it. -/
  next : ∀ i, 1 ≤ i → i < m → s.begins network address now (i + 1)
    = s.ends network address now i + s.policy.backoffMillis * i
  /-- Each attempt takes its time and comes out as told, and nothing of it happens outside. -/
  attempts : ∀ i, 1 ≤ i → i ≤ m →
    ((s.attempt network address i).run (s.begins network address now i)).result
        = some (s.ends network address now i, s.outcome network address i)
      ∧ ∀ e ∈ ((s.attempt network address i).run (s.begins network address now i)).events,
        s.begins network address now i ≤ e.1 ∧ e.1 ≤ s.ends network address now i
  /-- Nothing happens besides the attempts and the lines that tell of them. -/
  events : ((s.dialWith network address budget).run now).events
    = (List.range' 1 m).flatMap (s.round network address budget now)
  /-- The transport is dialed once in each attempt, when that begins. -/
  dials : (DialEvent.dials ((s.dialWith network address budget).run now).events).map Prod.fst
    = (List.range' 1 m).map (s.begins network address now)
  /-- The dial ends with its last attempt, and comes out as that did. -/
  returned : ¬ Passing (s.outcome network address m) →
    ((s.dialWith network address budget).run now).result
      = some (s.ends network address now m, s.outcome network address m)
  /-- If even that failed in a way that may pass, its error is the last of all that were allowed. -/
  exhausted : ∀ e, s.outcome network address m = .error e → e.retryable = true →
    m = budget ∧ ((s.dialWith network address budget).run now).result
      = some (s.ends network address now m, .error (.dial budget e))
  /-- It takes as long as its attempts and the pauses between them. -/
  total : s.ends network address now m
    = now + ∑ i ∈ Finset.Ico 1 (m + 1), s.duration network address i
      + s.policy.backoffMillis * (m * (m - 1) / 2)

/-- Two hops over some transport, dialed three times. -/
def twoHops (t : Transport) : Setup where
  chain := ⟨["a:1", "b:2"], by decide, by decide⟩
  policy := .standard
  transport := t
  random := ⟨fun _ => Fin.last, fun _ => ⟨"user", "pass"⟩⟩
  offset := 0

/-- A transport that refuses every dial after a second. -/
def refusing : Transport := fun _ _ _ => .after 1000 (.error (.socks "connection refused"))

/-- **The law of retries.**  Without attempts, or over a network that cannot pass a proxy, a dial is
rejected and does nothing.  Any other makes attempts until one comes out otherwise than with a
failure that may pass, or until the budget is used up; the pause after the `i`-th is `i` times the
first one, and there is none after the last. -/
theorem dialWith_retried (s : Setup) (network address : String) (budget now : Nat) :
    (budget = 0 ∨ checkNetwork network ≠ .ok () →
        ∃ why, (s.dialWith network address budget).run now
          = ⟨[], some (now, .error (.validation why))⟩)
      ∧ (budget ≠ 0 → checkNetwork network = .ok () →
        ∃ m, Retried s network address budget now m) := by
  refine ⟨fun h => run_dialWith_rejected address h now, fun hb hn => ?_⟩
  obtain ⟨left, rfl⟩ := Nat.exists_eq_succ_of_ne_zero hb
  obtain ⟨m, hpos, hle, hbefore, hlast, hrun⟩ := s.run_dialWith address hn left now
  refine ⟨m, ⟨hpos, hle⟩, hbefore, hlast, s.begins_one network address now,
    fun i hi _ => s.begins_succ network address now hi,
    fun i _ _ =>
      ⟨s.attempt_result network address i _, fun e => s.mem_attempt_events network address⟩,
    congrArg Timeline.Record.events hrun, ?_, fun hp => ?_, fun e ho he => ⟨?_, ?_⟩,
    s.ends_eq network address now hpos⟩
  · rw [hrun, dials_flatMap, List.map_flatMap, List.map_eq_flatMap]
    refine List.flatMap_congr fun i _ => ?_
    obtain ⟨first, -, hd⟩ := dials_round address hn (left + 1) now i
    rw [hd]
    rfl
  · rw [hrun, verdict_of_not_passing hp]
  · by_contra hne
    exact hlast (Nat.lt_of_le_of_ne hle hne) ⟨e, ho, he⟩
  · rw [hrun, ho, verdict_error he]

/-- The law over a transport that refuses. -/
theorem dialWith_retried_refusing :
    (∃ why, ((twoHops refusing).dialWith "udp" "c:3" 3).run 0
        = ⟨[], some (0, .error (.validation why))⟩)
      ∧ ∃ m, Retried (twoHops refusing) "tcp" "c:3" 3 0 m :=
  ⟨(dialWith_retried (twoHops refusing) "udp" "c:3" 3 0).1 (.inr (by simp [checkNetwork])),
    (dialWith_retried (twoHops refusing) "tcp" "c:3" 3 0).2 (by decide) rfl⟩

/-- Three refusals and the pauses between them. -/
example : (((twoHops refusing).dialWith "tcp" "c:3" 3).run 0).result
    = some (6000, .error (.dial 3 (.socks "connection refused"))) := by rfl

/-! ## The route of a dial -/

/-- **Every dial is routed through all hops, in each of its attempts.**  Nothing happens in a dial
besides its attempts, and the transport is never asked for anything but a hop. -/
theorem dialWith_routed (s : Setup) (hn : checkNetwork network = .ok ()) (address : String)
    (budget now : Nat) : ∃ m, m ≤ budget ∧ (m = 0 → budget = 0)
      ∧ ((s.dialWith network address budget).run now).events
        = (List.range' 1 m).flatMap (s.round network address budget now)
      ∧ (∀ i, 1 ≤ i → i ≤ m → ∃ first rest, s.route i = first :: rest
        ∧ Routed s network address i (s.begins network address now i) first rest)
      ∧ ∀ at_ n a,
        (at_, n, a) ∈ DialEvent.dials ((s.dialWith network address budget).run now).events →
          n = network ∧ a ∈ s.chain.hops := by
  obtain ⟨m, hm, hpos, hev⟩ : ∃ m, m ≤ budget ∧ (m = 0 → budget = 0)
      ∧ ((s.dialWith network address budget).run now).events
        = (List.range' 1 m).flatMap (s.round network address budget now) := by
    cases budget with
    | zero => exact ⟨0, Nat.le_refl 0, fun _ => rfl, rfl⟩
    | succ left =>
      obtain ⟨m, hpos, hle, -, -, hrun⟩ := s.run_dialWith address hn left now
      exact ⟨m, hle, fun h => absurd hpos (by simp [h]), congrArg Timeline.Record.events hrun⟩
  refine ⟨m, hm, hpos, hev, fun i _ _ => s.attempt_routed hn address i _, fun at_ n a hd => ?_⟩
  rw [hev, dials_flatMap, List.mem_flatMap] at hd
  obtain ⟨i, -, hd⟩ := hd
  obtain ⟨first, hfirst, he⟩ := dials_round address hn budget now i
  rw [he, List.mem_singleton] at hd
  cases hd
  exact ⟨rfl, hfirst⟩

/-- A transport whose connections grant two requests without authentication, and then give one more
byte. -/
def granting : Transport := fun _ _ _ =>
  .after 10 (.ok ⟨[[5, 0], [5, 0, 0, 1, 0, 0, 0, 0, 0, 0, 5], [0, 5, 0, 0, 1, 0, 0, 0, 0, 0, 0, 7]],
    .hang, none, false, [], false, []⟩)

/-- The route over a transport that grants all. -/
theorem dialWith_routed_granting : checkNetwork "tcp" = .ok ()
    ∧ ∃ m, m ≤ 3 ∧ (m = 0 → 3 = 0)
      ∧ (((twoHops granting).dialWith "tcp" "c:3" 3).run 0).events
        = (List.range' 1 m).flatMap ((twoHops granting).round "tcp" "c:3" 3 0)
      ∧ (∀ i, 1 ≤ i → i ≤ m → ∃ first rest, (twoHops granting).route i = first :: rest
        ∧ Routed (twoHops granting) "tcp" "c:3" i ((twoHops granting).begins "tcp" "c:3" 0 i)
          first rest)
      ∧ ∀ at_ n a,
        (at_, n, a) ∈ DialEvent.dials (((twoHops granting).dialWith "tcp" "c:3" 3).run 0).events →
          n = "tcp" ∧ a ∈ (twoHops granting).chain.hops :=
  ⟨rfl, dialWith_routed (twoHops granting) rfl "c:3" 3 0⟩

/-- The byte behind the last reply is the first one left. -/
example : ((((twoHops granting).dialWith "tcp" "c:3" 3).run 0).result.map fun r =>
    (r.1, r.2.toOption.map Stream.unread)) = some (10, some [7]) := by decide +kernel

end HopTorrent.Chain.Setup
