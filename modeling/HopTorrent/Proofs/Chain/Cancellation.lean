import HopTorrent.Proofs.Chain.Retry

/-!
# Proofs/Chain/Cancellation — a cancelled dial is the beginning of a whole one

A dial that is cancelled does what it would have done anyway, up to the cancellation and no longer
(`dialUntil_truncates`).  Attempts that are over by then are there from beginning to end; the one
that is under way is there as far as it got, and if the cancellation falls into a pause there is
nothing else (`CutAt`).
-/

namespace HopTorrent.Chain.Setup

variable {s : Setup} {network address : String} {budget now stop m : Nat}

/-! ## One attempt after another, up to some time -/

/-- The attempts of a dial follow one another. -/
theorem ends_le_begins (s : Setup) (network address : String) (now : Nat) {i j : Nat} (hi : 1 ≤ i)
    (hij : i < j) : s.ends network address now i ≤ s.begins network address now j := by
  induction j, hij using Nat.le_induction with
  | base =>
    rw [s.begins_succ network address now hi]
    exact Nat.le_add_right _ _
  | succ j hj ih =>
    rw [s.begins_succ network address now (Nat.le_of_lt (Nat.lt_of_le_of_lt hi hj))]
    have during : s.begins network address now j ≤ s.ends network address now j :=
      Nat.le_add_right _ _
    exact Nat.le_trans ih (Nat.le_trans during (Nat.le_add_right _ _))

/-- Everything in a round happens between the beginning of its attempt and the end. -/
theorem mem_round {i : Nat} {e : Nat × DialEvent} (he : e ∈ s.round network address budget now i) :
    s.begins network address now i ≤ e.1 ∧ e.1 ≤ s.ends network address now i := by
  obtain he | he := List.mem_append.mp he
  · exact s.mem_attempt_events network address he
  · obtain ⟨l, -, rfl⟩ := List.mem_map.mp he
    exact ⟨Nat.le_add_right _ _, Nat.le_refl _⟩

/-- A round that is over by some time happened whole. -/
theorem filter_round_of_ends_le {i : Nat} (h : s.ends network address now i ≤ stop) :
    (s.round network address budget now i).filter (fun e => e.1 ≤ stop)
      = s.round network address budget now i :=
  List.filter_eq_self.mpr fun _ he => by simpa using Nat.le_trans (mem_round he).2 h

/-- Nothing of a round happened before its attempt began. -/
theorem filter_round_of_lt_begins {i : Nat} (h : stop < s.begins network address now i) :
    (s.round network address budget now i).filter (fun e => e.1 ≤ stop) = [] :=
  List.filter_eq_nil_iff.mpr fun _ he => by
    simpa using Nat.lt_of_lt_of_le h (mem_round he).1

/-- A round that is not over by some time is what its attempt did by then. -/
theorem filter_round_of_lt_ends {i : Nat} (h : stop < s.ends network address now i) :
    (s.round network address budget now i).filter (fun e => e.1 ≤ stop)
      = ((s.attempt network address i).run (s.begins network address now i)).events.filter
        fun e => e.1 ≤ stop := by
  rw [round, List.filter_append]
  refine (congrArg _ (List.filter_eq_nil_iff.mpr fun e he => ?_)).trans (List.append_nil _)
  obtain ⟨l, -, rfl⟩ := List.mem_map.mp he
  simpa using h

/-- **What a dial did by some time**: all rounds but the last one that has begun are over. -/
theorem filter_rounds {i : Nat} (him : i < m) (hb : s.begins network address now (i + 1) ≤ stop)
    (hn : i + 1 < m → stop < s.begins network address now (i + 2)) :
    ((List.range' 1 m).flatMap (s.round network address budget now)).filter (fun e => e.1 ≤ stop)
      = (List.range' 1 i).flatMap (s.round network address budget now)
        ++ (s.round network address budget now (i + 1)).filter fun e => e.1 ≤ stop := by
  have hsplit : List.range' 1 m
      = List.range' 1 i ++ (i + 1) :: List.range' (i + 2) (m - (i + 1)) := by
    have hm : m = i + (m - (i + 1) + 1) := by omega
    conv_lhs => rw [hm, ← List.range'_append_1, List.range'_succ, Nat.add_comm 1 i]
  have past : ∀ j ∈ List.range' 1 i, (s.round network address budget now j).filter
      (fun e => e.1 ≤ stop) = s.round network address budget now j := fun j hj => by
    obtain ⟨h1, hlt⟩ := List.mem_range'_1.mp hj
    exact filter_round_of_ends_le
      (Nat.le_trans (s.ends_le_begins network address now h1 (by omega)) hb)
  have ahead : ∀ j ∈ List.range' (i + 2) (m - (i + 1)), (s.round network address budget now j).filter
      (fun e => e.1 ≤ stop) = [] := fun j hj => by
    obtain ⟨h2, hlt⟩ := List.mem_range'_1.mp hj
    refine filter_round_of_lt_begins (Nat.lt_of_lt_of_le (hn (by omega)) ?_)
    obtain rfl | h2 := Nat.eq_or_lt_of_le h2
    · exact Nat.le_refl _
    · exact Nat.le_trans (Nat.le_add_right _ _)
        (s.ends_le_begins network address now (Nat.succ_le_succ (Nat.zero_le _)) h2)
  rw [hsplit, List.flatMap_append, List.flatMap_cons, List.filter_append, List.filter_append,
    List.filter_flatMap, List.filter_flatMap, List.flatMap_congr past, List.flatMap_congr ahead]
  simp

/-! ## Where a cancellation falls -/

/-- **Where a cancellation falls**, and what has happened by then. -/
inductive CutAt (s : Setup) (network address : String) (now stop : Nat) :
    List (Nat × DialEvent) → Prop
  /-- In an attempt: those before it are over, and of itself happened what does by then. -/
  | attempt (i : Nat) (hb : s.begins network address now (i + 1) ≤ stop)
      (he : stop < s.ends network address now (i + 1)) :
      CutAt s network address now stop
        ((List.range' 1 i).flatMap (s.round network address s.policy.maxAttempts now)
          ++ ((s.attempt network address (i + 1)).run
            (s.begins network address now (i + 1))).events.filter fun e => e.1 ≤ stop)
  /-- In the pause after an attempt: it is over, as are those before it. -/
  | pause (i : Nat) (hi : 1 ≤ i) (he : s.ends network address now i ≤ stop)
      (hb : stop < s.begins network address now (i + 1)) :
      CutAt s network address now stop
        ((List.range' 1 i).flatMap (s.round network address s.policy.maxAttempts now))

/-- The last attempt that has begun by some time. -/
theorem exists_last_begun (hpos : 1 ≤ m) (hs : now ≤ stop) :
    ∃ i, i < m ∧ s.begins network address now (i + 1) ≤ stop
      ∧ (i + 1 < m → stop < s.begins network address now (i + 2)) := by
  induction m, hpos using Nat.le_induction with
  | base =>
    exact ⟨0, Nat.one_pos, by rwa [s.begins_one network address now],
      fun h => absurd h (Nat.lt_irrefl 1)⟩
  | succ m hpos ih =>
    by_cases hm : s.begins network address now (m + 1) ≤ stop
    · exact ⟨m, Nat.lt_succ_self m, hm, fun h => absurd h (Nat.lt_irrefl _)⟩
    · obtain ⟨i, him, hb, hn⟩ := ih
      refine ⟨i, Nat.lt_succ_of_lt him, hb, fun _ => ?_⟩
      obtain hlt | rfl := Nat.lt_or_eq_of_le him
      · exact hn hlt
      · exact Nat.lt_of_not_le hm

/-- **A cancellation before the end falls into an attempt or into a pause.** -/
theorem cutAt_of_lt (hpos : 1 ≤ m) (hs : now ≤ stop) (he : stop < s.ends network address now m) :
    CutAt s network address now stop
      (((List.range' 1 m).flatMap (s.round network address s.policy.maxAttempts now)).filter
        fun e => e.1 ≤ stop) := by
  obtain ⟨i, him, hb, hn⟩ := s.exists_last_begun hpos hs
  rw [filter_rounds him hb hn]
  by_cases hi : stop < s.ends network address now (i + 1)
  · rw [filter_round_of_lt_ends hi]
    exact .attempt i hb hi
  · have hend := Nat.le_of_not_lt hi
    have hlt : i + 1 < m := by
      refine Nat.lt_of_le_of_ne him fun h => ?_
      subst h
      exact hi he
    rw [filter_round_of_ends_le hend]
    have hp := CutAt.pause (i + 1) (Nat.succ_pos i) hend (hn hlt)
    rwa [List.range'_concat, List.flatMap_append, List.flatMap_singleton, Nat.one_mul,
      Nat.add_comm 1 i] at hp

/-! ## The cancelled dial -/

/-- How a dial goes that is cancelled at `stop`, before its end. -/
structure CutOff (s : Setup) (network address : String) (now stop : Nat)
    (cut : Timeline.Record DialEvent (Except Error Stream)) : Prop where
  /-- It ends when it is cancelled. -/
  result : cut.result = some (stop, .error .cancelled)
  /-- Nothing happens after that. -/
  nothing : ∀ e ∈ cut.events, e.1 ≤ stop
  /-- The whole dial goes on from there, and all that it still does it does later. -/
  beginning : ∃ rest, ((s.dial network address).run now).events = cut.events ++ rest
    ∧ ∀ e ∈ rest, stop < e.1
  /-- The transport was dialed just as it would have been by then. -/
  dials : DialEvent.dials cut.events
    = (DialEvent.dials ((s.dial network address).run now).events).filter fun d => d.1 ≤ stop
  /-- So were the connections written to. -/
  opened : ∀ at_ st, (at_, .opened st) ∈ cut.events
    ↔ (at_, .opened st) ∈ ((s.dial network address).run now).events ∧ at_ ≤ stop
  /-- What happened by then, attempt by attempt. -/
  place : CutAt s network address now stop cut.events

/-- What is cancelled before it ends is cut off. -/
theorem run_dialUntil (s : Setup) (network address : String) {c : Nat} (hc : 0 < c) (now : Nat) :
    (s.dialUntil (some c) network address).run now
      = ⟨((s.dial network address).run now).events.filter fun e => e.1 ≤ now + c,
        match ((s.dial network address).run now).result with
        | some (at_, r) => if at_ ≤ now + c then some (at_, r)
            else some (now + c, .error .cancelled)
        | none => some (now + c, .error .cancelled)⟩ := by
  rw [dialUntil, Timeline.run_map, Timeline.run_within]
  · cases ((s.dial network address).run now).result with
    | none => rfl
    | some r =>
      dsimp only
      split <;> rfl
  · exact Nat.ne_of_gt hc

/-- The dials up to some time. -/
theorem dials_filter (events : List (Nat × DialEvent)) (stop : Nat) :
    DialEvent.dials (events.filter fun e => e.1 ≤ stop)
      = (DialEvent.dials events).filter fun d => d.1 ≤ stop := by
  rw [DialEvent.dials, DialEvent.dials, List.filterMap_filter, List.filter_filterMap]
  refine List.filterMap_congr fun e _ => ?_
  obtain ⟨at_, ev⟩ := e
  cases ev <;> simp [Option.filter]

/-- **A dial that ends later than it begins has begun**: it makes its attempts, and ends with the
last of them. -/
theorem exists_rounds_of_late {stop : Nat} (hs : now ≤ stop)
    (hlate : ∀ at_ r, ((s.dial network address).run now).result = some (at_, r) → stop < at_) :
    ∃ m, 1 ≤ m ∧ stop < s.ends network address now m
      ∧ ((s.dial network address).run now).events
        = (List.range' 1 m).flatMap (s.round network address s.policy.maxAttempts now) := by
  by_cases h : s.policy.maxAttempts = 0 ∨ checkNetwork network ≠ .ok ()
  · obtain ⟨why, hrun⟩ := run_dialWith_rejected (s := s) address h now
    exact absurd (hlate now _ (congrArg Timeline.Record.result hrun)) (Nat.not_lt.mpr hs)
  obtain ⟨hb, hn⟩ := not_or.mp h
  obtain ⟨left, hleft⟩ := Nat.exists_eq_succ_of_ne_zero hb
  obtain ⟨m, hpos, -, -, -, hrun⟩ := s.run_dialWith address (not_not.mp hn) left now
  rw [← Nat.succ_eq_add_one, ← hleft] at hrun
  exact ⟨m, hpos, hlate _ _ (congrArg Timeline.Record.result hrun),
    congrArg Timeline.Record.events hrun⟩

/-- **A dial that would end after its cancellation** is cut off by it. -/
theorem cutOff_dialUntil {c : Nat} (hc : 0 < c)
    (hlate : ∀ at_ r, ((s.dial network address).run now).result = some (at_, r) → now + c < at_) :
    CutOff s network address now (now + c)
      ((s.dialUntil (some c) network address).run now) := by
  have hle : now ≤ now + c := Nat.le_add_right now c
  have hres : ((s.dialUntil (some c) network address).run now).result
      = some (now + c, .error .cancelled) := by
    rw [run_dialUntil s network address hc]
    rcases hd : ((s.dial network address).run now).result with _ | ⟨at_, r⟩
    · rfl
    · exact if_neg (Nat.not_le.mpr (hlate at_ r hd))
  have hev : ((s.dialUntil (some c) network address).run now).events
      = ((s.dial network address).run now).events.filter fun e => e.1 ≤ now + c := by
    rw [run_dialUntil s network address hc]
  obtain ⟨m, hpos, hend, hrounds⟩ := exists_rounds_of_late hle hlate
  obtain ⟨rest, happ, hrest⟩ :=
    Timeline.exists_events_eq_append (s.dial network address) now (now + c)
  refine ⟨hres, fun e he => ?_, ⟨rest, hev ▸ happ, hrest⟩, ?_, fun at_ st => ?_, ?_⟩
  · rw [hev] at he
    simpa using (List.mem_filter.mp he).2
  · rw [hev, dials_filter]
  · rw [hev, List.mem_filter]
    simp
  · rw [hev, hrounds]
    exact cutAt_of_lt hpos hle hend

/-- **Cancellation truncates a dial.**  A dial that is never cancelled, or that ends before it is,
is the whole dial; one that was cancelled before it began does nothing.  Any other ends when it is
cancelled, and what happened until then is what the whole dial does by then. -/
theorem dialUntil_truncates (s : Setup) (network address : String) (now : Nat) :
    s.dialUntil none network address = s.dial network address
      ∧ (s.dialUntil (some 0) network address).run now = ⟨[], some (now, .error .cancelled)⟩
      ∧ ∀ c, 0 < c →
        (∀ at_ r, ((s.dial network address).run now).result = some (at_, r) → at_ < now + c →
          (s.dialUntil (some c) network address).run now = (s.dial network address).run now)
        ∧ ((∀ at_ r, ((s.dial network address).run now).result = some (at_, r) → now + c < at_) →
          CutOff s network address now (now + c)
            ((s.dialUntil (some c) network address).run now)) := by
  refine ⟨rfl, rfl, fun c hc => ⟨fun at_ r hr hlt => ?_, cutOff_dialUntil hc⟩⟩
  have whole : ((s.dial network address).run now).events.filter (fun e => e.1 ≤ now + c)
      = ((s.dial network address).run now).events := List.filter_eq_self.mpr fun e he => by
    simpa using Nat.le_trans (Timeline.le_of_mem_events_of_result _ _ hr e he) (Nat.le_of_lt hlt)
  rw [run_dialUntil s network address hc, whole, hr]
  dsimp only
  rw [if_pos (Nat.le_of_lt hlt), ← hr]

/-- Three refusals that take a second each, with pauses of one second and of two: cancelled after
them, in the second attempt, and in the pause before it. -/
theorem dialUntil_truncates_refusing :
    ((twoHops refusing).dialUntil (some 6001) "tcp" "c:3").run 0
        = ((twoHops refusing).dial "tcp" "c:3").run 0
      ∧ CutOff (twoHops refusing) "tcp" "c:3" 0 2500
        (((twoHops refusing).dialUntil (some 2500) "tcp" "c:3").run 0)
      ∧ CutOff (twoHops refusing) "tcp" "c:3" 0 1500
        (((twoHops refusing).dialUntil (some 1500) "tcp" "c:3").run 0) := by
  have hend : (((twoHops refusing).dial "tcp" "c:3").run 0).result
      = some (6000, .error (.dial 3 (.socks "connection refused"))) := by rfl
  obtain ⟨-, -, h⟩ := dialUntil_truncates (twoHops refusing) "tcp" "c:3" 0
  refine ⟨(h 6001 (by decide)).1 _ _ hend (by decide), ?_, ?_⟩
  · have hc := (h 2500 (by decide)).2 fun at_ r hr => by
      cases hend.symm.trans hr
      decide
    rwa [Nat.zero_add] at hc
  · have hc := (h 1500 (by decide)).2 fun at_ r hr => by
      cases hend.symm.trans hr
      decide
    rwa [Nat.zero_add] at hc

end HopTorrent.Chain.Setup
