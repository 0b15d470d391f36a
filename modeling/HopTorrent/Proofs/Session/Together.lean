import HopTorrent.Proofs.Session.Clock

/-!
# Proofs/Session/Together — adds that are started together

What the clock lets happen includes what `addAll` does: adds that are started together begin one
after another without delay, and end in the order in which they are due (`exists_addAll`).
-/

namespace HopTorrent.Session.Clocked

open Relation

variable {σ : Type} {eng : Engine σ} {limit : Nat} {c c' : Clocked σ} {k : Nat} {p : Pending}

/-! ## One add by itself -/

/-- Nothing is asked for, nobody has the store, and every add has its wait. -/
structure Calm (c : Clocked σ) : Prop where
  asked : c.asked = []
  lock : c.manager.lock = none
  waits : c.waits.length = c.manager.adds.length

/-- What is left when an add got to a stage: the others are as they were. -/
structure After (c c' : Clocked σ) (k : Nat) (x : Adding) (s : Sessions σ) : Prop where
  now : c'.now = c.now
  asked : c'.asked = c.asked
  waits : c'.waits = c.waits
  adds : c'.manager.adds = c.manager.adds.set k x
  sessions : c'.manager.sessions = s

/-- One step of an add leaves the others as they were. -/
theorem after_act {a : Action} {m : Concurrent σ} {st : Stage}
    (ha : c.manager.step eng a = m.advance k p st) (hm : m.adds = c.manager.adds) :
    After c (c.act eng a c.asked) k ⟨p, st⟩ m.sessions where
  now := rfl
  asked := rfl
  waits := by
    rw [act, ha, Concurrent.advance, hm,
      List.drop_eq_nil_of_le (Nat.le_of_eq (List.length_set ..)), List.map_nil, List.append_nil]
  adds := by rw [act, ha, Concurrent.advance, hm]
  sessions := by rw [act, ha, Concurrent.advance]

/-- One step of an add after another. -/
theorem After.trans {d : Clocked σ} {x y : Adding} {s t : Sessions σ} (h : After c c' k x s)
    (h' : After c' d k y t) : After c d k y t where
  now := h'.now.trans h.now
  asked := h'.asked.trans h.asked
  waits := h'.waits.trans h.waits
  adds := by rw [h'.adds, h.adds, List.set_set]
  sessions := h'.sessions

variable (eng limit) in
/-- An add with metadata enters its transfer, or discards a torrent that is not started. -/
theorem exists_enter (hl : c.manager.lock = none)
    (hi : c.manager.adds[k]? = some ⟨p, .waited .ready⟩) (clock : Int) :
    ∃ c' r, ReflTransGen (Works eng limit) c c' ∧ c'.manager.lock = none
      ∧ After c c' k ⟨p, .ended r⟩
        ((Session.conclude eng p .ready clock).run c.manager.sessions).2 := by
  have hlt := (List.getElem?_eq_some_iff.mp hi).1
  have hw : c.Works eng limit (c.act eng (.conclude k clock) c.asked) :=
    ⟨_, _, .enter clock hi hl, rfl⟩
  obtain ⟨id, t, hr, ha⟩ | ⟨e, t, hr, ha⟩ := step_conclude_of_ready eng hi hl clock
  · have hs : ((Session.conclude eng p .ready clock).run c.manager.sessions).2 = t := by
      simp only [Session.conclude, commit, run_bind, hr]
      rfl
    rw [hs]
    refine ⟨_, .ok id, .single hw, ?_, after_act ha rfl⟩
    rw [act, ha]
    exact hl
  · have h₁ := after_act ha rfl
    have hi₁ : (c.act eng (.conclude k clock) c.asked).manager.adds[k]?
        = some ⟨p, .failed e⟩ := by
      rw [h₁.adds]
      exact List.getElem?_set_self hlt
    have ha₂ := step_conclude_of_failed eng hi₁ clock
    have hs : ((Session.conclude eng p .ready clock).run c.manager.sessions).2
        = ((abandon eng p e).run t).2 := by
      simp only [Session.conclude, commit, run_bind, hr]
    have h₂ := h₁.trans (after_act ha₂ rfl)
    rw [h₁.sessions] at h₂
    rw [hs]
    refine ⟨_, .error e, (ReflTransGen.single hw).tail ⟨_, _, .abandon clock hi₁, rfl⟩, ?_, h₂⟩
    rw [act, ha₂]
    rfl

variable (eng limit) in
/-- **An add whose wait is over concludes** without delay. -/
theorem exists_conclude (hl : c.manager.lock = none) {w : Waited}
    (hi : c.manager.adds[k]? = some ⟨p, .waited w⟩) (clock : Int) :
    ∃ c' r, ReflTransGen (Works eng limit) c c' ∧ c'.manager.lock = none
      ∧ After c c' k ⟨p, .ended r⟩
        ((Session.conclude eng p w clock).run c.manager.sessions).2 := by
  by_cases hw : w = .ready
  · subst hw
    exact exists_enter eng limit hl hi clock
  · obtain ⟨e, he⟩ := Waited.exists_error hw
    have ha := step_conclude_of_error eng hi he clock
    refine ⟨_, .error e, .single ⟨_, _, .discard clock hi hw, rfl⟩, ?_, after_act ha rfl⟩
    rw [act, ha]
    exact hl

variable (eng) in
/-- **An add whose wait is over ends** as one that nothing comes between. -/
theorem exists_settle (hl : c.manager.lock = none) {wait : Wait} {w : Waited}
    (hi : c.manager.adds[k]? = some ⟨p, .waiting⟩) (hw : c.waits[k]? = some wait)
    (hk : wait.look limit c.now = some w) (clock : Int) :
    ∃ c' r, ReflTransGen (Works eng limit) c c' ∧ c'.manager.lock = none
      ∧ After c c' k ⟨p, .ended r⟩ ((settle eng p w clock).run c.manager.sessions).2 := by
  have hlt := (List.getElem?_eq_some_iff.mp hi).1
  have ha := step_resolve eng hi w
  have h₁ := after_act ha rfl
  have hi₁ : (c.act eng (.resolve k w) c.asked).manager.adds[k]? = some ⟨p, .waited w⟩ := by
    rw [h₁.adds]
    exact List.getElem?_set_self hlt
  have hl₁ : (c.act eng (.resolve k w) c.asked).manager.lock = none := by
    rw [act, ha]
    exact hl
  obtain ⟨c', r, hc, hl', h₂⟩ := exists_conclude eng limit hl₁ hi₁ clock
  rw [h₁.sessions] at h₂
  exact ⟨c', r, hc.head ⟨_, _, .resolve hi hw hk, rfl⟩, hl', h₁.trans h₂⟩

/-! ## Adds that wait together -/

/-- An add in the queue of `addAll`: its position, how long it waits, and how that ends. -/
abbrev Due := Nat × Nat × Pending × Waited

/-- An add that waits since `t` as the queue says. -/
structure IsDue (limit : Nat) (c : Clocked σ) (t : Nat) (e : Due) (k : Nat) : Prop where
  add : c.manager.adds[k]? = some ⟨e.2.2.1, .waiting⟩
  wait : ∃ md, c.waits[k]? = some ⟨t, md⟩ ∧ waitAtMost limit md = (e.2.1, e.2.2.2)

/-- **A queue of adds that wait since `t`**, each with its number; all others have ended. -/
structure Queued (limit : Nat) (c : Clocked σ) (t : Nat) (queue : List (Due × Nat)) : Prop
    extends Calm c where
  nodup : (queue.map Prod.snd).Nodup
  due : ∀ e ∈ queue, IsDue limit c t e.1 e.2
  others : ∀ (k : Nat) (p : Pending) (st : Stage), c.manager.adds[k]? = some ⟨p, st⟩ →
    k ∈ queue.map Prod.snd ∨ ∃ r, st = .ended r

/-- When an add in the queue finds its wait over, and how. -/
theorem IsDue.look {t : Nat} {e : Due} (h : IsDue limit c t e k) :
    ∃ wait, c.waits[k]? = some wait ∧ wait.due limit = t + e.2.1
      ∧ wait.look limit (t + e.2.1) = some e.2.2.2 := by
  obtain ⟨md, hw, hm⟩ := h.wait
  have hdue : Wait.due limit ⟨t, md⟩ = t + e.2.1 := by rw [Wait.due_eq, hm]
  refine ⟨_, hw, hdue, ?_⟩
  rw [← hdue, Wait.look_due, Wait.verdict, hm]

/-- A time passes in which no add in the queue is due. -/
theorem Queued.passes {t d : Nat} {queue : List (Due × Nat)} (h : Queued limit c t queue)
    (hq : ∀ e ∈ queue, c.now < t + e.1.2.1 ∧ c.now + d ≤ t + e.1.2.1) :
    c.Passes limit (c.pass d) := by
  have early : ∀ u, u < c.now + d ∨ u = c.now → ∀ (k : Nat) (wait : Wait) (p : Pending),
      c.manager.adds[k]? = some ⟨p, .waiting⟩ → c.waits[k]? = some wait →
        wait.look limit u = none := by
    intro u hu k wait p hi hw
    obtain hm | ⟨r, hr⟩ := h.others k p _ hi
    · obtain ⟨e, he, rfl⟩ := List.mem_map.mp hm
      obtain ⟨wait', hw', hdue, -⟩ := (h.due e he).look
      cases hw.symm.trans hw'
      have := hq e he
      exact Wait.look_eq_none_iff.mpr (by omega)
    · cases hr
  refine ⟨settled_of_quiet h.asked h.lock fun k p st hi => ?_, d,
    fun u _ hu k p wait hi hw => early u (.inl hu) k wait p hi hw, rfl⟩
  obtain hm | hr := h.others k p st hi
  · obtain ⟨e, he, rfl⟩ := List.mem_map.mp hm
    cases hi.symm.trans (h.due e he).add
    exact .inl ⟨rfl, fun wait hw => early c.now (.inr rfl) _ wait _ hi hw⟩
  · exact .inr hr

/-- The queue after its first add has ended. -/
theorem Queued.after {t : Nat} {e : Due × Nat} {queue : List (Due × Nat)} {r : Except Error InfoHash}
    {s : Sessions σ} (h : Queued limit c t (e :: queue)) (hl : c'.manager.lock = none)
    (ha : After c c' e.2 ⟨e.1.2.2.1, .ended r⟩ s) : Queued limit c' t queue := by
  have hn := List.nodup_cons.mp h.nodup
  refine ⟨⟨ha.asked.trans h.asked, hl, ?_⟩, hn.2, fun f hf => ?_, fun k p st hi => ?_⟩
  · rw [ha.waits, ha.adds, List.length_set, h.waits]
  · have hne : e.2 ≠ f.2 := fun hef => hn.1 (hef ▸ List.mem_map_of_mem hf)
    obtain ⟨hadd, hwait⟩ := h.due f (List.mem_cons_of_mem e hf)
    exact ⟨by rw [ha.adds, List.getElem?_set_ne hne, hadd], by rwa [ha.waits]⟩
  · rw [ha.adds] at hi
    by_cases hk : e.2 = k
    · subst hk
      rw [List.getElem?_set_self (List.getElem?_eq_some_iff.mp
        (h.due e List.mem_cons_self).add).1] at hi
      cases hi
      exact .inr ⟨r, rfl⟩
    · rw [List.getElem?_set_ne hk] at hi
      obtain hm | hr := h.others k p st hi
      · obtain hke | hm := List.mem_cons.mp hm
        · exact absurd hke.symm hk
        · exact .inl hm
      · exact .inr hr

variable (eng) in
/-- Time passes until the first add in the queue is due; it may be due now. -/
theorem Queued.exists_first {t m ms : Nat} {e : Due × Nat} {queue : List (Due × Nat)}
    (h : Queued limit c t (e :: queue)) (he : e.1.2.1 = ms)
    (hs : ∀ f ∈ queue, ms ≤ f.1.2.1) (hle : m ≤ ms) (hnow : c.now = t + m) :
    ∃ c', ReflTransGen (Goes eng limit) c c' ∧ Queued limit c' t (e :: queue)
      ∧ c'.now = t + ms ∧ c'.manager.sessions = c.manager.sessions := by
  obtain rfl | hlt := Nat.eq_or_lt_of_le hle
  · exact ⟨c, .refl, h, hnow, rfl⟩
  have hnow' : (c.pass (ms - m)).now = c.now + (ms - m) := rfl
  refine ⟨c.pass (ms - m), .single (.inr (h.passes fun f hf => ?_)),
    ⟨⟨h.asked, h.lock, h.waits⟩, h.nodup, fun f hf => ⟨(h.due f hf).add, (h.due f hf).wait⟩,
      h.others⟩, by omega, rfl⟩
  obtain rfl | hf := List.mem_cons.mp hf
  · omega
  · have := hs f hf
    omega

variable (eng) in
/-- **A queue in order of time ends in that order.** -/
theorem exists_queue {t m : Nat} {queue : List (Due × Nat)} (h : Queued limit c t queue)
    (hs : queue.Pairwise fun e f => e.1.2.1 ≤ f.1.2.1) (hm : ∀ e ∈ queue, m ≤ e.1.2.1)
    (hnow : c.now = t + m) (clock : Int) :
    ∃ c', ReflTransGen (Goes eng limit) c c' ∧ Queued limit c' t []
      ∧ c'.now = t + (queue.map fun e => e.1.2.1).foldl max m
      ∧ c'.manager.sessions
        = (((queue.map Prod.fst).mapM fun ((i, _, p, w) : Due) => do
            return (i, ← settle eng p w clock)).run c.manager.sessions).2 := by
  induction queue generalizing c m with
  | nil => exact ⟨c, .refl, h, hnow, rfl⟩
  | cons e queue ih =>
    obtain ⟨⟨i, ms, p, w⟩, k⟩ := e
    obtain ⟨hfirst, hrest⟩ := List.pairwise_cons.mp hs
    have hle : m ≤ ms := hm _ List.mem_cons_self
    obtain ⟨c₁, hpass, hq₁, hnow₁, hs₁⟩ := h.exists_first eng rfl hfirst hle hnow
    have hdue := hq₁.due _ List.mem_cons_self
    obtain ⟨wait, hw, -, hk⟩ := hdue.look
    rw [← hnow₁] at hk
    obtain ⟨c₂, r, hworks, hl₂, ha⟩ := exists_settle eng hq₁.lock hdue.add hw hk clock
    obtain ⟨c', hgoes, hq', hnow', hs'⟩ := ih (hq₁.after hl₂ ha) hrest hfirst (ha.now.trans hnow₁)
    refine ⟨c', (hpass.trans (hworks.lift id fun _ _ => .inl)).trans hgoes, hq', ?_, ?_⟩
    · rw [hnow', List.map_cons, List.foldl_cons, Nat.max_eq_right hle]
    · rw [hs', ha.sessions, hs₁, List.map_cons, List.mapM_cons]
      rfl

/-! ## Starting them -/

/-- The queue of what was started before, and of one thing more. -/
theorem dueOf_concat (started : List Course) (course : Course) :
    dueOf (started ++ [course]) = dueOf started ++ match course with
      | .due ms p w => [(started.length, ms, p, w)]
      | .ended _ => [] := by
  rw [dueOf, dueOf, List.zipIdx_append, List.filterMap_append, Nat.zero_add]
  cases course <;> rfl

/-- The order of a queue is of no account. -/
theorem Queued.perm {t : Nat} {queue queue' : List (Due × Nat)} (h : Queued limit c t queue)
    (hp : queue.Perm queue') : Queued limit c t queue' :=
  ⟨h.toCalm, (hp.map Prod.snd).nodup_iff.mp h.nodup, fun e he => h.due e (hp.mem_iff.mpr he),
    fun k p st hi => (h.others k p st hi).imp_left ((hp.map Prod.snd).mem_iff.mp)⟩

variable (eng limit) in
/-- An add begins when it is asked for. -/
theorem steps_begin (hq : c.asked = []) (magnet : String) :
    ReflTransGen (Step eng limit) c ((c.ask (.begin magnet)).act eng (.begin magnet) []) := by
  have hm : (c.ask (.begin magnet)).asked = [] ++ (c.now, .begin magnet) :: [] := by
    rw [ask, hq]
  exact (ReflTransGen.single (.inl ⟨.begin magnet, trivial, rfl⟩)).tail
    (.inr (.inl ⟨_, _, .asked [] hm (.inl ⟨magnet, rfl⟩), rfl⟩))

/-- **An add that begins is the last of all**, with the last wait. -/
theorem act_begin {magnet : String} {s : Sessions σ}
    (hb : (Session.begin eng magnet).run c.manager.sessions = (.ok p, s)) :
    (c.ask (.begin magnet)).act eng (.begin magnet) []
      = { c with
        manager := { c.manager with sessions := s, adds := c.manager.adds ++ [⟨p, .waiting⟩] }
        waits := c.waits ++ [⟨c.now, eng.metadata s.engine p.handle⟩]
        requests := c.requests ++ [(c.now, .begin magnet)]
        asked := []
        done := c.done ++ [(c.now, .begin magnet)] } := by
  have hstep : c.manager.step eng (.begin magnet)
      = { c.manager with sessions := s, adds := c.manager.adds ++ [⟨p, .waiting⟩] } := by
    simp only [Concurrent.step, hb]
  simp only [act, ask, hstep, List.drop_left, List.map_cons, List.map_nil]

/-- **An add that the engine refuses** leaves no wait. -/
theorem act_begin_of_error {magnet : String} {e : Error} {s : Sessions σ}
    (hb : (Session.begin eng magnet).run c.manager.sessions = (.error e, s)) :
    (c.ask (.begin magnet)).act eng (.begin magnet) []
      = { c with
        manager := { c.manager with sessions := s }
        requests := c.requests ++ [(c.now, .begin magnet)]
        asked := []
        done := c.done ++ [(c.now, .begin magnet)] } := by
  have hstep : c.manager.step eng (.begin magnet) = { c.manager with sessions := s } := by
    simp only [Concurrent.step, hb]
  simp only [act, ask, hstep, List.drop_length, List.map_nil, List.append_nil]

/-- The queue with an add that was just begun. -/
theorem Queued.begin {t : Nat} {queue : List (Due × Nat)} (h : Queued limit c t queue)
    (hnow : c.now = t) {magnet : String} {s : Sessions σ}
    (hb : (Session.begin eng magnet).run c.manager.sessions = (.ok p, s)) (i : Nat) {ms : Nat}
    {w : Waited} (hm : waitAtMost limit (eng.metadata s.engine p.handle) = (ms, w)) :
    Queued limit ((c.ask (.begin magnet)).act eng (.begin magnet) []) t
      (((i, ms, p, w), c.manager.adds.length) :: queue) := by
  have hold : ∀ e ∈ queue, e.2 < c.manager.adds.length := fun e he =>
    (List.getElem?_eq_some_iff.mp (h.due e he).add).1
  rw [act_begin hb]
  refine ⟨⟨rfl, h.lock, ?_⟩, ?_, fun e he => ?_, fun k q st hi => ?_⟩
  · rw [List.length_append, List.length_append, h.waits]
    rfl
  · refine List.nodup_cons.mpr ⟨fun hm => ?_, h.nodup⟩
    obtain ⟨e, he, hk⟩ := List.mem_map.mp hm
    exact Nat.ne_of_lt (hold e he) hk
  · obtain rfl | he := List.mem_cons.mp he
    · refine ⟨List.getElem?_concat_length, _, ?_, hm⟩
      rw [← h.waits, List.getElem?_concat_length, hnow]
    · obtain ⟨hadd, md, hw, hmd⟩ := h.due e he
      exact ⟨(List.getElem?_append_left (hold e he)).trans hadd, md,
        (List.getElem?_append_left (h.waits ▸ hold e he)).trans hw, hmd⟩
  · obtain hlt | hge := Nat.lt_or_ge k c.manager.adds.length
    · rw [List.getElem?_append_left hlt] at hi
      exact (h.others k q st hi).imp_left (List.mem_cons_of_mem _)
    · have hlt := (List.getElem?_eq_some_iff.mp hi).1
      rw [List.length_append, List.length_singleton] at hlt
      have hk : k = c.manager.adds.length := by omega
      exact .inl (hk ▸ List.mem_cons_self)

/-- How an add starts that the engine refuses. -/
theorem run_start_of_error {magnet : String} {e : Error} {s t : Sessions σ}
    (hb : (Session.begin eng magnet).run t = (.error e, s)) (clock : Int) :
    (start eng limit clock magnet).run t = (.ended (.error e), s) := by
  simp only [start, run_bind, hb]
  rfl

/-- How an add starts whose wait is over at once. -/
theorem run_start_of_zero {magnet : String} {w : Waited} {s t : Sessions σ}
    (hb : (Session.begin eng magnet).run t = (.ok p, s))
    (hm : waitAtMost limit (eng.metadata s.engine p.handle) = (0, w)) (clock : Int) :
    (start eng limit clock magnet).run t
      = (.ended ((settle eng p w clock).run s).1, ((settle eng p w clock).run s).2) := by
  simp only [start, run_bind, hb, waiting, run_get, hm]
  rfl

/-- How an add starts that has to wait. -/
theorem run_start_of_succ {magnet : String} {ms : Nat} {w : Waited} {s t : Sessions σ}
    (hb : (Session.begin eng magnet).run t = (.ok p, s))
    (hm : waitAtMost limit (eng.metadata s.engine p.handle) = (ms + 1, w)) (clock : Int) :
    (start eng limit clock magnet).run t = (.due (ms + 1) p w, s) := by
  simp only [start, run_bind, hb, waiting, run_get, hm]
  rfl

variable (eng) in
/-- **One add more is started** without delay. -/
theorem exists_start {t : Nat} {queue : List (Due × Nat)} {started : List Course}
    (h : Queued limit c t queue) (hq : queue.map Prod.fst = dueOf started) (hnow : c.now = t)
    (clock : Int) (magnet : String) :
    ∃ c' queue', ReflTransGen (Step eng limit) c c' ∧ Queued limit c' t queue' ∧ c'.now = t
      ∧ queue'.map Prod.fst
        = dueOf (started ++ [((start eng limit clock magnet).run c.manager.sessions).1])
      ∧ c'.manager.sessions = ((start eng limit clock magnet).run c.manager.sessions).2 := by
  have hsteps := steps_begin eng limit h.asked magnet
  rw [dueOf_concat]
  rcases hb : (Session.begin eng magnet).run c.manager.sessions with ⟨e | p, s⟩
  · -- the engine gives no torrent, and the add is over
    rw [act_begin_of_error hb] at hsteps
    rw [run_start_of_error hb]
    exact ⟨_, queue, hsteps, ⟨⟨rfl, h.lock, h.waits⟩, h.nodup,
      fun e he => ⟨(h.due e he).add, (h.due e he).wait⟩, h.others⟩, hnow,
      by rw [hq, List.append_nil], rfl⟩
  rcases hm : waitAtMost limit (eng.metadata s.engine p.handle) with ⟨ms, w⟩
  have hqueued := h.begin hnow hb started.length hm
  rw [act_begin hb] at hsteps hqueued
  cases ms with
  | zero =>
    -- its wait is over at once, and so is the add
    have hdue := hqueued.due _ List.mem_cons_self
    obtain ⟨wait, hw, -, hk⟩ := hdue.look
    rw [Nat.add_zero, ← hnow] at hk
    obtain ⟨c', r, hworks, hl', ha⟩ := exists_settle eng hqueued.lock hdue.add hw hk clock
    rw [run_start_of_zero hb hm]
    exact ⟨c', queue, hsteps.trans (hworks.lift id fun _ _ hw => .inr (.inl hw)),
      hqueued.after hl' ha, ha.now.trans hnow, by rw [hq, List.append_nil], ha.sessions⟩
  | succ ms =>
    rw [run_start_of_succ hb hm]
    exact ⟨_, _, hsteps, hqueued.perm (List.perm_append_singleton _ _).symm, hnow,
      by rw [List.map_append, hq]; rfl, rfl⟩

variable (eng) in
/-- **Adds are started together** without delay. -/
theorem exists_starts {t : Nat} {queue : List (Due × Nat)} {started : List Course}
    (h : Queued limit c t queue) (hq : queue.map Prod.fst = dueOf started) (hnow : c.now = t)
    (clock : Int) (magnets : List String) :
    ∃ c' queue', ReflTransGen (Step eng limit) c c' ∧ Queued limit c' t queue' ∧ c'.now = t
      ∧ queue'.map Prod.fst = dueOf (started
        ++ ((magnets.mapM (start eng limit clock)).run c.manager.sessions).1)
      ∧ c'.manager.sessions
        = ((magnets.mapM (start eng limit clock)).run c.manager.sessions).2 := by
  induction magnets generalizing c queue started with
  | nil => exact ⟨c, queue, .refl, h, hnow, hq.trans (by rw [List.mapM_nil, run_pure,
      List.append_nil]), rfl⟩
  | cons magnet magnets ih =>
    obtain ⟨c₁, queue₁, hc₁, h₁, hnow₁, hq₁, hs₁⟩ := exists_start eng h hq hnow clock magnet
    obtain ⟨c', queue', hc', h', hnow', hq', hs'⟩ := ih h₁ hq₁ hnow₁
    rw [hs₁] at hq' hs'
    refine ⟨c', queue', hc₁.trans hc', h', hnow', ?_, ?_⟩
    · rw [hq', List.append_assoc]
      simp only [List.mapM_cons, run_bind, run_pure, List.singleton_append]
    · rw [hs']
      simp only [List.mapM_cons, run_bind, run_pure]

/-- **What `addAll` does can come about.**  When no add waits and nothing is asked for, adds can be
started together so that they leave what `addAll` leaves, after the time it states. -/
theorem exists_addAll {t : Nat} (h : Queued limit c t []) (hnow : c.now = t) (clock : Int)
    (magnets : List String) :
    ∃ c', ReflTransGen (Step eng limit) c c' ∧ Queued limit c' t []
      ∧ c'.manager.sessions = ((addAll eng limit magnets clock).run c.manager.sessions).2
      ∧ c'.now = t + ((addAll eng limit magnets clock).run c.manager.sessions).1.2 := by
  have hnone : ([] : List (Due × Nat)).map Prod.fst = dueOf [] := rfl
  obtain ⟨c₁, queue, hc₁, h₁, hnow₁, hq₁, hs₁⟩ := exists_starts eng h hnone hnow clock magnets
  rw [List.nil_append] at hq₁
  let before : Due × Nat → Due × Nat → Bool := fun a b => a.1.2.1 ≤ b.1.2.1
  have hsorted : (queue.mergeSort before).map Prod.fst
      = (dueOf ((magnets.mapM (start eng limit clock)).run c.manager.sessions).1).mergeSort
        fun a b => a.2.1 ≤ b.2.1 := by
    rw [← hq₁]
    exact List.map_mergeSort fun a _ b _ => rfl
  have htrans : ∀ a b c, before a b = true → before b c = true → before a c = true :=
    fun a b c hab hbc =>
      decide_eq_true (Nat.le_trans (of_decide_eq_true hab) (of_decide_eq_true hbc))
  have htotal : ∀ a b, (before a b || before b a) = true := fun a b => by
    simpa [before] using Nat.le_total a.1.2.1 b.1.2.1
  have hpair : (queue.mergeSort before).Pairwise fun a b => a.1.2.1 ≤ b.1.2.1 :=
    (List.pairwise_mergeSort htrans htotal queue).imp of_decide_eq_true
  obtain ⟨c', hc', h', hnow', hs'⟩ := exists_queue eng
    (h₁.perm (List.mergeSort_perm queue before).symm) hpair (fun _ _ => Nat.zero_le _)
    (hnow₁.trans (Nat.add_zero t).symm) clock
  refine ⟨c', hc₁.trans (hc'.lift id fun _ _ => .inr), h', ?_, ?_⟩
  · rw [hs', hsorted, hs₁]
    rfl
  · rw [hnow']
    have hmap : (queue.mergeSort before).map (fun e => e.1.2.1)
        = ((queue.mergeSort before).map Prod.fst).map fun e => e.2.1 := by
      rw [List.map_map]
      rfl
    rw [hmap, hsorted]
    rfl

end HopTorrent.Session.Clocked
