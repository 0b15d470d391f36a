import HopTorrent.Chain.Dial
import HopTorrent.Proofs.Socks.Handshake
import Mathlib.Data.List.Forall2
import Mathlib.Data.List.Induction

/-!
# Proofs/Chain/Route — one connection through all hops

A composed dialer asks the transport for the first hop and for nothing else.  Everything after that
is one exchange over the connection it gets: the handshakes for the later hops and then the one for
the target (`compose_dial`).  So no handshake begins before the reply that grants the previous one
was read to its end, and a connection that comes out is left right behind the last reply
(`attempt_routed`).
-/

namespace HopTorrent

namespace Exchange

/-- Ending after an exchange is that exchange. -/
theorem bind_done (x : Exchange Unit) : (x.bind fun _ => .done ()) = x := by
  induction x with
  | done a => rfl
  | fail e => rfl
  | send bs onFault next ih => rw [bind, ih]
  | recv n onFault next ih =>
    rw [bind]
    congr 1
    funext r
    exact ih r

/-- Three exchanges one after another. -/
theorem bind_assoc {α β γ : Type} (x : Exchange α) (f : α → Exchange β) (g : β → Exchange γ) :
    (x.bind f).bind g = x.bind fun a => (f a).bind g := by
  induction x with
  | done a => rfl
  | fail e => rfl
  | send bs onFault next ih => rw [bind, bind, bind, ih]
  | recv n onFault next ih =>
    rw [bind, bind, bind]
    congr 1
    funext r
    exact ih r

end Exchange

/-! ## Handshakes one after another -/

namespace Socks

variable {auth : Option Credentials}

/-- The handshakes for some targets, one after another over one connection. -/
def handshakes (auth : Option Credentials) : List String → Exchange Unit
  | [] => .done ()
  | target :: targets => (connect target auth).bind fun _ => handshakes auth targets

/-- One more handshake comes last. -/
theorem handshakes_snoc (targets : List String) (target : String) :
    handshakes auth (targets ++ [target])
      = (handshakes auth targets).bind fun _ => connect target auth := by
  induction targets with
  | nil =>
    show (connect target auth).bind _ = _
    exact Exchange.bind_done _
  | cons t ts ih => rw [List.cons_append, handshakes, handshakes, Exchange.bind_assoc, ih]

/-- **The dialogues of several handshakes** are those of each, one after another. -/
theorem completes_handshakes_iff {targets : List String} {tr : Transcript} :
    (handshakes auth targets).Completes tr ()
      ↔ ∃ trs, targets.Forall₂ (Handshake auth) trs ∧ tr = trs.flatten := by
  induction targets generalizing tr with
  | nil =>
    rw [handshakes, Exchange.completes_done_iff]
    constructor
    · rintro ⟨rfl, -⟩
      exact ⟨[], .nil, rfl⟩
    · rintro ⟨_, ⟨⟩, rfl⟩
      exact ⟨rfl, rfl⟩
  | cons t ts ih =>
    rw [handshakes, Exchange.completes_bind_iff]
    constructor
    · rintro ⟨tr₁, tr₂, _, rfl, h₁, h₂⟩
      obtain ⟨trs, hs, rfl⟩ := ih.mp h₂
      exact ⟨tr₁ :: trs, .cons (completes_connect_iff.mp h₁) hs, rfl⟩
    · rintro ⟨_, hs, rfl⟩
      cases hs with
      | @cons _ tr₁ _ trs h₁ hs =>
        exact ⟨tr₁, trs.flatten, (), rfl, completes_connect_iff.mpr h₁, ih.mpr ⟨trs, hs, rfl⟩⟩

/-- Some targets all have client halves. -/
theorem exists_clientHalves (auth : Option Credentials) (targets : List String) :
    ∃ halves, targets.Forall₂ (ClientHalf auth) halves := by
  induction targets with
  | nil => exact ⟨[], .nil⟩
  | cons t ts ih =>
    obtain ⟨half, h⟩ := exists_clientHalf auth t
    obtain ⟨halves, hs⟩ := ih
    exact ⟨half :: halves, .cons h hs⟩

/-- **What was said so far is the beginning of the client halves** for all targets. -/
theorem exists_halves_of_progress {targets : List String} {done : List Transcript}
    {part : Transcript} (hd : (targets.take done.length).Forall₂ (Handshake auth) done)
    (hp : part = [] ∨ ∃ x half, targets[done.length]? = some x ∧ ClientHalf auth x half
      ∧ Transcript.sent part <+: half) :
    ∃ halves, targets.Forall₂ (ClientHalf auth) halves
      ∧ Transcript.sent done.flatten ++ Transcript.sent part <+: halves.flatten := by
  induction targets generalizing done with
  | nil =>
    rw [List.take_nil] at hd
    cases hd
    obtain rfl | ⟨x, half, hx, -⟩ := hp
    · exact ⟨[], .nil, List.nil_prefix⟩
    · cases hx
  | cons t ts ih =>
    cases done with
    | nil =>
      obtain ⟨halves, hs⟩ := exists_clientHalves auth ts
      obtain rfl | ⟨x, half, hx, hc, hpart⟩ := hp
      · obtain ⟨half, hc⟩ := exists_clientHalf auth t
        exact ⟨half :: halves, .cons hc hs, List.nil_prefix⟩
      · obtain rfl : t = x := Option.some.inj hx
        exact ⟨half :: halves, .cons hc hs, hpart.trans (List.prefix_append _ _)⟩
    | cons tr done =>
      cases hd with
      | cons h hd =>
        obtain ⟨halves, hs, hpre⟩ := ih hd hp
        refine ⟨Transcript.sent tr :: halves, .cons h.clientHalf hs, ?_⟩
        rw [List.flatten_cons, Transcript.sent_append, List.append_assoc]
        exact (List.prefix_append_right_inj _).mpr hpre

/-- **How far several handshakes got**: some were completed, and the next one may have begun. -/
theorem begins_handshakes {targets : List String} {tr : Transcript}
    (h : (handshakes auth targets).Begins tr) :
    ∃ done part, (targets.take done.length).Forall₂ (Handshake auth) done
      ∧ tr = done.flatten ++ part
      ∧ (part = [] ∨ ∃ x half, targets[done.length]? = some x ∧ ClientHalf auth x half
        ∧ Transcript.sent part <+: half) := by
  induction targets generalizing tr with
  | nil =>
    cases h
    exact ⟨[], [], .nil, rfl, .inl rfl⟩
  | cons t ts ih =>
    obtain h | ⟨tr₁, tr₂, _, rfl, h₁, h₂⟩ := h.of_bind
    · obtain ⟨half, hc, hp⟩ := begins_connect h
      exact ⟨[], tr, .nil, rfl, .inr ⟨t, half, rfl, hc, hp⟩⟩
    · obtain ⟨done, part, hd, rfl, hpart⟩ := ih h₂
      exact ⟨tr₁ :: done, part, .cons (completes_connect_iff.mp h₁) hd,
        by rw [List.flatten_cons, List.append_assoc], hpart⟩

end Socks

/-! ## Within a time -/

/-- **What happens within a time**: whatever happens later is cut off, and the result is that the
time ran out. -/
theorem Dial.run_timed {α : Type} (limit : Nat) (d : Dial α) (now : Nat) :
    (d.timed limit).run now
      = ⟨(d.run now).events.filter fun e => e.1 ≤ now + limit,
        match (d.run now).result with
        | some (at_, r) => if at_ ≤ now + limit then some (at_, r)
            else some (now + limit, .error .timeout)
        | none => some (now + limit, .error .timeout)⟩ := by
  rw [Dial.timed, Timeline.run_map, Timeline.run_within]
  cases (d.run now).result with
  | none => rfl
  | some r =>
    dsimp only
    split <;> rfl

/-- An activity succeeds within a time when it succeeds by then. -/
theorem Dial.timed_eq_ok_iff {α : Type} {limit now at_ : Nat} {d : Dial α} {a : α} :
    ((d.timed limit).run now).result = some (at_, .ok a)
      ↔ (d.run now).result = some (at_, .ok a) ∧ at_ ≤ now + limit := by
  rw [Dial.run_timed]
  rcases (d.run now).result with _ | ⟨at', r⟩
  · simp
  · dsimp only
    split
    · rename_i h
      constructor
      · intro he
        cases he
        exact ⟨rfl, h⟩
      · exact fun he => he.1
    · rename_i h
      constructor
      · simp
      · rintro ⟨he, hle⟩
        cases he
        exact absurd hle h

/-- How long an activity takes within a time, and how it comes out: if it has not finished by then,
its time ran out. -/
def Dial.course {α : Type} (limit : Nat) (d : Dial α) : Nat × Except Error α :=
  match (d.run 0).result with
  | some (at_, r) => if at_ ≤ limit then (at_, r) else (limit, .error .timeout)
  | none => (limit, .error .timeout)

/-- An activity takes no longer than the time it is given. -/
theorem Dial.course_le {α : Type} (limit : Nat) (d : Dial α) : (d.course limit).1 ≤ limit := by
  rw [course]
  split
  · split
    · assumption
    · exact Nat.le_refl limit
  · exact Nat.le_refl limit

/-- **An activity within a time takes its time and comes out the same**, whenever it begins. -/
theorem Dial.timed_result {α : Type} (limit : Nat) (d : Dial α) (now : Nat) :
    ((d.timed limit).run now).result
      = some (now + (d.course limit).1, (d.course limit).2) := by
  rw [Dial.run_timed, course]
  have shift := d.run_add 0 now
  rw [Nat.zero_add] at shift
  rw [shift, Timeline.Record.later]
  dsimp only
  rcases (d.run 0).result with _ | ⟨at_, r⟩
  · rfl
  · simp only [Option.map_some, Nat.add_comm at_ now, Nat.add_le_add_iff_left]
    split <;> rfl

/-- One activity succeeds after another when both do. -/
theorem Dial.andThen_eq_ok_iff {α β : Type} {d : Dial α} {f : α → Dial β} {now at_ : Nat} {b : β} :
    ((d.andThen f).run now).result = some (at_, .ok b)
      ↔ ∃ t a, (d.run now).result = some (t, .ok a)
        ∧ ((f a).run t).result = some (at_, .ok b) := by
  rw [Dial.andThen, Timeline.run_bind]
  rcases (d.run now).result with _ | ⟨t, e | a⟩
  · simp
  · simp [Timeline.run]
  · simp

/-- What happens in one activity after another happens in the first, or in the second after the
first succeeded. -/
theorem Dial.mem_andThen {α β : Type} {d : Dial α} {f : α → Dial β} {now : Nat}
    {e : Nat × DialEvent} (he : e ∈ ((d.andThen f).run now).events) :
    e ∈ (d.run now).events
      ∨ ∃ t a, (d.run now).result = some (t, .ok a) ∧ e ∈ ((f a).run t).events := by
  rw [Dial.andThen, Timeline.run_bind] at he
  rcases hr : (d.run now).result with _ | ⟨t, r | a⟩ <;> rw [hr] at he
  · exact .inl he
  · exact .inl (by simpa [Timeline.run] using he)
  · exact (List.mem_append.mp he).imp_right fun h => ⟨t, a, rfl, h⟩

/-! ## The composed dialer -/

namespace Dialer

variable {t : Transport} {index : Nat} {network : String}

/-- A hop is reached through the dialer below it, and asked to connect onward. -/
theorem dial_hop (hn : checkNetwork network = .ok ()) (proxy : String)
    (auth : Option Socks.Credentials) (inner : Dialer) (address : String) :
    (hop proxy auth inner).dial t index network address
      = (inner.dial t index network proxy).andThen
        (Dial.converse (Socks.connect address auth)) := by
  rw [dial, hn]

/-- **Whatever the nesting**: the transport is asked for the first hop, and all handshakes run over
the connection it gives. -/
theorem compose_dial (hn : checkNetwork network = .ok ()) (first : String) (rest : List String)
    (auth : Option Socks.Credentials) (target : String) :
    (compose (first :: rest) auth).dial t index network target
      = (base.dial t index network first).andThen
        (Dial.converse (Socks.handshakes auth (rest ++ [target]))) := by
  induction rest using List.reverseRecOn generalizing target with
  | nil =>
    show dial t index (.hop first auth .base) network target = _
    rw [dial_hop hn, List.nil_append, Socks.handshakes, Socks.handshakes, Exchange.bind_done]
  | append_singleton rest last ih =>
    have hc : compose (first :: (rest ++ [last])) auth
        = .hop last auth (compose (first :: rest) auth) := by
      rw [compose, ← List.cons_append, List.foldl_append]
      rfl
    rw [hc, dial_hop hn, ih, Dial.andThen, Dial.andThen, Dial.andThen, Timeline.bind_assoc]
    congr 1
    funext r
    cases r with
    | error e => rfl
    | ok s =>
      show (Dial.converse _ s).andThen _ = Dial.converse _ s
      rw [← Dial.converse_bind _ (fun _ => Socks.connect target auth), ← Socks.handshakes_snoc]

/-- **Everything that happens when a route is dialed.** -/
theorem run_compose (hn : checkNetwork network = .ok ()) (first : String) (rest : List String)
    (auth : Option Socks.Credentials) (target : String) (now : Nat) :
    ((compose (first :: rest) auth).dial t index network target).run now
      = match t index network first with
        | .never => ⟨[(now, .dialed network first)], none⟩
        | .after ms (.error e) =>
          ⟨[(now, .dialed network first), (now + ms, .refused)], some (now + ms, .error e)⟩
        | .after ms (.ok s) =>
          let r := (Dial.converse (Socks.handshakes auth (rest ++ [target])) s).run (now + ms)
          ⟨(now, .dialed network first) :: (now + ms, .opened s) :: r.events, r.result⟩ := by
  rw [compose_dial hn, dial]
  rcases t index network first with _ | ⟨ms, e | s⟩ <;> rfl

end Dialer

/-- The dials of the transport that events tell of: when, over which network, and where to. -/
def DialEvent.dials (events : List (Nat × DialEvent)) : List (Nat × String × String) :=
  events.filterMap fun
    | (at_, .dialed network address) => some (at_, network, address)
    | _ => none

/-! ## What holds of an attempt -/

namespace Chain.Setup

variable {s : Setup} {network address : String} {i now : Nat}

/-- **How far a connection got**: handshakes with the first targets are complete, with every byte of
their replies read, and of the handshake with the next target at most the beginning was said. -/
def Tunnelled (auth : Option Socks.Credentials) (targets : List String) (s₀ s : Stream) : Prop :=
  ∃ (done : List Transcript) (part : Transcript),
    (targets.take done.length).Forall₂ (Socks.Handshake auth) done
      ∧ (part = [] ∨ ∃ x half, targets[done.length]? = some x ∧ Socks.ClientHalf auth x half
        ∧ Transcript.sent part <+: half)
      ∧ s.wrote = s₀.wrote ++ (Transcript.sent done.flatten ++ Transcript.sent part)
      ∧ s₀.unread = Transcript.heard done.flatten ++ Transcript.heard part ++ s.unread

/-- What holds of an attempt that begins at `now` and visits `first` and then `rest`. -/
structure Routed (s : Setup) (network address : String) (i now : Nat) (first : String)
    (rest : List String) : Prop where
  /-- Every hop is visited once. -/
  order : (first :: rest).Perm s.chain.hops
  /-- The transport is dialed once, and only at the first hop. -/
  dialed : DialEvent.dials ((s.attempt network address i).run now).events = [(now, network, first)]
  /-- At every moment the connection is a tunnel through some of the later hops, and what was
  written on it is the beginning of the client halves for them and for the target. -/
  tunnelled : ∀ at_ st, (at_, .opened st) ∈ ((s.attempt network address i).run now).events →
    ∃ ms s₀, s.transport (s.offset + (i - 1)) network first = .after ms (.ok s₀)
      ∧ Tunnelled (s.auth i) (rest ++ [address]) s₀ st
      ∧ ∃ halves written, (rest ++ [address]).Forall₂ (Socks.ClientHalf (s.auth i)) halves
        ∧ st.wrote = s₀.wrote ++ written ∧ written <+: halves.flatten
  /-- The attempt succeeds exactly when the transport answers and every handshake succeeds, all in
  time. -/
  succeeds : (∃ at_ st, ((s.attempt network address i).run now).result = some (at_, .ok st))
    ↔ ∃ ms s₀ trs, s.transport (s.offset + (i - 1)) network first = .after ms (.ok s₀)
      ∧ (rest ++ [address]).Forall₂ (Socks.Handshake (s.auth i)) trs
      ∧ Transcript.heard trs.flatten <+: s₀.offered
      ∧ s₀.Takes (Transcript.sent trs.flatten).length
      ∧ ms + s₀.duration trs.flatten ≤ s.policy.attemptTimeoutMillis
  /-- The connection it gives is left right behind the last reply. -/
  opened : ∀ at_ st, ((s.attempt network address i).run now).result = some (at_, .ok st) →
    ∃ ms s₀ trs, s.transport (s.offset + (i - 1)) network first = .after ms (.ok s₀)
      ∧ (rest ++ [address]).Forall₂ (Socks.Handshake (s.auth i)) trs
      ∧ st.wrote = s₀.wrote ++ Transcript.sent trs.flatten
      ∧ s₀.unread = Transcript.heard trs.flatten ++ st.unread
      ∧ at_ = now + (ms + s₀.duration trs.flatten)

/-- The beginning of a connection. -/
theorem Tunnelled.refl (auth : Option Socks.Credentials) (targets : List String) (s : Stream) :
    Tunnelled auth targets s s :=
  ⟨[], [], .nil, .inl rfl, by simp, by simp⟩

/-- What was written on a tunnel is the beginning of the client halves. -/
theorem Tunnelled.exists_halves {auth : Option Socks.Credentials} {targets : List String}
    {s₀ st : Stream} (h : Tunnelled auth targets s₀ st) :
    ∃ halves written, targets.Forall₂ (Socks.ClientHalf auth) halves
      ∧ st.wrote = s₀.wrote ++ written ∧ written <+: halves.flatten := by
  obtain ⟨done, part, hd, hp, hw, -⟩ := h
  obtain ⟨halves, hs, hpre⟩ := Socks.exists_halves_of_progress hd hp
  exact ⟨halves, _, hs, hw, hpre⟩

/-- **The connection of a run of handshakes is a tunnel** at every moment. -/
theorem tunnelled_of_mem_converse {auth : Option Socks.Credentials} {targets : List String}
    {s₀ st : Stream} {now at_ : Nat}
    (he : (at_, .opened st) ∈ ((Dial.converse (Socks.handshakes auth targets) s₀).run now).events) :
    Tunnelled auth targets s₀ st := by
  obtain ⟨tr, hb, hw, hu⟩ := Dial.converse_opened he
  obtain ⟨done, part, hd, rfl, hp⟩ := Socks.begins_handshakes hb
  exact ⟨done, part, hd, hp, by simpa using hw, by simpa using hu⟩

/-- **A run of handshakes succeeds** exactly when the connection carries all of them. -/
theorem converse_handshakes_result_iff {auth : Option Socks.Credentials} {targets : List String}
    {s₀ st : Stream} {now at_ : Nat} :
    ((Dial.converse (Socks.handshakes auth targets) s₀).run now).result = some (at_, .ok st)
      ↔ ∃ trs, targets.Forall₂ (Socks.Handshake auth) trs ∧ s₀.Carries trs.flatten st
        ∧ at_ = now + s₀.duration trs.flatten := by
  rw [Dial.converse_result_iff]
  constructor
  · rintro ⟨tr, hc, hk, ht⟩
    obtain ⟨trs, hs, rfl⟩ := Socks.completes_handshakes_iff.mp hc
    exact ⟨trs, hs, hk, ht⟩
  · rintro ⟨trs, hs, hk, ht⟩
    exact ⟨_, Socks.completes_handshakes_iff.mpr ⟨trs, hs, rfl⟩, hk, ht⟩

/-- An order of the hops, taken apart. -/
theorem exists_route (s : Setup) (i : Nat) :
    ∃ first rest, s.route i = first :: rest ∧ (first :: rest).Perm s.chain.hops := by
  have hp : (s.route i).Perm s.chain.hops := shuffleFrom_perm _ _ _
  cases hr : s.route i with
  | nil => exact absurd (hr ▸ hp).nil_eq.symm s.chain.nonempty
  | cons first rest => exact ⟨first, rest, rfl, hr ▸ hp⟩

/-- An attempt is the composed dial within its time. -/
theorem attempt_eq {first : String} {rest : List String} (hr : s.route i = first :: rest) :
    s.attempt network address i
      = ((Dialer.compose (first :: rest) (s.auth i)).dial s.transport (s.offset + (i - 1)) network
        address).timed s.policy.attemptTimeoutMillis := by
  rw [attempt, hr]

/-- **An attempt succeeds** exactly when the transport answers and the connection carries all
handshakes, in time. -/
theorem attempt_eq_ok_iff (hn : checkNetwork network = .ok ()) {first : String}
    {rest : List String} (hr : s.route i = first :: rest) {at_ : Nat} {st : Stream} :
    ((s.attempt network address i).run now).result = some (at_, .ok st)
      ↔ ∃ ms s₀ trs, s.transport (s.offset + (i - 1)) network first = .after ms (.ok s₀)
        ∧ (rest ++ [address]).Forall₂ (Socks.Handshake (s.auth i)) trs
        ∧ s₀.Carries trs.flatten st ∧ at_ = now + (ms + s₀.duration trs.flatten)
        ∧ at_ ≤ now + s.policy.attemptTimeoutMillis := by
  rw [attempt_eq hr, Dial.timed_eq_ok_iff, Dialer.run_compose hn]
  rcases s.transport (s.offset + (i - 1)) network first with _ | ⟨ms, e | s₀⟩
  · simp
  · simp
  · dsimp only
    rw [converse_handshakes_result_iff]
    constructor
    · rintro ⟨⟨trs, hs, hk, ht⟩, hle⟩
      exact ⟨ms, s₀, trs, rfl, hs, hk, by rw [ht, Nat.add_assoc], hle⟩
    · rintro ⟨ms', s', trs, he, hs, hk, ht, hle⟩
      cases he
      exact ⟨⟨trs, hs, hk, by rw [ht, Nat.add_assoc]⟩, hle⟩

/-- The dials among events that are no dials. -/
theorem dials_eq_nil {events : List (Nat × DialEvent)}
    (h : ∀ e ∈ events, ∀ n a, e.2 ≠ .dialed n a) : DialEvent.dials events = [] := by
  refine List.filterMap_eq_nil_iff.mpr ?_
  rintro ⟨at_, ev⟩ he
  cases ev with
  | dialed n a => exact absurd rfl (h _ he n a)
  | refused | opened | logged => rfl

/-- **The connection of an attempt is a tunnel** at every moment. -/
theorem tunnelled_of_mem_attempt (hn : checkNetwork network = .ok ()) {first : String}
    {rest : List String} (hr : s.route i = first :: rest) {at_ : Nat} {st : Stream}
    (he : (at_, .opened st) ∈ ((s.attempt network address i).run now).events) :
    ∃ ms s₀, s.transport (s.offset + (i - 1)) network first = .after ms (.ok s₀)
      ∧ Tunnelled (s.auth i) (rest ++ [address]) s₀ st := by
  rw [attempt_eq hr, Dial.run_timed, Dialer.run_compose hn] at he
  replace he := List.mem_of_mem_filter he
  rcases ht : s.transport (s.offset + (i - 1)) network first with _ | ⟨ms, e | s₀⟩ <;>
    rw [ht] at he
  · simp at he
  · simp at he
  · refine ⟨ms, s₀, rfl, ?_⟩
    obtain he | he := List.mem_cons.mp he
    · cases he
    obtain he | he := List.mem_cons.mp he
    · cases he
      exact .refl _ _ _
    · exact tunnelled_of_mem_converse he

/-- Nothing after the first dial of an attempt is a dial. -/
theorem dials_run_compose (hn : checkNetwork network = .ok ()) {t : Transport} {index : Nat}
    (first : String) (rest : List String) (auth : Option Socks.Credentials) (address : String)
    (now limit : Nat) :
    DialEvent.dials ((((Dialer.compose (first :: rest) auth).dial t index network
      address).timed limit).run now).events = [(now, network, first)] := by
  rw [Dial.run_timed, Dialer.run_compose hn]
  rcases t index network first with _ | ⟨ms, e | s₀⟩ <;> dsimp only <;>
    rw [List.filter_cons_of_pos (by simp)] <;>
    refine congrArg (List.cons _) (dials_eq_nil fun e he n a hd => ?_) <;>
    replace he := List.mem_of_mem_filter he
  · cases he
  · obtain rfl := List.mem_singleton.mp he
    cases hd
  · obtain rfl | he := List.mem_cons.mp he
    · cases hd
    · obtain ⟨st, hst⟩ := Dial.exists_of_mem_converse he
      cases hst.symm.trans hd

/-- **Every attempt is routed through all hops.**  Over an accepted network each attempt visits the
hops in some order: it dials the transport once, at the first of them, talks to the others and to
the target through the tunnel only, one complete handshake after another, and succeeds exactly when
all of them do within its time. -/
theorem attempt_routed (s : Setup) (hn : checkNetwork network = .ok ()) (address : String)
    (i now : Nat) : ∃ first rest, s.route i = first :: rest
      ∧ Routed s network address i now first rest := by
  obtain ⟨first, rest, hr, hp⟩ := s.exists_route i
  refine ⟨first, rest, hr, hp, ?_, ?_, ?_, ?_⟩
  · rw [attempt_eq hr]
    exact dials_run_compose hn first rest _ _ _ _
  · intro at_ st he
    obtain ⟨ms, s₀, ht, h⟩ := tunnelled_of_mem_attempt hn hr he
    exact ⟨ms, s₀, ht, h, h.exists_halves⟩
  · constructor
    · rintro ⟨at_, st, hres⟩
      obtain ⟨ms, s₀, trs, ht, hs, hk, rfl, hle⟩ := (attempt_eq_ok_iff hn hr).mp hres
      obtain ⟨ho, hk⟩ := Stream.exists_carries_iff.mp ⟨st, hk⟩
      exact ⟨ms, s₀, trs, ht, hs, ho, hk, Nat.le_of_add_le_add_left hle⟩
    · rintro ⟨ms, s₀, trs, ht, hs, ho, hk, hle⟩
      obtain ⟨st, hk⟩ := Stream.exists_carries_iff.mpr ⟨ho, hk⟩
      exact ⟨_, st, (attempt_eq_ok_iff hn hr).mpr
        ⟨ms, s₀, trs, ht, hs, hk, rfl, Nat.add_le_add_left hle now⟩⟩
  · intro at_ st hres
    obtain ⟨ms, s₀, trs, ht, hs, hk, hat, -⟩ := (attempt_eq_ok_iff hn hr).mp hres
    exact ⟨ms, s₀, trs, ht, hs, hk.wrote, hk.unread, hat⟩

end Chain.Setup

end HopTorrent
