import HopTorrent.Chain.Dialer
import HopTorrent.Proofs.Stream.Carries
import HopTorrent.Proofs.Timeline

/-!
# Proofs/Exchange — what an exchange says and hears

An exchange fixes the dialogues it can hold: those it comes to a result with (`Completes`), and
those it may have held when it broke off (`Begins`).  Over a stream it holds the dialogue that the
stream carries: it comes to a result exactly when the stream carries one to the end
(`converse_result`), and at every moment the stream shows how far the dialogue got
(`converse_opened`).
-/

namespace HopTorrent

namespace Exchange

variable {α β : Type}

/-- **The dialogues that an exchange comes to a result with.** -/
inductive Completes : Exchange α → Transcript → α → Prop
  | done (a : α) : Completes (.done a) [] a
  | send {bs : Bytes} {onFault : Stream.Fault → Error} {next : Exchange α} {tr : Transcript} {a : α}
      (h : Completes next tr a) : Completes (.send bs onFault next) (.sent bs :: tr) a
  | recv {n : Nat} {onFault : Stream.Fault → Error} {next : Vector UInt8 n → Exchange α}
      {r : Vector UInt8 n} {tr : Transcript} {a : α} (h : Completes (next r) tr a) :
    Completes (.recv n onFault next) (.heard r.toList :: tr) a

/-- **The dialogues that an exchange may have held when it broke off**: the last turn may be
incomplete. -/
inductive Begins : Exchange α → Transcript → Prop
  | start (x : Exchange α) : Begins x []
  | sending {bs part : Bytes} {onFault : Stream.Fault → Error} {next : Exchange α}
      (h : part <+: bs) : Begins (.send bs onFault next) [.sent part]
  | sent {bs : Bytes} {onFault : Stream.Fault → Error} {next : Exchange α} {tr : Transcript}
      (h : Begins next tr) : Begins (.send bs onFault next) (.sent bs :: tr)
  | hearing {n : Nat} {onFault : Stream.Fault → Error} {next : Vector UInt8 n → Exchange α}
      {part : Bytes} (h : part.length < n) : Begins (.recv n onFault next) [.heard part]
  | heard {n : Nat} {onFault : Stream.Fault → Error} {next : Vector UInt8 n → Exchange α}
      {r : Vector UInt8 n} {tr : Transcript} (h : Begins (next r) tr) :
    Begins (.recv n onFault next) (.heard r.toList :: tr)

variable {x : Exchange α} {f : α → Exchange β} {tr : Transcript}

@[simp] theorem completes_done_iff {a b : α} :
    (Exchange.done a).Completes tr b ↔ tr = [] ∧ a = b := by
  constructor
  · intro h
    cases h
    exact ⟨rfl, rfl⟩
  · rintro ⟨rfl, rfl⟩
    exact .done a

@[simp] theorem not_completes_fail {e : Error} {a : α} :
    ¬ (Exchange.fail e).Completes tr a := nofun

@[simp] theorem completes_send_iff {bs : Bytes} {onFault : Stream.Fault → Error}
    {next : Exchange α} {a : α} :
    (Exchange.send bs onFault next).Completes tr a
      ↔ ∃ tr', tr = .sent bs :: tr' ∧ next.Completes tr' a := by
  constructor
  · intro h
    cases h with
    | send h => exact ⟨_, rfl, h⟩
  · rintro ⟨tr', rfl, h⟩
    exact .send h

@[simp] theorem completes_recv_iff {n : Nat} {onFault : Stream.Fault → Error}
    {next : Vector UInt8 n → Exchange α} {a : α} :
    (Exchange.recv n onFault next).Completes tr a
      ↔ ∃ r tr', tr = .heard r.toList :: tr' ∧ (next r).Completes tr' a := by
  constructor
  · intro h
    cases h with
    | recv h => exact ⟨_, _, rfl, h⟩
  · rintro ⟨r, tr', rfl, h⟩
    exact .recv h

/-- Every sequence of bytes can be read. -/
theorem exists_toList_eq {n : Nat} {bs : Bytes} (h : bs.length = n) :
    ∃ r : Vector UInt8 n, r.toList = bs :=
  ⟨⟨bs.toArray, by simpa using h⟩, by simp⟩

/-- A byte, read. -/
theorem eq_one (r : Vector UInt8 1) : ∃ a, r = #v[a] := by
  rcases r with ⟨⟨_ | ⟨a, _ | _⟩⟩, h⟩ <;> simp at h
  exact ⟨a, rfl⟩

/-- Two bytes, read. -/
theorem eq_two (r : Vector UInt8 2) : ∃ a b, r = #v[a, b] := by
  rcases r with ⟨⟨_ | ⟨a, _ | ⟨b, _ | _⟩⟩⟩, h⟩ <;> simp at h
  exact ⟨a, b, rfl⟩

/-- Four bytes, read. -/
theorem eq_four (r : Vector UInt8 4) : ∃ a b c d, r = #v[a, b, c, d] := by
  rcases r with ⟨⟨_ | ⟨a, _ | ⟨b, _ | ⟨c, _ | ⟨d, _ | _⟩⟩⟩⟩⟩, h⟩ <;> simp at h
  exact ⟨a, b, c, d, rfl⟩

@[simp] theorem completes_recvOne_iff {onFault : Stream.Fault → Error}
    {next : UInt8 → Exchange α} {a : α} :
    (recvOne onFault next).Completes tr a
      ↔ ∃ b tr', tr = .heard [b] :: tr' ∧ (next b).Completes tr' a := by
  rw [recvOne, completes_recv_iff]
  constructor
  · rintro ⟨r, tr', rfl, h⟩
    obtain ⟨b, rfl⟩ := eq_one r
    exact ⟨b, tr', rfl, h⟩
  · rintro ⟨b, tr', rfl, h⟩
    exact ⟨#v[b], tr', rfl, h⟩

@[simp] theorem completes_recvTwo_iff {onFault : Stream.Fault → Error}
    {next : UInt8 → UInt8 → Exchange α} {a : α} :
    (recvTwo onFault next).Completes tr a
      ↔ ∃ b c tr', tr = .heard [b, c] :: tr' ∧ (next b c).Completes tr' a := by
  rw [recvTwo, completes_recv_iff]
  constructor
  · rintro ⟨r, tr', rfl, h⟩
    obtain ⟨b, c, rfl⟩ := eq_two r
    exact ⟨b, c, tr', rfl, h⟩
  · rintro ⟨b, c, tr', rfl, h⟩
    exact ⟨#v[b, c], tr', rfl, h⟩

@[simp] theorem completes_recvFour_iff {onFault : Stream.Fault → Error}
    {next : UInt8 → UInt8 → UInt8 → UInt8 → Exchange α} {a : α} :
    (recvFour onFault next).Completes tr a
      ↔ ∃ b c d e tr', tr = .heard [b, c, d, e] :: tr' ∧ (next b c d e).Completes tr' a := by
  rw [recvFour, completes_recv_iff]
  constructor
  · rintro ⟨r, tr', rfl, h⟩
    obtain ⟨b, c, d, e, rfl⟩ := eq_four r
    exact ⟨b, c, d, e, tr', rfl, h⟩
  · rintro ⟨b, c, d, e, tr', rfl, h⟩
    exact ⟨#v[b, c, d, e], tr', rfl, h⟩

/-- **The dialogues of one exchange after another** are a dialogue of the first and then one of the
second. -/
theorem completes_bind_iff {b : β} :
    (x.bind f).Completes tr b
      ↔ ∃ tr₁ tr₂ a, tr = tr₁ ++ tr₂ ∧ x.Completes tr₁ a ∧ (f a).Completes tr₂ b := by
  induction x generalizing tr with
  | done a =>
    constructor
    · exact fun h => ⟨[], tr, a, rfl, .done a, h⟩
    · rintro ⟨_, tr₂, _, rfl, ⟨⟩, h⟩
      exact h
  | fail e =>
    constructor
    · nofun
    · rintro ⟨_, _, _, -, h, -⟩
      cases h
  | send bs onFault next ih =>
    constructor
    · intro h
      cases h with
      | send h =>
        obtain ⟨tr₁, tr₂, a, rfl, h₁, h₂⟩ := ih.mp h
        exact ⟨_, tr₂, a, rfl, .send h₁, h₂⟩
    · rintro ⟨_, tr₂, a, rfl, h₁, h₂⟩
      cases h₁ with
      | send h₁ => exact .send (ih.mpr ⟨_, tr₂, a, rfl, h₁, h₂⟩)
  | recv n onFault next ih =>
    constructor
    · intro h
      cases h with
      | recv h =>
        obtain ⟨tr₁, tr₂, a, rfl, h₁, h₂⟩ := (ih _).mp h
        exact ⟨_, tr₂, a, rfl, .recv h₁, h₂⟩
    · rintro ⟨_, tr₂, a, rfl, h₁, h₂⟩
      cases h₁ with
      | recv h₁ => exact .recv ((ih _).mpr ⟨_, tr₂, a, rfl, h₁, h₂⟩)

/-- What is said when a write comes next: part of it, or all of it and what follows. -/
theorem Begins.sent_of_send {bs : Bytes} {onFault : Stream.Fault → Error} {next : Exchange α}
    (h : (Exchange.send bs onFault next).Begins tr) :
    Transcript.sent tr <+: bs
      ∨ ∃ tr', next.Begins tr' ∧ Transcript.sent tr = bs ++ Transcript.sent tr' := by
  cases h with
  | start => exact .inl List.nil_prefix
  | sending h => exact .inl (by simpa using h)
  | sent h => exact .inr ⟨_, h, rfl⟩

/-- What is said when a read comes next: nothing, or what follows it. -/
theorem Begins.sent_of_recv {n : Nat} {onFault : Stream.Fault → Error}
    {next : Vector UInt8 n → Exchange α} (h : (Exchange.recv n onFault next).Begins tr) :
    Transcript.sent tr = []
      ∨ ∃ r tr', (next r).Begins tr' ∧ Transcript.sent tr = Transcript.sent tr' := by
  cases h with
  | start | hearing => exact .inl rfl
  | heard h => exact .inr ⟨_, _, h, rfl⟩

/-- What is said when a read of one byte comes next. -/
theorem Begins.sent_of_recvOne {onFault : Stream.Fault → Error} {next : UInt8 → Exchange α}
    (h : (recvOne onFault next).Begins tr) :
    Transcript.sent tr = []
      ∨ ∃ b tr', (next b).Begins tr' ∧ Transcript.sent tr = Transcript.sent tr' :=
  Begins.sent_of_recv h |>.imp_right fun ⟨_, tr', h', hs⟩ => ⟨_, tr', h', hs⟩

/-- What is said when a read of two bytes comes next. -/
theorem Begins.sent_of_recvTwo {onFault : Stream.Fault → Error}
    {next : UInt8 → UInt8 → Exchange α} (h : (recvTwo onFault next).Begins tr) :
    Transcript.sent tr = []
      ∨ ∃ b c tr', (next b c).Begins tr' ∧ Transcript.sent tr = Transcript.sent tr' :=
  Begins.sent_of_recv h |>.imp_right fun ⟨_, tr', h', hs⟩ => ⟨_, _, tr', h', hs⟩

/-- What is said when a read of four bytes comes next. -/
theorem Begins.sent_of_recvFour {onFault : Stream.Fault → Error}
    {next : UInt8 → UInt8 → UInt8 → UInt8 → Exchange α} (h : (recvFour onFault next).Begins tr) :
    Transcript.sent tr = []
      ∨ ∃ b c d e tr', (next b c d e).Begins tr' ∧ Transcript.sent tr = Transcript.sent tr' :=
  Begins.sent_of_recv h |>.imp_right fun ⟨_, tr', h', hs⟩ => ⟨_, _, _, _, tr', h', hs⟩

/-- Nothing is said after an error. -/
theorem Begins.sent_of_fail {e : Error} (h : (Exchange.fail e : Exchange α).Begins tr) :
    Transcript.sent tr = [] := by
  cases h
  rfl

/-- Nothing is said after a result. -/
theorem Begins.sent_of_done {a : α} (h : (Exchange.done a).Begins tr) :
    Transcript.sent tr = [] := by
  cases h
  rfl

/-- Breaking off one exchange after another breaks off the first, or the second after the first came
to a result. -/
theorem Begins.of_bind (h : (x.bind f).Begins tr) :
    x.Begins tr ∨ ∃ tr₁ tr₂ a, tr = tr₁ ++ tr₂ ∧ x.Completes tr₁ a ∧ (f a).Begins tr₂ := by
  induction x generalizing tr with
  | done a => exact .inr ⟨[], tr, a, rfl, .done a, h⟩
  | fail e =>
    cases h
    exact .inl (.start _)
  | send bs onFault next ih =>
    cases h with
    | start => exact .inl (.start _)
    | sending h => exact .inl (.sending h)
    | sent h =>
      obtain h | ⟨tr₁, tr₂, a, rfl, h₁, h₂⟩ := ih h
      · exact .inl (.sent h)
      · exact .inr ⟨_, tr₂, a, rfl, .send h₁, h₂⟩
  | recv n onFault next ih =>
    cases h with
    | start => exact .inl (.start _)
    | hearing h => exact .inl (.hearing h)
    | heard h =>
      obtain h | ⟨tr₁, tr₂, a, rfl, h₁, h₂⟩ := ih _ h
      · exact .inl (.heard h)
      · exact .inr ⟨_, tr₂, a, rfl, .recv h₁, h₂⟩

end Exchange

/-! ## An exchange over a connection -/

namespace Dial

variable {x : Exchange Unit} {s s' : Stream} {now : Nat}

/-- One exchange after another, over one connection. -/
theorem converse_bind (x : Exchange Unit) (f : Unit → Exchange Unit) (s : Stream) :
    converse (x.bind f) s = (converse x s).andThen fun s => converse (f ()) s := by
  induction x generalizing s with
  | done a => rfl
  | fail e => rfl
  | send bs onFault next ih =>
    rw [Exchange.bind, converse, converse, andThen, Timeline.bind]
    congr 1
    funext u
    rcases s.send bs with ⟨_ | f, s'⟩
    · exact congrArg _ (ih s')
    · rfl
  | recv n onFault next ih =>
    rw [Exchange.bind, converse, converse, andThen, Timeline.bind]
    congr 1
    funext u
    rcases s.receive n with ⟨r | f | _, s'⟩
    · exact congrArg _ (ih r s')
    · rfl
    · rfl

section Turn

variable {bs : Bytes} {n : Nat} {onFault : Stream.Fault → Error} {next : Exchange Unit}
  {next' : Vector UInt8 n → Exchange Unit} {t : Stream}

/-- After a write the exchange goes on. -/
theorem run_converse_send (hs : s.send bs = (none, t)) :
    (converse (.send bs onFault next) s).run now
      = (Timeline.note (.opened t) (converse next t)).run (now + s.pause) := by
  rw [converse, Timeline.run, hs]
  rfl

/-- A write that fails is the last turn. -/
theorem run_converse_send_fault {f : Stream.Fault} (hs : s.send bs = (some f, t)) :
    (converse (.send bs onFault next) s).run now
      = ⟨[(now + s.pause, .opened t)], some (now + s.pause, .error (onFault f))⟩ := by
  rw [converse, Timeline.run, hs]
  rfl

/-- After a read the exchange goes on. -/
theorem run_converse_recv {r : Vector UInt8 n} (hs : s.receive n = (.got r, t)) :
    (converse (.recv n onFault next') s).run now
      = (Timeline.note (.opened t) (converse (next' r) t)).run (now + s.pause) := by
  rw [converse, Timeline.run, hs]
  rfl

/-- A read that does not succeed is the last turn. -/
theorem run_converse_recv_ne {o : Stream.Reception n} (hs : s.receive n = (o, t))
    (ho : ∀ r, o ≠ .got r) :
    ∃ ended, (converse (.recv n onFault next') s).run now = ⟨[(now + s.pause, .opened t)], ended⟩
      ∧ ∀ at_ s', ended ≠ some (at_, .ok s') := by
  rw [converse, Timeline.run, hs]
  cases o with
  | got r => exact absurd rfl (ho r)
  | fault f => exact ⟨_, rfl, by simp [Timeline.run]⟩
  | pending => exact ⟨_, rfl, by simp [Timeline.run]⟩

/-- A dialogue that begins with a write is carried on from there. -/
theorem exists_carries_send (hs : s.send bs = (none, t)) {at_ : Nat} :
    (∃ tr, (Exchange.send bs onFault next).Completes tr () ∧ s.Carries tr s'
        ∧ at_ = now + s.duration tr)
      ↔ ∃ tr, next.Completes tr () ∧ t.Carries tr s' ∧ at_ = now + s.pause + t.duration tr := by
  obtain ⟨-, -, -, -, hp⟩ := Stream.send_eq_none hs
  have later : ∀ tr, now + s.duration (.sent bs :: tr) = now + s.pause + t.duration tr :=
    fun tr => by rw [Stream.duration_cons _ _ hp, Nat.add_assoc]
  constructor
  · rintro ⟨tr, h, hk, rfl⟩
    cases h with
    | send hc =>
      cases hk with
      | @sent _ t' _ _ _ hs' hk =>
        obtain rfl : t = t' := congrArg Prod.snd (hs.symm.trans hs')
        exact ⟨_, hc, hk, later _⟩
  · rintro ⟨tr, hc, hk, rfl⟩
    exact ⟨_, .send hc, .sent hs hk, (later tr).symm⟩

/-- No dialogue is carried past a write that fails. -/
theorem not_carries_send {f : Stream.Fault} (hs : s.send bs = (some f, t)) {tr : Transcript} :
    ¬ ((Exchange.send bs onFault next).Completes tr () ∧ s.Carries tr s') := by
  rintro ⟨h, hk⟩
  cases h with
  | send hc =>
    cases hk with
    | sent hs' hk => cases hs.symm.trans hs'

/-- A dialogue that begins with a read is carried on from there. -/
theorem exists_carries_recv {r : Vector UInt8 n} (hs : s.receive n = (.got r, t)) {at_ : Nat} :
    (∃ tr, (Exchange.recv n onFault next').Completes tr () ∧ s.Carries tr s'
        ∧ at_ = now + s.duration tr)
      ↔ ∃ tr, (next' r).Completes tr () ∧ t.Carries tr s'
        ∧ at_ = now + s.pause + t.duration tr := by
  obtain ⟨-, -, -, -, hp⟩ := Stream.receive_eq_got hs
  have later : ∀ tr, now + s.duration (.heard r.toList :: tr) = now + s.pause + t.duration tr :=
    fun tr => by rw [Stream.duration_cons _ _ hp, Nat.add_assoc]
  constructor
  · rintro ⟨tr, h, hk, rfl⟩
    cases h with
    | recv hc =>
      obtain ⟨t', hs', hk'⟩ := hk.exists_receive
      obtain ⟨hr, rfl⟩ := Prod.mk.inj (hs.symm.trans hs')
      obtain rfl := Stream.Reception.got.inj hr
      exact ⟨_, hc, hk', later _⟩
  · rintro ⟨tr, hc, hk, rfl⟩
    exact ⟨_, .recv hc, .heard hs hk, (later tr).symm⟩

/-- No dialogue is carried past a read that does not succeed. -/
theorem not_carries_recv {o : Stream.Reception n} (hs : s.receive n = (o, t))
    (ho : ∀ r, o ≠ .got r) {tr : Transcript} :
    ¬ ((Exchange.recv n onFault next').Completes tr () ∧ s.Carries tr s') := by
  rintro ⟨h, hk⟩
  cases h with
  | @recv _ _ _ r _ _ hc =>
    obtain ⟨t', hs', -⟩ := hk.exists_receive
    exact ho r (congrArg Prod.fst (hs.symm.trans hs'))

end Turn

/-- All that is seen of an exchange is its connection. -/
theorem exists_of_mem_converse {e : Nat × DialEvent}
    (he : e ∈ ((converse x s).run now).events) : ∃ s', e.2 = .opened s' := by
  induction x generalizing s now with
  | done a => cases he
  | fail err => cases he
  | send bs onFault next ih =>
    rcases hs : s.send bs with ⟨_ | f, t⟩
    · rw [run_converse_send hs] at he
      obtain rfl | he := List.mem_cons.mp he
      · exact ⟨t, rfl⟩
      · exact ih he
    · rw [run_converse_send_fault hs] at he
      obtain rfl := List.mem_singleton.mp he
      exact ⟨t, rfl⟩
  | recv n onFault next ih =>
    rcases hs : s.receive n with ⟨r | f | _, t⟩
    · rw [run_converse_recv hs] at he
      obtain rfl | he := List.mem_cons.mp he
      · exact ⟨t, rfl⟩
      · exact ih r he
    all_goals
      obtain ⟨ended, hrun, -⟩ := run_converse_recv_ne hs (by simp)
      rw [hrun] at he
      obtain rfl := List.mem_singleton.mp he
      exact ⟨t, rfl⟩

/-- **The connection shows how far the dialogue got**, at every moment. -/
theorem converse_opened {at_ : Nat} (he : (at_, .opened s') ∈ ((converse x s).run now).events) :
    ∃ tr, x.Begins tr ∧ s'.wrote = s.wrote ++ Transcript.sent tr
      ∧ s.unread = Transcript.heard tr ++ s'.unread := by
  induction x generalizing s now with
  | done a => cases he
  | fail err => cases he
  | send bs onFault next ih =>
    rcases hs : s.send bs with ⟨_ | f, t⟩
    · obtain ⟨-, hw, hf, -⟩ := Stream.send_eq_none hs
      have hu : s.unread = t.unread := by rw [Stream.unread, Stream.unread, hf]
      rw [run_converse_send hs] at he
      obtain he | he := List.mem_cons.mp he
      · cases he
        exact ⟨[.sent bs], .sent (.start next), by simpa using hw, by simpa using hu⟩
      · obtain ⟨tr, hb, hw', hu'⟩ := ih he
        exact ⟨.sent bs :: tr, .sent hb, by simp [hw', hw], by simp [hu, hu']⟩
    · obtain ⟨part, hp, hw, hf⟩ := Stream.send_eq_some hs
      have hu : s.unread = t.unread := by rw [Stream.unread, Stream.unread, hf]
      rw [run_converse_send_fault hs] at he
      cases List.mem_singleton.mp he
      exact ⟨[.sent part], .sending hp, by simpa using hw, by simpa using hu⟩
  | recv n onFault next ih =>
    rcases hs : s.receive n with ⟨r | f | _, t⟩
    · obtain ⟨-, hu, hw, -⟩ := Stream.receive_eq_got hs
      rw [run_converse_recv hs] at he
      obtain he | he := List.mem_cons.mp he
      · cases he
        exact ⟨[.heard r.toList], .heard (.start _), by simpa using hw, by simpa using hu⟩
      · obtain ⟨tr, hb, hw', hu'⟩ := ih r he
        exact ⟨.heard r.toList :: tr, .heard hb, by simp [hw', hw], by simp [hu, hu']⟩
    all_goals
      obtain ⟨hl, hu, hw⟩ := Stream.receive_ne_got hs (by simp)
      obtain ⟨ended, hrun, -⟩ := run_converse_recv_ne hs (by simp)
      rw [hrun] at he
      cases List.mem_singleton.mp he
      exact ⟨[.heard s.offered], .hearing hl, by simpa using hw, by simpa using hu⟩

/-- **An exchange comes to a result exactly when the connection carries a dialogue to its end**; it
takes as long as the dialogue, and leaves the connection as that does. -/
theorem converse_result_iff {at_ : Nat} :
    ((converse x s).run now).result = some (at_, .ok s')
      ↔ ∃ tr, x.Completes tr () ∧ s.Carries tr s' ∧ at_ = now + s.duration tr := by
  induction x generalizing s now with
  | done a =>
    constructor
    · intro h
      cases h
      exact ⟨[], .done (), .nil _, rfl⟩
    · rintro ⟨tr, h, hk, rfl⟩
      cases h
      cases hk
      rfl
  | fail err =>
    constructor
    · intro h
      cases h
    · rintro ⟨_, ⟨⟩, -⟩
  | send bs onFault next ih =>
    rcases hs : s.send bs with ⟨_ | f, t⟩
    · rw [run_converse_send hs, exists_carries_send hs]
      exact ih
    · rw [run_converse_send_fault hs]
      refine iff_of_false (by simp) ?_
      rintro ⟨tr, hc, hk, -⟩
      exact not_carries_send hs ⟨hc, hk⟩
  | recv n onFault next ih =>
    rcases hs : s.receive n with ⟨r | f | _, t⟩
    · rw [run_converse_recv hs, exists_carries_recv hs]
      exact ih r
    all_goals
      obtain ⟨ended, hrun, hne⟩ := run_converse_recv_ne hs (by simp)
      rw [hrun]
      refine iff_of_false (hne _ _) ?_
      rintro ⟨tr, hc, hk, -⟩
      exact not_carries_recv hs (by simp) ⟨hc, hk⟩

end Dial

end HopTorrent
