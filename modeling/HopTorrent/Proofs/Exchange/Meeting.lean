import HopTorrent.Proofs.Exchange.Offered

/-!
# Proofs/Exchange/Meeting — two sides of one connection

Each side of a connection speaks and listens in an order of its own; what it says is under way for a
while, and arrives in any pieces.  If the sides come to their end in some order of turns (`Agree`),
then they do in every order: each holds the dialogue that it holds in that one (`Agree.does`), one
of them can go on until both have ended (`Meets.progress`), and a run is no longer than what is said
in it (`Run.meets`).  What a side says beyond its dialogue is not heard within it.  Whether or not
they come to their end, nothing that is under way is lost (`Run.holds`), so that a side is always
where it is when it is run over what it heard (`Reaches`).
-/

namespace HopTorrent

/-! ## What a side does -/

/-- What a side does next. -/
inductive Act (σ : Type) where
  /-- Nothing any more. -/
  | rest
  /-- Something that the other side is not told. -/
  | think (next : σ)
  | send (bytes : Bytes) (next : σ)
  | recv (n : Nat) (next : Vector UInt8 n → σ)

/-- What is done as a part of something larger. -/
def Act.map {σ τ : Type} (f : σ → τ) : Act σ → Act τ
  | rest => .rest
  | think next => .think (f next)
  | send bs next => .send bs (f next)
  | recv n next => .recv n fun r => f (next r)

/-- What an exchange does next. -/
def Exchange.act {α : Type} : Exchange α → Act (Exchange α)
  | done _ | fail _ => .rest
  | send bs _ next => .send bs next
  | recv n _ next => .recv n next

namespace Turn

/-- What is said in a turn. -/
def said : Turn → Bytes
  | sent bs => bs
  | heard _ => []

/-- What is listened to in a turn. -/
def gets : Turn → Bytes
  | sent _ => []
  | heard bs => bs

end Turn

theorem Transcript.sent_cons (t : Turn) (tr : Transcript) : sent (t :: tr) = t.said ++ sent tr := by
  cases t <;> rfl

theorem Transcript.heard_cons (t : Turn) (tr : Transcript) :
    heard (t :: tr) = t.gets ++ heard tr := by
  cases t <;> rfl

/-- A write to a peer that takes every byte. -/
theorem Stream.send_of_budget {s t : Stream} {bs : Bytes} (hb : s.budget = none)
    (h : s.send bs = (none, t)) :
    t.wrote = s.wrote ++ bs ∧ t.feed = s.feed ∧ t.budget = none := by
  simp only [Stream.send, hb, Prod.mk.injEq, true_and] at h
  exact h ▸ ⟨rfl, rfl, rfl⟩

/-- It does not fail. -/
theorem Stream.send_eq_of_budget {s : Stream} (hb : s.budget = none) (bs : Bytes) :
    s.send bs = (none, (s.send bs).2) := by
  simp [Stream.send, hb]

namespace Meeting

variable {σ τ : Type} {f : σ → Act σ} {g : τ → Act τ} {E : σ → Bytes → τ → Bytes → Prop}
  {t t' : Turn} {tr ur : Transcript} {x x' x'' : σ} {y y' : τ} {u u' v v' w w' : Bytes}

/-- **A turn of a side.** -/
inductive Does (f : σ → Act σ) : σ → Turn → σ → Prop
  | think {x x' : σ} (h : f x = .think x') : Does f x (.sent []) x'
  | send {x x' : σ} {bs : Bytes} (h : f x = .send bs x') : Does f x (.sent bs) x'
  | recv {x : σ} {n : Nat} {next : Vector UInt8 n → σ} (h : f x = .recv n next)
      (r : Vector UInt8 n) : Does f x (.heard r.toList) (next r)

/-- **A dialogue of a side**, turn by turn. -/
inductive Dialogue (f : σ → Act σ) : σ → Transcript → σ → Prop
  | nil (x : σ) : Dialogue f x [] x
  | cons {x x' x'' : σ} {t : Turn} {tr : Transcript} (h : Does f x t x')
      (k : Dialogue f x' tr x'') : Dialogue f x (t :: tr) x''

/-- A side at rest takes no turn. -/
theorem Does.ne_rest (h : Does f x t x') : f x ≠ .rest := by
  rintro hx
  cases h with
  | think h | send h | recv h => cases hx.symm.trans h

/-- **A turn is determined** by the bytes that there are to hear. -/
theorem Does.unique (h : Does f x t x') (h' : Does f x t' x'') (he : t.gets ++ u = t'.gets ++ u') :
    t = t' ∧ x' = x'' ∧ u = u' := by
  cases h with
  | think h =>
    cases h' with
    | think h' =>
      cases h.symm.trans h'
      exact ⟨rfl, rfl, he⟩
    | send h' | recv h' => cases h.symm.trans h'
  | send h =>
    cases h' with
    | send h' =>
      cases h.symm.trans h'
      exact ⟨rfl, rfl, he⟩
    | think h' | recv h' => cases h.symm.trans h'
  | recv h r =>
    cases h' with
    | recv h' r' =>
      cases h.symm.trans h'
      obtain ⟨hr, hu⟩ := List.append_inj he (by simp [Turn.gets])
      obtain rfl := Vector.toList_inj.mp hr
      exact ⟨rfl, rfl, hu⟩
    | think h' | send h' => cases h.symm.trans h'

/-- What a part does is what the whole does then. -/
theorem Does.of_map {φ : τ → σ} (h : Does f x t x') (hx : f x = (g y).map φ) :
    ∃ y', Does g y t y' ∧ x' = φ y' := by
  cases h with
  | think h =>
    cases hy : g y with
    | think y' =>
      rw [hx, hy] at h
      exact ⟨y', .think hy, (Act.think.inj h).symm⟩
    | rest | send | recv => rw [hx, hy] at h; cases h
  | send h =>
    cases hy : g y with
    | send bs y' =>
      rw [hx, hy] at h
      obtain ⟨rfl, rfl⟩ := Act.send.inj h
      exact ⟨y', .send hy, rfl⟩
    | rest | think | recv => rw [hx, hy] at h; cases h
  | recv h r =>
    cases hy : g y with
    | recv n next =>
      rw [hx, hy] at h
      cases h
      exact ⟨next r, .recv hy r, rfl⟩
    | rest | think | send => rw [hx, hy] at h; cases h

/-- A side at rest holds no more dialogue. -/
theorem Dialogue.eq (h : Dialogue f x [] x') : x' = x := by
  cases h
  rfl

/-- One dialogue after another. -/
theorem Dialogue.append (h : Dialogue f x tr x') (h' : Dialogue f x' ur x'') :
    Dialogue f x (tr ++ ur) x'' := by
  induction h with
  | nil => exact h'
  | cons hd _ ih => exact .cons hd (ih h')

/-- A turn of an exchange. -/
theorem Does.exchange_cases {α : Type} {x x' : Exchange α} (h : Does Exchange.act x t x') :
    (∃ bs onFault, x = .send bs onFault x' ∧ t = .sent bs)
      ∨ ∃ n onFault next r, x = .recv n onFault next ∧ t = .heard r.toList ∧ x' = next r := by
  cases h with
  | think h => cases x <;> cases h
  | send h =>
    cases x <;> cases h
    exact .inl ⟨_, _, rfl, rfl⟩
  | recv h r =>
    cases x <;> cases h
    exact .inr ⟨_, _, _, r, rfl, rfl, rfl⟩

/-- Whatever follows an exchange leaves its turns alone. -/
theorem Does.bind {α β : Type} {x x' : Exchange α} (h : Does Exchange.act x t x')
    (next : α → Exchange β) : Does Exchange.act (x.bind next) t (x'.bind next) := by
  obtain ⟨bs, onFault, rfl, rfl⟩ | ⟨n, onFault, step, r, rfl, rfl, rfl⟩ := h.exchange_cases
  · exact .send rfl
  · exact Does.recv (f := Exchange.act)
      (x := Exchange.recv n onFault fun r => (step r).bind next) rfl r

/-- **An exchange that hears what it hears in a dialogue** has said what it says in it, and comes to
what is left of it then. -/
theorem Dialogue.upon_eq {α : Type} {x x' : Exchange α} (h : Dialogue Exchange.act x tr x')
    (u : Bytes) : x.upon (Transcript.heard tr ++ u)
      = ⟨(x'.upon u).verdict, Transcript.sent tr ++ (x'.upon u).said, (x'.upon u).rest⟩ := by
  induction h with
  | nil => rfl
  | cons hd _ ih =>
    obtain ⟨bs, onFault, rfl, rfl⟩ | ⟨n, onFault, next, r, rfl, rfl, rfl⟩ := hd.exchange_cases
    · rw [Transcript.heard_cons_sent, Exchange.upon_send, ih, Transcript.sent_cons_sent,
        List.append_assoc]
    · rw [Transcript.heard_cons_heard, List.append_assoc, Exchange.upon_recv, ih,
        Transcript.sent_cons_heard]

/-! ## An order of turns -/

/-- **Two sides come to their end** in some order of turns: `tr` and `ur` are the dialogues they
hold, `u` and `v` what was said to them and not heard, and so they are left as `E` says. -/
inductive Agree (f : σ → Act σ) (g : τ → Act τ) (E : σ → Bytes → τ → Bytes → Prop) :
    Transcript → Transcript → σ → Bytes → τ → Bytes → Prop
  | rest {x : σ} {u : Bytes} {y : τ} {v : Bytes} (hx : f x = .rest) (hy : g y = .rest)
      (he : E x u y v) : Agree f g E [] [] x u y v
  | left {t : Turn} {tr ur : Transcript} {x x' : σ} {u : Bytes} {y : τ} {v : Bytes}
      (h : Does f x t x') (k : Agree f g E tr ur x' u y (v ++ t.said)) :
    Agree f g E (t :: tr) ur x (t.gets ++ u) y v
  | right {t : Turn} {tr ur : Transcript} {x : σ} {u : Bytes} {y y' : τ} {v : Bytes}
      (h : Does g y t y') (k : Agree f g E tr ur x (u ++ t.said) y' v) :
    Agree f g E tr (t :: ur) x u y (t.gets ++ v)

/-- The sides can be exchanged. -/
theorem Agree.symm (k : Agree f g E tr ur x u y v) :
    Agree g f (fun y v x u => E x u y v) ur tr y v x u := by
  induction k with
  | rest hx hy he => exact .rest hy hx he
  | left h _ ih => exact .right h ih
  | right h _ ih => exact .left h ih

/-- The left side thinks. -/
theorem Agree.thinks (h : f x = .think x') (k : Agree f g E tr ur x' u y v) :
    Agree f g E (.sent [] :: tr) ur x u y v :=
  .left (.think h) ((List.append_nil v).symm ▸ k)

/-- The left side speaks. -/
theorem Agree.speaks {bs : Bytes} (h : f x = .send bs x') (k : Agree f g E tr ur x' u y (v ++ bs)) :
    Agree f g E (.sent bs :: tr) ur x u y v :=
  .left (.send h) k

/-- The left side listens. -/
theorem Agree.hears {n : Nat} {next : Vector UInt8 n → σ} (r : Vector UInt8 n)
    (h : f x = .recv n next) (k : Agree f g E tr ur (next r) u y v) :
    Agree f g E (.heard r.toList :: tr) ur x (r.toList ++ u) y v :=
  .left (.recv h r) ((List.append_nil v).symm ▸ k)

/-- **A turn that can be taken is the next one**, in this order of turns or in another: a turn of
one side takes nothing from the other. -/
theorem Agree.does (k : Agree f g E tr ur x w y v) (h : Does f x t x') (hw : w = t.gets ++ u) :
    ∃ tr', tr = t :: tr' ∧ Agree f g E tr' ur x' u y (v ++ t.said) := by
  induction k generalizing u with
  | rest hx => exact absurd hx h.ne_rest
  | left h' k' =>
    obtain ⟨rfl, rfl, rfl⟩ := h'.unique h hw
    exact ⟨_, rfl, k'⟩
  | right h' _ ih =>
    subst hw
    obtain ⟨tr', rfl, k'⟩ := ih h (List.append_assoc ..)
    refine ⟨tr', rfl, ?_⟩
    rw [List.append_assoc]
    exact .right h' k'

/-- A side at rest has no turns left. -/
theorem Agree.eq_nil (k : Agree f g E tr ur x u y v) (hx : f x = .rest) : tr = [] := by
  induction k with
  | rest => rfl
  | left h => exact absurd hx h.ne_rest
  | right _ _ ih => exact ih hx

/-- A side that waits while the other is at rest waits for bytes that were said. -/
theorem Agree.exists_gets (k : Agree f g E tr ur x u y v) (hy : g y = .rest) {n : Nat}
    {next : Vector UInt8 n → σ} (hx : f x = .recv n next) :
    ∃ (r : Vector UInt8 n) (u' : Bytes), u = r.toList ++ u' := by
  cases k with
  | rest hx' => cases hx.symm.trans hx'
  | left h =>
    cases h with
    | think h | send h => cases hx.symm.trans h
    | recv h r =>
      cases hx.symm.trans h
      exact ⟨r, _, rfl⟩
  | right h => exact absurd hy h.ne_rest

/-- A side that only listens for a while can do so first. -/
theorem Agree.listens {heard : Transcript} (h : Dialogue f x heard x')
    (hs : Transcript.sent heard = []) (k : Agree f g E tr ur x' u y v) :
    Agree f g E (heard ++ tr) ur x (Transcript.heard heard ++ u) y v := by
  induction h with
  | nil => exact k
  | cons hd _ ih =>
    obtain ⟨ht, hs'⟩ := List.append_eq_nil_iff.mp ((Transcript.sent_cons _ _).symm.trans hs)
    rw [Transcript.heard_cons, List.append_assoc]
    refine .left hd ?_
    rw [ht, List.append_nil]
    exact ih hs' k

/-- **How it ends.** -/
theorem Agree.ends (k : Agree f g E tr ur x u y v) :
    ∃ x' u' y' v', Dialogue f x tr x' ∧ Dialogue g y ur y' ∧ E x' u' y' v'
      ∧ u ++ Transcript.sent ur = Transcript.heard tr ++ u'
      ∧ v ++ Transcript.sent tr = Transcript.heard ur ++ v' := by
  induction k with
  | @rest x u y v _ _ he =>
    exact ⟨x, u, y, v, .nil x, .nil y, he, List.append_nil u, List.append_nil v⟩
  | left h _ ih =>
    obtain ⟨x', u', y', v', hx, hy, he, hu, hv⟩ := ih
    refine ⟨x', u', y', v', .cons h hx, hy, he, ?_, ?_⟩
    · rw [Transcript.heard_cons, List.append_assoc, List.append_assoc, hu]
    · rw [Transcript.sent_cons, ← List.append_assoc, hv]
  | right h _ ih =>
    obtain ⟨x', u', y', v', hx, hy, he, hu, hv⟩ := ih
    refine ⟨x', u', y', v', hx, .cons h hy, he, ?_, ?_⟩
    · rw [Transcript.sent_cons, ← List.append_assoc, hu]
    · rw [Transcript.heard_cons, List.append_assoc, List.append_assoc, hv]

/-! ## Over a connection -/

/-- A side at one end of a connection. -/
structure Party (σ : Type) where
  state : σ
  /-- What arrived, piece by piece, and what was written. -/
  stream : Stream
  /-- What is under way to it. -/
  coming : Bytes
  /-- What it said beyond its dialogue. -/
  spoken : Bytes

variable {p p' : Party σ} {q q' : Party τ} {opened : σ → Prop} {opened' : τ → Prop} {n m : Nat}

/-- **A side goes on**: it takes a turn, or a piece of what is under way to it arrives. -/
inductive Goes (f : σ → Act σ) : Party σ → Party τ → Party σ → Party τ → Prop
  | think {p : Party σ} {q : Party τ} {x : σ} (h : f p.state = .think x) :
    Goes f p q { p with state := x } q
  | send {p : Party σ} {q : Party τ} {x : σ} {bs : Bytes} {s : Stream} (h : f p.state = .send bs x)
      (hs : p.stream.send bs = (none, s)) :
    Goes f p q { p with state := x, stream := s } { q with coming := q.coming ++ bs }
  | recv {p : Party σ} {q : Party τ} {n : Nat} {next : Vector UInt8 n → σ} {r : Vector UInt8 n}
      {s : Stream} (h : f p.state = .recv n next) (hs : p.stream.receive n = (.got r, s)) :
    Goes f p q { p with state := next r, stream := s } q
  | arrive {p : Party σ} {q : Party τ} {piece rest : Bytes} (h : p.coming = piece ++ rest)
      (hp : piece ≠ []) :
    Goes f p q { p with
      coming := rest, stream := { p.stream with feed := p.stream.feed ++ [piece] } } q

/-- **A side speaks** beyond its dialogue, once that is open to it. -/
inductive Speaks (opened : σ → Prop) : Party σ → Party τ → Bytes → Party σ → Party τ → Prop
  | mk {p : Party σ} {q : Party τ} {bs : Bytes} {s : Stream} (ho : opened p.state) (hb : bs ≠ [])
      (hs : p.stream.send bs = (none, s)) :
    Speaks opened p q bs { p with stream := s, spoken := p.spoken ++ bs }
      { q with coming := q.coming ++ bs }

/-- A side that does what it did goes on as it did. -/
theorem Goes.congr {f' : σ → Act σ} (h : Goes f p q p' q')
    (he : f p.state = f' p.state ∨ f p.state = .rest) : Goes f' p q p' q' := by
  have same : ∀ {a : Act σ}, a ≠ .rest → f p.state = a → f' p.state = a := fun ha hf =>
    he.elim (fun h => h.symm.trans hf) fun h => absurd (hf.symm.trans h) ha
  cases h with
  | think h => exact .think (same nofun h)
  | send h hs => exact .send (same nofun h) hs
  | recv h hs => exact .recv (same nofun h) hs
  | arrive h hp => exact .arrive h hp

/-- **Two sides run** over a connection: any of them goes on or speaks, in any order. -/
inductive Run (f : σ → Act σ) (g : τ → Act τ) (opened : σ → Prop) (opened' : τ → Prop) :
    Nat → Party σ → Party τ → Party σ → Party τ → Prop
  | start (p : Party σ) (q : Party τ) : Run f g opened opened' 0 p q p q
  | left {n : Nat} {p p' p'' : Party σ} {q q' q'' : Party τ}
      (k : Run f g opened opened' n p q p' q') (h : Goes f p' q' p'' q'') :
    Run f g opened opened' (n + 1) p q p'' q''
  | right {n : Nat} {p p' p'' : Party σ} {q q' q'' : Party τ}
      (k : Run f g opened opened' n p q p' q') (h : Goes g q' p' q'' p'') :
    Run f g opened opened' (n + 1) p q p'' q''
  | leftSpeaks {n : Nat} {p p' p'' : Party σ} {q q' q'' : Party τ} {bs : Bytes}
      (k : Run f g opened opened' n p q p' q') (h : Speaks opened p' q' bs p'' q'') :
    Run f g opened opened' (n + 1) p q p'' q''
  | rightSpeaks {n : Nat} {p p' p'' : Party σ} {q q' q'' : Party τ} {bs : Bytes}
      (k : Run f g opened opened' n p q p' q') (h : Speaks opened' q' p' bs q'' p'') :
    Run f g opened opened' (n + 1) p q p'' q''

/-- **A side that rests less runs as before.** -/
theorem Run.congr {g' : τ → Act τ} {p₀ : Party σ} {q₀ : Party τ}
    (k : Run f g opened opened' n p₀ q₀ p q) (he : ∀ y, g y = g' y ∨ g y = .rest) :
    Run f g' opened opened' n p₀ q₀ p q := by
  induction k with
  | start => exact .start _ _
  | left _ h ih => exact .left ih h
  | right _ h ih => exact .right ih (h.congr (he _))
  | leftSpeaks _ h ih => exact .leftSpeaks ih h
  | rightSpeaks _ h ih => exact .rightSpeaks ih h

/-- **What a side did so far**: it held a dialogue over the beginning of what the other wrote, and
spoke beyond it. -/
structure Holds (f : σ → Act σ) (x₀ : σ) (p : Party σ) (q : Party τ) (tr : Transcript) : Prop where
  dialogue : Dialogue f x₀ tr p.state
  wrote : p.stream.wrote = Transcript.sent tr ++ p.spoken
  heard : q.stream.wrote = Transcript.heard tr ++ (p.stream.unread ++ p.coming)
  spoken : p.spoken ≠ [] → f p.state = .rest

variable {x₀ : σ} {y₀ : τ}

/-- A side that takes a turn has spoken nothing. -/
theorem Holds.turn {s : Stream} (h : Holds f x₀ p q tr) (hd : Does f p.state t x)
    (hw : s.wrote = p.stream.wrote ++ t.said) (hu : p.stream.unread = t.gets ++ s.unread)
    {q' : Party τ} (hq : q'.stream.wrote = q.stream.wrote) :
    Holds f x₀ { p with state := x, stream := s } q' (tr ++ [t]) := by
  have hnil : p.spoken = [] := Classical.byContradiction fun hne => hd.ne_rest (h.spoken hne)
  refine ⟨h.dialogue.append (.cons hd (.nil x)), ?_, ?_, fun hne => absurd hnil hne⟩
  · change s.wrote = _ ++ p.spoken
    rw [hw, h.wrote, hnil, Transcript.sent_append, Transcript.sent_cons]
    simp
  · change q'.stream.wrote = _ ++ (s.unread ++ p.coming)
    rw [hq, h.heard, hu, Transcript.heard_append, Transcript.heard_cons]
    simp

/-- The other side has more to hear. -/
theorem Holds.comes (h : Holds f x₀ p q tr) {bs : Bytes} {q' : Party τ}
    (hq : q'.stream.wrote = q.stream.wrote ++ bs) :
    Holds f x₀ { p with coming := p.coming ++ bs } q' tr :=
  ⟨h.dialogue, h.wrote, by rw [hq, h.heard]; simp, h.spoken⟩

/-- **Going on holds the dialogue.** -/
theorem Holds.goes (h : Holds f x₀ p q tr) (h' : Holds g y₀ q p ur) (hg : Goes f p q p' q') :
    (∃ tr', Holds f x₀ p' q' tr') ∧ Holds g y₀ q' p' ur := by
  cases hg with
  | think hx => exact ⟨⟨_, h.turn (.think hx) (List.append_nil _).symm rfl rfl⟩, h'.dialogue,
      h'.wrote, h'.heard, h'.spoken⟩
  | send hx hs =>
    have hl := Stream.leaves_send hs
    exact ⟨⟨_, h.turn (.send hx) hl.wrote hl.unread rfl⟩, h'.comes hl.wrote⟩
  | recv hx hs =>
    have hl := Stream.leaves_receive hs
    exact ⟨⟨_, h.turn (.recv hx _) hl.wrote hl.unread rfl⟩, h'.dialogue, h'.wrote,
      (hl.wrote.trans (List.append_nil _)).trans h'.heard, h'.spoken⟩
  | arrive hc =>
    refine ⟨⟨tr, h.dialogue, h.wrote, ?_, h.spoken⟩, h'.dialogue, h'.wrote, h'.heard, h'.spoken⟩
    rw [h.heard, hc]
    simp [Stream.unread]

/-- **Speaking leaves the dialogue alone.** -/
theorem Holds.speaks (h : Holds f x₀ p q tr) (h' : Holds g y₀ q p ur) {bs : Bytes}
    (hs : Speaks opened p q bs p' q') (hopened : ∀ x, opened x → f x = .rest) :
    Holds f x₀ p' q' tr ∧ Holds g y₀ q' p' ur := by
  cases hs with
  | @mk s ho _ hs =>
    have hl := Stream.leaves_send hs
    refine ⟨⟨h.dialogue, ?_, ?_, fun _ => hopened _ ho⟩, h'.comes hl.wrote⟩
    · change s.wrote = _ ++ (p.spoken ++ bs)
      rw [hl.wrote, h.wrote, List.append_assoc]
    · change q.stream.wrote = _ ++ (s.unread ++ p.coming)
      rw [h.heard, hl.unread, List.nil_append]

/-- **Each side of a run holds a dialogue of its own**, and nothing that is under way is lost. -/
theorem Run.holds {p₀ : Party σ} {q₀ : Party τ} (k : Run f g opened opened' n p₀ q₀ p q)
    (hopened : ∀ x, opened x → f x = .rest) (hopened' : ∀ y, opened' y → g y = .rest)
    (h : Holds f x₀ p₀ q₀ []) (h' : Holds g y₀ q₀ p₀ []) :
    ∃ tr ur, Holds f x₀ p q tr ∧ Holds g y₀ q p ur := by
  induction k with
  | start => exact ⟨_, _, h, h'⟩
  | left _ hg ih =>
    obtain ⟨tr, ur, hp, hq⟩ := ih h h'
    obtain ⟨⟨tr', hp'⟩, hq'⟩ := hp.goes hq hg
    exact ⟨tr', ur, hp', hq'⟩
  | right _ hg ih =>
    obtain ⟨tr, ur, hp, hq⟩ := ih h h'
    obtain ⟨⟨ur', hq'⟩, hp'⟩ := hq.goes hp hg
    exact ⟨tr, ur', hp', hq'⟩
  | leftSpeaks _ hs ih =>
    obtain ⟨tr, ur, hp, hq⟩ := ih h h'
    exact ⟨tr, ur, hp.speaks hq hs hopened⟩
  | rightSpeaks _ hs ih =>
    obtain ⟨tr, ur, hp, hq⟩ := ih h h'
    exact ⟨tr, ur, (hq.speaks hp hs hopened').symm⟩

/-- **A side is where `x` is that heard what it heard**: it said the same, and `x'` is what is left
of it. -/
def Reaches {α : Type} (x x' : Exchange α) (p : Party σ) (q : Party τ) : Prop :=
  ∃ heard said, q.stream.wrote = heard ++ (p.stream.unread ++ p.coming)
    ∧ p.stream.wrote = said ++ p.spoken
    ∧ ∀ rest, x.upon (heard ++ rest)
      = ⟨(x'.upon rest).verdict, said ++ (x'.upon rest).said, (x'.upon rest).rest⟩

/-- A side that holds the dialogue of an exchange. -/
theorem Holds.reaches {α : Type} {e e' : Exchange α} (h : Holds f x₀ p q tr)
    (hd : Dialogue Exchange.act e ur e') (hs : Transcript.sent ur = Transcript.sent tr)
    (hh : Transcript.heard ur = Transcript.heard tr) : Reaches e e' p q :=
  ⟨Transcript.heard ur, Transcript.sent ur, hh ▸ h.heard, hs ▸ h.wrote, hd.upon_eq⟩

/-- **Where a side is** in its dialogue: `rest` is left of it, and `u` of what was said to it in its
dialogue was not heard. -/
structure Side (tr : Transcript) (p : Party σ) (rest : Transcript) (u spoken : Bytes) : Prop where
  wrote : ∃ done, tr = done ++ rest ∧ p.stream.wrote = Transcript.sent done ++ p.spoken
  pending : p.stream.unread ++ p.coming = u ++ spoken
  flows : p.stream.Flows
  budget : p.stream.budget = none
  spoken : p.spoken ≠ [] → rest = []

/-- **Two sides meet** on the way to their end: `n` bounds how often they still go on. -/
structure Meets (f : σ → Act σ) (g : τ → Act τ) (E : σ → Bytes → τ → Bytes → Prop)
    (tr ur : Transcript) (p : Party σ) (q : Party τ) (restL restR : Transcript) (u v : Bytes)
    (n : Nat) : Prop where
  agree : Agree f g E restL restR p.state u q.state v
  left : Side tr p restL u q.spoken
  right : Side ur q restR v p.spoken
  length_eq : n = restL.length + (Transcript.sent restL).length + p.coming.length
    + (restR.length + (Transcript.sent restR).length + q.coming.length)

variable {restL restR : Transcript}

theorem Meets.symm (h : Meets f g E tr ur p q restL restR u v n) :
    Meets g f (fun y v x u => E x u y v) ur tr q p restR restL v u n :=
  ⟨h.agree.symm, h.right, h.left, h.length_eq.trans (Nat.add_comm ..)⟩

/-- **Two sides that come to their end meet** over a connection that carried nothing yet. -/
theorem Agree.meets (k : Agree f g E tr ur x [] y []) {s : Stream} (hs : s.feed = [])
    (hb : s.budget = none) (hw : s.wrote = []) :
    ∃ n, Meets f g E tr ur ⟨x, s, [], []⟩ ⟨y, s, [], []⟩ tr ur [] [] n := by
  have hflows : s.Flows := by
    rw [Stream.Flows, hs]
    exact nofun
  have hunread : s.unread = [] := by rw [Stream.unread, hs, List.flatten_nil]
  have hside : ∀ {ρ : Type} (z : ρ) (dialogue : Transcript),
      Side dialogue ⟨z, s, [], []⟩ dialogue [] [] := fun _ _ =>
    ⟨⟨[], rfl, hw⟩, by rw [hunread], hflows, hb, fun h => absurd rfl h⟩
  exact ⟨_, k, hside x tr, hside y ur, rfl⟩

/-- A side without turns left is at rest. -/
theorem Agree.rest_of_nil (k : Agree f g E tr ur x u y v) (h : tr = []) : f x = .rest := by
  induction k with
  | rest hx => exact hx
  | left => cases h
  | right _ _ ih => exact ih h

/-- **A side hears what was said to it in its dialogue**, and nothing that was said beyond it. -/
theorem Agree.exists_of_pending (k : Agree f g E tr ur x u y v) {m : Nat}
    {next : Vector UInt8 m → σ} {r : Vector UInt8 m} (hx : f x = .recv m next)
    (hw : w ≠ [] → g y = .rest) (hp : r.toList ++ u' = u ++ w) : ∃ u'', u = r.toList ++ u'' := by
  by_cases hnil : w = []
  · subst hnil
    exact ⟨u', by rw [hp, List.append_nil]⟩
  · obtain ⟨r', u'', rfl⟩ := k.exists_gets (hw hnil) hx
    rw [List.append_assoc] at hp
    obtain ⟨hr, -⟩ := List.append_inj hp (by simp)
    exact ⟨u'', by rw [hr]⟩

/-- A side with turns left has said nothing beyond them. -/
theorem Side.spoken_eq_nil {rest : Transcript} (h : Side tr p (t :: rest) u w) : p.spoken = [] := by
  cases hs : p.spoken with
  | nil => rfl
  | cons => cases h.spoken (by rw [hs]; exact List.cons_ne_nil _ _)

/-- **A side that takes a turn** has the others left. -/
theorem Side.turn {rest : Transcript} {s : Stream} (h : Side tr p (t :: rest) u w)
    (hw : s.wrote = p.stream.wrote ++ t.said) (hp : s.unread ++ p.coming = u' ++ w)
    (hf : s.Flows) (hb : s.budget = none) (x : σ) :
    Side tr { p with state := x, stream := s } rest u' w := by
  have hnil := h.spoken_eq_nil
  obtain ⟨done, htr, hd⟩ := h.wrote
  refine ⟨⟨done ++ [t], ?_, ?_⟩, hp, hf, hb, fun hn => absurd hnil hn⟩
  · rw [htr, List.append_assoc, List.singleton_append]
  · change s.wrote = _ ++ p.spoken
    rw [hw, hd, hnil, Transcript.sent_append, Transcript.sent_cons]
    simp

/-- **Bytes come to a side**: they are said in the dialogue, or beyond it. -/
theorem Side.comes {rest : Transcript} (h : Side tr p rest u w) {bs : Bytes}
    (he : u ++ w ++ bs = u' ++ w') :
    Side tr { p with coming := p.coming ++ bs } rest u' w' :=
  ⟨h.wrote, by rw [← he, ← h.pending, List.append_assoc], h.flows, h.budget, h.spoken⟩

/-- **A turn leads on**: the side that takes it is nearer to its end. -/
theorem Meets.turn (h : Meets f g E tr ur p q restL restR (t.gets ++ u) v n)
    (hd : Does f p.state t x) {s : Stream} (hw : s.wrote = p.stream.wrote ++ t.said)
    (hu : p.stream.unread = t.gets ++ s.unread) (hf : s.Flows) (hb : s.budget = none) :
    ∃ restL' m, m < n ∧ Meets f g E tr ur { p with state := x, stream := s }
      { q with coming := q.coming ++ t.said } restL' restR u (v ++ t.said) m := by
  obtain ⟨hagree, hleft, hright, hn⟩ := h
  obtain ⟨restL', rfl, hagree'⟩ := hagree.does hd rfl
  have hpending := hleft.pending
  rw [hu, List.append_assoc, List.append_assoc, List.append_right_inj] at hpending
  have hleft' : Side tr { p with state := x, stream := s } restL' u q.spoken :=
    hleft.turn hw hpending hf hb x
  have hright' : Side ur { q with coming := q.coming ++ t.said } restR (v ++ t.said) p.spoken :=
    hright.comes (by simp [hleft.spoken_eq_nil])
  refine ⟨restL', _, ?_, hagree', hleft', hright', rfl⟩
  rw [hn, Transcript.sent_cons, List.length_cons]
  simp only [List.length_append]
  omega

/-- **Going on leads on**: the side that goes on is nearer to its end. -/
theorem Meets.goes (h : Meets f g E tr ur p q restL restR u v n) (hg : Goes f p q p' q') :
    ∃ restL' u' v' m, m < n ∧ Meets f g E tr ur p' q' restL' restR u' v' m := by
  cases hg with
  | @think x hx =>
    obtain ⟨restL', m, hm, h'⟩ := Meets.turn (t := .sent []) (u := u) h (.think hx)
      (List.append_nil _).symm rfl h.left.flows h.left.budget
    exact ⟨restL', u, _, m, hm, by simpa [Turn.said] using h'⟩
  | @send x bs s hx hs =>
    obtain ⟨hw, hfeed, hb⟩ := Stream.send_of_budget h.left.budget hs
    have hf : s.Flows := by
      rw [Stream.Flows, hfeed]
      exact h.left.flows
    have hu : p.stream.unread = s.unread := by rw [Stream.unread, Stream.unread, hfeed]
    obtain ⟨restL', m, hm, h'⟩ := Meets.turn (t := .sent bs) (u := u) h (.send hx) hw hu hf hb
    exact ⟨restL', u, _, m, hm, h'⟩
  | @recv k next r s hx hs =>
    have hl := Stream.leaves_receive hs
    have hpending := h.left.pending
    rw [hl.unread, List.append_assoc] at hpending
    obtain ⟨u', rfl⟩ : ∃ u', u = r.toList ++ u' := h.agree.exists_of_pending hx
      (fun hq => h.agree.symm.rest_of_nil (h.right.spoken hq)) hpending
    have hb : s.budget = none := (Stream.receive_eq_got hs).2.2.2.1.trans h.left.budget
    obtain ⟨restL', m, hm, h'⟩ := Meets.turn (t := .heard r.toList) (u := u') h (.recv hx r)
      hl.wrote hl.unread (hl.flows h.left.flows) hb
    exact ⟨restL', u', _, m, hm, by simpa [Turn.said] using h'⟩
  | @arrive piece rest hc hne =>
    obtain ⟨hagree, hleft, hright, hn⟩ := h
    refine ⟨restL, u, v, _, ?_, hagree, ⟨hleft.wrote, ?_, ?_, hleft.budget, hleft.spoken⟩, hright,
      rfl⟩
    · rw [hn, hc, List.length_append]
      have := List.length_pos_iff.mpr hne
      dsimp only
      omega
    · rw [← hleft.pending, hc]
      simp [Stream.unread]
    · exact List.forall_mem_append.mpr ⟨hleft.flows, by simpa using hne⟩

/-- Going on says nothing beyond the dialogue. -/
theorem Goes.spoken_eq (h : Goes f p q p' q') : p'.spoken = p.spoken ∧ q'.spoken = q.spoken := by
  cases h <;> exact ⟨rfl, rfl⟩

/-- A side that speaks says something. -/
theorem Speaks.spoken_eq {bs : Bytes} (h : Speaks opened p q bs p' q') :
    p'.spoken.length = p.spoken.length + bs.length ∧ q'.spoken = q.spoken ∧ 0 < bs.length := by
  cases h with
  | mk _ hne => exact ⟨List.length_append, rfl, List.length_pos_iff.mpr hne⟩

/-- **Speaking changes nothing in the dialogue.** -/
theorem Meets.speaks (h : Meets f g E tr ur p q restL restR u v n) {bs : Bytes}
    (hs : Speaks opened p q bs p' q') (hopened : ∀ x, opened x → f x = .rest) :
    Meets f g E tr ur p' q' restL restR u v (n + bs.length) := by
  obtain ⟨hagree, hleft, hright, hn⟩ := h
  cases hs with
  | @mk s ho hne hs =>
    obtain ⟨hw, hfeed, hb⟩ := Stream.send_of_budget hleft.budget hs
    have hnil : restL = [] := hagree.eq_nil (hopened _ ho)
    have hleft' : Side tr { p with stream := s, spoken := p.spoken ++ bs } restL u q.spoken := by
      obtain ⟨done, htr, hd⟩ := hleft.wrote
      refine ⟨⟨done, htr, ?_⟩, ?_, ?_, hb, fun _ => hnil⟩
      · change s.wrote = Transcript.sent done ++ (p.spoken ++ bs)
        rw [hw, hd, List.append_assoc]
      · change s.unread ++ p.coming = u ++ q.spoken
        rw [Stream.unread, hfeed]
        exact hleft.pending
      · change s.Flows
        rw [Stream.Flows, hfeed]
        exact hleft.flows
    refine ⟨hagree, hleft', hright.comes (List.append_assoc ..), ?_⟩
    rw [hn, List.length_append]
    dsimp only
    omega

/-- **A run keeps to the way**, and takes no more steps than bytes and turns are left, but for what
is spoken in it. -/
theorem Run.meets {p₀ : Party σ} {q₀ : Party τ} {j n₀ : Nat} {restL₀ restR₀ : Transcript}
    {u₀ v₀ : Bytes} (k : Run f g opened opened' j p₀ q₀ p q)
    (h : Meets f g E tr ur p₀ q₀ restL₀ restR₀ u₀ v₀ n₀)
    (hopened : ∀ x, opened x → f x = .rest) (hopened' : ∀ y, opened' y → g y = .rest) :
    ∃ restL restR u v n, Meets f g E tr ur p q restL restR u v n
      ∧ j + n ≤ n₀ + 2 * (p.spoken.length + q.spoken.length) := by
  induction k with
  | start => exact ⟨_, _, _, _, _, h, by omega⟩
  | left _ hg ih =>
    obtain ⟨restL, restR, u, v, n, hm, hle⟩ := ih h
    obtain ⟨restL', u', v', m, hlt, hm'⟩ := hm.goes hg
    refine ⟨restL', restR, u', v', m, hm', ?_⟩
    rw [hg.spoken_eq.1, hg.spoken_eq.2]
    omega
  | right _ hg ih =>
    obtain ⟨restL, restR, u, v, n, hm, hle⟩ := ih h
    obtain ⟨restR', v', u', m, hlt, hm'⟩ := hm.symm.goes hg
    refine ⟨restL, restR', u', v', m, hm'.symm, ?_⟩
    rw [hg.spoken_eq.1, hg.spoken_eq.2]
    omega
  | leftSpeaks _ hs ih =>
    obtain ⟨restL, restR, u, v, n, hm, hle⟩ := ih h
    obtain ⟨hp, hq, hpos⟩ := hs.spoken_eq
    refine ⟨restL, restR, u, v, _, hm.speaks hs hopened, ?_⟩
    rw [hp, hq]
    omega
  | rightSpeaks _ hs ih =>
    obtain ⟨restL, restR, u, v, n, hm, hle⟩ := ih h
    obtain ⟨hq, hp, hpos⟩ := hs.spoken_eq
    refine ⟨restL, restR, u, v, _, (hm.symm.speaks hs hopened').symm, ?_⟩
    rw [hp, hq]
    omega

/-- **A turn that can be taken is taken**, perhaps after what is under way arrived. -/
theorem Meets.exists_goes (h : Meets f g E tr ur p q restL restR u v n) (ht : Does f p.state t x)
    (hu : u = t.gets ++ u') : ∃ p' q', Goes f p q p' q' := by
  cases ht with
  | think hx => exact ⟨_, _, .think hx⟩
  | send hx => exact ⟨_, _, .send hx (Stream.send_eq_of_budget h.left.budget _)⟩
  | @recv k next hx r =>
    by_cases hk : k ≤ p.stream.unread.length
    · exact ⟨_, _, .recv hx (Prod.ext (h.left.flows.receive_of_le hk).1 rfl)⟩
    · refine ⟨_, _, .arrive (List.append_nil _).symm fun hnil => hk ?_⟩
      have hp := h.left.pending
      rw [hnil, List.append_nil, hu] at hp
      simp [hp, Turn.gets]

/-- **Two sides that meet go on until both are at rest.** -/
theorem Meets.progress (h : Meets f g E tr ur p q restL restR u v n) :
    (∃ p' q', Goes f p q p' q') ∨ (∃ p' q', Goes g q p q' p')
      ∨ f p.state = .rest ∧ g q.state = .rest ∧ p.coming = [] ∧ q.coming = [] := by
  cases h.agree with
  | rest hx hy =>
    by_cases hp : p.coming = []
    · by_cases hq : q.coming = []
      · exact .inr (.inr ⟨hx, hy, hp, hq⟩)
      · exact .inr (.inl ⟨_, _, .arrive (List.append_nil _).symm hq⟩)
    · exact .inl ⟨_, _, .arrive (List.append_nil _).symm hp⟩
  | left ht => exact .inl (h.exists_goes ht rfl)
  | right ht =>
    obtain ⟨q', p', hg⟩ := h.symm.exists_goes ht rfl
    exact .inr (.inl ⟨p', q', hg⟩)

/-- **What is certain once a side is at rest**: how it ends. -/
theorem Meets.ends (h : Meets f g E tr ur p q restL restR u v n) (hx : f p.state = .rest) :
    ∃ u' y' v', Dialogue g q.state restR y' ∧ E p.state u' y' v'
      ∧ u ++ Transcript.sent restR = u' ∧ v = Transcript.heard restR ++ v' := by
  have hnil := h.agree.eq_nil hx
  subst hnil
  obtain ⟨x', u', y', v', hd, hy, he, hu, hv⟩ := h.agree.ends
  obtain rfl := hd.eq
  exact ⟨u', y', v', hy, he, hu, (List.append_nil v).symm.trans hv⟩

end Meeting

end HopTorrent
