import HopTorrent.Chain.Probe
import HopTorrent.Proofs.Chain.Route
import HopTorrent.Proofs.Secrecy.Alike
import HopTorrent.Proofs.Socks.Request

/-!
# Proofs/Secrecy/Dial — dials over transports that behave alike

Two chains whose hops differ in their hosts are dialed over transports that answer alike: what is
heard over their connections is the same, and of two messages in the same place either both are
taken or both are refused in the same way.  Then two dials go alike (`dialWith_alike`), and so do
the checks of the hops and of the whole route (`probeHops_alike`, `probeRoute_alike`): the same
happens at the same times, up to the addresses and the connections, and the same lines are logged.
-/

namespace HopTorrent

/-! ## Activities in time -/

namespace Timeline

variable {ε ε' α β α' β' : Type} {E : ε → ε' → Prop} {A : α → β → Prop} {B : α' → β' → Prop}

/-- **Two activities go alike**: events related by `E` happen in the same order, with the same time
between them, and the results are related by `A`. -/
inductive Alike (E : ε → ε' → Prop) (A : α → β → Prop) : Timeline ε α → Timeline ε' β → Prop
  | done {a : α} {b : β} (h : A a b) : Alike E A (.done a) (.done b)
  | never : Alike E A .never .never
  | note {e : ε} {e' : ε'} {t : Timeline ε α} {t' : Timeline ε' β} (he : E e e')
      (h : Alike E A t t') : Alike E A (.note e t) (.note e' t')
  | wait {ms : Nat} {t : Unit → Timeline ε α} {t' : Unit → Timeline ε' β}
      (h : ∀ u, Alike E A (t u) (t' u)) : Alike E A (.wait ms t) (.wait ms t')

variable {t : Timeline ε α} {t' : Timeline ε' β}

/-- **Activities that go alike go on alike.** -/
theorem Alike.bind {f : α → Timeline ε α'} {f' : β → Timeline ε' β'} (h : Alike E A t t')
    (hf : ∀ a b, A a b → Alike E B (f a) (f' b)) : Alike E B (t.bind f) (t'.bind f') := by
  induction h with
  | done h => exact hf _ _ h
  | never => exact .never
  | note he _ ih => exact .note he ih
  | wait _ ih => exact .wait ih

theorem Alike.map {f : α → α'} {f' : β → β'} (h : Alike E A t t')
    (hf : ∀ a b, A a b → B (f a) (f' b)) : Alike E B (t.map f) (t'.map f') :=
  h.bind fun a b hab => .done (hf a b hab)

/-- Activities that go alike are cut off alike. -/
theorem Alike.within (h : Alike E A t t') (limit : Nat) :
    Alike E (Option.Rel A) (t.within limit) (t'.within limit) := by
  induction h generalizing limit with
  | done h => exact .done (.some h)
  | never => exact .wait fun _ => .done .none
  | note he _ ih => exact .note he (ih limit)
  | @wait ms t t' _ ih =>
    rw [Timeline.within, Timeline.within]
    split
    · exact .wait fun u => ih u _
    · exact .wait fun _ => .done .none

/-- Two things happen at the same time, and are related. -/
def AtOnce (A : α → β → Prop) (x : Nat × α) (y : Nat × β) : Prop := x.1 = y.1 ∧ A x.2 y.2

/-- **What happens in activities that go alike.** -/
theorem Alike.run (h : Alike E A t t') (now : Nat) :
    List.Forall₂ (AtOnce E) (t.run now).events (t'.run now).events
      ∧ Option.Rel (AtOnce A) (t.run now).result (t'.run now).result := by
  induction h generalizing now with
  | done h => exact ⟨.nil, .some ⟨rfl, h⟩⟩
  | never => exact ⟨.nil, .none⟩
  | note he _ ih => exact ⟨.cons ⟨rfl, he⟩ (ih now).1, (ih now).2⟩
  | wait _ ih => exact ih () _

end Timeline

/-! ## Dialogues -/

namespace Exchange

variable {α β α' β' : Type}

/-- **Two dialogues are alike**: messages are said and awaited in the same places, and what breaks
them off breaks them off alike. -/
inductive Alike : Exchange α → Exchange β → Prop
  | done {a : α} {b : β} : Alike (.done a) (.done b)
  | fail {e e' : Error} (h : e.Alike e') : Alike (.fail e) (.fail e')
  | send {bs bs' : Bytes} {onFault onFault' : Stream.Fault → Error} {next : Exchange α}
      {next' : Exchange β} (hf : ∀ f, (onFault f).Alike (onFault' f)) (h : Alike next next') :
    Alike (.send bs onFault next) (.send bs' onFault' next')
  | recv {n : Nat} {onFault onFault' : Stream.Fault → Error} {next : Vector UInt8 n → Exchange α}
      {next' : Vector UInt8 n → Exchange β} (hf : ∀ f, (onFault f).Alike (onFault' f))
      (h : ∀ r, Alike (next r) (next' r)) :
    Alike (.recv n onFault next) (.recv n onFault' next')

theorem Alike.refl (x : Exchange α) : x.Alike x := by
  induction x with
  | done a => exact .done
  | fail e => exact .fail (.refl e)
  | send _ _ _ ih => exact .send (fun _ => .refl _) ih
  | recv _ _ _ ih => exact .recv (fun _ => .refl _) ih

theorem Alike.bind {x : Exchange α} {x' : Exchange β} {f : α → Exchange α'} {f' : β → Exchange β'}
    (h : x.Alike x') (hf : ∀ a b, (f a).Alike (f' b)) : (x.bind f).Alike (x'.bind f') := by
  induction h with
  | done => exact hf _ _
  | fail h => exact .fail h
  | send hf _ ih => exact .send hf ih
  | recv hf _ ih => exact .recv hf ih

/-- **The messages of two dialogues meet the same fate** over two streams: each two of them in the
same place are both taken or both refused in the same way. -/
def SameFate : Exchange α → Exchange β → Stream → Stream → Prop
  | .send bs _ next, .send bs' _ next', s, s' =>
    (s.send bs).1 = (s'.send bs').1
      ∧ ((s.send bs).1 = none → SameFate next next' (s.send bs).2 (s'.send bs').2)
  | .recv n _ next, .recv n' _ next', s, s' =>
    ∀ r r', (s.receive n).1 = .got r → (s'.receive n').1 = .got r' →
      SameFate (next r) (next' r') (s.receive n).2 (s'.receive n').2
  | _, _, _, _ => True

end Exchange

/-- **Two streams give the same to hear**, in the same time; what they make of what is written, and
what was written, may differ. -/
def Stream.SameToHear (s s' : Stream) : Prop :=
  ∃ budget stalls wrote, s' = { s with budget, stalls, wrote }

/-- Streams that give the same to hear take the same time for it. -/
theorem Stream.SameToHear.pause {s s' : Stream} (h : s.SameToHear s') : s.pause = s'.pause := by
  obtain ⟨_, _, _, rfl⟩ := h
  rfl

/-- Streams that give the same to hear do so after a message. -/
theorem Stream.SameToHear.send {s s' : Stream} (h : s.SameToHear s') (bs bs' : Bytes) :
    (s.send bs).2.SameToHear (s'.send bs').2 := by
  have after (s : Stream) (bs : Bytes) : ∃ budget wrote,
      (s.send bs).2 = { s with budget, wrote, pauses := s.pauses.tail } := by
    rw [Stream.send]
    split
    · exact ⟨_, _, rfl⟩
    · split <;> exact ⟨_, _, rfl⟩
  obtain ⟨_, stalls, _, rfl⟩ := h
  obtain ⟨_, _, he⟩ := after s bs
  obtain ⟨b, w, he'⟩ := after { s with budget := _, stalls, wrote := _ } bs'
  rw [he, he']
  exact ⟨b, stalls, w, rfl⟩

/-- Over streams that give the same to hear the same is heard, and they go on so. -/
theorem Stream.SameToHear.receive {s s' : Stream} (h : s.SameToHear s') (n : Nat) :
    (s.receive n).1 = (s'.receive n).1 ∧ (s.receive n).2.SameToHear (s'.receive n).2 := by
  obtain ⟨budget, stalls, wrote, rfl⟩ := h
  rw [Stream.receive, Stream.receive]
  dsimp only
  split
  · exact ⟨rfl, _, _, _, rfl⟩
  · split
    · exact ⟨rfl, _, _, _, rfl⟩
    · exact ⟨rfl, _, _, _, rfl⟩

/-- **Peers that take everything** treat all messages in the same way. -/
theorem Exchange.sameFate_of_unlimited {α β : Type} (x : Exchange α) (x' : Exchange β)
    {s s' : Stream} (h : s.budget = none) (h' : s'.budget = none) : x.SameFate x' s s' := by
  have sent {s : Stream} (h : s.budget = none) (bs : Bytes) :
      (s.send bs).1 = none ∧ (s.send bs).2.budget = none := by
    rw [Stream.send, h]
    exact ⟨rfl, rfl⟩
  have received {s : Stream} (h : s.budget = none) (n : Nat) : (s.receive n).2.budget = none := by
    rw [Stream.receive]
    split
    · exact h
    · split <;> exact h
  induction x generalizing x' s s' with
  | done | fail => trivial
  | send bs _ next ih =>
    cases x' with
    | send bs' _ next' =>
      exact ⟨(sent h bs).1.trans (sent h' bs').1.symm,
        fun _ => ih _ (sent h bs).2 (sent h' bs').2⟩
    | _ => trivial
  | recv n _ next ih =>
    cases x' with
    | recv n' _ next' => exact fun r r' _ _ => ih r _ (received h n) (received h' n')
    | _ => trivial

/-! ## What can be seen of a dial -/

/-- Two events of dials are of one kind, whatever the addresses and the connections; lines are the
same. -/
inductive DialEvent.Alike : DialEvent → DialEvent → Prop
  | dialed {n n' a a' : String} : Alike (.dialed n a) (.dialed n' a')
  | refused : Alike .refused .refused
  | opened {s s' : Stream} : Alike (.opened s) (.opened s')
  | logged {l : Log.Line} : Alike (.logged l) (.logged l)

/-- **Two dials go alike.** -/
abbrev Dial.Alike {α β : Type} (d : Dial α) (d' : Dial β) : Prop :=
  Timeline.Alike DialEvent.Alike (Concur fun _ _ => True) d d'

/-- Two dials go alike, and the connections they come to give the same to hear. -/
abbrev Dial.OpensAlike (d d' : Dial Stream) : Prop :=
  Timeline.Alike DialEvent.Alike (Concur Stream.SameToHear) d d'

/-- **Events that are alike tell of the same lines.** -/
theorem DialEvent.lines_eq {es es' : List (Nat × DialEvent)}
    (h : List.Forall₂ (Timeline.AtOnce DialEvent.Alike) es es') : lines es = lines es' := by
  induction h with
  | nil => rfl
  | @cons x y xs ys hxy _ ih =>
    obtain ⟨i, e⟩ := x
    obtain ⟨_, e'⟩ := y
    obtain ⟨-, he⟩ := hxy
    cases he with
    | dialed | refused | opened => exact ih
    | logged => exact congrArg (List.cons _) ih

/-- One more event, seen after equally many dials, leaves equally many. -/
theorem DialCall.length_observe {calls calls' : List DialCall} (hl : calls.length = calls'.length)
    {x y : Nat × DialEvent} (h : Timeline.AtOnce DialEvent.Alike x y) :
    (observe calls x).length = (observe calls' y).length := by
  obtain ⟨i, e⟩ := x
  obtain ⟨_, e'⟩ := y
  obtain ⟨-, he⟩ := h
  cases he with
  | dialed => exact congrArg Nat.succ hl
  | logged => exact hl
  | refused | opened =>
    match calls, calls', hl with
    | [], [], _ => rfl
    | _ :: _, _ :: _, hl => exact hl

/-- **Events that are alike tell of equally many dials.** -/
theorem DialCall.length_ofEvents {es es' : List (Nat × DialEvent)}
    (h : List.Forall₂ (Timeline.AtOnce DialEvent.Alike) es es') :
    (ofEvents es).length = (ofEvents es').length := by
  have go : ∀ {calls calls' : List DialCall}, calls.length = calls'.length →
      (es.foldl observe calls).length = (es'.foldl observe calls').length := by
    induction h with
    | nil => exact fun hl => hl
    | cons hxy _ ih => exact fun hl => ih (length_observe hl hxy)
  rw [ofEvents, ofEvents, List.length_reverse, List.length_reverse]
  exact go rfl

namespace Dial

/-- Dials that go alike are bounded in time alike. -/
theorem timed_alike {α β : Type} {A : α → β → Prop} {d : Dial α} {d' : Dial β}
    (h : Timeline.Alike DialEvent.Alike (Concur A) d d') (limit : Nat) :
    Timeline.Alike DialEvent.Alike (Concur A) (d.timed limit) (d'.timed limit) :=
  (h.within limit).map fun _ _ hr => by
    cases hr with
    | some hr => exact hr
    | none => exact .error (.refl _)

/-- **Dialogues that are alike go alike** over streams that give the same to hear, if their messages
meet the same fate. -/
theorem converse_alike {x x' : Exchange Unit} (h : x.Alike x') {s s' : Stream}
    (hs : s.SameToHear s') (hm : x.SameFate x' s s') :
    Dial.OpensAlike (converse x s) (converse x' s') := by
  induction h generalizing s s' with
  | done => exact .done (.ok hs)
  | fail h => exact .done (.error h)
  | @send bs bs' onFault onFault' next next' hf _ ih =>
    obtain ⟨hfate, hrest⟩ := hm
    have hafter := hs.send bs bs'
    rw [converse, converse, hs.pause]
    refine .wait fun _ => ?_
    rcases hq : s.send bs with ⟨_ | f, t⟩ <;> rcases hq' : s'.send bs' with ⟨_ | f', t'⟩ <;>
      rw [hq] at hfate hrest hafter <;> rw [hq'] at hfate hrest hafter
    · exact .note .opened (ih hafter (hrest rfl))
    · cases hfate
    · cases hfate
    · cases hfate
      exact .note .opened (.done (.error (hf f)))
  | @recv n onFault onFault' next next' hf _ ih =>
    obtain ⟨hheard, hafter⟩ := hs.receive n
    rw [converse, converse, hs.pause]
    refine .wait fun _ => ?_
    have hm' : ∀ r r', (s.receive n).1 = .got r → (s'.receive n).1 = .got r' →
      (next r).SameFate (next' r') (s.receive n).2 (s'.receive n).2 := hm
    rcases hq : s.receive n with ⟨r, t⟩
    rcases hq' : s'.receive n with ⟨r', t'⟩
    rw [hq, hq'] at hheard hafter hm'
    obtain rfl : r = r' := hheard
    cases r with
    | got r => exact .note .opened (ih r hafter (hm' r r rfl rfl))
    | fault f => exact .note .opened (.done (.error (hf f)))
    | pending => exact .note .opened .never

/-- Dials that go alike go on alike. -/
theorem andThen_alike {α β α' β' : Type} {A : α → β → Prop} {B : α' → β' → Prop} {d : Dial α}
    {d' : Dial β} {f : α → Dial α'} {f' : β → Dial β'}
    (h : Timeline.Alike DialEvent.Alike (Concur A) d d')
    (hf : ∀ a b, A a b → Timeline.Alike DialEvent.Alike (Concur B) (f a) (f' b)) :
    Timeline.Alike DialEvent.Alike (Concur B) (d.andThen f) (d'.andThen f') :=
  h.bind fun _ _ hr => by
    cases hr with
    | ok h => exact hf _ _ h
    | error h => exact .done (.error h)

end Dial

/-! ## Handshakes -/

namespace Socks

variable {a a' : String} {auth auth' : Option Credentials}

/-- Credentials fit into a message alike, or there are none. -/
abbrev FitAlike : Option Credentials → Option Credentials → Prop :=
  Option.Rel fun c c' => c.fits = c'.fits

/-- Names and passwords that fit alike are sent alike. -/
theorem authenticate_alike {c c' : Credentials} (hc : c.fits = c'.fits) {x x' : Exchange Unit}
    (hx : x.Alike x') : (authenticate c x).Alike (authenticate c' x') := by
  rw [authenticate, authenticate, ← hc]
  split
  · refine .send (fun _ => .refl _) (.recv (fun _ => .refl _) fun r => ?_)
    dsimp only
    split
    · exact .refl _
    · exact hx
  · exact .refl _

/-- Dialogues stay alike in whatever way the proxies choose. -/
theorem proceed_alike (hc : FitAlike auth auth') (bytes bytes' : Bytes) (v method : UInt8) :
    (proceed auth bytes v method).Alike (proceed auth' bytes' v method) := by
  have hr : (request bytes).Alike (request bytes') := .send (fun _ => .refl _) (.refl _)
  unfold proceed
  split
  · exact .refl _
  split
  · exact hr
  cases hc with
  | none => exact .refl _
  | @some c c' hfits =>
    dsimp only
    split
    · exact authenticate_alike hfits hr
    · exact .refl _

/-- **Requests for addresses that are encodable alike** are made in dialogues that are alike. -/
theorem connect_alike (ha : Encodable a ↔ Encodable a') (hc : FitAlike auth auth') :
    (connect a auth).Alike (connect a' auth') := by
  rw [connect, connect]
  cases hq : connectRequest a with
  | ok bytes =>
    obtain ⟨bytes', hq'⟩ := ha.mp ⟨bytes, hq⟩
    rw [hq']
    exact .send (fun _ => .refl _) (.recv (fun _ => .refl _) fun r => proceed_alike hc _ _ _ _)
  | error e =>
    cases hq' : connectRequest a' with
    | ok bytes' =>
      obtain ⟨bytes, hq⟩ := ha.mpr ⟨bytes', hq'⟩
      simp_all
    | error e' =>
      obtain ⟨_, rfl⟩ := connectRequest_error hq
      obtain ⟨_, rfl⟩ := connectRequest_error hq'
      exact .fail rfl

/-- **Handshakes for targets that are encodable alike** are dialogues that are alike. -/
theorem handshakes_alike {targets targets' : List String}
    (h : targets.Forall₂ (fun a a' => Encodable a ↔ Encodable a') targets')
    (hc : FitAlike auth auth') : (handshakes auth targets).Alike (handshakes auth' targets') := by
  induction h with
  | nil => exact .done
  | cons ha _ ih => exact (connect_alike ha hc).bind fun _ _ => ih

end Socks

/-! ## Transports that answer alike -/

/-- **Two answers of the transport are alike** to those who hold two dialogues over the connections:
none comes, or alike errors come, or connections over which the same is heard and the messages meet
the same fate; and they come at the same time. -/
inductive Answer.Alike (x x' : Exchange Unit) : Answer → Answer → Prop
  | never : Alike x x' .never .never
  | refused {ms : Nat} {e e' : Error} (h : e.Alike e') :
    Alike x x' (.after ms (.error e)) (.after ms (.error e'))
  | opened {ms : Nat} {s s' : Stream} (h : s.SameToHear s') (hm : x.SameFate x' s s') :
    Alike x x' (.after ms (.ok s)) (.after ms (.ok s'))

/-- **A dialogue after a dial of the transport**: both go alike if the transport answers alike. -/
theorem Dialer.base_andThen_alike {t t' : Transport} {index index' : Nat}
    {network first first' : String} {x x' : Exchange Unit} (hx : x.Alike x')
    (h : Answer.Alike x x' (t index network first) (t' index' network first')) :
    Dial.OpensAlike ((base.dial t index network first).andThen (Dial.converse x))
      ((base.dial t' index' network first').andThen (Dial.converse x')) := by
  refine Dial.andThen_alike (A := fun s s' => s.SameToHear s' ∧ x.SameFate x' s s') ?_
    fun s s' hs => Dial.converse_alike hx hs.1 hs.2
  rw [dial, dial]
  refine .note .dialed ?_
  generalize t index network first = r at h ⊢
  generalize t' index' network first' = r' at h ⊢
  cases h with
  | never => exact .never
  | refused h => exact .wait fun _ => .note .refused (.done (.error h))
  | opened h hm => exact .wait fun _ => .note .opened (.done (.ok ⟨h, hm⟩))

/-! ## Chains that are alike -/

/-- The text after the last colon of an endpoint. -/
def portText (a : String) : Option (List Char) := (Text.cutLast ':' a.toList).map Prod.snd

/-- **Of a hop only the port is shown.** -/
theorem Redacted.hop_eq {a a' : String} (h : portText a = portText a') : hop a = hop a' := by
  have shown (a : String) : hop a = (portText a).elim "[hop]" fun port =>
      if (Text.natural? Text.max16 port).isSome then "[hop]:" ++ String.ofList port else "[hop]" := by
    rw [hop, portText]
    cases Text.cutLast ':' a.toList <;> rfl
  rw [shown, shown, h]

namespace Chain

/-- Two hops differ in their hosts only. -/
def HopAlike (a a' : String) : Prop := portText a = portText a'

instance : DecidableRel HopAlike :=
  fun a a' => inferInstanceAs (Decidable (portText a = portText a'))

/-- Changing places does not look at the elements. -/
theorem swap_map {α β : Type} (f : α → β) (xs : List α) (i j : Nat) :
    swap (xs.map f) i j = (swap xs i j).map f := by
  rw [swap, swap, List.getElem?_map, List.getElem?_map]
  cases xs[i]? <;> cases xs[j]? <;> simp

/-- **A drawn order does not look at the elements.** -/
theorem shuffle_map {α β : Type} (f : α → β) (draws : Draws) (xs : List α) :
    shuffle draws (xs.map f) = (shuffle draws xs).map f := by
  have go (i : Nat) (xs : List α) :
      shuffleFrom draws i (xs.map f) = (shuffleFrom draws i xs).map f := by
    induction i generalizing xs with
    | zero => rfl
    | succ i ih => rw [shuffleFrom, shuffleFrom, swap_map, ih]
  rw [shuffle, shuffle, List.length_map, go]

/-- Lists that correspond do so in an order drawn for both. -/
theorem shuffle_alike {α β : Type} {A : α → β → Prop} {xs : List α} {ys : List β}
    (h : List.Forall₂ A xs ys) (draws : Draws) :
    List.Forall₂ A (shuffle draws xs) (shuffle draws ys) := by
  obtain ⟨zs, hz, rfl, rfl⟩ := exists_pairs_of_forall₂ h
  rw [shuffle_map, shuffle_map]
  exact forall₂_of_pairs fun z hm => hz z ((shuffleFrom_perm _ _ _).mem_iff.mp hm)

namespace Setup

/-- **Two setups are alike** when they differ in the hosts of hops that are alike, in the address
that a check must reach, and in credentials that fit alike; their transports are another matter. -/
structure Alike (s s' : Setup) : Prop where
  hops : List.Forall₂ HopAlike s.chain.hops s'.chain.hops
  policy : ∃ probe, s'.policy = { s.policy with probeAddress := probe }
  encodable : Socks.Encodable s.policy.probeAddress ↔ Socks.Encodable s'.policy.probeAddress
  draws : s.random.draws = s'.random.draws
  fits : ∀ i, (s.random.credentials i).fits = (s'.random.credentials i).fits

/-- **Two setups are dialed alike** when, moreover, each two hops in the same place can be asked for
alike: a dial asks every proxy of a route for the next hop, a check asks for none. -/
structure AlikeDialed (s s' : Setup) : Prop extends Alike s s' where
  asked : List.Forall₂ (fun a a' => Socks.Encodable a ↔ Socks.Encodable a') s.chain.hops
    s'.chain.hops

/-- **Two transports answer alike in dials** of two targets, whichever attempts these make. -/
def AnswerDial (s s' : Setup) (attempts : Nat) (network target target' : String) : Prop :=
  ∀ i first rest first' rest', 1 ≤ i → i ≤ attempts →
    s.route i = first :: rest → s'.route i = first' :: rest' →
    Answer.Alike (Socks.handshakes (s.auth i) (rest ++ [target]))
      (Socks.handshakes (s'.auth i) (rest' ++ [target']))
      (s.transport (s.offset + (i - 1)) network first)
      (s'.transport (s'.offset + (i - 1)) network first')

/-- **Two transports answer alike in checks of the hops.** -/
def AnswerProbes (s s' : Setup) : Prop :=
  ∀ i hop hop', s.chain.hops[i]? = some hop → s'.chain.hops[i]? = some hop' →
    Answer.Alike (Socks.connect s.policy.probeAddress none)
      (Socks.connect s'.policy.probeAddress none)
      (s.transport (s.offset + i) "tcp" hop) (s'.transport (s'.offset + i) "tcp" hop')

variable {s s' : Setup} {network target target' : String} {attempts : Nat}

section

variable (h : s.Alike s')

include h

theorem Alike.auth (i : Nat) : Socks.FitAlike (s.auth i) (s'.auth i) := by
  obtain ⟨_, hp⟩ := h.policy
  rw [Setup.auth, Setup.auth, hp]
  split
  · exact .some (h.fits i)
  · exact .none

/-- Routes through chains that are alike correspond. -/
theorem Alike.route (i : Nat) : List.Forall₂ HopAlike (s.route i) (s'.route i) := by
  rw [Setup.route, Setup.route, permuted, permuted, h.draws]
  exact shuffle_alike h.hops _

/-- What is logged of an attempt that succeeded. -/
theorem established_eq (i : Nat) : s.established i = s'.established i := by
  rw [established, established, (h.route i).length_eq]

/-- After attempts that go alike two dials end alike, or go on as they do after alike errors. -/
theorem attempt_bind_alike {i : Nat}
    (ha : Dial.OpensAlike (s.attempt network target i) (s'.attempt network target' i))
    (budget : Nat) {next next' : Error → Dial Stream}
    (hnext : ∀ e e', e.Alike e' → Dial.OpensAlike (next e) (next' e')) :
    Dial.OpensAlike
      ((s.attempt network target i).bind fun
        | .ok stream => Dial.log (s.established i) (.done (.ok stream))
        | .error e =>
          if e.retryable then Dial.log (attemptFailed i budget e) (next e) else .done (.error e))
      ((s'.attempt network target' i).bind fun
        | .ok stream => Dial.log (s'.established i) (.done (.ok stream))
        | .error e =>
          if e.retryable then Dial.log (attemptFailed i budget e) (next' e)
          else .done (.error e)) := by
  refine ha.bind fun r r' hr => ?_
  cases hr with
  | ok hs =>
    dsimp only
    rw [Dial.log, Dial.log, established_eq h]
    exact .note .logged (.done (.ok hs))
  | @error e e' he =>
    dsimp only
    rw [← he.retryable_eq, attemptFailed, attemptFailed, he.message_eq]
    split
    · exact .note .logged (hnext e e' he)
    · exact .done (.error he)

omit h in
/-- Connections that give the same to hear are closed alike. -/
theorem closing_alike {t t' : Stream} (ht : t.SameToHear t') :
    Dial.Alike (closing t) (closing t') := by
  rw [closing, closing, ht.pause]
  exact .wait fun _ => .note .opened (.done (.ok trivial))

/-- **Checks of hops in the same place go alike.** -/
theorem probeHop_alike (ha : s.AnswerProbes s') {i : Nat} {hop hop' : String}
    (hi : s.chain.hops[i]? = some hop) (hi' : s'.chain.hops[i]? = some hop') :
    Dial.Alike (s.probeHop i hop) (s'.probeHop i hop') := by
  have hn : checkNetwork "tcp" = .ok () := rfl
  rw [probeHop, probeHop, Dialer.dial_hop hn, Dialer.dial_hop hn]
  have hx : (Socks.connect s.policy.probeAddress none).Alike
      (Socks.connect s'.policy.probeAddress none) := Socks.connect_alike h.encodable .none
  have hd := Dial.andThen_alike (Dialer.base_andThen_alike hx (ha i hop hop' hi hi'))
    fun _ _ ht => closing_alike ht
  obtain ⟨_, hp⟩ := h.policy
  rw [hp] at hd ⊢
  exact Dial.timed_alike hd _

/-- **Checks of all hops go alike.** -/
theorem probeHops_alike (ha : s.AnswerProbes s') : Dial.Alike s.probeHops s'.probeHops := by
  -- the hops still to be checked are those behind the `i`-th
  have go : ∀ {hops hops' : List String} {i : Nat}, List.Forall₂ HopAlike hops hops' →
      hops = s.chain.hops.drop i → hops' = s'.chain.hops.drop i →
      Dial.Alike (s.probeFrom i hops) (s'.probeFrom i hops') := by
    intro hops hops' i hh
    induction hh generalizing i with
    | nil => exact fun _ _ => .done (.ok trivial)
    | @cons hop hop' rest rest' hhop _ ih =>
      intro hd hd'
      have at_ {xs : List String} {x : String} {ys : List String} (hx : x :: ys = xs.drop i) :
          xs[i]? = some x ∧ ys = xs.drop (i + 1) := by
        rw [← List.head?_drop, ← List.tail_drop, ← hx]
        exact ⟨rfl, rfl⟩
      rw [probeFrom, probeFrom]
      refine (probeHop_alike h ha (at_ hd).1 (at_ hd').1).bind fun r r' hr => ?_
      cases hr with
      | ok => exact ih (at_ hd).2 (at_ hd').2
      | error he =>
        dsimp only
        rw [hopUnreachable, hopUnreachable, Redacted.hop_eq hhop, he.message_eq]
        exact .note .logged (.done (.error rfl))
  exact go h.hops List.drop_zero.symm List.drop_zero.symm

omit h in
/-- What is said of a chain does not depend on the texts of an error. -/
theorem healthOf_wordless (e : Error) : s.healthOf (.error e.wordless) = s.healthOf (.error e) := by
  cases e <;> rfl

/-- Checks that come out alike say the same about the chains. -/
theorem healthOf_eq {r r' : Except Error Unit} (hr : Concur (fun _ _ => True) r r') :
    s.healthOf r = s'.healthOf r' := by
  have hl : s.chain.length = s'.chain.length := h.hops.length_eq
  cases hr with
  | ok => rw [healthOf, healthOf, hl]
  | @error e e' he =>
    rw [← healthOf_wordless e, he, ← healthOf_wordless e']
    cases e' <;> simp only [Error.wordless, healthOf, hl]

/-- **The state of two chains** is the same, found in the same time. -/
theorem health_alike (ha : s.AnswerProbes s') :
    Timeline.Alike DialEvent.Alike Eq s.health s'.health :=
  (probeHops_alike h ha).map fun _ _ hr => healthOf_eq h hr

end

section

variable (h : s.AlikeDialed s')

include h

/-- Each two proxies in the same place of two routes can be asked for alike. -/
theorem AlikeDialed.route_asked (i : Nat) :
    List.Forall₂ (fun a a' => Socks.Encodable a ↔ Socks.Encodable a') (s.route i) (s'.route i) := by
  rw [Setup.route, Setup.route, permuted, permuted, h.draws]
  exact shuffle_alike h.asked _

/-- **Attempts go alike.** -/
theorem attempt_alike (hn : checkNetwork network = .ok ())
    (ht : Socks.Encodable target ↔ Socks.Encodable target')
    (ha : s.AnswerDial s' attempts network target target') {i : Nat} (hi : 1 ≤ i)
    (hle : i ≤ attempts) :
    Dial.OpensAlike (s.attempt network target i) (s'.attempt network target' i) := by
  obtain ⟨first, rest, hr, -⟩ := s.exists_route i
  obtain ⟨first', rest', hr', -⟩ := s'.exists_route i
  have hroute := h.route_asked i
  rw [hr, hr'] at hroute
  obtain ⟨-, hrest⟩ := List.forall₂_cons.mp hroute
  obtain ⟨_, hp⟩ := h.policy
  rw [attempt_eq hr, attempt_eq hr', Dialer.compose_dial hn, Dialer.compose_dial hn, hp]
  refine Dial.timed_alike (Dialer.base_andThen_alike ?_ (ha i _ _ _ _ hi hle hr hr')) _
  exact Socks.handshakes_alike
    (List.rel_append hrest (.cons ht .nil)) (h.auth i)

/-- The attempts of two dials go alike, one after another. -/
theorem attemptsFrom_alike (hn : checkNetwork network = .ok ())
    (ht : Socks.Encodable target ↔ Socks.Encodable target')
    (ha : s.AnswerDial s' attempts network target target') {left i : Nat} (hi : 1 ≤ i)
    (hle : i + left ≤ attempts) :
    Dial.OpensAlike (s.attemptsFrom network target attempts left i)
      (s'.attemptsFrom network target' attempts left i) := by
  induction left generalizing i with
  | zero =>
    exact attempt_bind_alike h.toAlike (attempt_alike h hn ht ha hi hle) attempts
      fun e e' he => .done (.error (he.dial attempts))
  | succ left ih =>
    have hstep := attempt_alike h hn ht ha hi (Nat.le_trans (Nat.le_add_right _ _) hle)
    refine attempt_bind_alike h.toAlike hstep attempts fun e e' he => ?_
    obtain ⟨_, hp⟩ := h.policy
    rw [hp]
    exact .wait fun _ => ih (Nat.le_succ_of_le hi) (by omega)

/-- **Dials with an explicit number of attempts go alike.** -/
theorem dialWith_alike (ht : Socks.Encodable target ↔ Socks.Encodable target')
    (ha : s.AnswerDial s' attempts network target target') :
    Dial.OpensAlike (s.dialWith network target attempts)
      (s'.dialWith network target' attempts) := by
  cases attempts with
  | zero => exact .done (.error (.refl _))
  | succ left =>
    rw [dialWith, dialWith]
    cases hn : checkNetwork network with
    | error e => exact .done (.error (.refl e))
    | ok => exact attemptsFrom_alike h hn ht ha (Nat.le_refl 1) (Nat.le_of_eq (Nat.add_comm _ _))

/-- **Dials that are cancelled at the same time go alike.** -/
theorem dialUntil_alike (ht : Socks.Encodable target ↔ Socks.Encodable target')
    (ha : s.AnswerDial s' s.policy.maxAttempts network target target') (cancelAt : Option Nat) :
    Dial.OpensAlike (s.dialUntil cancelAt network target)
      (s'.dialUntil cancelAt network target') := by
  have hd : Dial.OpensAlike (s.dial network target) (s'.dial network target') := by
    obtain ⟨_, hp⟩ := h.policy
    rw [dial, dial, hp]
    exact dialWith_alike h ht ha
  match cancelAt with
  | none => exact hd
  | some 0 => exact .done (.error (.refl _))
  | some (c + 1) =>
    refine (hd.within (c + 1)).map fun _ _ hr => ?_
    cases hr with
    | some hr => exact hr
    | none => exact .error (.refl _)

/-- **Checks of the whole route go alike.** -/
theorem probeRoute_alike
    (ha : s.AnswerDial s' 1 "tcp" s.policy.probeAddress s'.policy.probeAddress) :
    Dial.Alike s.probeRoute s'.probeRoute :=
  Dial.andThen_alike (dialWith_alike h h.encodable ha) fun _ _ ht => closing_alike ht

end

/-! ### Two chains with different secrets -/

/-- Two hops, and a transport that fails at first; later a proxy answers that refuses whatever it is
asked for. -/
def unlucky (first second : String) (h : ([first, second].all Address.accepts) = true)
    (why probe : String) (c : Socks.Credentials) : Setup where
  chain := ⟨[first, second], List.cons_ne_nil _ _, List.all_eq_true.mp h⟩
  policy := ⟨2, 10, 1000, probe, true⟩
  transport n _ _ :=
    if n = 0 then .after 3 (.error (.network why))
    else .after 3 (.ok ⟨[[5, 0], [5, 2, 0, 1]], .eof, none, false, [], false, []⟩)
  random := ⟨fun _ _ => 0, fun _ => c⟩
  offset := 0

/-- One set of secrets. -/
def onion : Setup :=
  unlucky "tor:9050" "i2p:4447" (by decide) "tor is down" "probe:80" ⟨"user", "password"⟩

/-- Another set. -/
def garlic : Setup :=
  unlucky "10.0.0.7:9050" "[::1]:4447" (by decide) "no route" "1.1.1.1:80" ⟨"me", "secret"⟩

theorem onion_alike : onion.AlikeDialed garlic where
  hops := .cons (by decide) (.cons (by decide) .nil)
  policy := ⟨_, rfl⟩
  encodable := by decide
  draws := rfl
  fits _ := by
    show Socks.Credentials.fits ⟨"user", "password"⟩ = Socks.Credentials.fits ⟨"me", "secret"⟩
    decide
  asked := .cons (by decide) (.cons (by decide) .nil)

/-- The two transports answer alike, whoever asks. -/
theorem onion_answers (x x' : Exchange Unit) (n : Nat) (network a a' : String) :
    Answer.Alike x x' (onion.transport n network a) (garlic.transport n network a') := by
  show Answer.Alike x x' (if n = 0 then _ else _) (if n = 0 then _ else _)
  split
  · exact .refused rfl
  · exact .opened ⟨_, _, _, rfl⟩ (Exchange.sameFate_of_unlimited _ _ rfl rfl)

end Setup

end Chain

end HopTorrent
