import HopTorrent.Proofs.Socks.Ingress.Asks
import HopTorrent.Proofs.Stream.Relay

/-!
# Proofs/Socks/Ingress/Serve — what becomes of a client

A client that asks for a target has it dialed, once; any other has nothing dialed.  What it is told
before anything is passed on is decided by the beginning of what it says (`Says`), and by nothing
else but the dialer's answer.  Behind that the two connections are joined at the first byte that the
client said after its request (`serve_governed`).
-/

namespace HopTorrent.Socks.Ingress

variable {dial : String → String → Option (Except Error Stream)} {offer rest said : Bytes}
  {target : String} {kind : UInt8} {s t : Stream}

/-! ## What a client is told -/

/-- What a client is told of the target that was dialed for it. -/
def told : Option (Except Error Stream) → Bytes
  | none => []
  | some (.error _) => reply generalFailure
  | some (.ok _) => reply succeeded

/-- **What a client is told that came in**, by the beginning of what it says then. -/
inductive Replies (dial : String → String → Option (Except Error Stream)) : Bytes → Bytes → Prop
  /-- It requests a target. -/
  | asks {request : Bytes} {target : String} (rest : Bytes) (hr : Requests request target) :
    Replies dial (request ++ rest) (told (dial "tcp" target))
  /-- It wants something else than to connect. -/
  | command {command reserved kind : UInt8} (rest : Bytes) (hc : command ≠ connectCommand) :
    Replies dial ([version, command, reserved, kind] ++ rest) (reply commandNotSupported)
  /-- It names a host of no known kind. -/
  | address {reserved kind : UInt8} (rest : Bytes) (hk : kind ∉ [ipv4, domain, ipv6]) :
    Replies dial ([version, connectCommand, reserved, kind] ++ rest) (reply addressNotSupported)
  /-- It has not requested anything, and cannot with these bytes if there are enough of them. -/
  | nothing {offer : Bytes} (hr : ∀ request target, Requests request target → ¬ request <+: offer)
      (hc : ∀ command reserved kind, [version, command, reserved, kind] <+: offer →
        command = connectCommand ∧ kind ∈ [ipv4, domain, ipv6]) : Replies dial offer []

/-- **What a client is told before anything is passed on**, by the beginning of what it says. -/
inductive Says (dial : String → String → Option (Except Error Stream)) : Bytes → Bytes → Prop
  /-- It comes in. -/
  | enters {entry answer offer said : Bytes} (he : Enters entry answer)
      (hr : Replies dial offer said) : Says dial (entry ++ offer) (answer ++ said)
  /-- It wants to give a name and a password, and has not given them. -/
  | introduces {count : UInt8} {methods offer : Bytes} (hm : methods.length = count.toNat)
      (hn : noAuth ∉ methods) (hu : userPass ∈ methods)
      (hi : ∀ introduction, Introduces introduction → ¬ introduction <+: offer) :
    Says dial ([version, count] ++ methods ++ offer) [version, userPass]
  /-- It offers no way to come in. -/
  | stranger {count : UInt8} {methods : Bytes} (rest : Bytes) (hm : methods.length = count.toNat)
      (hn : noAuth ∉ methods) (hu : userPass ∉ methods) :
    Says dial ([version, count] ++ methods ++ rest) [version, rejected]
  /-- It has not greeted, and cannot with these bytes if there are enough of them. -/
  | nothing {offer : Bytes} (hg : ∀ (count : UInt8) (methods : Bytes),
      methods.length = count.toNat → ¬ [version, count] ++ methods <+: offer) : Says dial offer []

/-- What is said while a client is heard, and what it is told of the target then. -/
def uttered (dial : String → String → Option (Except Error Stream))
    (h : Exchange.Hearing String) : Bytes :=
  h.said ++ match h.verdict with
    | .done target => told (dial "tcp" target)
    | _ => []

/-- What is said first is said before the rest. -/
theorem uttered_send (bs : Bytes) (onFault : Stream.Fault → Error) (next : Exchange String)
    (offer : Bytes) : uttered dial ((Exchange.send bs onFault next).upon offer)
      = bs ++ uttered dial (next.upon offer) :=
  List.append_assoc ..

/-- Nothing is said while a port is read. -/
theorem said_readPort (host : String) (offer : Bytes) : ((readPort host).upon offer).said = [] :=
  Exchange.said_recv (fun _ _ => rfl) offer

/-- Nothing is said while a host of a known kind is read. -/
theorem said_readTarget (hk : kind ∈ [ipv4, domain, ipv6]) (offer : Bytes) :
    ((readTarget kind).upon offer).said = [] := by
  rw [readTarget]
  split
  · exact Exchange.said_recv (fun _ => said_readPort _) offer
  split
  · exact Exchange.said_recv (fun _ => said_readPort _) offer
  split
  · refine Exchange.said_recv (fun _ => Exchange.said_recv fun name offer => ?_) offer
    split
    · exact said_readPort _ _
    · rfl
  · simp_all

/-- A host of any other kind is refused. -/
theorem said_readTarget_of_unknown (hk : kind ∉ [ipv4, domain, ipv6]) (offer : Bytes) :
    ((readTarget kind).upon offer).said = reply addressNotSupported := by
  simp only [List.mem_cons, List.not_mem_nil, or_false, not_or] at hk
  rw [readTarget, if_neg hk.1, if_neg hk.2.2, if_neg hk.2.1]
  exact List.append_nil _

/-- What is said of a request that is none. -/
theorem said_readRequest_cases (offer : Bytes) :
    (∃ command reserved kind rest, offer = [version, command, reserved, kind] ++ rest
        ∧ command ≠ connectCommand ∧ (readRequest.upon offer).said = reply commandNotSupported)
      ∨ (∃ reserved kind rest, offer = [version, connectCommand, reserved, kind] ++ rest
        ∧ kind ∉ [ipv4, domain, ipv6]
        ∧ (readRequest.upon offer).said = reply addressNotSupported)
      ∨ (∀ command reserved kind, [version, command, reserved, kind] <+: offer →
          command = connectCommand ∧ kind ∈ [ipv4, domain, ipv6])
        ∧ (readRequest.upon offer).said = [] := by
  rw [readRequest]
  obtain ⟨v, command, reserved, kind, rest, rfl, hu⟩ | ⟨hl, hu⟩ :=
    Exchange.upon_recvFour_cases _ offer
  · have head : ∀ {c r k : UInt8}, [version, c, r, k] <+: v :: command :: reserved :: kind :: rest →
        version = v ∧ c = command ∧ k = kind := fun h => by
      obtain ⟨hv, hc, -, hk⟩ : _ ∧ _ ∧ _ ∧ _ := by simpa [List.cons_prefix_cons] using h
      exact ⟨hv, hc, hk⟩
    rw [hu]
    split
    · rename_i hv
      exact .inr (.inr ⟨fun c r k h => absurd (head h).1.symm hv, rfl⟩)
    rename_i hv
    obtain rfl := not_not.mp hv
    split
    · rename_i hc
      exact .inl ⟨command, reserved, kind, rest, rfl, hc, rfl⟩
    rename_i hc
    obtain rfl := not_not.mp hc
    by_cases hk : kind ∈ [ipv4, domain, ipv6]
    · refine .inr (.inr ⟨fun c r k h => ?_, said_readTarget hk rest⟩)
      obtain ⟨-, rfl, rfl⟩ := head h
      exact ⟨rfl, hk⟩
    · exact .inr (.inl ⟨reserved, kind, rest, rfl, hk, said_readTarget_of_unknown hk rest⟩)
  · exact .inr (.inr ⟨fun c r k h => absurd h.length_le (Nat.not_le_of_lt hl), by rw [hu]⟩)

/-- **What a client is told that came in.** -/
theorem replies_readRequest (offer : Bytes) :
    Replies dial offer (uttered dial (readRequest.upon offer)) := by
  rcases h : readRequest.upon offer with ⟨verdict, said, rest⟩
  by_cases hv : ∃ target, verdict = .done target
  · obtain ⟨target, rfl⟩ := hv
    obtain ⟨request, hr, rfl, rfl⟩ := upon_readRequest_eq_done_iff.mp h
    exact .asks rest hr
  have huttered : uttered dial ⟨verdict, said, rest⟩ = said := by
    cases verdict with
    | done target => exact absurd ⟨target, rfl⟩ hv
    | failed e => exact List.append_nil _
    | short onFault => exact List.append_nil _
  have hrequest : ∀ request target, Requests request target → ¬ request <+: offer := by
    rintro request target hr ⟨more, rfl⟩
    have hdone : readRequest.upon (request ++ more) = ⟨.done target, [], more⟩ :=
      upon_readRequest_eq_done_iff.mpr ⟨request, hr, rfl, rfl⟩
    exact hv ⟨target, (Exchange.Hearing.mk.inj (h.symm.trans hdone)).1⟩
  rw [huttered]
  have hsaid : (readRequest.upon offer).said = said := by rw [h]
  obtain ⟨c, r, k, more, rfl, hc, hs⟩ | ⟨r, k, more, rfl, hk, hs⟩ | ⟨hn, hs⟩ :=
    said_readRequest_cases offer <;> rw [← hsaid, hs]
  · exact .command more hc
  · exact .address more hk
  · exact .nothing hrequest hn

/-- **What a client is told that greeted**, by the ways to come in that it offers. -/
theorem says_choose {count : UInt8} {methods : Bytes} (hm : methods.length = count.toNat)
    (offer : Bytes) : Says dial ([version, count] ++ methods ++ offer)
      (uttered dial ((choose methods readRequest).upon offer)) := by
  rw [choose]
  split
  · rename_i hn
    rw [uttered_send]
    exact .enters (.freely hm (by simpa using hn)) (replies_readRequest offer)
  rename_i hn
  have hn' : noAuth ∉ methods := by simpa using hn
  split
  · rename_i hu
    have hu' : userPass ∈ methods := by simpa using hu
    rw [uttered_send]
    obtain ⟨introduction, offer', hi, ho, hskip⟩ | ⟨hi, hskip⟩ :=
        upon_skipCredentials_cases _ offer <;>
      rw [hskip]
    · rw [uttered_send, ho, ← List.append_assoc, ← List.append_assoc]
      exact .enters (.known hm hn' hu' hi) (replies_readRequest offer')
    · exact .introduces hm hn' hu' hi
  · rename_i hu
    exact .stranger offer hm hn' (by simpa using hu)

/-- **What a client is told before anything is passed on.** -/
theorem says_accept (offer : Bytes) : Says dial offer (uttered dial (accept.upon offer)) := by
  rw [accept]
  obtain ⟨v, count, offer₁, h₁, hu₁⟩ | ⟨hl, hu₁⟩ := Exchange.upon_recvTwo_cases _ offer <;>
    rw [hu₁]
  case inr =>
    exact .nothing fun c methods _ h =>
      Nat.not_le_of_lt hl (Nat.le_trans (Nat.le_add_left 2 methods.length) h.length_le)
  subst h₁
  split
  · rename_i hv
    exact .nothing fun c methods _ h => hv (List.cons_prefix_cons.mp h).1.symm
  rename_i hv
  obtain rfl := not_not.mp hv
  obtain ⟨methods, offer₂, h₂, hu₂⟩ | ⟨hl, hu₂⟩ := Exchange.upon_recv_cases _ offer₁ <;> rw [hu₂]
  · rw [h₂]
    exact says_choose methods.length_toList offer₂
  · refine .nothing fun c methods hm h => ?_
    obtain ⟨hc, hp⟩ : c = count ∧ methods <+: offer₁ := by
      simpa [List.cons_prefix_cons] using h
    rw [← hc, ← hm] at hl
    exact Nat.not_le_of_lt hl hp.length_le

/-! ## The client's side as one dialogue -/

/-- What follows the request of a client: the connection to join, if one was made. -/
def answer : Option (Except Error Stream) → Exchange (Option Stream)
  | none => .done none
  | some (.error e) => .send (reply generalFailure) (fun _ => e) (.fail e)
  | some (.ok out) => .send (reply succeeded) (during "connect reply failed") (.done (some out))

/-- **The dialogue with a client** up to the first byte that is passed on. -/
def serving (dial : String → String → Option (Except Error Stream)) : Exchange (Option Stream) :=
  accept.bind fun target => answer (dial "tcp" target)

/-- It says what the client is told. -/
theorem said_serving (offer : Bytes) :
    ((serving dial).upon offer).said = uttered dial (accept.upon offer) := by
  rw [serving, Exchange.said_bind, uttered]
  rcases (accept.upon offer).verdict with target | e | onFault
  · rcases hd : dial "tcp" target with _ | e | out <;> simp [hd, answer, told]
  · rfl
  · rfl

/-- **The client's connection is the one that this dialogue leaves**, joined to the target if there
is one to join. -/
theorem client_serve (dial : String → String → Option (Except Error Stream)) (s : Stream) :
    (serve dial s).client = match (serving dial).run s with
      | (.done (some out), t) => (t.relay out).source
      | (_, t) => t := by
  rw [serve, serving, Exchange.run_bind]
  rcases accept.run s with ⟨target | e | _, t⟩
  · dsimp only
    rw [connect]
    rcases hd : dial "tcp" target with _ | e | out
    · rfl
    · rw [answer, Exchange.run]
      rcases t.send (reply generalFailure) with ⟨_ | f, u⟩ <;> rfl
    · rw [answer, Exchange.run]
      rcases t.send (reply succeeded) with ⟨_ | f, u⟩ <;> rfl
  · rfl
  · rfl

/-- There is a connection to join when the target was reached, and the client was told so. -/
theorem run_answer_eq_some_iff {dialed : Option (Except Error Stream)} {out : Stream} :
    (answer dialed).run s = (.done (some out), t)
      ↔ dialed = some (.ok out) ∧ s.send (reply succeeded) = (none, t) := by
  rcases dialed with _ | e | out'
  · simp [answer, Exchange.run]
  · rw [answer, Exchange.run]
    rcases s.send (reply generalFailure) with ⟨_ | f, u⟩ <;> simp [Exchange.run]
  · rw [answer, Exchange.run]
    rcases s.send (reply succeeded) with ⟨_ | f, u⟩ <;> simp [Exchange.run]

/-- Then the client was heard out. -/
theorem exists_of_run_serving {out : Stream} (h : (serving dial).run s = (.done (some out), t)) :
    ∃ target u, accept.run s = (.done target, u) ∧ dial "tcp" target = some (.ok out)
      ∧ u.send (reply succeeded) = (none, t) := by
  rw [serving, Exchange.run_bind] at h
  rcases ha : accept.run s with ⟨target | e | _, u⟩ <;> rw [ha] at h
  · exact ⟨target, u, rfl, run_answer_eq_some_iff.mp h⟩
  · cases (Prod.mk.inj h).1
  · cases (Prod.mk.inj h).1

/-! ## What is dialed -/

/-- What a client asked for that was heard out is dialed. -/
theorem dialed_connect (target : String) (s : Stream) :
    (connect dial target s).dialed = some ("tcp", target) := by
  rw [connect]
  rcases dial "tcp" target with _ | e | out
  · rfl
  · rfl
  · dsimp only
    rcases s.send (reply succeeded) with ⟨_ | f, t⟩ <;> rfl

/-- **Nothing else is dialed.** -/
theorem dialed_serve_iff {network : String} :
    (serve dial s).dialed = some (network, target)
      ↔ network = "tcp" ∧ ∃ t, accept.run s = (.done target, t) := by
  rw [serve]
  rcases accept.run s with ⟨target' | e | _, t⟩
  · dsimp only
    rw [dialed_connect]
    constructor
    · rintro ⟨⟩
      exact ⟨rfl, t, rfl⟩
    · rintro ⟨rfl, _, ⟨⟩⟩
      rfl
  · simp
  · simp

/-- **The dialer is asked for nothing else**: one that answers alike for what is dialed serves the
client alike. -/
theorem serve_congr {dial' : String → String → Option (Except Error Stream)}
    (h : ∀ network target, (serve dial s).dialed = some (network, target) →
      dial' network target = dial network target) : serve dial' s = serve dial s := by
  rcases ha : accept.run s with ⟨target | e | _, t⟩
  · have hd := h "tcp" target (dialed_serve_iff.mpr ⟨rfl, t, ha⟩)
    rw [serve, serve, ha]
    dsimp only
    rw [connect, connect, hd]
  · rw [serve, serve, ha]
  · rw [serve, serve, ha]

/-! ## What passes between the client and its target -/

/-- **How a client and its target are joined**: the client offers `rest` behind its request, and was
told so much by then. -/
structure Joins (s out : Stream) (told rest : Bytes) (r : Served) : Prop where
  /-- Nothing fails exactly when both sides take what they are written and neither breaks off. -/
  error_iff : r.error = none
    ↔ s.Takes (told.length + out.offered.length) ∧ out.Takes rest.length ∧ ¬ s.Breaks ∧ ¬ out.Breaks
  /-- Each side gets the beginning of what the other offers, and nothing else. -/
  wrote : ∃ there back outward, r.target = some outward ∧ there <+: rest ∧ back <+: out.offered
    ∧ outward.wrote = out.wrote ++ there
    ∧ (s.Takes told.length → r.client.wrote = s.wrote ++ told ++ back)
    -- and all of it if nothing fails; then each side is closed when the other closed
    ∧ (r.error = none → there = rest ∧ back = out.offered
      ∧ (outward.shut = true ↔ out.shut = true ∨ s.Closes r.client.shut)
      ∧ (r.client.shut = true ↔ s.shut = true ∨ out.Closes outward.shut))

/-- **A client is joined to the target that was reached for it.** -/
theorem connect_joins {asked answer : Bytes} {out u : Stream} (hl : s.Leaves asked answer u)
    (hd : dial "tcp" target = some (.ok out)) :
    Joins s out (answer ++ reply succeeded) u.offered (connect dial target u) := by
  rw [connect, hd]
  dsimp only
  rcases hs : u.send (reply succeeded) with ⟨_ | f, t⟩
  · have hl' := hl.trans (Stream.leaves_send hs)
    obtain ⟨hfault, ⟨there, back, hthere, hback, hw, hw', hall⟩, hshut⟩ := Stream.relay_relays t out
    have hoffered : t.offered = u.offered := (Stream.leaves_send hs).offered.symm
    rw [hl'.takes_iff, Stream.breaks_congr hl'.nil_mem_iff hl'.ending, hoffered] at hfault
    rw [hoffered] at hthere hall
    have herror : (t.relay out).fault.map (fun f => Error.network f.message) = none
        ↔ (t.relay out).fault = none := Option.map_eq_none_iff
    refine ⟨herror.trans hfault, there, back, _, rfl, hthere, hback, hw, fun _ => ?_, fun h => ?_⟩
    · rw [hw', hl'.wrote]
    · obtain ⟨hsink, hsource⟩ := hshut (herror.mp h)
      rw [Stream.closes_congr hl'.nil_mem_iff hl'.ending] at hsink
      rw [hl'.shut] at hsource
      obtain ⟨h₁, h₂⟩ := hall (herror.mp h)
      exact ⟨h₁, h₂, hsink, hsource⟩
  · have htakes : ¬ s.Takes (answer ++ reply succeeded).length := fun ht => by
      rw [List.length_append, ← hl.takes_iff] at ht
      obtain ⟨_, hs', -⟩ := Stream.send_of_takes ht
      cases hs.symm.trans hs'
    refine ⟨iff_of_false nofun fun h => htakes (h.1.mono (Nat.le_add_right _ _)), [], [], out, rfl,
      List.nil_prefix, List.nil_prefix, (List.append_nil _).symm, fun h => absurd h htakes, nofun⟩

/-- **How a client is talked to**: it is told what the beginning of its bytes calls for, and behind
that only gets what its target says. -/
structure Tells (dial : String → String → Option (Except Error Stream)) (s : Stream) (r : Served)
    (said part relayed : Bytes) : Prop where
  due : Says dial s.offered said
  wrote : r.client.wrote = s.wrote ++ part ++ relayed
  /-- All of it is told if the client takes as much. -/
  part_prefix : part <+: said
  part_eq : s.Takes said.length → part = said
  /-- Nothing is passed on before the client was told that its target was reached. -/
  relayed_of : relayed ≠ [] → part = said ∧ ∃ target out, r.dialed = some ("tcp", target)
    ∧ dial "tcp" target = some (.ok out) ∧ relayed <+: out.offered
  /-- A client that has said less so far was told no more than the beginning of it. -/
  early : ∀ early, early <+: s.offered → ∃ said', Says dial early said' ∧ said' <+: said

/-- **What a client is told.** -/
theorem serve_tells (dial : String → String → Option (Except Error Stream)) (s : Stream) :
    ∃ said part relayed, Tells dial s (serve dial s) said part relayed := by
  obtain ⟨part, hp, hw, hall⟩ := Exchange.exists_said (serving dial) s
  have hdue : ∀ offer, Says dial offer ((serving dial).upon offer).said := fun offer => by
    rw [said_serving]
    exact says_accept offer
  have hearly : ∀ early, early <+: s.offered →
      ∃ said', Says dial early said' ∧ said' <+: ((serving dial).upon s.offered).said :=
    fun early h => ⟨_, hdue early, Exchange.said_mono _ h⟩
  have hclient := client_serve dial s
  by_cases h : ∃ out t, (serving dial).run s = (.done (some out), t)
  · obtain ⟨out, t, hrun⟩ := h
    obtain ⟨target, u, ha, hd, -⟩ := exists_of_run_serving hrun
    obtain ⟨heard, said, hupon, htakes, -⟩ := Exchange.upon_of_run_eq_done hrun
    obtain ⟨there, back, -, hback, -, hsource, -⟩ := (Stream.relay_relays t out).wrote
    have hpart : part = ((serving dial).upon s.offered).said := hall (by rw [hupon]; exact htakes)
    rw [hrun] at hclient hw
    refine ⟨_, part, back, hdue _, ?_, hp, hall, fun _ => ⟨hpart, target, out, ?_, hd, hback⟩,
      hearly⟩
    · rw [hclient, ← hw]
      exact hsource
    · exact dialed_serve_iff.mpr ⟨rfl, u, ha⟩
  · have hleft : (serve dial s).client = ((serving dial).run s).2 := by
      rw [hclient]
      rcases hrun : (serving dial).run s with ⟨(_ | out) | e | _, t⟩
      · rfl
      · exact absurd ⟨out, t, hrun⟩ h
      · rfl
      · rfl
    refine ⟨_, part, [], hdue _, ?_, hp, hall, fun hn => absurd rfl hn, hearly⟩
    rw [hleft, hw, List.append_nil]

/-! ## Serving a client -/

/-- **How a client is served**, whatever it says, in whatever pieces it comes, and whatever the
dialer answers. -/
structure Governed (dial : String → String → Option (Except Error Stream)) (s : Stream)
    (r : Served) : Prop where
  /-- What a client asks for is dialed over TCP, when the client was answered meanwhile; nothing
  else is. -/
  dialed_iff : ∀ network target, r.dialed = some (network, target)
    ↔ network = "tcp" ∧ ∃ asked answer, Asks asked answer target ∧ asked <+: s.offered
      ∧ s.Takes answer.length
  /-- The dialer is asked for this alone, so that no other answer of it matters. -/
  once : ∀ dial', (∀ network target, r.dialed = some (network, target) →
    dial' network target = dial network target) → serve dial' s = r
  /-- The client is told what its bytes call for. -/
  tells : ∃ said part relayed, Tells dial s r said part relayed
  /-- It is joined to the target that was reached for it, at the first byte behind its request. -/
  joins : ∀ target out, r.dialed = some ("tcp", target) → dial "tcp" target = some (.ok out) →
    ∃ asked answer rest, Asks asked answer target ∧ s.offered = asked ++ rest
      ∧ Joins s out (answer ++ reply succeeded) rest r

/-- **The ingress accepts exactly its grammar, dials at most once, and passes everything on.** -/
theorem serve_governed (dial : String → String → Option (Except Error Stream)) (s : Stream) :
    Governed dial s (serve dial s) := by
  refine ⟨fun network target => ?_, fun dial' => serve_congr, serve_tells dial s,
    fun target out hr hd => ?_⟩
  · rw [dialed_serve_iff]
    refine and_congr_right fun _ => ⟨?_, ?_⟩
    · rintro ⟨t, ha⟩
      obtain ⟨asked, answer, hasks, htakes, hl⟩ := asks_of_run_accept ha
      exact ⟨asked, answer, hasks, ⟨t.offered, hl.offered.symm⟩, htakes⟩
    · rintro ⟨asked, answer, hasks, ⟨rest, ho⟩, htakes⟩
      obtain ⟨t, ha, -⟩ := exists_run_accept hasks ho.symm htakes
      exact ⟨t, ha⟩
  · obtain ⟨-, u, ha⟩ := dialed_serve_iff.mp hr
    obtain ⟨asked, answer, hasks, -, hl⟩ := asks_of_run_accept ha
    have hserve : serve dial s = connect dial target u := by rw [serve, ha]
    rw [hserve]
    exact ⟨asked, answer, u.offered, hasks, hl.offered, connect_joins hl hd⟩

end HopTorrent.Socks.Ingress
