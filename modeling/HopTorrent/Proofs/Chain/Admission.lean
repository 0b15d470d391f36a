import HopTorrent.Proofs.Chain.Retry
import HopTorrent.Proofs.Chain.Shuffle
import HopTorrent.Proofs.Socks.Request

/-!
# Proofs/Chain/Admission — which chains never have a dial rejected

A chain admits every hop that is an address.  All hops but the first become targets of a request,
though, and there is one address that cannot be asked for: a name of more than 255 bytes.  Wherever
it stands behind another hop, the dial is rejected in the middle of an attempt, and no attempt
follows.  So dials through a chain are never rejected exactly when it has one hop only or each of
its hops can be asked for (`unrejected_iff`).
-/

namespace HopTorrent

/-- **A rejection**: what was given cannot be used, or the configuration cannot. -/
def Error.IsRejection : Error → Prop
  | .validation _ | .config _ => True
  | _ => False

/-! ## The errors of an exchange -/

namespace Exchange

variable {α β : Type} {P Q : Error → Prop}

/-- **Every error that an exchange can come to has a property**, whatever is heard and whatever
faults there are. -/
def FailsOnly (P : Error → Prop) : Exchange α → Prop
  | .done _ => True
  | .fail e => P e
  | .send _ onFault next => (∀ f, P (onFault f)) ∧ next.FailsOnly P
  | .recv _ onFault next => (∀ f, P (onFault f)) ∧ ∀ r, (next r).FailsOnly P

theorem FailsOnly.mono {x : Exchange α} (hx : x.FailsOnly P) (h : ∀ e, P e → Q e) :
    x.FailsOnly Q := by
  induction x with
  | done a => trivial
  | fail e => exact h e hx
  | send bs onFault next ih => exact ⟨fun f => h _ (hx.1 f), ih hx.2⟩
  | recv n onFault next ih => exact ⟨fun f => h _ (hx.1 f), fun r => ih r (hx.2 r)⟩

/-- One exchange after another fails as one of the two does. -/
theorem FailsOnly.bind {x : Exchange α} {f : α → Exchange β} (hx : x.FailsOnly P)
    (hf : ∀ a, (f a).FailsOnly P) : (x.bind f).FailsOnly P := by
  induction x with
  | done a => exact hf a
  | fail e => exact hx
  | send bs onFault next ih => exact ⟨hx.1, ih hx.2⟩
  | recv n onFault next ih => exact ⟨hx.1, fun r => ih r (hx.2 r)⟩

end Exchange

namespace Dial

/-- **An exchange over a connection fails with its own errors only.** -/
theorem converse_error {P : Error → Prop} {x : Exchange Unit} (hx : x.FailsOnly P) {s : Stream}
    {now at_ : Nat} {e : Error}
    (hr : ((converse x s).run now).result = some (at_, .error e)) : P e := by
  induction x generalizing s now with
  | done a => cases hr
  | fail e' =>
    cases hr
    exact hx
  | send bs onFault next ih =>
    rcases hs : s.send bs with ⟨_ | f, t⟩
    · rw [run_converse_send hs] at hr
      exact ih hx.2 hr
    · rw [run_converse_send_fault hs] at hr
      cases hr
      exact hx.1 f
  | recv n onFault next ih =>
    rcases hs : s.receive n with ⟨r | f | _, t⟩
    · rw [run_converse_recv hs] at hr
      exact ih r (hx.2 r) hr
    · rw [converse, Timeline.run, hs] at hr
      cases hr
      exact hx.1 f
    · rw [converse, Timeline.run, hs] at hr
      cases hr

/-- Within a time an activity fails as it does without, or for want of time. -/
theorem timed_error {α : Type} {limit now at_ : Nat} {d : Dial α} {e : Error}
    (hr : ((d.timed limit).run now).result = some (at_, .error e)) :
    e = .timeout ∨ (d.run now).result = some (at_, .error e) := by
  rw [run_timed] at hr
  rcases hd : (d.run now).result with _ | ⟨at', r⟩ <;> rw [hd] at hr <;> dsimp only at hr
  · cases hr
    exact .inl rfl
  · split at hr
    · exact .inr hr
    · cases hr
      exact .inl rfl

end Dial

/-! ## The errors of handshakes -/

namespace Socks

variable {auth : Option Credentials} {target : String}

/-- The drawn credentials fit into their message. -/
theorem Credentials.fits_ofRandom (user pass : Vector UInt8 8) :
    (Credentials.ofRandom user pass).fits = true := by
  simp [Credentials.fits, Credentials.ofRandom]

/-- Nothing that goes wrong with a reply is a rejection. -/
theorem failsOnly_request (bytes : Bytes) :
    (request bytes).FailsOnly fun e => ¬ e.IsRejection := by
  refine ⟨fun f => id, fun f => id, fun r => ?_⟩
  dsimp only
  split
  · exact id
  · split
    · exact id
    · rw [skipBound]
      split_ifs
      · exact ⟨fun f => id, fun _ => trivial⟩
      · exact ⟨fun f => id, fun _ => trivial⟩
      · exact ⟨fun f => id, fun _ => ⟨fun f => id, fun _ => trivial⟩⟩
      · exact id

/-- Nothing that goes wrong after the greeting is a rejection, if the credentials fit. -/
theorem failsOnly_proceed (hc : ∀ c, auth = some c → c.fits = true) (bytes : Bytes)
    (v method : UInt8) : (proceed auth bytes v method).FailsOnly fun e => ¬ e.IsRejection := by
  have unusable : ∀ m, (unusable m).FailsOnly fun e => ¬ e.IsRejection := fun m => by
    rw [Socks.unusable]
    split <;> exact id
  unfold proceed
  split
  · exact id
  · split
    · exact failsOnly_request bytes
    · cases auth with
      | none => exact unusable method
      | some c =>
        dsimp only
        split
        · rw [authenticate, if_pos (hc c rfl)]
          refine ⟨fun f => id, fun f => id, fun r => ?_⟩
          dsimp only
          split
          · exact id
          · exact failsOnly_request bytes
        · exact unusable method

/-- **A handshake is rejected only if its target cannot be asked for.** -/
theorem failsOnly_connect (hc : ∀ c, auth = some c → c.fits = true) (target : String) :
    (connect target auth).FailsOnly fun e => e.IsRejection → connectRequest target = .error e := by
  rw [connect]
  cases hq : connectRequest target with
  | error e => exact fun _ => rfl
  | ok bytes =>
    have hx : (Exchange.send (greeting auth) (during "greeting failed")
        (.recvTwo (during "greeting response failed") (proceed auth bytes))).FailsOnly
          fun e => ¬ e.IsRejection :=
      ⟨fun f => id, fun f => id, fun r => failsOnly_proceed hc bytes _ _⟩
    exact hx.mono fun e he hr => absurd hr he

/-- **Handshakes are rejected only if one of their targets cannot be asked for.** -/
theorem failsOnly_handshakes (hc : ∀ c, auth = some c → c.fits = true) (targets : List String) :
    (handshakes auth targets).FailsOnly
      fun e => e.IsRejection → ∃ t ∈ targets, connectRequest t = .error e := by
  induction targets with
  | nil => trivial
  | cons t ts ih =>
    refine ((failsOnly_connect hc t).mono fun e h hr => ?_).bind fun _ =>
      ih.mono fun e h hr => ?_
    · exact ⟨t, List.mem_cons_self, h hr⟩
    · obtain ⟨t', ht', he⟩ := h hr
      exact ⟨t', List.mem_cons_of_mem t ht', he⟩

end Socks

namespace Chain

/-- Every hop of a chain is an address. -/
theorem exists_parse_of_mem (c : Chain) {hop : String} (hm : hop ∈ c.hops) :
    ∃ a, Address.parse hop = .ok a :=
  Address.accepts_iff.mp (c.accepted hop hm)

/-- What is wrong with a hop that cannot be asked for. -/
theorem connectRequest_error_of_mem (c : Chain) {hop : String} (hm : hop ∈ c.hops) {e : Error}
    (h : Socks.connectRequest hop = .error e) : e = .validation "hostname too long" := by
  obtain ⟨a, ha⟩ := c.exists_parse_of_mem hm
  obtain he | ⟨-, he⟩ := Socks.connectRequest_error_cases h
  · cases ha.symm.trans he
  · exact he

/-- A hop that cannot be asked for has too long a name. -/
theorem connectRequest_of_not_encodable (c : Chain) {hop : String} (hm : hop ∈ c.hops)
    (h : ¬ Socks.Encodable hop) :
    Socks.connectRequest hop = .error (.validation "hostname too long") := by
  cases hq : Socks.connectRequest hop with
  | ok bytes => exact absurd ⟨bytes, hq⟩ h
  | error e => rw [c.connectRequest_error_of_mem hm hq]

namespace Setup

variable {s : Setup} {network address : String}

/-! ## A dial in good order -/

/-- **A dial in good order**: the network can pass a proxy, the target can be asked for, credentials
are drawn, and the transport itself rejects nothing. -/
structure InOrder (s : Setup) (network address : String) : Prop where
  network : checkNetwork network = .ok ()
  target : Socks.Encodable address
  credentials : ∀ i, ∃ user pass, s.random.credentials i = .ofRandom user pass
  transport : ∀ n network a ms e, s.transport n network a = .after ms (.error e) →
    ¬ e.IsRejection

/-- The credentials of an attempt fit into their message. -/
theorem InOrder.fits (h : s.InOrder network address) {i : Nat} :
    ∀ c, s.auth i = some c → c.fits = true := by
  intro c hc
  rw [auth] at hc
  split at hc
  · obtain ⟨user, pass, hr⟩ := h.credentials i
    obtain rfl := Option.some.inj hc
    rw [hr]
    exact Socks.Credentials.fits_ofRandom user pass
  · cases hc

/-- **An attempt in good order is rejected only for a hop behind the first.** -/
theorem InOrder.exists_hop (h : s.InOrder network address) {i : Nat} {e : Error}
    (ho : s.outcome network address i = .error e) (he : e.IsRejection) :
    ∃ hop ∈ (s.route i).tail, hop ∈ s.chain.hops ∧ Socks.connectRequest hop = .error e := by
  obtain ⟨first, rest, hr, hp⟩ := s.exists_route i
  have hres := s.attempt_result network address i 0
  rw [ho, attempt_eq hr] at hres
  obtain rfl | hres := Dial.timed_error hres
  · exact he.elim
  rw [Dialer.run_compose h.network] at hres
  rcases ht : s.transport (s.offset + (i - 1)) network first with _ | ⟨ms, e' | st⟩ <;>
    rw [ht] at hres
  · cases hres
  · obtain rfl : e' = e := Except.error.inj (congrArg Prod.snd (Option.some.inj hres))
    exact absurd he (h.transport _ _ _ _ _ ht)
  · obtain ⟨hop, hm, hq⟩ :=
      Dial.converse_error (Socks.failsOnly_handshakes h.fits (rest ++ [address])) hres he
    rw [hr]
    obtain hm | hm := List.mem_append.mp hm
    · exact ⟨hop, hm, hp.subset (List.mem_cons_of_mem first hm), hq⟩
    · obtain rfl := List.mem_singleton.mp hm
      obtain ⟨bytes, hb⟩ := h.target
      cases hb.symm.trans hq

/-- **A dial in good order is rejected only for a hop behind the first** of one of its attempts,
whose name is too long. -/
theorem InOrder.of_rejection (h : s.InOrder network address) {budget now at_ : Nat}
    (hb : 1 ≤ budget) {e : Error}
    (hr : ((s.dialWith network address budget).run now).result = some (at_, .error e))
    (he : e.IsRejection) :
    e = .validation "hostname too long"
      ∧ ∃ i, 1 ≤ i ∧ i ≤ budget ∧ ∃ hop ∈ (s.route i).tail, ¬ Socks.Encodable hop := by
  obtain ⟨left, rfl⟩ := Nat.exists_eq_succ_of_ne_zero (Nat.ne_of_gt hb)
  obtain ⟨m, hpos, hle, -, -, hrun⟩ := s.run_dialWith address h.network left now
  rw [hrun] at hr
  have hv : verdict (left + 1) (s.outcome network address m) = .error e :=
    congrArg Prod.snd (Option.some.inj hr)
  have ho : s.outcome network address m = .error e := by
    rcases ho : s.outcome network address m with e' | st <;> rw [ho, verdict] at hv
    · split at hv
      · cases hv
        exact he.elim
      · exact hv
    · cases hv
  obtain ⟨hop, hm, hmem, hq⟩ := h.exists_hop ho he
  refine ⟨s.chain.connectRequest_error_of_mem hmem hq, m, hpos, hle, hop, hm, ?_⟩
  rintro ⟨bytes, hb⟩
  cases hb.symm.trans hq

/-! ## A hop that cannot be asked for -/

/-- A transport that connects at once, to a peer that says nothing. -/
def silent : Transport := fun _ _ _ => .after 0 (.ok ⟨[], .hang, none, false, [], false, []⟩)

/-- A dial through a chain in a given order, with a silent transport. -/
def inOrderOf (c : Chain) (d : Draws) : Setup where
  chain := c
  policy := .standard
  transport := silent
  random := ⟨fun _ => d, fun _ => .ofRandom (Vector.replicate 8 0) (Vector.replicate 8 0)⟩
  offset := 0

theorem inOrderOf_inOrder (c : Chain) (d : Draws) : (inOrderOf c d).InOrder "tcp" "c:3" where
  network := rfl
  target := by decide
  credentials _ := ⟨_, _, rfl⟩
  transport := nofun

/-- A hop that is not the only one comes second in some order. -/
theorem exists_route_second {c : Chain} (hl : c.hops.length ≠ 1) {hop : String}
    (hm : hop ∈ c.hops) :
    ∃ d first rest, (inOrderOf c d).route 1 = first :: hop :: rest := by
  have hp := List.perm_cons_erase hm
  cases he : c.hops.erase hop with
  | nil =>
    rw [he] at hp
    exact absurd hp.length_eq hl
  | cons first rest =>
    rw [he] at hp
    obtain ⟨d, hd⟩ := exists_shuffle_eq ((List.Perm.swap hop first rest).trans hp.symm)
    exact ⟨d, first, rest, hd⟩

/-- **A hop that cannot be asked for can come second**, and then the dial is rejected. -/
theorem exists_rejected {c : Chain} (hl : c.hops.length ≠ 1) {hop : String} (hm : hop ∈ c.hops)
    (hq : ¬ Socks.Encodable hop) :
    ∃ d, (((inOrderOf c d).dialWith "tcp" "c:3" 1).run 0).result
      = some (0, .error (.validation "hostname too long")) := by
  obtain ⟨d, first, rest, hr⟩ := exists_route_second hl hm
  have hn : checkNetwork "tcp" = .ok () := rfl
  have hres : (((inOrderOf c d).attempt "tcp" "c:3" 1).run 0).result
      = some (0, .error (.validation "hostname too long")) := by
    rw [attempt_eq hr, Dial.run_timed, Dialer.run_compose hn, List.cons_append, Socks.handshakes,
      Socks.connect, c.connectRequest_of_not_encodable hm hq]
    rfl
  refine ⟨d, ?_⟩
  rw [dialWith, hn]
  dsimp only
  rw [attemptsFrom, Timeline.run_bind, hres]
  rfl

end Setup

/-! ## Which chains are never rejected -/

/-- **No dial through a chain is rejected**: whatever order its hops come in, however the dialer is
configured and whatever the transport does. -/
def Unrejected (c : Chain) : Prop :=
  ∀ (s : Setup) (network address : String) (budget now : Nat), s.chain = c →
    s.InOrder network address → 1 ≤ budget → ∀ at_ e,
      ((s.dialWith network address budget).run now).result = some (at_, .error e) →
        ¬ e.IsRejection

/-- **Dials through a chain are never rejected exactly when no hop behind another is a name of more
than 255 bytes.**  The first hop of a route is never asked for, so a single hop may be any; in a
longer chain each hop can come second. -/
theorem unrejected_iff (c : Chain) :
    (c.Unrejected ↔ c.hops.length = 1 ∨ ∀ hop ∈ c.hops, Socks.Encodable hop)
      ∧ (∀ hop ∈ c.hops, ∃ a, Address.parse hop = .ok a
        ∧ (Socks.Encodable hop
          ↔ (Ip.ofChars? a.host.toList).isSome = true ∨ a.host.utf8ByteSize ≤ 255))
      ∧ ∀ (s : Setup) (network address : String) (budget now : Nat), s.chain = c →
        s.InOrder network address → 1 ≤ budget → ∀ at_ e,
          ((s.dialWith network address budget).run now).result = some (at_, .error e) →
            e.IsRejection →
              e = .validation "hostname too long"
                ∧ ∃ i, 1 ≤ i ∧ i ≤ budget ∧ ∃ hop ∈ (s.route i).tail, ¬ Socks.Encodable hop := by
  refine ⟨⟨fun h => ?_, fun h s network address budget now hc ho hb at_ e hr he => ?_⟩,
    fun hop hm => ?_, fun s network address budget now _ ho hb at_ e hr he =>
      ho.of_rejection hb hr he⟩
  · by_contra hno
    simp only [not_or, not_forall] at hno
    obtain ⟨hl, hop, hm, hq⟩ := hno
    obtain ⟨d, hd⟩ := Setup.exists_rejected hl hm hq
    exact h _ _ _ _ _ rfl (Setup.inOrderOf_inOrder c d) (Nat.le_refl 1) _ _ hd trivial
  · subst hc
    obtain ⟨-, i, -, -, hop, hm, hq⟩ := ho.of_rejection hb hr he
    obtain ⟨first, rest, hroute, hp⟩ := s.exists_route i
    rw [hroute] at hm
    obtain hl | hall := h
    · rw [← hp.length_eq] at hl
      obtain rfl := List.length_eq_zero_iff.mp (Nat.succ.inj hl)
      cases hm
    · exact hq (hall hop (hp.subset (List.mem_cons_of_mem first hm)))
  · obtain ⟨a, ha⟩ := c.exists_parse_of_mem hm
    exact ⟨a, ha, Socks.encodable_iff ha⟩

/-- A name of 256 bytes. -/
def longName : List Char := List.replicate 256 'x'

/-- A proxy address with that name. -/
def longHop : String := String.ofList (longName ++ [':', '1'])

theorem parts?_longHop : Address.parts? longHop.toList = some (longName, 1) := by
  rw [longHop, String.toList_ofList]
  decide +kernel

theorem not_encodable_longHop : ¬ Socks.Encodable longHop := by
  have hp : Address.parse longHop = .ok ⟨String.ofList longName, 1⟩ := by
    rw [Address.parse, parts?_longHop]
  have hip : Ip.ofChars? longName = none := by decide +kernel
  have hl : (String.ofList longName).utf8ByteSize = 256 := by decide +kernel
  rw [Socks.encodable_iff hp, String.toList_ofList, hip, hl]
  decide

/-- **Not every chain is dialed without a rejection**: two names of 256 bytes make a chain, and
whichever comes second cannot be asked for. -/
theorem not_forall_unrejected :
    ¬ ∀ (hops : List String) (c : Chain), ofHops hops = .ok c → c.Unrejected := by
  intro h
  have hacc : ∀ hop ∈ [longHop, longHop], Address.accepts hop = true := by
    simp [Address.accepts, parts?_longHop]
  let c : Chain := ⟨[longHop, longHop], by simp, hacc⟩
  have hl : c.hops.length ≠ 1 := by simp [c]
  obtain ⟨d, hd⟩ := Setup.exists_rejected hl List.mem_cons_self not_encodable_longHop
  exact h _ c (ofHops_eq_ok_iff.mpr rfl) _ _ _ _ _ rfl (Setup.inOrderOf_inOrder c d)
    (Nat.le_refl 1) _ _ hd trivial

end Chain

end HopTorrent
