import HopTorrent.Proofs.Exchange.Offered
import HopTorrent.Proofs.Socks.Handshake

/-!
# Proofs/Socks/Answer — the answers that grant a request, byte by byte

A proxy grants a request with a method, an answer to the authentication if it chose that, and a
reply with an address of a kind.  The client comes to a result exactly over these bytes, and leaves
what follows them; over any others it fails, or waits for more.  What it says is decided by the
beginning of the answer alone (`connect_governed`).
-/

namespace HopTorrent.Socks

variable {target : String} {auth : Option Credentials} {req offer rest said : Bytes}

/-! ## The grammar -/

/-- **The address in a reply**, by its kind: four or sixteen octets, or a name of stated length, and
a port. -/
inductive Bound : UInt8 → Bytes → Prop
  | v4 {address : Bytes} (h : address.length = 4 + 2) : Bound ipv4 address
  | v6 {address : Bytes} (h : address.length = 16 + 2) : Bound ipv6 address
  | name {length : UInt8} {address : Bytes} (h : address.length = length.toNat + 2) :
    Bound domain (length :: address)

/-- **The way a proxy admits a client**: the method it chooses, and what it answers to a name and a
password. -/
inductive Admits (auth : Option Credentials) : UInt8 → Bytes → Prop
  | freely : Admits auth noAuth []
  | known {c : Credentials} {v : UInt8} (hc : auth = some c) (hf : c.fits = true) :
    Admits auth userPass [v, 0]

/-- **A proxy grants a request**, and the tunnel begins with the rest. -/
def Grants (auth : Option Credentials) (method : UInt8) (offer rest : Bytes) : Prop :=
  ∃ admission reserved kind address, Admits auth method admission ∧ Bound kind address
    ∧ offer = [version, method] ++ admission ++ [version, 0, reserved, kind] ++ address ++ rest

/-- What a client says of itself to a proxy that chose a method. -/
def introduction (auth : Option Credentials) (method : UInt8) : Bytes :=
  match auth with
  | some c => if method = userPass then authRequest c else []
  | none => []

/-- **What a client says after its greeting**, by the beginning of the answer.  It asks for the
target once it is admitted, gives its name and password once it is asked for them, and says nothing
else. -/
inductive Says (auth : Option Credentials) (req : Bytes) : Bytes → Bytes → Prop
  /-- The proxy wants no authentication. -/
  | asks (offer : Bytes) : Says auth req ([version, noAuth] ++ offer) req
  /-- The proxy wants a name and a password, and has not accepted them. -/
  | introduces {c : Credentials} {offer : Bytes} (hc : auth = some c) (hf : c.fits = true)
      (ha : ∀ v, ¬ [v, 0] <+: offer) :
    Says auth req ([version, userPass] ++ offer) (authRequest c)
  /-- The proxy accepts a name and a password. -/
  | introducesAndAsks {c : Credentials} (v : UInt8) (offer : Bytes) (hc : auth = some c)
      (hf : c.fits = true) :
    Says auth req ([version, userPass] ++ [v, 0] ++ offer) (authRequest c ++ req)
  /-- The proxy chose no way that can be gone, or has not chosen. -/
  | nothing {offer : Bytes} (hn : ¬ [version, noAuth] <+: offer)
      (hu : ∀ c, auth = some c → c.fits = true → ¬ [version, userPass] <+: offer) :
    Says auth req offer []

/-! ## Coming to a result -/

/-- The replies that grant a request, as they are read and byte by byte. -/
theorem exists_granted_iff {reply : Bytes} :
    (∃ tr, Granted tr ∧ Transcript.heard tr = reply)
      ↔ ∃ reserved kind address, Bound kind address
        ∧ reply = [version, 0, reserved, kind] ++ address := by
  constructor
  · rintro ⟨tr, h, rfl⟩
    cases h with
    | @v4 reserved bound => exact ⟨reserved, ipv4, bound.toList, .v4 bound.length_toList, by simp⟩
    | @v6 reserved bound => exact ⟨reserved, ipv6, bound.toList, .v6 bound.length_toList, by simp⟩
    | @name reserved length bound =>
      exact ⟨reserved, domain, length :: bound.toList, .name bound.length_toList, by simp⟩
  · rintro ⟨reserved, kind, address, h, rfl⟩
    cases h with
    | v4 h => exact ⟨_, @Granted.v4 reserved ⟨address.toArray, by simpa using h⟩, by simp⟩
    | v6 h => exact ⟨_, @Granted.v6 reserved ⟨address.toArray, by simpa using h⟩, by simp⟩
    | @name length address h =>
      exact ⟨_, @Granted.name reserved length ⟨address.toArray, by simpa using h⟩, by simp⟩

/-- **The client comes to a result exactly when its request can be made and is granted.** -/
theorem upon_connect_eq_done_iff :
    (connect target auth).upon offer = ⟨.done (), said, rest⟩
      ↔ ∃ req method, connectRequest target = .ok req ∧ Grants auth method offer rest
        ∧ said = greeting auth ++ introduction auth method ++ req := by
  simp only [Exchange.upon_eq_done_iff, completes_connect_iff]
  constructor
  · rintro ⟨_, h, rfl, rfl⟩
    cases h with
    | @plain req tr hq hr =>
      obtain ⟨reserved, kind, address, hb, he⟩ := exists_granted_iff.mp ⟨tr, hr, rfl⟩
      have hi : introduction auth noAuth = [] := by
        cases auth <;> rfl
      exact ⟨req, noAuth, hq, ⟨[], reserved, kind, address, .freely, hb, by simp [he]⟩,
        by simp [hi, hr.sent]⟩
    | @authenticated c req v tr hc hf hq hr =>
      obtain ⟨reserved, kind, address, hb, he⟩ := exists_granted_iff.mp ⟨tr, hr, rfl⟩
      exact ⟨req, userPass, hq, ⟨[v, 0], reserved, kind, address, .known hc hf, hb, by simp [he]⟩,
        by simp [introduction, hc, hr.sent]⟩
  · rintro ⟨req, method, hq, ⟨admission, reserved, kind, address, ha, hb, rfl⟩, rfl⟩
    obtain ⟨tr, hr, he⟩ := exists_granted_iff.mpr ⟨reserved, kind, address, hb, rfl⟩
    cases ha with
    | freely =>
      have hi : introduction auth noAuth = [] := by
        cases auth <;> rfl
      exact ⟨_, .plain hq hr, by simp [hi, hr.sent], by simp [he]⟩
    | @known c v hc hf =>
      exact ⟨_, .authenticated (v := v) hc hf hq hr, by simp [introduction, hc, hr.sent],
        by simp [he]⟩

/-! ## What is said -/

/-- Nothing is said while the address is read. -/
theorem said_skipBound (kind : UInt8) (offer : Bytes) :
    ((skipBound kind).upon offer).said = [] := by
  rw [skipBound]
  split
  · exact Exchange.said_recv (fun _ _ => rfl) offer
  split
  · exact Exchange.said_recv (fun _ _ => rfl) offer
  split
  · exact Exchange.said_recv (fun _ => Exchange.said_recv fun _ _ => rfl) offer
  · rfl

/-- A request is said, and nothing after it. -/
theorem said_request (req offer : Bytes) : ((request req).upon offer).said = req := by
  rw [request, Exchange.upon_send]
  refine (congrArg (req ++ ·) (Exchange.said_recv (fun r offer => ?_) offer)).trans
    (List.append_nil _)
  dsimp only
  split
  · rfl
  split
  · rfl
  · exact said_skipBound _ _

/-- A name and a password are said, and the request once they are accepted. -/
theorem says_authenticate {c : Credentials} (hc : auth = some c) (hf : c.fits = true)
    (offer : Bytes) :
    Says auth req ([version, userPass] ++ offer)
      ((authenticate c (request req)).upon offer).said := by
  rw [authenticate, if_pos hf, Exchange.upon_send]
  rcases offer with _ | ⟨v, _ | ⟨status, offer⟩⟩
  · have h : Says auth req ([version, userPass] ++ []) (authRequest c) :=
      .introduces hc hf (by simp)
    simpa [Exchange.recvTwo, Exchange.upon_recv_of_lt] using h
  · have h : Says auth req ([version, userPass] ++ [v]) (authRequest c) :=
      .introduces hc hf (by simp)
    simpa [Exchange.recvTwo, Exchange.upon_recv_of_lt] using h
  · rw [Exchange.upon_recvTwo]
    split
    · rename_i hs
      have h : Says auth req ([version, userPass] ++ v :: status :: offer) (authRequest c) :=
        .introduces hc hf (by simpa [List.cons_prefix_cons, eq_comm] using hs)
      simpa using h
    · rename_i hs
      rw [not_not.mp hs, said_request]
      exact .introducesAndAsks v offer hc hf

/-- Nothing is said once the proxy chose a way that cannot be gone. -/
theorem said_unusable (method : UInt8) (offer : Bytes) :
    ((unusable method).upon offer).said = [] := by
  rw [unusable]
  split <;> rfl

/-- **What the client says after its greeting.** -/
theorem says_proceed (offer : Bytes) :
    Says auth req offer ((Exchange.recvTwo (during "greeting response failed")
      (proceed auth req)).upon offer).said := by
  rcases offer with _ | ⟨v, _ | ⟨method, offer⟩⟩
  · exact .nothing (by simp) (by simp)
  · exact .nothing (by simp) (by simp)
  rw [Exchange.upon_recvTwo]
  unfold proceed
  split
  · rename_i hv
    exact .nothing (fun h => hv (List.cons_prefix_cons.mp h).1.symm)
      fun _ _ _ h => hv (List.cons_prefix_cons.mp h).1.symm
  rename_i hv
  obtain rfl := not_not.mp hv
  split
  · rename_i hm
    rw [hm, said_request]
    exact .asks offer
  rename_i hm
  -- a prefix that names a method names the one that was chosen
  have chosen : ∀ {m : UInt8}, [version, m] <+: version :: method :: offer → m = method :=
    fun h => (List.cons_prefix_cons.mp (List.cons_prefix_cons.mp h).2).1
  have plain : ¬ [version, noAuth] <+: version :: method :: offer :=
    fun h => hm (chosen h).symm
  cases auth with
  | none =>
    rw [said_unusable]
    exact .nothing plain nofun
  | some c =>
    dsimp only
    split
    · rename_i hu
      subst hu
      cases hf : c.fits with
      | true => exact says_authenticate rfl hf offer
      | false =>
        rw [authenticate, hf]
        refine .nothing plain fun d hd hdf => ?_
        rw [← Option.some.inj hd, hf] at hdf
        cases hdf
    · rename_i hu
      rw [said_unusable]
      exact .nothing plain fun _ _ _ h => hu (chosen h).symm

/-! ## Over a stream -/

/-- **How a client and the answers of a proxy go together.** -/
structure Governed (target : String) (auth : Option Credentials) (s : Stream) : Prop where
  /-- It comes to a result exactly when its request can be made and is granted. -/
  done_iff : ((connect target auth).run s).1 = .done ()
    ↔ ∃ req method rest, connectRequest target = .ok req ∧ Grants auth method s.unread rest
  /-- Then it has said its greeting, who it is if it was asked, and its request, and the first byte
  left unread is the first of the tunnel. -/
  tunnel : ∀ req method rest, connectRequest target = .ok req → Grants auth method s.unread rest →
    ((connect target auth).run s).2.wrote
        = s.wrote ++ greeting auth ++ introduction auth method ++ req
      ∧ ((connect target auth).run s).2.unread = rest
  /-- Otherwise it fails, or waits for bytes of a stream that does not end. -/
  otherwise : ((connect target auth).run s).1 ≠ .done () →
    (∃ e, ((connect target auth).run s).1 = .failed e)
      ∨ ((connect target auth).run s).1 = .pending ∧ s.shortage = none
  /-- In every case it says after its greeting what the beginning of the answer calls for, so that
  nothing is said before the bytes that call for it. -/
  said : ∀ req, connectRequest target = .ok req → ∃ said, Says auth req s.unread said
    ∧ ((connect target auth).run s).2.wrote = s.wrote ++ greeting auth ++ said
  /-- Nothing is said and nothing is read for a target that no request can name. -/
  unnameable : ∀ e, connectRequest target = .error e →
    (connect target auth).run s = (.failed e, s)
  /-- The division of the answer into pieces has no part in it. -/
  uncut : ∀ t : Stream, t.Flows → t.budget = none → t.wrote = s.wrote → t.unread = s.unread →
    t.shortage = s.shortage →
      ((connect target auth).run t).1 = ((connect target auth).run s).1
        ∧ ((connect target auth).run t).2.wrote = ((connect target auth).run s).2.wrote
        ∧ ((connect target auth).run t).2.unread = ((connect target auth).run s).2.unread

/-- An exchange that does not come to a result fails, or waits for bytes of a stream that does not
end. -/
theorem outcome_cases (shortage : Option Stream.Fault) (v : Exchange.Verdict Unit) :
    (v.outcome shortage = .done () ↔ v = .done ())
      ∧ (v.outcome shortage ≠ .done () → (∃ e, v.outcome shortage = .failed e)
        ∨ v.outcome shortage = .pending ∧ shortage = none) := by
  cases v with
  | done u => exact ⟨by simp [Exchange.Verdict.outcome], fun h => absurd rfl h⟩
  | failed e => exact ⟨by simp [Exchange.Verdict.outcome], fun _ => .inl ⟨e, rfl⟩⟩
  | short onFault =>
    cases shortage with
    | none => exact ⟨by simp [Exchange.Verdict.outcome], fun _ => .inr ⟨rfl, rfl⟩⟩
    | some f => exact ⟨by simp [Exchange.Verdict.outcome], fun _ => .inl ⟨_, rfl⟩⟩

/-- **The client accepts exactly the answers that grant its request, and consumes exactly the
reply**, whatever the proxy sends and in whatever pieces it comes. -/
theorem connect_governed (target : String) (auth : Option Credentials) {s : Stream}
    (hf : s.Flows) (hb : s.budget = none) : Governed target auth s := by
  obtain ⟨ho, hw, hu⟩ := Exchange.run_eq_upon (connect target auth) hf hb
  obtain ⟨hdone, helse⟩ :=
    outcome_cases s.shortage ((connect target auth).upon s.unread).verdict
  refine ⟨?_, ?_, ?_, ?_, ?_, ?_⟩
  · rw [ho, hdone]
    constructor
    · intro hv
      rcases he : (connect target auth).upon s.unread with ⟨v, said, rest⟩
      rw [he] at hv
      obtain rfl : v = .done () := hv
      obtain ⟨req, method, hq, hg, -⟩ := upon_connect_eq_done_iff.mp he
      exact ⟨req, method, rest, hq, hg⟩
    · rintro ⟨req, method, rest, hq, hg⟩
      rw [upon_connect_eq_done_iff.mpr ⟨req, method, hq, hg, rfl⟩]
  · intro req method rest hq hg
    rw [hw, hu, upon_connect_eq_done_iff.mpr ⟨req, method, hq, hg, rfl⟩]
    exact ⟨by simp only [List.append_assoc], rfl⟩
  · rw [ho]
    exact helse
  · intro req hq
    refine ⟨_, says_proceed s.unread, ?_⟩
    rw [hw, connect, hq, Exchange.upon_send, List.append_assoc]
  · intro e hq
    rw [connect, hq]
    rfl
  · intro t htf htb htw htu hts
    obtain ⟨ho', hw', hu'⟩ := Exchange.run_eq_upon (connect target auth) htf htb
    rw [htu] at ho' hw' hu'
    rw [htw] at hw'
    rw [hts] at ho'
    exact ⟨ho'.trans ho.symm, hw'.trans hw.symm, hu'.trans hu.symm⟩

/-- A proxy that asks for a name and a password, grants the request with an address by name, and
sends one byte through the tunnel, all in pieces that fit nothing. -/
def granting : Stream :=
  ⟨[[5], [2, 1, 0, 5], [0, 0], [3, 1, 97], [0, 80, 7]], .hang, none, false, [], false, []⟩

/-- The pieces of an answer are joined, and the first byte of the tunnel stays. -/
theorem connect_governed_granting :
    granting.Flows ∧ granting.budget = none
      ∧ Governed "example.org:443" (some ⟨"user", "pw"⟩) granting
      ∧ ((connect "example.org:443" (some ⟨"user", "pw"⟩)).run granting).2.unread = [7] := by
  have hf : granting.Flows := by
    unfold Stream.Flows
    decide
  have hg := connect_governed "example.org:443" (some ⟨"user", "pw"⟩) hf rfl
  refine ⟨hf, rfl, hg, ?_⟩
  have hq : ∃ req, connectRequest "example.org:443" = .ok req := ⟨_, rfl⟩
  obtain ⟨req, hq⟩ := hq
  exact (hg.tunnel req userPass [7] hq ⟨[1, 0], 0, domain, [1, 97, 0, 80], .known rfl rfl,
    .name rfl, rfl⟩).2

end HopTorrent.Socks
