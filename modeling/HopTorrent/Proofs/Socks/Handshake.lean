import HopTorrent.Proofs.Exchange
import Mathlib.Logic.Basic

/-!
# Proofs/Socks/Handshake — the dialogues of a SOCKS5 handshake

A handshake is a greeting, a name and a password if the proxy asks for them, a request, and a reply
that grants it.  These are exactly the dialogues that `connect` comes to a result with
(`completes_connect_iff`); whenever it breaks off, what it said is the beginning of one client half
(`begins_connect`).
-/

namespace HopTorrent.Socks

variable {target : String} {auth : Option Credentials} {tr : Transcript}

/-! ## The grammar -/

/-- **A reply that grants a request**, as it is read: its head, then the bound address, whose length
the head tells. -/
inductive Granted : Transcript → Prop
  | v4 {reserved : UInt8} (bound : Vector UInt8 6) :
    Granted [.heard [version, 0, reserved, ipv4], .heard bound.toList]
  | v6 {reserved : UInt8} (bound : Vector UInt8 18) :
    Granted [.heard [version, 0, reserved, ipv6], .heard bound.toList]
  | name {reserved length : UInt8} (bound : Vector UInt8 (length.toNat + 2)) :
    Granted [.heard [version, 0, reserved, domain], .heard [length], .heard bound.toList]

/-- **A handshake that succeeds.** -/
inductive Handshake (auth : Option Credentials) (target : String) : Transcript → Prop
  /-- The proxy asks for no authentication. -/
  | plain {req : Bytes} {tr : Transcript} (hq : connectRequest target = .ok req)
      (hr : Granted tr) :
    Handshake auth target
      (.sent (greeting auth) :: .heard [version, noAuth] :: .sent req :: tr)
  /-- The proxy asks for a name and a password, and accepts them. -/
  | authenticated {c : Credentials} {req : Bytes} {v : UInt8} {tr : Transcript}
      (hc : auth = some c) (hf : c.fits = true) (hq : connectRequest target = .ok req)
      (hr : Granted tr) :
    Handshake auth target
      (.sent (greeting auth) :: .heard [version, userPass] :: .sent (authRequest c)
        :: .heard [v, 0] :: .sent req :: tr)

/-- **The client half of a handshake**: greeting, optional credentials, request.  Nothing is said to
ask for a target that no request can name. -/
inductive ClientHalf (auth : Option Credentials) (target : String) : Bytes → Prop
  | plain {req : Bytes} (hq : connectRequest target = .ok req) :
    ClientHalf auth target (greeting auth ++ req)
  | authenticated {c : Credentials} {req : Bytes} (hc : auth = some c)
      (hq : connectRequest target = .ok req) :
    ClientHalf auth target (greeting auth ++ authRequest c ++ req)
  | unnameable {e : Error} (hq : connectRequest target = .error e) : ClientHalf auth target []

/-- Nothing is sent after a request. -/
theorem Granted.sent (h : Granted tr) : Transcript.sent tr = [] := by
  cases h <;> rfl

/-- What a handshake says is a client half. -/
theorem Handshake.clientHalf (h : Handshake auth target tr) :
    ClientHalf auth target (Transcript.sent tr) := by
  cases h with
  | plain hq hr => simpa [hr.sent] using ClientHalf.plain hq
  | authenticated hc hf hq hr => simpa [hr.sent] using ClientHalf.authenticated hc hq

/-- Every target has a client half. -/
theorem exists_clientHalf (auth : Option Credentials) (target : String) :
    ∃ half, ClientHalf auth target half := by
  cases hq : connectRequest target with
  | ok req => exact ⟨_, .plain hq⟩
  | error e => exact ⟨_, .unnameable hq⟩

/-! ## What a client does -/

/-- Reading the bound address ends with the address of its kind. -/
theorem completes_skipBound_iff {reserved kind : UInt8} :
    (skipBound kind).Completes tr ()
      ↔ Granted (.heard [version, 0, reserved, kind] :: tr) := by
  constructor
  · intro h
    rw [skipBound] at h
    split at h
    · rename_i hk
      simp only [Exchange.completes_recv_iff, Exchange.completes_done_iff] at h
      obtain ⟨bound, _, rfl, rfl, -⟩ := h
      exact hk ▸ .v4 bound
    split at h
    · rename_i hk
      simp only [Exchange.completes_recv_iff, Exchange.completes_done_iff] at h
      obtain ⟨bound, _, rfl, rfl, -⟩ := h
      exact hk ▸ .v6 bound
    split at h
    · rename_i hk
      simp only [Exchange.completes_recvOne_iff, Exchange.completes_recv_iff,
        Exchange.completes_done_iff] at h
      obtain ⟨length, _, rfl, bound, _, rfl, rfl, -⟩ := h
      exact hk ▸ .name bound
    · cases h
  · intro h
    cases h with
    | v4 bound => exact .recv (.done ())
    | v6 bound => exact .recv (.done ())
    | name bound => exact .recv (r := #v[_]) (.recv (.done ()))

/-- A reply that grants a request begins with its head. -/
theorem Granted.exists_head (h : Granted tr) :
    ∃ reserved kind tail, tr = .heard [version, 0, reserved, kind] :: tail := by
  cases h <;> exact ⟨_, _, _, rfl⟩

/-- **The dialogues of a request** are those in which it is granted. -/
theorem completes_request_iff {req : Bytes} :
    (request req).Completes tr () ↔ ∃ tr', tr = .sent req :: tr' ∧ Granted tr' := by
  rw [request, Exchange.completes_send_iff]
  simp only [Exchange.completes_recvFour_iff]
  constructor
  · rintro ⟨_, rfl, v, code, reserved, kind, tail, rfl, h⟩
    refine ⟨_, rfl, ?_⟩
    split at h
    · cases h
    rename_i hv
    split at h
    · cases h
    rename_i hc
    rw [not_not.mp hv, not_not.mp hc]
    exact completes_skipBound_iff.mp h
  · rintro ⟨tr', rfl, h⟩
    obtain ⟨reserved, kind, tail, rfl⟩ := h.exists_head
    exact ⟨_, rfl, version, 0, reserved, kind, tail, rfl, completes_skipBound_iff.mpr h⟩

/-- **The dialogues of an authentication**: the proxy accepts. -/
theorem completes_authenticate_iff {c : Credentials} {next : Exchange Unit} :
    (authenticate c next).Completes tr ()
      ↔ c.fits = true ∧ ∃ v tr', tr = .sent (authRequest c) :: .heard [v, 0] :: tr'
        ∧ next.Completes tr' () := by
  rw [authenticate]
  split
  · rename_i hf
    simp only [Exchange.completes_send_iff, Exchange.completes_recvTwo_iff, hf, true_and]
    constructor
    · rintro ⟨_, rfl, v, status, tr', rfl, h⟩
      split at h
      · cases h
      rename_i hs
      exact ⟨v, tr', by rw [not_not.mp hs], h⟩
    · rintro ⟨v, tr', rfl, h⟩
      exact ⟨_, rfl, v, 0, tr', rfl, h⟩
  · rename_i hf
    simp [hf]

/-- No dialogue comes to a result once the proxy chose a way that cannot be gone. -/
theorem not_completes_unusable {method : UInt8} : ¬ (unusable method).Completes tr () := by
  rw [unusable]
  split <;> nofun

/-- **The dialogues after the choice of the proxy**: a request, or an authentication first. -/
theorem completes_proceed_iff {req : Bytes} {v method : UInt8} :
    (proceed auth req v method).Completes tr () ↔ v = version
      ∧ ((method = noAuth ∧ ∃ tr', tr = .sent req :: tr' ∧ Granted tr')
        ∨ method = userPass ∧ ∃ c w tr', auth = some c ∧ c.fits = true
          ∧ tr = .sent (authRequest c) :: .heard [w, 0] :: .sent req :: tr' ∧ Granted tr') := by
  unfold proceed
  constructor
  · intro h
    split at h
    · cases h
    rename_i hv
    refine ⟨not_not.mp hv, ?_⟩
    split at h
    · rename_i hm
      exact .inl ⟨hm, completes_request_iff.mp h⟩
    cases auth with
    | none => exact absurd h not_completes_unusable
    | some c =>
      dsimp only at h
      split at h
      · rename_i hm
        obtain ⟨hf, w, _, rfl, hreq⟩ := completes_authenticate_iff.mp h
        obtain ⟨tr', rfl, hr⟩ := completes_request_iff.mp hreq
        exact .inr ⟨hm, c, w, tr', rfl, hf, rfl, hr⟩
      · exact absurd h not_completes_unusable
  · rintro ⟨rfl, ⟨rfl, h⟩ | ⟨rfl, c, w, tr', rfl, hf, rfl, hr⟩⟩
    · exact completes_request_iff.mpr h
    · exact completes_authenticate_iff.mpr
        ⟨hf, w, _, rfl, completes_request_iff.mpr ⟨_, rfl, hr⟩⟩

/-- **The client holds exactly the handshakes that succeed.** -/
theorem completes_connect_iff :
    (connect target auth).Completes tr () ↔ Handshake auth target tr := by
  rw [connect]
  cases hq : connectRequest target with
  | error e =>
    refine iff_of_false nofun fun h => ?_
    cases h with
    | plain hq' | authenticated _ _ hq' => cases hq.symm.trans hq'
  | ok req =>
    simp only [Exchange.completes_send_iff, Exchange.completes_recvTwo_iff, completes_proceed_iff]
    constructor
    · rintro ⟨_, rfl, v, method, tr', rfl, rfl, ⟨rfl, tr', rfl, hr⟩ | ⟨rfl, hrest⟩⟩
      · exact .plain hq hr
      · obtain ⟨c, w, tr', hc, hf, rfl, hr⟩ := hrest
        exact .authenticated hc hf hq hr
    · intro h
      cases h with
      | plain hq' hr =>
        obtain rfl := Except.ok.inj (hq.symm.trans hq')
        exact ⟨_, rfl, version, noAuth, _, rfl, rfl, .inl ⟨rfl, _, rfl, hr⟩⟩
      | authenticated hc hf hq' hr =>
        obtain rfl := Except.ok.inj (hq.symm.trans hq')
        exact ⟨_, rfl, version, userPass, _, rfl, rfl, .inr ⟨rfl, _, _, _, hc, hf, rfl, hr⟩⟩

/-! ## Breaking off -/

/-- Once a request is sent, nothing more is. -/
theorem sent_of_begins_skipBound {kind : UInt8} (h : (skipBound kind).Begins tr) :
    Transcript.sent tr = [] := by
  have last : ∀ {n : Nat} {onFault : Stream.Fault → Error} {tr : Transcript},
      (Exchange.recv n onFault fun _ => Exchange.done ()).Begins tr →
        Transcript.sent tr = [] := by
    intro n onFault tr h
    obtain hs | ⟨_, tr', h', hs⟩ := h.sent_of_recv
    · exact hs
    · exact hs.trans h'.sent_of_done
  rw [skipBound] at h
  split at h
  · exact last h
  split at h
  · exact last h
  split at h
  · obtain hs | ⟨_, tr', h', hs⟩ := h.sent_of_recvOne
    · exact hs
    · exact hs.trans (last h')
  · exact h.sent_of_fail

/-- What is said of a request is its beginning. -/
theorem sent_of_begins_request {req : Bytes} (h : (request req).Begins tr) :
    Transcript.sent tr <+: req := by
  obtain hs | ⟨tr', h', hs⟩ := h.sent_of_send
  · exact hs
  suffices hn : Transcript.sent tr' = [] by simp [hs, hn]
  obtain hs' | ⟨v, code, reserved, kind, tr'', h'', hs'⟩ := h'.sent_of_recvFour
  · exact hs'
  rw [hs']
  split at h''
  · exact h''.sent_of_fail
  split at h''
  · exact h''.sent_of_fail
  · exact sent_of_begins_skipBound h''

/-- What is said of an authentication, and of what comes after it, is its beginning. -/
theorem sent_of_begins_authenticate {c : Credentials} {next : Exchange Unit} {bs : Bytes}
    (hn : ∀ tr, next.Begins tr → Transcript.sent tr <+: bs)
    (h : (authenticate c next).Begins tr) : Transcript.sent tr <+: authRequest c ++ bs := by
  rw [authenticate] at h
  split at h
  · obtain hs | ⟨tr', h', hs⟩ := h.sent_of_send
    · exact hs.trans (List.prefix_append _ _)
    rw [hs, List.prefix_append_right_inj]
    obtain hs' | ⟨v, status, tr'', h'', hs'⟩ := h'.sent_of_recvTwo
    · exact hs' ▸ List.nil_prefix
    rw [hs']
    split at h''
    · exact h''.sent_of_fail ▸ List.nil_prefix
    · exact hn _ h''
  · exact h.sent_of_fail ▸ List.nil_prefix

/-- Nothing is said once the proxy chose a way that cannot be gone. -/
theorem sent_of_begins_unusable {method : UInt8} (h : (unusable method).Begins tr) :
    Transcript.sent tr = [] := by
  rw [unusable] at h
  split at h <;> exact h.sent_of_fail

/-- What is said after the choice of the proxy is the beginning of a request, or of an
authentication and a request. -/
theorem sent_of_begins_proceed {req : Bytes} {v method : UInt8}
    (h : (proceed auth req v method).Begins tr) :
    Transcript.sent tr <+: req
      ∨ ∃ c, auth = some c ∧ Transcript.sent tr <+: authRequest c ++ req := by
  have silent : Transcript.sent tr = [] → Transcript.sent tr <+: req :=
    fun hs => hs ▸ List.nil_prefix
  unfold proceed at h
  split at h
  · exact .inl (silent h.sent_of_fail)
  split at h
  · exact .inl (sent_of_begins_request h)
  cases auth with
  | none => exact .inl (silent (sent_of_begins_unusable h))
  | some c =>
    dsimp only at h
    split at h
    · exact .inr ⟨c, rfl, sent_of_begins_authenticate (fun _ => sent_of_begins_request) h⟩
    · exact .inl (silent (sent_of_begins_unusable h))

/-- **What a client says before it breaks off is the beginning of a client half.** -/
theorem begins_connect (h : (connect target auth).Begins tr) :
    ∃ half, ClientHalf auth target half ∧ Transcript.sent tr <+: half := by
  rw [connect] at h
  cases hq : connectRequest target with
  | error e =>
    rw [hq] at h
    exact ⟨[], .unnameable hq, h.sent_of_fail ▸ List.nil_prefix⟩
  | ok req =>
    rw [hq] at h
    have plain : ∀ {bs : Bytes}, bs <+: req → greeting auth ++ bs <+: greeting auth ++ req :=
      (List.prefix_append_right_inj _).mpr
    obtain hs | ⟨tr', h', hs⟩ := h.sent_of_send
    · exact ⟨_, .plain hq, hs.trans (List.prefix_append _ _)⟩
    rw [hs]
    obtain hs' | ⟨v, method, tr'', h'', hs'⟩ := h'.sent_of_recvTwo
    · exact ⟨_, .plain hq, plain (hs' ▸ List.nil_prefix)⟩
    rw [hs']
    obtain hp | ⟨c, hc, hp⟩ := sent_of_begins_proceed h''
    · exact ⟨_, .plain hq, plain hp⟩
    · refine ⟨_, .authenticated hc hq, ?_⟩
      rw [List.append_assoc]
      exact (List.prefix_append_right_inj _).mpr hp

end HopTorrent.Socks
