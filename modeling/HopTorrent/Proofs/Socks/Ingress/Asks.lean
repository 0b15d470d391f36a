import HopTorrent.Proofs.Exchange.Offered
import HopTorrent.Socks.Ingress

/-!
# Proofs/Socks/Ingress/Asks — how a client asks for a target

A client comes in with a greeting, and a name and a password if it must; then it requests a target.
The ingress hears a client out exactly when this is how its bytes begin (`upon_accept_eq_done_iff`),
and leaves what follows them.
-/

namespace HopTorrent.Socks.Ingress

variable {offer rest said asked answer introduction : Bytes} {target host : String} {kind : UInt8}

/-! ## The grammar -/

/-- **A name and a password**, each after its length. -/
inductive Introduces : Bytes → Prop
  | mk (v : UInt8) {userLength passLength : UInt8} {user pass : Bytes}
      (hu : user.length = userLength.toNat) (hp : pass.length = passLength.toNat) :
    Introduces ([v, userLength] ++ user ++ [passLength] ++ pass)

/-- **The way a client comes in**: what it says before its request, and what it is answered.  It
comes in freely if it offers that, and with a name and a password if it only offers those. -/
inductive Enters : Bytes → Bytes → Prop
  | freely {count : UInt8} {methods : Bytes} (hm : methods.length = count.toNat)
      (hn : noAuth ∈ methods) : Enters ([version, count] ++ methods) [version, noAuth]
  | known {count : UInt8} {methods introduction : Bytes} (hm : methods.length = count.toNat)
      (hn : noAuth ∉ methods) (hu : userPass ∈ methods) (hi : Introduces introduction) :
    Enters ([version, count] ++ methods ++ introduction) [version, userPass, authVersion, 0]

/-- **A host in a request**: its kind, its bytes, and its text in front of a port. -/
inductive Names : UInt8 → Bytes → String → Prop
  | v4 (octets : Vector UInt8 4) : Names ipv4 octets.toList (Ip.ofOctets4 octets).renderHost
  | v6 (octets : Vector UInt8 16) : Names ipv6 octets.toList (Ip.ofOctets6 octets).renderHost
  | name {length : UInt8} (host : String) (hl : (Bytes.utf8 host).length = length.toNat) :
    Names domain (length :: Bytes.utf8 host) host

/-- **A request to connect**, and the target that it names. -/
inductive Requests : Bytes → String → Prop
  | mk (reserved high low : UInt8) {kind : UInt8} {address : Bytes} {host : String}
      (h : Names kind address host) :
    Requests ([version, connectCommand, reserved, kind] ++ address ++ [high, low])
      (host ++ ":" ++ toString (Bytes.toPort high low))

/-- **A client asks for a target**: what it says, what it is answered meanwhile, and the target. -/
inductive Asks : Bytes → Bytes → String → Prop
  | mk {entry answer request : Bytes} {target : String} (he : Enters entry answer)
      (hr : Requests request target) : Asks (entry ++ request) answer target

/-! ## Hearing a client out -/

/-- A port is heard. -/
theorem upon_readPort_eq_done_iff : (readPort host).upon offer = ⟨.done target, said, rest⟩
    ↔ ∃ high low, offer = [high, low] ++ rest ∧ said = []
      ∧ target = host ++ ":" ++ toString (Bytes.toPort high low) := by
  rw [readPort, Exchange.upon_recvTwo_eq_done_iff]
  constructor
  · rintro ⟨high, low, offer', rfl, h⟩
    obtain ⟨hv, rfl, rfl⟩ := Exchange.Hearing.mk.inj h
    exact ⟨high, low, rfl, rfl, (Exchange.Verdict.done.inj hv).symm⟩
  · rintro ⟨high, low, rfl, rfl, rfl⟩
    exact ⟨high, low, rest, rfl, rfl⟩

/-- A host of a known kind and a port are heard. -/
theorem upon_readTarget {address : Bytes} (hn : Names kind address host) (high low : UInt8) :
    (readTarget kind).upon (address ++ [high, low] ++ rest)
      = ⟨.done (host ++ ":" ++ toString (Bytes.toPort high low)), [], rest⟩ := by
  have hport : (readPort host).upon ([high, low] ++ rest)
      = ⟨.done (host ++ ":" ++ toString (Bytes.toPort high low)), [], rest⟩ :=
    upon_readPort_eq_done_iff.mpr ⟨high, low, rfl, rfl, rfl⟩
  rw [readTarget, List.append_assoc]
  cases hn with
  | v4 octets => exact Exchange.upon_recv_eq_done_iff.mpr ⟨octets, _, rfl, hport⟩
  | v6 octets => exact Exchange.upon_recv_eq_done_iff.mpr ⟨octets, _, rfl, hport⟩
  | name host hl =>
    obtain ⟨name, hname⟩ := Exchange.exists_toList_eq hl
    rw [if_neg (by decide), if_neg (by decide), if_pos rfl, List.cons_append,
      Exchange.upon_recvOne, ← hname, Exchange.upon_recv, hname, Bytes.ofUtf8?_utf8]
    exact hport

/-- A host is of a known kind if it is heard. -/
theorem exists_names_of_upon (h : (readTarget kind).upon offer = ⟨.done target, said, rest⟩) :
    ∃ address host offer', Names kind address host ∧ offer = address ++ offer'
      ∧ (readPort host).upon offer' = ⟨.done target, said, rest⟩ := by
  rw [readTarget] at h
  split at h
  · rename_i hk
    subst hk
    obtain ⟨octets, offer', rfl, hport⟩ := Exchange.upon_recv_eq_done_iff.mp h
    exact ⟨_, _, offer', .v4 octets, rfl, hport⟩
  split at h
  · rename_i hk
    subst hk
    obtain ⟨octets, offer', rfl, hport⟩ := Exchange.upon_recv_eq_done_iff.mp h
    exact ⟨_, _, offer', .v6 octets, rfl, hport⟩
  split at h
  · rename_i hk
    subst hk
    obtain ⟨length, _, rfl, hname⟩ := Exchange.upon_recvOne_eq_done_iff.mp h
    obtain ⟨name, offer', rfl, hport⟩ := Exchange.upon_recv_eq_done_iff.mp hname
    split at hport
    · rename_i host hh
      have hb : Bytes.utf8 host = name.toList := Bytes.ofUtf8?_eq_some_iff.mp hh
      have hl : (Bytes.utf8 host).length = length.toNat := by rw [hb, Vector.length_toList]
      exact ⟨_, _, offer', .name host hl, by rw [hb, List.cons_append], hport⟩
    · cases (Exchange.Hearing.mk.inj hport).1
  · cases (Exchange.Hearing.mk.inj h).1

/-- **A host and a port are heard.** -/
theorem upon_readTarget_eq_done_iff : (readTarget kind).upon offer = ⟨.done target, said, rest⟩
    ↔ ∃ address host high low, Names kind address host ∧ offer = address ++ [high, low] ++ rest
      ∧ said = [] ∧ target = host ++ ":" ++ toString (Bytes.toPort high low) := by
  constructor
  · intro h
    obtain ⟨address, host, _, hn, rfl, hport⟩ := exists_names_of_upon h
    obtain ⟨high, low, rfl, hs, ht⟩ := upon_readPort_eq_done_iff.mp hport
    exact ⟨address, host, high, low, hn, (List.append_assoc ..).symm, hs, ht⟩
  · rintro ⟨address, host, high, low, hn, rfl, rfl, rfl⟩
    exact upon_readTarget hn high low

/-- **A request is heard.** -/
theorem upon_readRequest_eq_done_iff : readRequest.upon offer = ⟨.done target, said, rest⟩
    ↔ ∃ request, Requests request target ∧ offer = request ++ rest ∧ said = [] := by
  rw [readRequest, Exchange.upon_recvFour_eq_done_iff]
  constructor
  · rintro ⟨v, command, reserved, kind, _, rfl, h⟩
    split at h
    · cases (Exchange.Hearing.mk.inj h).1
    rename_i hv
    split at h
    · cases (Exchange.Hearing.mk.inj h).1
    rename_i hc
    obtain ⟨address, host, high, low, hn, rfl, hs, rfl⟩ := upon_readTarget_eq_done_iff.mp h
    rw [not_not.mp hv, not_not.mp hc]
    exact ⟨_, .mk reserved high low hn, by simp, hs⟩
  · rintro ⟨_, ⟨reserved, high, low, hn⟩, rfl, rfl⟩
    refine ⟨version, connectCommand, reserved, _, _, rfl, ?_⟩
    exact upon_readTarget_eq_done_iff.mpr ⟨_, _, high, low, hn, by simp, rfl, rfl⟩

/-- A name and a password are heard, and not looked at. -/
theorem upon_skipCredentials (h : Introduces introduction) (next : Exchange String)
    (offer : Bytes) : (skipCredentials next).upon (introduction ++ offer) = next.upon offer := by
  obtain @⟨v, userLength, passLength, user, pass, hu, hp⟩ := h
  obtain ⟨user, rfl⟩ := Exchange.exists_toList_eq hu
  obtain ⟨pass, rfl⟩ := Exchange.exists_toList_eq hp
  simp only [List.append_assoc, List.cons_append, List.nil_append]
  rw [skipCredentials, Exchange.upon_recvTwo, Exchange.upon_recv, Exchange.upon_recvOne,
    Exchange.upon_recv]

/-- **A name and a password are heard out, or waited for.** -/
theorem upon_skipCredentials_cases (next : Exchange String) (offer : Bytes) :
    (∃ introduction offer', Introduces introduction ∧ offer = introduction ++ offer'
        ∧ (skipCredentials next).upon offer = next.upon offer')
      ∨ (∀ introduction, Introduces introduction → ¬ introduction <+: offer)
        ∧ (skipCredentials next).upon offer = ⟨.short reading, [], []⟩ := by
  by_cases h : ∃ introduction, Introduces introduction ∧ introduction <+: offer
  · obtain ⟨introduction, hi, offer', rfl⟩ := h
    exact .inl ⟨introduction, offer', hi, rfl, upon_skipCredentials hi next offer'⟩
  refine .inr ⟨fun introduction hi hp => h ⟨introduction, hi, hp⟩, ?_⟩
  rw [skipCredentials]
  obtain ⟨v, userLength, offer₁, h₁, hu₁⟩ | ⟨-, hu₁⟩ := Exchange.upon_recvTwo_cases _ offer <;>
    rw [hu₁]
  obtain ⟨user, offer₂, h₂, hu₂⟩ | ⟨-, hu₂⟩ := Exchange.upon_recv_cases _ offer₁ <;> rw [hu₂]
  obtain ⟨passLength, offer₃, h₃, hu₃⟩ | ⟨-, hu₃⟩ := Exchange.upon_recvOne_cases _ offer₂ <;>
    rw [hu₃]
  obtain ⟨pass, offer₄, h₄, hu₄⟩ | ⟨-, hu₄⟩ := Exchange.upon_recv_cases _ offer₃ <;> rw [hu₄]
  subst h₁ h₂ h₃ h₄
  exact absurd ⟨_, .mk v user.length_toList pass.length_toList, offer₄, by simp⟩ h

/-- **A client that asks for a target is heard out.** -/
theorem upon_accept_of_asks (h : Asks asked answer target) (rest : Bytes) :
    accept.upon (asked ++ rest) = ⟨.done target, answer, rest⟩ := by
  obtain @⟨entry, answer, request, target, he, hr⟩ := h
  have hrequest : readRequest.upon (request ++ rest) = ⟨.done target, [], rest⟩ :=
    upon_readRequest_eq_done_iff.mpr ⟨request, hr, rfl, rfl⟩
  rw [accept]
  cases he with
  | @freely count methods hm hn =>
    obtain ⟨methods, rfl⟩ := Exchange.exists_toList_eq hm
    simp only [List.append_assoc, List.cons_append, List.nil_append]
    rw [Exchange.upon_recvTwo, if_neg (not_not.mpr rfl), Exchange.upon_recv, choose,
      if_pos (by simpa using hn)]
    exact Exchange.upon_send_eq_done_iff.mpr ⟨[], rfl, hrequest⟩
  | @known count methods introduction hm hn hu hi =>
    obtain ⟨methods, rfl⟩ := Exchange.exists_toList_eq hm
    simp only [List.append_assoc, List.cons_append, List.nil_append]
    rw [Exchange.upon_recvTwo, if_neg (not_not.mpr rfl), Exchange.upon_recv, choose,
      if_neg (by simpa using hn), if_pos (by simpa using hu)]
    refine Exchange.upon_send_eq_done_iff.mpr ⟨[authVersion, 0], rfl, ?_⟩
    rw [upon_skipCredentials hi]
    exact Exchange.upon_send_eq_done_iff.mpr ⟨[], rfl, hrequest⟩

/-- **A client that greeted is heard out** if it comes in and requests a target. -/
theorem asks_of_upon_choose {count : UInt8} {methods : Bytes} (hm : methods.length = count.toNat)
    (h : (choose methods readRequest).upon offer = ⟨.done target, answer, rest⟩) :
    ∃ more, Asks ([version, count] ++ methods ++ more) answer target ∧ offer = more ++ rest := by
  rw [choose] at h
  split at h
  · rename_i hn
    obtain ⟨said, rfl, h'⟩ := Exchange.upon_send_eq_done_iff.mp h
    obtain ⟨request, hr, rfl, rfl⟩ := upon_readRequest_eq_done_iff.mp h'
    exact ⟨request, .mk (.freely hm (by simpa using hn)) hr, rfl⟩
  rename_i hn
  split at h
  · rename_i hu
    obtain ⟨said, rfl, h'⟩ := Exchange.upon_send_eq_done_iff.mp h
    obtain ⟨introduction, _, hi, rfl, hskip⟩ | ⟨-, hskip⟩ := upon_skipCredentials_cases _ offer <;>
      rw [hskip] at h'
    case inr => cases (Exchange.Hearing.mk.inj h').1
    obtain ⟨said, rfl, h''⟩ := Exchange.upon_send_eq_done_iff.mp h'
    obtain ⟨request, hr, rfl, rfl⟩ := upon_readRequest_eq_done_iff.mp h''
    have he := Enters.known hm (by simpa using hn) (by simpa using hu) hi
    refine ⟨introduction ++ request, ?_, (List.append_assoc ..).symm⟩
    rw [← List.append_assoc]
    exact .mk he hr
  · cases (Exchange.Hearing.mk.inj h).1

/-- **A client is heard out exactly when it asks for a target.** -/
theorem upon_accept_eq_done_iff : accept.upon offer = ⟨.done target, answer, rest⟩
    ↔ ∃ asked, Asks asked answer target ∧ offer = asked ++ rest := by
  constructor
  · intro h
    rw [accept] at h
    obtain ⟨v, count, _, rfl, h'⟩ := Exchange.upon_recvTwo_eq_done_iff.mp h
    split at h'
    · cases (Exchange.Hearing.mk.inj h').1
    rename_i hv
    obtain rfl := not_not.mp hv
    obtain ⟨methods, _, rfl, hchoose⟩ := Exchange.upon_recv_eq_done_iff.mp h'
    obtain ⟨more, ha, rfl⟩ := asks_of_upon_choose methods.length_toList hchoose
    exact ⟨_, ha, by simp⟩
  · rintro ⟨asked, ha, rfl⟩
    exact upon_accept_of_asks ha rest

/-! ## Over a stream -/

variable {s t : Stream}

/-- **A client that asks for a target is heard out**, if it takes what it is answered. -/
theorem exists_run_accept (h : Asks asked answer target) (ho : s.offered = asked ++ rest)
    (ht : s.Takes answer.length) :
    ∃ t, accept.run s = (.done target, t) ∧ s.Leaves asked answer t := by
  obtain ⟨t, heard, hrun, ho', hl⟩ :=
    Exchange.exists_run_eq_done (upon_accept_eq_done_iff.mpr ⟨asked, h, ho⟩) ht
  obtain rfl := List.append_cancel_right (ho.symm.trans ho')
  exact ⟨t, hrun, hl⟩

/-- **Whoever is heard out asked for a target.** -/
theorem asks_of_run_accept (h : accept.run s = (.done target, t)) :
    ∃ asked answer, Asks asked answer target ∧ s.Takes answer.length
      ∧ s.Leaves asked answer t := by
  obtain ⟨heard, answer, hu, ht, hl⟩ := Exchange.upon_of_run_eq_done h
  obtain ⟨asked, ha, ho⟩ := upon_accept_eq_done_iff.mp hu
  obtain rfl := List.append_cancel_right (ho.symm.trans hl.offered)
  exact ⟨asked, answer, ha, ht, hl⟩

end HopTorrent.Socks.Ingress
