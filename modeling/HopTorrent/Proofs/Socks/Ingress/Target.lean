import HopTorrent.Proofs.Socks.Ingress.Asks
import HopTorrent.Proofs.Socks.Request

/-!
# Proofs/Socks/Ingress/Target — the target that is dialed is the one that was asked for

The ingress turns a request into the text of a target, and the last proxy of a chain is asked for
what that text names.  A host of octets comes through unchanged; a name is either refused on the way
or comes through without the brackets around it, and no name changes the port
(`accept_faithful`).  Which targets of a client come through at all is decided by how their host is
written: one that only stands in brackets because it holds a colon loses them and is refused
(`accept_survives_iff`).
-/

namespace HopTorrent.Socks.Ingress

variable {entry answer request bytes rest : Bytes} {target target' name : String} {kind : UInt8}
  {s t : Stream} {a : Address}

/-- Two bytes spell the port of an address. -/
theorem exists_toNat_eq_toPort (high low : UInt8) :
    ∃ p : UInt16, p.toNat = Bytes.toPort high low := by
  refine ⟨UInt16.ofNat (Bytes.toPort high low), ?_⟩
  rw [UInt16.toNat_ofNat', Nat.mod_eq_of_lt (Bytes.toPort_lt high low)]

/-! ## No request names another target -/

/-- **A request and a target that names nothing else**: the target asks for the octets and the port
of the request, or for its name. -/
structure Faithful (request : Bytes) (target : String) : Prop where
  /-- Octets are asked for again, by the same kind and with the same port. -/
  numeric : ∀ {reserved kind high low : UInt8} {octets : Bytes},
    request = [version, connectCommand, reserved, kind] ++ octets ++ [high, low] →
      kind = ipv4 ∨ kind = ipv6 →
        connectRequest target = .ok ([version, connectCommand, 0, kind] ++ octets ++ [high, low])
  /-- If the target is an address, then it is one of the name, perhaps without brackets around it,
  and with the same port. -/
  named : ∀ {reserved length high low : UInt8} {name : String} {a : Address},
    request = [version, connectCommand, reserved, domain, length] ++ Bytes.utf8 name
        ++ [high, low] → Address.parse target = .ok a →
      a.port.toNat = Bytes.toPort high low ∧ (a.host = name ∨ name = "[" ++ a.host ++ "]")

/-- A target made of octets asks for them. -/
theorem connectRequest_of_octets (ip : Ip) (high low : UInt8) :
    connectRequest (ip.renderHost ++ ":" ++ toString (Bytes.toPort high low))
      = .ok ([version, connectCommand, 0, kindOf ip] ++ ip.octets ++ [high, low]) := by
  obtain ⟨p, hp⟩ := exists_toNat_eq_toPort high low
  rw [← hp, connectRequest_renderHost, hp, Bytes.ofPort_toPort]

/-- A target made of a name is an address of that name. -/
theorem host_of_named {high low : UInt8}
    (h : Address.parse (name ++ ":" ++ toString (Bytes.toPort high low)) = .ok a) :
    a.port.toNat = Bytes.toPort high low ∧ (a.host = name ∨ name = "[" ++ a.host ++ "]") := by
  obtain ⟨p, hp⟩ := exists_toNat_eq_toPort high low
  rw [← hp] at h ⊢
  obtain ⟨rfl, -, ⟨rfl, -⟩ | ⟨rfl, -⟩⟩ := Address.parse_port_iff.mp h
  · exact ⟨rfl, .inl rfl⟩
  · exact ⟨rfl, .inr rfl⟩

/-- A request is read in one way. -/
theorem request_inj {reserved reserved' kind kind' high high' low low' : UInt8}
    {address address' : Bytes}
    (h : [version, connectCommand, reserved, kind] ++ address ++ [high, low]
      = [version, connectCommand, reserved', kind'] ++ address' ++ [high', low']) :
    kind = kind' ∧ address = address' ∧ high = high' ∧ low = low' := by
  obtain ⟨hhead, hport⟩ := List.append_inj' h rfl
  obtain ⟨-, hkind, haddress⟩ : _ ∧ _ ∧ _ := by simpa using hhead
  obtain ⟨hhigh, hlow⟩ : _ ∧ _ := by simpa using hport
  exact ⟨hkind, haddress, hhigh, hlow⟩

/-- **What is requested is what the target names.** -/
theorem Requests.faithful (h : Requests request target) : Faithful request target := by
  obtain @⟨_, high₀, low₀, _, _, host, hn⟩ := h
  constructor
  · intro reserved kind high low octets hr hk
    obtain ⟨rfl, rfl, rfl, rfl⟩ := request_inj hr
    cases hn with
    | v4 octets =>
      rw [connectRequest_of_octets, Ip.octets_ofOctets4]
      rfl
    | v6 octets =>
      rw [connectRequest_of_octets, Ip.octets_ofOctets6]
      rfl
    | name _ hl =>
      obtain hk | hk := hk <;> cases hk
  · intro reserved length high low name a hr ha
    have hr' : _ = [version, connectCommand, reserved, domain] ++ (length :: Bytes.utf8 name)
        ++ [high, low] := hr
    obtain ⟨hkind, haddress, rfl, rfl⟩ := request_inj hr'
    cases hn with
    | v4 octets => cases hkind
    | v6 octets => cases hkind
    | name _ hl =>
      have hhost : host = name := by
        rw [← Option.some.injEq, ← Bytes.ofUtf8?_utf8 host, (List.cons.inj haddress).2,
          Bytes.ofUtf8?_utf8]
      subst hhost
      exact host_of_named ha

/-- **No target confusion**: whatever is asked for, the target that the ingress comes to names the
octets and the port that were requested, or the name and the port, or nothing. -/
theorem accept_faithful (h : accept.run s = (.done target, t)) :
    ∃ entry answer request, Enters entry answer ∧ s.Leaves (entry ++ request) answer t
      ∧ Requests request target ∧ Faithful request target := by
  obtain ⟨_, answer, ⟨he, hr⟩, -, hl⟩ := asks_of_run_accept h
  exact ⟨_, answer, _, he, hl, hr, hr.faithful⟩

/-- A client without authentication asks for `[::ffff:1.2.3.4]:80` by its octets. -/
def mapped : Stream :=
  ⟨[[5, 1, 0, 5, 1, 0, 4], [0, 0, 0, 0, 0, 0, 0, 0, 0, 0, 255, 255, 1, 2, 3, 4, 0, 80]], .hang,
    none, false, [], false, []⟩

/-- The octets are asked for again. -/
theorem accept_faithful_mapped :
    ∃ target t, accept.run mapped = (.done target, t)
      ∧ (∃ entry answer request, Enters entry answer
        ∧ mapped.Leaves (entry ++ request) answer t ∧ Requests request target
        ∧ Faithful request target)
      ∧ target = "[::ffff:1.2.3.4]:80" := by
  obtain ⟨target, t, h, ht⟩ :
      ∃ target t, accept.run mapped = (.done target, t) ∧ target = "[::ffff:1.2.3.4]:80" :=
    ⟨_, _, rfl, by decide +kernel⟩
  exact ⟨target, t, h, accept_faithful h, ht⟩

/-! ## Targets that come through -/

/-- **A host that comes through**: a numeric one, or one that can stand in front of a port without
brackets. -/
def Passes (host : String) : Prop :=
  (Ip.ofChars? host.toList).isSome = true ∨ Address.Bare host

/-- **The target that a request for an address is heard as**: a numeric host in its own form, any
other as it is. -/
def handedOn (a : Address) : String :=
  (match Ip.ofChars? a.host.toList with
    | some ip => ip.renderHost
    | none => a.host) ++ ":" ++ toString a.port.toNat

/-- How a host is heard. -/
theorem names_of_hostBytes {host : String} (h : hostBytes host = .ok bytes) :
    ∃ kind address, bytes = kind :: address ∧ Names kind address
      (match Ip.ofChars? host.toList with
        | some ip => ip.renderHost
        | none => host) := by
  obtain ⟨ip, hip, rfl⟩ | ⟨hip, hl, rfl⟩ := hostBytes_eq_ok_iff.mp h <;> rw [hip]
  · cases ip with
    | v4 octets => exact ⟨_, _, rfl, .v4 octets⟩
    | v6 groups =>
      obtain ⟨octets, ho⟩ := Exchange.exists_toList_eq (Ip.length_octets_v6 groups)
      have hnames := Names.v6 octets
      rw [Ip.ofOctets6_eq ho, ho] at hnames
      exact ⟨_, _, rfl, hnames⟩
  · refine ⟨_, _, rfl, .name host ?_⟩
    rw [Bytes.length_utf8, UInt8.toNat_ofNat', Nat.mod_eq_of_lt (Nat.lt_succ_of_le hl)]

/-- **What is requested for an address is heard as a request.** -/
theorem requests_handedOn (hr : connectRequest target = .ok request)
    (ha : Address.parse target = .ok a) : Requests request (handedOn a) := by
  obtain ⟨a', bytes, ha', hb, rfl⟩ := connectRequest_eq_ok_iff.mp hr
  obtain rfl := Except.ok.inj (ha.symm.trans ha')
  obtain ⟨kind, address, rfl, hn⟩ := names_of_hostBytes hb
  have h := Requests.mk 0 (UInt8.ofNat (a.port.toNat / 256)) (UInt8.ofNat a.port.toNat) hn
  rwa [Bytes.toPort_ofPort a.port.toNat_lt] at h

/-- **A name comes through exactly when it needs no brackets.** -/
theorem connectRequest_name_iff (hr : connectRequest target = .ok request)
    (ha : Address.parse target = .ok a) {target' : String}
    (ht : target' = a.host ++ ":" ++ toString a.port.toNat) :
    (connectRequest target' = .ok request ↔ Address.Bare a.host)
      ∧ (¬ Address.Bare a.host →
        connectRequest target' = .error (.validation ("invalid address: " ++ target'))) := by
  subst ht
  obtain ⟨hne, hform⟩ := Address.host_of_parse ha
  by_cases hbare : Address.Bare a.host
  · obtain ⟨a', host, ha', hh, hb⟩ := connectRequest_eq_ok_iff.mp hr
    obtain rfl := Except.ok.inj (ha.symm.trans ha')
    have hparse := Address.parse_port_iff.mpr ⟨rfl, hne, .inl ⟨rfl, hbare⟩⟩
    have hsame := connectRequest_eq_ok_iff.mpr ⟨a, host, hparse, hh, hb⟩
    exact ⟨iff_of_true hsame hbare, fun h => absurd hbare h⟩
  · have hrefused := Address.parse_of_forall_ne
        (s := a.host ++ ":" ++ toString a.port.toNat) fun a' ha' => by
      obtain ⟨-, -, ⟨hhost, hbare'⟩ | ⟨hhost, -⟩⟩ := Address.parse_port_iff.mp ha'
      · exact hbare (hhost ▸ hbare')
      · -- a host in brackets holds the bracket that would have ended it
        refine hform.elim (fun hb => hb ?_) hbare
        simp [hhost]
    have herror := connectRequest_of_error hrefused
    exact ⟨iff_of_false (fun h => nomatch herror.symm.trans h) hbare, fun _ => herror⟩

/-- **Which requests are made again for what they were heard as.** -/
theorem connectRequest_handedOn_iff (hr : connectRequest target = .ok request)
    (ha : Address.parse target = .ok a) :
    (connectRequest (handedOn a) = .ok request ↔ Passes a.host)
      ∧ (¬ Passes a.host → connectRequest (handedOn a)
        = .error (.validation ("invalid address: " ++ handedOn a))) := by
  rw [Passes]
  cases hip : Ip.ofChars? a.host.toList with
  | some ip =>
    obtain ⟨a', host, ha', hh, rfl⟩ := connectRequest_eq_ok_iff.mp hr
    obtain rfl := Except.ok.inj (ha.symm.trans ha')
    obtain rfl := Except.ok.inj ((hostBytes_of_ofChars? hip).symm.trans hh)
    have hsame := connectRequest_renderHost ip a.port
    rw [handedOn, hip]
    exact ⟨iff_of_true hsame (.inl rfl), fun h => absurd (.inl rfl) h⟩
  | none =>
    have hpasses : (none : Option Ip).isSome = true ∨ Address.Bare a.host ↔ Address.Bare a.host :=
      or_iff_right Bool.false_ne_true
    rw [hpasses]
    exact connectRequest_name_iff hr ha (by rw [handedOn, hip])

/-- **Which targets survive the ingress.**  Let a client come in and request a target.  It is heard
out, and the target that is handed on asks for the same host, kind and port exactly when the host
passes; otherwise it is refused as no address, and nothing else is asked for. -/
theorem accept_survives_iff (hr : connectRequest target = .ok request)
    (ha : Address.parse target = .ok a) (he : Enters entry answer)
    (ho : s.offered = entry ++ request ++ rest) (ht : s.Takes answer.length) :
    ∃ target' t, accept.run s = (.done target', t) ∧ s.Leaves (entry ++ request) answer t
      ∧ (connectRequest target' = .ok request ↔ Passes a.host)
      ∧ (¬ Passes a.host → connectRequest target'
        = .error (.validation ("invalid address: " ++ target'))) := by
  obtain ⟨t, hrun, hl⟩ := exists_run_accept (.mk he (requests_handedOn hr ha)) ho ht
  exact ⟨handedOn a, t, hrun, hl, connectRequest_handedOn_iff hr ha⟩

/-! ## A target that does not come through -/

/-- The request for `[fe80::1%eth0]:6881`, by name since the host has a zone. -/
def zonedRequest : Bytes :=
  [version, connectCommand, 0, domain, 12] ++ Bytes.utf8 "fe80::1%eth0" ++ [26, 225]

/-- A client without authentication makes that request. -/
def zoned : Stream := ⟨[[5, 1, 0], zonedRequest], .hang, none, false, [], false, []⟩

theorem connectRequest_zoned : connectRequest "[fe80::1%eth0]:6881" = .ok zonedRequest := rfl

theorem enters_zoned : Enters [5, 1, 0] [5, 0] :=
  @Enters.freely 1 [noAuth] rfl (List.mem_singleton.mpr rfl)

/-- The zone does not pass, since its host holds colons. -/
theorem accept_survives_iff_zoned :
    connectRequest "[fe80::1%eth0]:6881" = .ok zonedRequest ∧ ¬ Passes "fe80::1%eth0"
      ∧ ∃ target' t, accept.run zoned = (.done target', t)
        ∧ connectRequest target' = .error (.validation ("invalid address: " ++ target')) := by
  have hpasses : ¬ Passes "fe80::1%eth0" := by
    rw [Passes]
    decide +kernel
  have ha : Address.parse "[fe80::1%eth0]:6881" = .ok ⟨"fe80::1%eth0", 6881⟩ := rfl
  have ho : zoned.offered = [5, 1, 0] ++ zonedRequest ++ [] := rfl
  obtain ⟨target', t, hrun, -, -, hrefused⟩ :=
    accept_survives_iff connectRequest_zoned ha enters_zoned ho nofun
  exact ⟨connectRequest_zoned, hpasses, target', t, hrun, hrefused hpasses⟩

/-- **There are targets that do not come through.** -/
theorem not_forall_survives :
    ¬ ∀ {target target' : String} {entry answer request : Bytes} {s t : Stream},
      connectRequest target = .ok request → Enters entry answer → s.offered = entry ++ request →
        accept.run s = (.done target', t) → connectRequest target' = .ok request := by
  intro h
  have hrun : (accept.run zoned).1 = .done "fe80::1%eth0:6881" := by decide +kernel
  have hrefused : connectRequest "fe80::1%eth0:6881"
      = .error (.validation "invalid address: fe80::1%eth0:6881") := rfl
  exact nomatch hrefused.symm.trans
    (h connectRequest_zoned enters_zoned rfl (Prod.ext hrun rfl : _ = (_, (accept.run zoned).2)))

end HopTorrent.Socks.Ingress
