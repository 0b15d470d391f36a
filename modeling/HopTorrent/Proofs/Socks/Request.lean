import HopTorrent.Proofs.Address
import HopTorrent.Proofs.Error
import HopTorrent.Socks.Message

/-!
# Proofs/Socks/Request — what a request to connect names

A target that can be asked for is an address, and the request holds its host and its port: a numeric
host by its octets, any other as it is written (`connectRequest_eq_ok_iff`, `hostBytes_eq_ok_iff`).
Every address can be asked for, unless its host is too long a name (`encodable_iff`).  A numeric host
asks for the same octets from its own text (`connectRequest_renderHost`).
-/

namespace HopTorrent.Socks

variable {host target : String} {bytes : Bytes} {ip : Ip}

/-- The kind of a numeric host. -/
def kindOf : Ip → UInt8
  | .v4 _ => ipv4
  | .v6 _ => ipv6

/-- A numeric host is named by its octets. -/
theorem hostBytes_of_ofChars? (h : Ip.ofChars? host.toList = some ip) :
    hostBytes host = .ok (kindOf ip :: ip.octets) := by
  rw [hostBytes, h]
  cases ip <;> rfl

/-- Any other host is named by itself, if it is short enough. -/
theorem hostBytes_of_name (hn : Ip.ofChars? host.toList = none) (hl : host.utf8ByteSize ≤ 255) :
    hostBytes host = .ok (domain :: counted (Bytes.utf8 host)) := by
  rw [hostBytes, hn]
  exact if_neg (Nat.not_lt_of_le hl)

/-- **How a host is named.** -/
theorem hostBytes_eq_ok_iff : hostBytes host = .ok bytes
    ↔ (∃ ip, Ip.ofChars? host.toList = some ip ∧ bytes = kindOf ip :: ip.octets)
      ∨ (Ip.ofChars? host.toList = none ∧ host.utf8ByteSize ≤ 255
        ∧ bytes = domain :: counted (Bytes.utf8 host)) := by
  cases hip : Ip.ofChars? host.toList with
  | some ip =>
    rw [hostBytes_of_ofChars? hip]
    constructor
    · intro h
      exact .inl ⟨ip, rfl, (Except.ok.inj h).symm⟩
    · rintro (⟨_, ⟨⟩, rfl⟩ | ⟨⟨⟩, -⟩)
      rfl
  | none =>
    by_cases hl : host.utf8ByteSize ≤ 255
    · rw [hostBytes_of_name hip hl]
      constructor
      · intro h
        exact .inr ⟨rfl, hl, (Except.ok.inj h).symm⟩
      · rintro (⟨_, ⟨⟩, -⟩ | ⟨-, -, rfl⟩)
        rfl
    · constructor
      · intro h
        rw [hostBytes, hip] at h
        dsimp only at h
        rw [if_pos (Nat.lt_of_not_le hl)] at h
        cases h
      · rintro (⟨_, ⟨⟩, -⟩ | ⟨-, hl', -⟩)
        exact absurd hl' hl

/-- **What is asked for.** -/
theorem connectRequest_eq_ok_iff : connectRequest target = .ok bytes
    ↔ ∃ a host, Address.parse target = .ok a ∧ hostBytes a.host = .ok host
      ∧ bytes = [version, connectCommand, 0] ++ host ++ Bytes.ofPort a.port.toNat := by
  simp only [connectRequest, Error.bind_eq_ok_iff]
  constructor
  · rintro ⟨a, ha, host, hh, hb⟩
    exact ⟨a, host, ha, hh, (Except.ok.inj hb).symm⟩
  · rintro ⟨a, host, ha, hh, rfl⟩
    exact ⟨a, ha, host, hh, rfl⟩

/-- What is no address cannot be asked for. -/
theorem connectRequest_of_error {e : Error} (h : Address.parse target = .error e) :
    connectRequest target = .error e := by
  rw [connectRequest, h]
  rfl

/-! ## What can be asked for -/

/-- A proxy can be asked to connect to an address. -/
def Encodable (address : String) : Prop := ∃ bytes, connectRequest address = .ok bytes

instance : DecidablePred Encodable := fun address =>
  decidable_of_iff ((connectRequest address).isOk = true) <| by
    rw [Encodable]
    cases connectRequest address <;> simp [Except.isOk, Except.toBool]

/-- A host that cannot be named has too long a name. -/
theorem hostBytes_error {e : Error} (h : hostBytes host = .error e) :
    e = .validation "hostname too long" := by
  unfold hostBytes at h
  split at h
  · cases h
  · cases h
  · split at h
    · cases h
      rfl
    · cases h

/-- **Why a target cannot be asked for**: it is no address, or its host has too long a name. -/
theorem connectRequest_error_cases {e : Error} (h : connectRequest target = .error e) :
    Address.parse target = .error e
      ∨ (∃ a, Address.parse target = .ok a) ∧ e = .validation "hostname too long" := by
  rw [connectRequest] at h
  obtain ha | ⟨a, ha, h⟩ := Error.bind_eq_error_iff.mp h
  · exact .inl ha
  obtain hb | ⟨host, -, h⟩ := Error.bind_eq_error_iff.mp h
  · exact .inr ⟨⟨a, ha⟩, hostBytes_error hb⟩
  · cases h

/-- **What cannot be asked of a proxy is invalid.** -/
theorem connectRequest_error {address : String} {e : Error}
    (h : connectRequest address = .error e) : ∃ detail, e = .validation detail := by
  obtain ha | ⟨-, rfl⟩ := connectRequest_error_cases h
  · rw [Address.parse_of_forall_ne (s := address) fun a hok => by rw [ha] at hok; cases hok] at ha
    cases ha
    exact ⟨_, rfl⟩
  · exact ⟨_, rfl⟩

/-- **An address can be asked for** unless its host is a name of more than 255 bytes. -/
theorem encodable_iff {a : Address} (ha : Address.parse target = .ok a) :
    Encodable target ↔ (Ip.ofChars? a.host.toList).isSome = true ∨ a.host.utf8ByteSize ≤ 255 := by
  have hhost : Encodable target ↔ ∃ bytes, hostBytes a.host = .ok bytes := by
    constructor
    · rintro ⟨bytes, h⟩
      obtain ⟨a', host, ha', hh, -⟩ := connectRequest_eq_ok_iff.mp h
      obtain rfl := Except.ok.inj (ha.symm.trans ha')
      exact ⟨host, hh⟩
    · rintro ⟨host, hh⟩
      exact ⟨_, connectRequest_eq_ok_iff.mpr ⟨a, host, ha, hh, rfl⟩⟩
  rw [hhost]
  constructor
  · rintro ⟨bytes, h⟩
    obtain ⟨ip, hip, -⟩ | ⟨-, hl, -⟩ := hostBytes_eq_ok_iff.mp h
    · exact .inl (by rw [hip]; rfl)
    · exact .inr hl
  · rintro (hip | hl)
    · obtain ⟨ip, hip⟩ := Option.isSome_iff_exists.mp hip
      exact ⟨_, hostBytes_of_ofChars? hip⟩
    · cases hip : Ip.ofChars? a.host.toList with
      | some ip => exact ⟨_, hostBytes_of_ofChars? hip⟩
      | none => exact ⟨_, hostBytes_of_name hip hl⟩

/-! ## Numeric hosts -/

/-- **In front of a port stands a numeric host**: version 4 plainly, version 6 in brackets. -/
theorem parse_renderHost (ip : Ip) (p : UInt16) :
    Address.parse (ip.renderHost ++ ":" ++ toString p.toNat) = .ok ⟨ip.render, p⟩ := by
  have hne : ip.render ≠ "" := fun h => by
    have := ip.ofChars?_render
    rw [h] at this
    cases this
  have hmem : ∀ {c : Char}, c ≠ ':' → c ≠ '.' → Text.hexValue? c = none →
      c ∉ ip.render.toList := fun hcolon hdot hhex hc => by
    obtain h | h | h := Ip.mem_render hc
    · exact hcolon h
    · exact hdot h
    · simp [hhex] at h
  refine Address.parse_port_iff.mpr ⟨rfl, hne, ?_⟩
  cases ip with
  | v4 octets =>
    refine .inl ⟨rfl, Ip.colon_not_mem_render octets, fun h => ?_⟩
    exact hmem (by decide) (by decide) rfl (List.mem_of_head? h)
  | v6 groups => exact .inr ⟨rfl, hmem (by decide) (by decide) rfl⟩

/-- **A numeric host asks for its octets.** -/
theorem connectRequest_renderHost (ip : Ip) (p : UInt16) :
    connectRequest (ip.renderHost ++ ":" ++ toString p.toNat)
      = .ok ([version, connectCommand, 0, kindOf ip] ++ ip.octets ++ Bytes.ofPort p.toNat) :=
  connectRequest_eq_ok_iff.mpr
    ⟨_, _, parse_renderHost ip p, hostBytes_of_ofChars? ip.ofChars?_render, rfl⟩

end HopTorrent.Socks
