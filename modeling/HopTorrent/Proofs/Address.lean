import HopTorrent.Address
import HopTorrent.Proofs.Address.Ip

/-!
# Proofs/Address — what an address consists of

An address is a host in brackets or a host without a colon, a colon, and the numeral of a port
(`parse_eq_ok_iff`).  What stands in front of `:` and a port that was written in decimal decides
alone whether that is an address: the port is the one written, and the host is what stands in front
of it, or what that holds in brackets (`parse_port_iff`).
-/

namespace HopTorrent.Address

variable {cs host port : List Char} {a : Address}

/-- A host that stands in front of a port without brackets. -/
def Bare (host : String) : Prop := ':' ∉ host.toList ∧ host.toList.head? ≠ some '['

instance (host : String) : Decidable (Bare host) := inferInstanceAs (Decidable (_ ∧ _))

/-- What stands on both sides of the last colon is determined. -/
theorem append_colon_inj {front front' back back' : List Char} (hb : ':' ∉ back)
    (hb' : ':' ∉ back') (h : front ++ ':' :: back = front' ++ ':' :: back') :
    front = front' ∧ back = back' := by
  have hcut : Text.cutLast ':' (front ++ ':' :: back) = some (front, back) :=
    Text.cutLast_eq_some_iff.mpr ⟨rfl, hb⟩
  have hcut' : Text.cutLast ':' (front ++ ':' :: back) = some (front', back') :=
    Text.cutLast_eq_some_iff.mpr ⟨h, hb'⟩
  exact Prod.mk.inj (Option.some.inj (hcut.symm.trans hcut'))

/-- **The two forms of an address**: the host in brackets, or free of colons. -/
theorem split?_eq_some_iff : split? cs = some (host, port)
    ↔ (cs = '[' :: host ++ ']' :: ':' :: port ∧ ']' ∉ host)
      ∨ (cs = host ++ ':' :: port ∧ ':' ∉ host ∧ ':' ∉ port ∧ host.head? ≠ some '[') := by
  unfold split?
  split
  · rename_i rest
    have hplain : ¬ ('[' :: rest = host ++ ':' :: port ∧ ':' ∉ host ∧ ':' ∉ port
        ∧ host.head? ≠ some '[') := by
      rintro ⟨h, -, -, hh⟩
      cases host with
      | nil => cases h
      | cons c host => exact hh (congrArg some (List.cons.inj h).1.symm)
    rw [or_iff_left hplain, List.cons_append, List.cons_inj_right]
    constructor
    · intro h
      obtain ⟨⟨before, tail⟩, hcut, hport⟩ := Option.bind_eq_some_iff.mp h
      obtain ⟨rfl, hb⟩ := Text.cutFirst_eq_some_iff.mp hcut
      dsimp only at hport
      split at hport
      · obtain ⟨rfl, rfl⟩ := Prod.mk.inj (Option.some.inj hport)
        exact ⟨rfl, hb⟩
      · cases hport
    · rintro ⟨rfl, hb⟩
      rw [Text.cutFirst_eq_some_iff.mpr ⟨rfl, hb⟩]
      rfl
  · rename_i hcs
    have hbracket : ¬ (cs = '[' :: host ++ ']' :: ':' :: port ∧ ']' ∉ host) := fun h => hcs _ h.1
    have hhead : cs = host ++ ':' :: port → host.head? ≠ some '[' := by
      rintro rfl hh
      obtain ⟨tail, rfl⟩ := List.head?_eq_some_iff.mp hh
      exact hcs _ rfl
    rw [or_iff_right hbracket, Option.filter_eq_some_iff, Text.cutLast_eq_some_iff]
    constructor
    · rintro ⟨⟨h, hp⟩, hh⟩
      exact ⟨h, by simpa using hh, hp, hhead h⟩
    · rintro ⟨h, hh, hp, -⟩
      exact ⟨⟨h, hp⟩, by simpa using hh⟩

/-- **What is read as a host and a port.** -/
theorem parts?_eq_some_iff {p : UInt16} : parts? cs = some (host, p)
    ↔ ∃ port, split? cs = some (host, port) ∧ host ≠ []
      ∧ Text.natural? Text.max16 port = some p.toNat := by
  rw [parts?]
  constructor
  · intro h
    obtain ⟨⟨host', port⟩, hs, hread⟩ := Option.bind_eq_some_iff.mp h
    cases host' with
    | nil => cases hread
    | cons c host' =>
      obtain ⟨n, hn, hpair⟩ := Option.bind_eq_some_iff.mp hread
      obtain ⟨rfl, rfl⟩ := Prod.mk.inj (Option.some.inj hpair)
      have hlt : n < 65536 := Nat.lt_succ_of_le (Text.natural?_eq_some_iff.mp hn).1
      exact ⟨port, hs, List.cons_ne_nil c host', by
        rw [hn, UInt16.toNat_ofNat', Nat.mod_eq_of_lt hlt]⟩
  · rintro ⟨port, hs, hne, hn⟩
    refine Option.bind_eq_some_iff.mpr ⟨(host, port), hs, ?_⟩
    cases host with
    | nil => exact absurd rfl hne
    | cons c host =>
      refine Option.bind_eq_some_iff.mpr ⟨p.toNat, hn, ?_⟩
      rw [UInt16.ofNat_toNat]
      rfl

/-- **What an address consists of.** -/
theorem parse_eq_ok_iff {s : String} : parse s = .ok a
    ↔ ∃ port, split? s.toList = some (a.host.toList, port) ∧ a.host ≠ ""
      ∧ Text.natural? Text.max16 port = some a.port.toNat := by
  have hne : a.host ≠ "" ↔ a.host.toList ≠ [] := by rw [ne_eq, ne_eq, String.toList_eq_nil_iff]
  rw [hne, ← parts?_eq_some_iff, parse]
  split
  · rename_i host p hp
    obtain ⟨ahost, aport⟩ := a
    rw [hp, Except.ok.injEq, Option.some.injEq, Prod.mk.injEq, Address.mk.injEq,
      ← String.toList_inj, String.toList_ofList]
  · rename_i hp
    simp [hp]

/-- **What is accepted is what can be read.** -/
theorem accepts_iff {s : String} : accepts s = true ↔ ∃ a, parse s = .ok a := by
  rw [accepts, parse]
  split
  · rename_i hp
    exact iff_of_true (by rw [hp]; rfl) ⟨_, rfl⟩
  · rename_i hp
    exact iff_of_false (by simp [hp]) nofun

/-- A text that is no address is refused for that. -/
theorem parse_of_forall_ne {s : String} (h : ∀ a, parse s ≠ .ok a) :
    parse s = .error (.validation ("invalid address: " ++ s)) := by
  rw [parse] at h ⊢
  split
  · rename_i host p hp
    rw [hp] at h
    exact absurd rfl (h _)
  · rfl

/-- **The host of an address** is not empty, and stood in brackets or needs none. -/
theorem host_of_parse {s : String} (h : parse s = .ok a) :
    a.host ≠ "" ∧ (']' ∉ a.host.toList ∨ Bare a.host) := by
  obtain ⟨port, hs, hne, -⟩ := parse_eq_ok_iff.mp h
  refine ⟨hne, (split?_eq_some_iff.mp hs).imp ?_ ?_⟩
  · exact fun h => h.2
  · exact fun h => ⟨h.2.1, h.2.2.2⟩

/-- A port is the numeral it is written with. -/
theorem natural?_port (p : UInt16) :
    Text.natural? Text.max16 (Nat.toDigits 10 p.toNat) = some p.toNat :=
  Text.natural?_toDigits (Nat.le_of_lt_succ p.toNat_lt)

/-- No colon stands in the numeral of a port. -/
theorem colon_not_mem_port {n : Nat} (h : Text.natural? Text.max16 port = some n) : ':' ∉ port :=
  Text.not_mem_of_natural? rfl (by decide) h

/-- **A text in front of a port is an address** when it is a host free of colons or a host in
brackets; the port is the one written. -/
theorem parse_port_iff {text : String} {p : UInt16} :
    parse (text ++ ":" ++ toString p.toNat) = .ok a ↔ a.port = p ∧ a.host ≠ ""
      ∧ ((text = a.host ∧ Bare a.host)
        ∨ (text = "[" ++ a.host ++ "]" ∧ ']' ∉ a.host.toList)) := by
  have hp := natural?_port p
  have hlist : (text ++ ":" ++ toString p.toNat).toList
      = text.toList ++ ':' :: Nat.toDigits 10 p.toNat := by
    simp
  rw [parse_eq_ok_iff, hlist]
  simp only [split?_eq_some_iff]
  constructor
  · rintro ⟨port, hs, hne, hport⟩
    have hports : ∀ {front : List Char},
        text.toList ++ ':' :: Nat.toDigits 10 p.toNat = front ++ ':' :: port →
          text.toList = front ∧ a.port = p := fun h => by
      obtain ⟨hfront, rfl⟩ := append_colon_inj (colon_not_mem_port hp) (colon_not_mem_port hport) h
      exact ⟨hfront, UInt16.toNat_inj.mp (Option.some.inj (hport.symm.trans hp))⟩
    obtain ⟨h, hb⟩ | ⟨h, hcolon, -, hhead⟩ := hs
    · have h' : text.toList ++ ':' :: Nat.toDigits 10 p.toNat
          = ('[' :: a.host.toList ++ [']']) ++ ':' :: port := by simpa using h
      obtain ⟨ht, hport⟩ := hports h'
      exact ⟨hport, hne, .inr ⟨String.toList_inj.mp (by simpa using ht), hb⟩⟩
    · obtain ⟨ht, hport⟩ := hports h
      exact ⟨hport, hne, .inl ⟨String.toList_inj.mp ht, hcolon, hhead⟩⟩
  · rintro ⟨rfl, hne, ⟨rfl, hcolon, hhead⟩ | ⟨rfl, hb⟩⟩
    · exact ⟨_, .inr ⟨rfl, hcolon, colon_not_mem_port hp, hhead⟩, hne, hp⟩
    · exact ⟨_, .inl ⟨by simp, hb⟩, hne, hp⟩

end HopTorrent.Address
