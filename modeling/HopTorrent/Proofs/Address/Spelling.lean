import HopTorrent.Proofs.Address

/-!
# Proofs/Address/Spelling — the ways to write an address

An address is written as a host and the numeral of a port with a colon between them.  The host
stands in brackets, and then holds no closing one, or it is bare, and then holds no colon and does
not begin with a bracket.  The two forms are read from different ends of the text, yet no text has
two spellings (`Spelling.text_injective`).  What is read as an address is what has a spelling, and
the address is the one that is spelled (`parse_spelled`).
-/

namespace HopTorrent.Address

/-- **A spelling of an address**: a host, in brackets or bare, and a numeral of a port. -/
@[ext]
structure Spelling where
  host : String
  bracketed : Bool
  /-- Decimal digits after an optional plus sign. -/
  numeral : String
  port : UInt16
  nonempty : host ≠ ""
  fits : if bracketed then ']' ∉ host.toList else Bare host
  worth : Text.Numeral numeral.toList port.toNat

namespace Spelling

variable {w w' : Spelling}

/-- The address that is spelled. -/
def address (w : Spelling) : Address := ⟨w.host, w.port⟩

/-- The host as it is written. -/
def front (w : Spelling) : String := if w.bracketed then "[" ++ w.host ++ "]" else w.host

/-- The text that is written. -/
def text (w : Spelling) : String := w.front ++ ":" ++ w.numeral

/-- A numeral of a port is read as that port. -/
theorem natural?_numeral (w : Spelling) :
    Text.natural? Text.max16 w.numeral.toList = some w.port.toNat :=
  Text.natural?_eq_some_iff_numeral.mpr ⟨w.worth, Nat.le_of_lt_succ w.port.toNat_lt⟩

theorem colon_not_mem_numeral (w : Spelling) : ':' ∉ w.numeral.toList :=
  colon_not_mem_port w.natural?_numeral

theorem toList_text (w : Spelling) :
    w.text.toList = w.front.toList ++ ':' :: w.numeral.toList := by
  simp [text]

theorem toList_front (w : Spelling) : w.front.toList
    = if w.bracketed then '[' :: w.host.toList ++ [']'] else w.host.toList := by
  rw [front]
  split <;> simp

/-! ## No text has two spellings -/

/-- The host that is written tells whether brackets were added. -/
theorem host_of_front (h : w.front = w'.front) : w.host = w'.host ∧ w.bracketed = w'.bracketed := by
  -- A bracket in front was added, as no bare host begins with one.
  have hbare : ∀ {u v : Spelling}, u.bracketed = true → v.bracketed = false →
      u.front ≠ v.front := by
    intro u v hu hv hfront
    have hfits := v.fits
    rw [hv] at hfits
    have hlist := congrArg String.toList hfront
    rw [toList_front, toList_front, hu, hv, if_pos rfl, if_neg Bool.false_ne_true] at hlist
    exact hfits.2 (by rw [← hlist]; rfl)
  cases hb : w.bracketed <;> cases hb' : w'.bracketed
  · refine ⟨?_, rfl⟩
    rw [front, front, hb, hb'] at h
    exact h
  · exact absurd h.symm (hbare hb' hb)
  · exact absurd h (hbare hb hb')
  · refine ⟨?_, rfl⟩
    have hlist := congrArg String.toList h
    rw [toList_front, toList_front, hb, hb'] at hlist
    exact String.toList_inj.mp (List.append_cancel_right (List.cons.inj hlist).2)

/-- **No text has two spellings.** -/
theorem text_injective : Function.Injective text := by
  intro w w' h
  have hlist := congrArg String.toList h
  rw [toList_text, toList_text] at hlist
  obtain ⟨hfront, hnumeral⟩ :=
    append_colon_inj w.colon_not_mem_numeral w'.colon_not_mem_numeral hlist
  obtain ⟨hhost, hbracketed⟩ := host_of_front (String.toList_inj.mp hfront)
  have hport : w.port = w'.port := by
    have hread := w.natural?_numeral
    rw [hnumeral, w'.natural?_numeral] at hread
    exact UInt16.toNat_inj.mp (Option.some.inj hread.symm)
  exact Spelling.ext hhost hbracketed (String.toList_inj.mp hnumeral) hport

/-! ## What is read -/

/-- A spelling is taken apart into what it was put together from. -/
theorem split?_text (w : Spelling) :
    split? w.text.toList = some (w.host.toList, w.numeral.toList) := by
  have hfits := w.fits
  rw [split?_eq_some_iff, toList_text, toList_front]
  cases hb : w.bracketed <;> rw [hb] at hfits
  · exact .inr ⟨rfl, hfits.1, w.colon_not_mem_numeral, hfits.2⟩
  · exact .inl ⟨by simp, hfits⟩

/-- **What is spelled is read.** -/
theorem parse_text (w : Spelling) : parse w.text = .ok w.address :=
  parse_eq_ok_iff.mpr ⟨w.numeral.toList, w.split?_text, w.nonempty, w.natural?_numeral⟩

end Spelling

variable {s : String} {a : Address}

/-- **What is read has a spelling.** -/
theorem exists_spelling (h : parse s = .ok a) : ∃ w : Spelling, w.text = s ∧ w.address = a := by
  obtain ⟨numeral, hs, hne, hn⟩ := parse_eq_ok_iff.mp h
  have hworth : Text.Numeral (String.ofList numeral).toList a.port.toNat := by
    rw [String.toList_ofList]
    exact (Text.natural?_eq_some_iff_numeral.mp hn).1
  obtain ⟨hs, hb⟩ | ⟨hs, hc, -, hh⟩ := split?_eq_some_iff.mp hs
  · refine ⟨⟨a.host, true, String.ofList numeral, a.port, hne, hb, hworth⟩, ?_, rfl⟩
    rw [← String.toList_inj, Spelling.toList_text, Spelling.toList_front, hs, String.toList_ofList]
    simp
  · refine ⟨⟨a.host, false, String.ofList numeral, a.port, hne, ⟨hc, hh⟩, hworth⟩, ?_, rfl⟩
    rw [← String.toList_inj, Spelling.toList_text, Spelling.toList_front, hs, String.toList_ofList]
    rfl

/-- The spelling of an address without needless brackets, plus sign and zeros, if it has one. -/
def render (a : Address) : String :=
  (if Bare a.host then a.host else "[" ++ a.host ++ "]") ++ ":" ++ toString a.port.toNat

/-- **An address that was read is read again from its plain spelling.** -/
theorem parse_render (h : parse s = .ok a) : parse a.render = .ok a := by
  obtain ⟨hne, hform⟩ := host_of_parse h
  rw [render, parse_port_iff]
  refine ⟨rfl, hne, ?_⟩
  by_cases hb : Bare a.host
  · exact .inl ⟨if_pos hb, hb⟩
  · exact .inr ⟨if_neg hb, hform.resolve_right hb⟩

/-- **A text as the spelling of an address.** -/
structure Spelled (s : String) : Prop where
  /-- It is read as an address when it spells that address. -/
  reads : ∀ a, parse s = .ok a ↔ ∃ w : Spelling, w.text = s ∧ w.address = a
  /-- It can be taken apart in one way only. -/
  unique : ∀ w w' : Spelling, w.text = s → w'.text = s → w = w'
  /-- If it spells nothing it is refused for that. -/
  refused : (∀ w : Spelling, w.text ≠ s) →
    parse s = .error (.validation ("invalid address: " ++ s))
  /-- The host is the part of it in front of the colon, or between the brackets there. -/
  host : ∀ a, parse s = .ok a → ∃ numeral, Text.Numeral numeral.toList a.port.toNat
    ∧ (s = a.host ++ ":" ++ numeral ∨ s = "[" ++ a.host ++ "]" ++ ":" ++ numeral)
  /-- Host and port are read again once they are written, with brackets where the host holds a
  colon or begins with a bracket. -/
  rendered : ∀ a, parse s = .ok a → parse a.render = .ok a

/-- **Exactly the spellings of addresses are read**, and every one as the address it spells. -/
theorem parse_spelled (s : String) : Spelled s := by
  have hreads (a : Address) : parse s = .ok a ↔ ∃ w : Spelling, w.text = s ∧ w.address = a := by
    refine ⟨exists_spelling, ?_⟩
    rintro ⟨w, rfl, rfl⟩
    exact w.parse_text
  constructor
  case reads => exact hreads
  case unique => exact fun w w' h h' => Spelling.text_injective (h.trans h'.symm)
  case refused =>
    refine fun hno => parse_of_forall_ne fun a ha => ?_
    obtain ⟨w, hw, -⟩ := exists_spelling ha
    exact hno w hw
  case host =>
    intro a ha
    obtain ⟨w, rfl, rfl⟩ := exists_spelling ha
    refine ⟨w.numeral, w.worth, ?_⟩
    rw [Spelling.text, Spelling.front]
    split
    · exact .inr rfl
    · exact .inl rfl
  case rendered => exact fun a => parse_render

/-- Zeros in front and a plus sign count for nothing, and a bracket may begin a host in brackets. -/
example : parts? "[[fe80::1]:+00080".toList = some ("[fe80::1".toList, 80) := by decide +kernel

end HopTorrent.Address
