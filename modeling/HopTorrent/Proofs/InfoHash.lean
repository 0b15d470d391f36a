import HopTorrent.InfoHash

/-!
# Proofs/InfoHash — which texts name a transfer

A text names a transfer when it is the forty digits of its identifier, but for the case of the
letters (`parse_eq_ok_iff`), and every text of forty hexadecimal digits names one
(`exists_names_iff`).
-/

namespace HopTorrent

namespace Text

/-! ## Digits -/

/-- A hexadecimal digit of either case. -/
def IsHexDigit (c : Char) : Prop := ∃ v, hexValue? c = some v

instance (c : Char) : Decidable (IsHexDigit c) :=
  decidable_of_iff ((hexValue? c).isSome = true) Option.isSome_iff_exists

/-- A digit is a character of ASCII. -/
theorem toNat_lt_of_hexValue? {c : Char} {v : Nat} (h : hexValue? c = some v) : c.toNat < 128 := by
  rw [hexValue?] at h
  split at h
  · rename_i hc
    have hc' : c.toNat ≤ 57 := (Bool.and_eq_true_iff.mp hc).2 |> of_decide_eq_true
    omega
  split at h
  · rename_i hc
    have hc' : c.toNat ≤ 102 := hc.2
    omega
  split at h
  · rename_i hc
    have hc' : c.toNat ≤ 70 := hc.2
    omega
  · cases h

/-- A character that is of ASCII in lower case is of ASCII. -/
theorem toNat_lt_of_toLower {c : Char} (h : c.toLower.toNat < 128) : c.toNat < 128 := by
  refine Decidable.byContradiction fun hn => ?_
  have hsame : c.toLower = c := dif_neg fun hc => by
    have hz : c.toNat ≤ 90 := hc.2
    omega
  exact hn (hsame ▸ h)

/-- What holds of every character of ASCII holds of a character below 128. -/
theorem of_toNat_lt {P : Char → Prop} (h : ∀ n : Fin 128, P (Char.ofNat n)) {c : Char}
    (hc : c.toNat < 128) : P c := by
  have hp := h ⟨c.toNat, hc⟩
  rwa [Char.ofNat_toNat] at hp

/-- **The value of a digit** is below 16, and the digit written for it is that digit in lower
case. -/
theorem hexValue?_eq_some_iff {c : Char} {v : Nat} :
    hexValue? c = some v ↔ v < 16 ∧ c.toLower = hexDigit v := by
  constructor
  · intro h
    exact of_toNat_lt (P := fun c => ∀ v ∈ hexValue? c, v < 16 ∧ c.toLower = hexDigit v)
      (by decide) (toNat_lt_of_hexValue? h) v h
  · rintro ⟨hv, h⟩
    have hdigit : ∀ v : Fin 16, (hexDigit v).toNat < 128 := by decide
    exact of_toNat_lt
      (P := fun c => ∀ v : Fin 16, c.toLower = hexDigit v → hexValue? c = some v.val)
      (by decide +kernel) (toNat_lt_of_toLower (h ▸ hdigit ⟨v, hv⟩)) ⟨v, hv⟩ h

/-- The two digits of a byte are the digits of its halves. -/
theorem byteHex_ofNat {h l : Nat} (hh : h < 16) (hl : l < 16) :
    byteHex (UInt8.ofNat (h * 16 + l)) = [hexDigit h, hexDigit l] := by
  have hb : (UInt8.ofNat (h * 16 + l)).toNat = h * 16 + l := by
    rw [UInt8.toNat_ofNat']
    omega
  have hhi : (h * 16 + l) / 16 = h := by omega
  have hlo : (h * 16 + l) % 16 = l := by omega
  rw [byteHex, hb, hhi, hlo]

/-- **Characters spell bytes** exactly when they are the digits of these bytes in lower case. -/
theorem ofHexDigits?_eq_some_iff {cs : List Char} {bs : Bytes} :
    ofHexDigits? cs = some bs ↔ cs.map Char.toLower = hexDigits bs := by
  induction cs using ofHexDigits?.induct generalizing bs with
  | case1 => cases bs <;> simp [ofHexDigits?, hexDigits, byteHex]
  | case2 c => cases bs <;> simp [ofHexDigits?, hexDigits, byteHex]
  | case3 hi lo rest ih =>
    simp only [ofHexDigits?, Option.bind_eq_bind, Option.bind_eq_some_iff, ih, List.map_cons,
      Option.pure_def, Option.some.injEq, hexValue?_eq_some_iff]
    constructor
    · rintro ⟨h, ⟨hh, hhi⟩, l, ⟨hl, hlo⟩, bs', hrest, rfl⟩
      rw [hhi, hlo, hrest, hexDigits, hexDigits, List.flatMap_cons, byteHex_ofNat hh hl]
      rfl
    · intro he
      rcases bs with _ | ⟨b, bs⟩
      · cases he
      have hb : b.toNat < 256 := b.toNat_lt
      obtain ⟨hhi, hlo, hrest⟩ : hi.toLower = hexDigit (b.toNat / 16)
          ∧ lo.toLower = hexDigit (b.toNat % 16) ∧ rest.map Char.toLower = hexDigits bs := by
        simpa [hexDigits_cons] using he
      refine ⟨_, ⟨by omega, hhi⟩, _, ⟨by omega, hlo⟩, bs, hrest, ?_⟩
      have hsum : b.toNat / 16 * 16 + b.toNat % 16 = b.toNat := by omega
      rw [hsum, UInt8.ofNat_toNat]

/-- **An even number of digits spells bytes**, and nothing else does. -/
theorem exists_ofHexDigits?_iff {cs : List Char} {n : Nat} :
    (∃ bs, ofHexDigits? cs = some bs ∧ bs.length = n)
      ↔ cs.length = 2 * n ∧ ∀ c ∈ cs, IsHexDigit c := by
  constructor
  · rintro ⟨bs, h, rfl⟩
    have hm := ofHexDigits?_eq_some_iff.mp h
    refine ⟨by rw [← length_hexDigits, ← hm, List.length_map], fun c hc => ?_⟩
    have hc' : c.toLower ∈ hexDigits bs := hm ▸ List.mem_map_of_mem hc
    obtain ⟨b, -, hb⟩ := List.mem_flatMap.mp hc'
    have hlt : b.toNat < 256 := b.toNat_lt
    rcases List.mem_cons.mp hb with hb | hb
    · exact ⟨_, hexValue?_eq_some_iff.mpr ⟨by omega, hb⟩⟩
    · exact ⟨_, hexValue?_eq_some_iff.mpr ⟨by omega, List.mem_singleton.mp hb⟩⟩
  · induction n generalizing cs with
    | zero =>
      rintro ⟨hl, -⟩
      rw [List.eq_nil_of_length_eq_zero hl]
      exact ⟨[], rfl, rfl⟩
    | succ n ih =>
      rintro ⟨hl, hd⟩
      match cs, hl with
      | hi :: lo :: rest, hl =>
        simp only [List.forall_mem_cons] at hd
        obtain ⟨⟨h, hh⟩, ⟨l, hlo⟩, hrest⟩ := hd
        have hlen : rest.length = 2 * n := by
          simp only [List.length_cons] at hl
          omega
        obtain ⟨bs, hb, rfl⟩ := ih ⟨hlen, hrest⟩
        exact ⟨UInt8.ofNat (h * 16 + l) :: bs, by simp [ofHexDigits?, hh, hlo, hb], rfl⟩

end Text

namespace InfoHash

variable {text : String} {id : InfoHash}

/-! ## Names -/

/-- A text names a transfer: in lower case it is the digits of its identifier. -/
def Names (text : String) (id : InfoHash) : Prop :=
  text.toList.map Char.toLower = id.toHex.toList

theorem ofBytes?_eq_some_iff {bs : Bytes} : ofBytes? bs = some id ↔ bs = id.toBytes := by
  constructor
  · intro h
    rw [ofBytes?] at h
    split at h
    · cases h
      rfl
    · cases h
  · rintro rfl
    exact ofBytes?_toBytes id

/-- **Reading finds the transfer that a text names.** -/
theorem parse_eq_ok_iff : parse text = .ok id ↔ Names text id := by
  have hbytes : (Text.ofHex? text).bind ofBytes? = some id ↔ Names text id := by
    rw [Option.bind_eq_some_iff, Names, toHex, Text.toHex, String.toList_ofList,
      ← Text.ofHexDigits?_eq_some_iff, Text.ofHex?]
    constructor
    · rintro ⟨bs, hb, hid⟩
      rw [hb, ofBytes?_eq_some_iff.mp hid]
    · intro h
      exact ⟨_, h, ofBytes?_toBytes id⟩
  rw [← hbytes, parse]
  cases (Text.ofHex? text).bind ofBytes? <;> simp

/-- A text names at most one transfer. -/
theorem Names.eq {id' : InfoHash} (h : Names text id) (h' : Names text id') : id = id' :=
  Except.ok.inj ((parse_eq_ok_iff.mpr h).symm.trans (parse_eq_ok_iff.mpr h'))

/-- The digits of an identifier name it. -/
theorem names_toHex (id : InfoHash) : Names id.toHex id := by
  rw [← parse_eq_ok_iff, parse, toHex, Text.ofHex?_toHex, Option.bind_some, ofBytes?_toBytes]

/-- **Different transfers have different digits.** -/
theorem toHex_injective {id id' : InfoHash} (h : id.toHex = id'.toHex) : id = id' :=
  (names_toHex id).eq (h ▸ names_toHex id')

/-- **Forty hexadecimal digits name a transfer**, and nothing else does. -/
theorem exists_names_iff :
    (∃ id, Names text id) ↔ text.length = 40 ∧ ∀ c ∈ text.toList, Text.IsHexDigit c := by
  have hbytes := @Text.exists_ofHexDigits?_iff text.toList size
  rw [String.length_toList] at hbytes
  rw [show text.length = 40 ↔ text.length = 2 * size from Iff.rfl, ← hbytes]
  constructor
  · rintro ⟨id, h⟩
    rw [Names, toHex, Text.toHex, String.toList_ofList, ← Text.ofHexDigits?_eq_some_iff] at h
    exact ⟨_, h, id.length_toBytes⟩
  · rintro ⟨bs, hb, hl⟩
    let id : InfoHash := ⟨⟨bs.toArray, hl⟩⟩
    have hid : (Text.ofHex? text).bind ofBytes? = some id := by
      rw [Text.ofHex?, hb, Option.bind_some]
      exact ofBytes?_toBytes id
    refine ⟨id, parse_eq_ok_iff.mp ?_⟩
    rw [parse, hid]

/-! ## Order -/

/-- Identifiers are ordered as their bytes are. -/
instance : Std.TransOrd InfoHash :=
  have h : Std.TransCmp (List.compareLex (Ord.compare : UInt8 → UInt8 → Ordering)) := inferInstance
  { eq_swap := h.eq_swap, isLE_trans := h.isLE_trans }

/-- Of two identifiers one does not come behind the other. -/
theorem isLE_total (a b : InfoHash) :
    (Ord.compare a b).isLE = true ∨ (Ord.compare b a).isLE = true := by
  rw [← Std.OrientedCmp.isGE_iff_isLE]
  cases Ord.compare b a <;> decide

end InfoHash

end HopTorrent
