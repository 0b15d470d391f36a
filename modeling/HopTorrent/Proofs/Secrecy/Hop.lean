import HopTorrent.Chain.Probe
import HopTorrent.Proofs.Address.Spelling
import HopTorrent.Proofs.Chain.Spacing

/-!
# Proofs/Secrecy/Hop — what is shown of a proxy

Of a text that ends in a colon and a port the numeral of that port is shown, and of any other text
nothing (`hop_of_endsIn`, `hop_of_not_endsIn`).  An address always ends so: its port is shown and
its host is not.  But a text may end so and be no address, as an IPv6 address without brackets whose
last group is a numeral; then a part of the host is shown.  Of such texts, and of no others, more is
shown than should be (`hop_disclosed`, `not_forall_hidden`).
-/

namespace HopTorrent.Redacted

open Chain (Offends)

variable {s s' numeral numeral' : String}

/-! ## Ports at the end of a text -/

/-- **A text ends in a port**: in a colon and a numeral of a port. -/
def EndsIn (s numeral : String) : Prop :=
  ∃ front, s = front ++ ":" ++ numeral ∧ ∃ port : UInt16, Text.Numeral numeral.toList port.toNat

/-- What stands behind the last colon is read as a port. -/
theorem endsIn_iff : EndsIn s numeral ↔ ∃ front,
    Text.cutLast ':' s.toList = some (front, numeral.toList)
      ∧ (Text.natural? Text.max16 numeral.toList).isSome = true := by
  rw [EndsIn]
  constructor
  · rintro ⟨front, rfl, port, hn⟩
    have hread : Text.natural? Text.max16 numeral.toList = some port.toNat :=
      Text.natural?_eq_some_iff_numeral.mpr ⟨hn, Nat.le_of_lt_succ port.toNat_lt⟩
    refine ⟨front.toList, ?_, by rw [hread]; rfl⟩
    rw [Text.cutLast_eq_some_iff]
    exact ⟨by simp, Address.colon_not_mem_port hread⟩
  · rintro ⟨front, hcut, hread⟩
    obtain ⟨n, hn⟩ := Option.isSome_iff_exists.mp hread
    obtain ⟨hworth, hle⟩ := Text.natural?_eq_some_iff_numeral.mp hn
    have hlt : n < 65536 := Nat.lt_succ_of_le hle
    refine ⟨String.ofList front, ?_, UInt16.ofNat n, ?_⟩
    · rw [← String.toList_inj, (Text.cutLast_eq_some_iff.mp hcut).1]
      simp
    · rwa [UInt16.toNat_ofNat', Nat.mod_eq_of_lt hlt]

/-- An address ends in its port. -/
theorem endsIn_text (w : Address.Spelling) : EndsIn w.text w.numeral :=
  ⟨w.front, rfl, w.port, w.worth⟩

/-- **The port that a text ends in is shown.** -/
theorem hop_of_endsIn (h : EndsIn s numeral) : hop s = "[hop]:" ++ numeral := by
  obtain ⟨front, hcut, hread⟩ := endsIn_iff.mp h
  rw [hop, hcut]
  dsimp only
  rw [if_pos hread, String.ofList_toList]

/-- **Of any other text nothing is shown.** -/
theorem hop_of_not_endsIn (h : ∀ numeral, ¬ EndsIn s numeral) : hop s = "[hop]" := by
  rw [hop]
  split
  · rename_i front port hcut
    refine if_neg fun hread => h (String.ofList port) (endsIn_iff.mpr ⟨front, ?_, ?_⟩)
    · rw [String.toList_ofList]
      exact hcut
    · rw [String.toList_ofList]
      exact hread
  · rfl

/-- A port that is shown can be told from none. -/
theorem shown_ne (numeral : String) : "[hop]:" ++ numeral ≠ "[hop]" := fun h => by
  have hlist := congrArg String.toList h
  simp at hlist

/-- **What is shown tells the port that a text ends in**, … -/
theorem hop_eq_iff : hop s = "[hop]:" ++ numeral ↔ EndsIn s numeral := by
  refine ⟨fun h => ?_, hop_of_endsIn⟩
  by_cases he : ∃ numeral', EndsIn s numeral'
  · obtain ⟨numeral', he⟩ := he
    obtain rfl : numeral = numeral' :=
      (String.append_right_inj _).mp (h.symm.trans (hop_of_endsIn he))
    exact he
  · exact absurd (h.symm.trans (hop_of_not_endsIn (not_exists.mp he))) (shown_ne numeral)

/-- … or that it ends in none. -/
theorem hop_eq_nothing_iff : hop s = "[hop]" ↔ ∀ numeral, ¬ EndsIn s numeral := by
  refine ⟨fun h numeral he => ?_, hop_of_not_endsIn⟩
  exact shown_ne numeral ((hop_of_endsIn he).symm.trans h)

/-! ## Who is shown alike -/

/-- **The same is shown of two hops**, in the log and in what is said of hops that are refused. -/
structure ShownAlike (s s' : String) : Prop where
  text : hop s = hop s'
  logged : ∀ index e,
    Chain.Setup.hopUnreachable index s e = Chain.Setup.hopUnreachable index s' e
  refused : ∀ hops hops', Offends hops s → Offends hops' s' →
    Chain.ofHops hops = Chain.ofHops hops'

/-- Wherever a hop is shown, it is shown as the same text. -/
theorem shownAlike_of_hop_eq (h : hop s = hop s') : ShownAlike s s' := by
  refine ⟨h, fun index e => ?_, fun hops hops' ho ho' => ?_⟩
  · rw [Chain.Setup.hopUnreachable, Chain.Setup.hopUnreachable, h]
  · rw [Chain.ofHops_of_offends ho, Chain.ofHops_of_offends ho', h]

/-- **Texts are shown alike when they end in the same port**, or in none. -/
theorem shownAlike_iff : ShownAlike s s' ↔ ∀ numeral, EndsIn s numeral ↔ EndsIn s' numeral := by
  constructor
  · intro h numeral
    rw [← hop_eq_iff, ← hop_eq_iff, h.text]
  · intro h
    refine shownAlike_of_hop_eq ?_
    by_cases he : ∃ numeral, EndsIn s numeral
    · obtain ⟨numeral, he⟩ := he
      rw [hop_of_endsIn he, hop_of_endsIn ((h numeral).mp he)]
    · have hno := not_exists.mp he
      rw [hop_of_not_endsIn hno, hop_of_not_endsIn fun numeral => (h numeral).not.mp (hno numeral)]

/-! ## What should be hidden -/

/-- **A text is hidden**: of an address nothing but the port is shown, and nothing of what is no
address. -/
structure Hidden (s : String) : Prop where
  accepted : ∀ w : Address.Spelling, w.text = s → hop s = "[hop]:" ++ w.numeral
  refused : (∀ a, Address.parse s ≠ .ok a) → hop s = "[hop]"

/-- **What is shown of a text.** -/
structure Disclosed (s : String) : Prop where
  /-- It is hidden unless it ends in a port and yet is no address. -/
  hidden_iff : Hidden s ↔ ((∃ numeral, EndsIn s numeral) → ∃ a, Address.parse s = .ok a)
  /-- Of an address nothing but the port is shown. -/
  accepted : ∀ w : Address.Spelling, w.text = s → hop s = "[hop]:" ++ w.numeral
  /-- Otherwise it is shown what stands behind the last colon, … -/
  port : ∀ numeral, hop s = "[hop]:" ++ numeral ↔ EndsIn s numeral
  /-- … or nothing, if that is no numeral of a port. -/
  nothing : hop s = "[hop]" ↔ ∀ numeral, ¬ EndsIn s numeral
  /-- Addresses with the same numeral of a port are shown alike, … -/
  addresses : ∀ w w' : Address.Spelling, w.text = s → w'.numeral = w.numeral →
    ShownAlike s w'.text
  /-- … what is hidden and no address is shown alike, … -/
  others : ∀ s', Hidden s → Hidden s' → (∀ a, Address.parse s ≠ .ok a) →
    (∀ a, Address.parse s' ≠ .ok a) → ShownAlike s s'
  /-- … and no other texts are than those that end in the same port or in none. -/
  alike_iff : ∀ s', ShownAlike s s' ↔ ∀ numeral, EndsIn s numeral ↔ EndsIn s' numeral

/-- **Of every text the port that it ends in is shown**, be it an address or not, and nothing
else. -/
theorem hop_disclosed (s : String) : Disclosed s := by
  have haccepted (w : Address.Spelling) (hw : w.text = s) : hop s = "[hop]:" ++ w.numeral :=
    hop_of_endsIn (hw ▸ endsIn_text w)
  constructor
  case hidden_iff =>
    constructor
    · rintro h ⟨numeral, he⟩
      by_contra hno
      exact hop_eq_nothing_iff.mp (h.refused (not_exists.mp hno)) numeral he
    · refine fun h => ⟨haccepted, fun hno => hop_of_not_endsIn fun numeral he => ?_⟩
      obtain ⟨a, ha⟩ := h ⟨numeral, he⟩
      exact hno a ha
  case accepted => exact haccepted
  case port => exact fun numeral => hop_eq_iff
  case nothing => exact hop_eq_nothing_iff
  case addresses =>
    intro w w' hw hn
    refine shownAlike_of_hop_eq ?_
    rw [haccepted w hw, hop_of_endsIn (endsIn_text w'), hn]
  case others =>
    exact fun s' h h' hno hno' =>
      shownAlike_of_hop_eq ((h.refused hno).trans (h'.refused hno').symm)
  case alike_iff => exact fun s' => shownAlike_iff

/-- **Not every text is hidden**: of an IPv6 address without brackets the last group is shown. -/
theorem not_forall_hidden : ¬ ∀ s, Hidden s := by
  intro h
  have hno : ∀ a, Address.parse "fe80::1" ≠ .ok a := by
    have hparts : Address.parts? "fe80::1".toList = none := by decide +kernel
    intro a ha
    rw [Address.parse, hparts] at ha
    cases ha
  have hshown : hop "fe80::1" = "[hop]:1" := by decide +kernel
  exact absurd (hshown.symm.trans ((h "fe80::1").refused hno)) (by decide)

end HopTorrent.Redacted
