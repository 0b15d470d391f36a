import HopTorrent.Proofs.Address
import HopTorrent.Proofs.Chain.Listed
import Mathlib.Logic.Relation

/-!
# Proofs/Chain/Spacing — lists of proxies, spaced out and put together again

Blanks and commas that are put in where an entry begins or ends, or in front of or behind all of
them, add nothing to a list (`segments_insert`).  What a list names can be written as a list again,
with single commas between the entries (`names_intercalate`).  So a list is read as the chain of the
entries that it names or is refused for the first of them that is no address, whatever else stands
in it (`parse_faithful`).
-/

namespace HopTorrent.Chain

variable {cs left right before new after : List Char} {list list' hop hop' : String}
  {segs segs' hops : List String}

/-! ## The entries, left to right -/

/-- The entries of a list, as characters. -/
def segments (cs : List Char) : List (List Char) :=
  ((Text.pieces ',' cs).map Text.trimBlanks).filter (!·.isEmpty)

theorem entries_eq (list : String) :
    entries list = (segments list.toList).map String.ofList := rfl

@[simp] theorem segments_nil : segments [] = [] := rfl

/-- **A comma parts the entries** in front of it from those behind it. -/
theorem segments_append_comma (cs rest : List Char) :
    segments (cs ++ ',' :: rest) = segments cs ++ segments rest := by
  rw [segments, Text.pieces_append_mark, List.map_append, List.filter_append, segments, segments]

theorem segments_comma_cons (cs : List Char) : segments (',' :: cs) = segments cs :=
  segments_append_comma [] cs

/-- Blanks around the only entry add nothing. -/
theorem segments_between_blanks (hc : ',' ∉ cs) (hl : ∀ c ∈ left, Text.isBlank c)
    (hr : ∀ c ∈ right, Text.isBlank c) : segments (left ++ cs ++ right) = segments cs := by
  have hno : ∀ {bs : List Char}, (∀ c ∈ bs, Text.isBlank c) → ',' ∉ bs := fun hb hm =>
    absurd (hb _ hm) (by decide)
  have hwide : ',' ∉ left ++ cs ++ right := by simp [hno hl, hc, hno hr]
  rw [segments, segments, Text.pieces_of_not_mem hc, Text.pieces_of_not_mem hwide,
    List.map_singleton, List.map_singleton,
    ((Text.core_trimBlanks cs).between_blanks hl hr).trimBlanks_eq]

/-- Blanks in front of a list add nothing. -/
theorem segments_blanks_append (hl : ∀ c ∈ left, Text.isBlank c) (cs : List Char) :
    segments (left ++ cs) = segments cs := by
  cases hcut : Text.cutFirst ',' cs with
  | none =>
    have hc := Text.cutFirst_eq_none_iff.mp hcut
    simpa using segments_between_blanks hc hl (List.forall_mem_nil _)
  | some cut =>
    obtain ⟨front, rest⟩ := cut
    obtain ⟨rfl, hf⟩ := Text.cutFirst_eq_some_iff.mp hcut
    have hfront : segments (left ++ front) = segments front := by
      simpa using segments_between_blanks hf hl (List.forall_mem_nil _)
    rw [← List.append_assoc, segments_append_comma, segments_append_comma, hfront]

/-- Blanks alone name nothing. -/
theorem segments_of_blanks (h : ∀ c ∈ cs, Text.isBlank c) : segments cs = [] := by
  rw [← List.append_nil cs, segments_blanks_append h, segments_nil]

/-- Blanks behind a list add nothing. -/
theorem segments_append_blanks (hr : ∀ c ∈ right, Text.isBlank c) (cs : List Char) :
    segments (cs ++ right) = segments cs := by
  cases hcut : Text.cutLast ',' cs with
  | none =>
    have hc := Text.cutLast_eq_none_iff.mp hcut
    simpa using segments_between_blanks hc (List.forall_mem_nil _) hr
  | some cut =>
    obtain ⟨front, rest⟩ := cut
    obtain ⟨rfl, hf⟩ := Text.cutLast_eq_some_iff.mp hcut
    have hrest : segments (rest ++ right) = segments rest := by
      simpa using segments_between_blanks hf (List.forall_mem_nil _) hr
    rw [List.append_assoc, List.cons_append, segments_append_comma, segments_append_comma, hrest]

/-! ## Spacing -/

/-- Nothing but commas and blanks. -/
def Void (cs : List Char) : Prop := ∀ c ∈ cs, c = ',' ∨ Text.isBlank c

/-- Commas and blanks in front of a list add nothing. -/
theorem segments_void_append (hl : Void left) (cs : List Char) :
    segments (left ++ cs) = segments cs := by
  induction left with
  | nil => rfl
  | cons c left ih =>
    obtain ⟨hc, hleft⟩ := List.forall_mem_cons.mp hl
    rw [List.cons_append]
    obtain rfl | hb := hc
    · rw [segments_comma_cons, ih hleft]
    · have hblank : ∀ d ∈ [c], Text.isBlank d := by simpa using hb
      exact (segments_blanks_append hblank _).trans (ih hleft)

/-- Commas and blanks alone name nothing. -/
theorem segments_of_void (h : Void cs) : segments cs = [] := by
  rw [← List.append_nil cs, segments_void_append h, segments_nil]

/-- Commas and blanks behind a list add nothing. -/
theorem segments_append_void (hr : Void right) (cs : List Char) :
    segments (cs ++ right) = segments cs := by
  induction right generalizing cs with
  | nil => rw [List.append_nil]
  | cons c right ih =>
    obtain ⟨hc, hright⟩ := List.forall_mem_cons.mp hr
    obtain rfl | hb := hc
    · rw [segments_append_comma, segments_of_void hright, List.append_nil]
    · have hblank : ∀ d ∈ [c], Text.isBlank d := by simpa using hb
      rw [← List.singleton_append, ← List.append_assoc, ih hright, segments_append_blanks hblank]

/-- **An entry may begin here**: behind the start of the list or the last comma stand only
blanks. -/
def Opens (before : List Char) : Prop :=
  ∃ front blanks, before = front ++ blanks ∧ (front = [] ∨ ∃ rest, front = rest ++ [','])
    ∧ ∀ c ∈ blanks, Text.isBlank c

/-- **An entry may end here**: in front of the end of the list or the next comma stand only
blanks. -/
def Closes (after : List Char) : Prop :=
  ∃ blanks back, after = blanks ++ back ∧ (back = [] ∨ ∃ rest, back = ',' :: rest)
    ∧ ∀ c ∈ blanks, Text.isBlank c

/-- What stands in front of where an entry may begin is a list of its own. -/
theorem Opens.segments_append (h : Opens before) (cs : List Char) :
    segments (before ++ cs) = segments before ++ segments cs := by
  obtain ⟨_, blanks, rfl, rfl | ⟨rest, rfl⟩, hb⟩ := h
  · rw [List.nil_append, segments_blanks_append hb, segments_of_blanks hb, List.nil_append]
  · have hwhole (cs : List Char) : rest ++ [','] ++ cs = rest ++ ',' :: cs := by simp
    rw [List.append_assoc, hwhole, hwhole, segments_append_comma, segments_append_comma,
      segments_blanks_append hb, segments_of_blanks hb, List.append_nil]

/-- What stands behind where an entry may end is a list of its own. -/
theorem Closes.append_segments (h : Closes after) (cs : List Char) :
    segments (cs ++ after) = segments cs ++ segments after := by
  obtain ⟨blanks, _, rfl, rfl | ⟨rest, rfl⟩, hb⟩ := h
  · rw [List.append_nil, segments_append_blanks hb, segments_of_blanks hb, List.append_nil]
  · rw [← List.append_assoc, segments_append_comma, segments_append_comma,
      segments_append_blanks hb, segments_of_blanks hb, List.nil_append]

/-- **Commas and blanks where an entry may begin or end add nothing to a list.** -/
theorem segments_insert (hg : Opens before ∨ Closes after) (hn : Void new) :
    segments (before ++ new ++ after) = segments (before ++ after) := by
  obtain ho | hc := hg
  · rw [List.append_assoc, ho.segments_append, ho.segments_append, segments_void_append hn]
  · rw [hc.append_segments, hc.append_segments, segments_append_void hn]

/-- **A list is widened** by blanks and commas where an entry begins or ends: by blanks around an
entry, or by empty and blank entries anywhere. -/
inductive Widened : String → String → Prop
  | insert (before new after : String) (hg : Opens before.toList ∨ Closes after.toList)
      (hn : Void new.toList) : Widened (before ++ after) (before ++ new ++ after)

/-- A list is widened, any number of times. -/
abbrev Spaced : String → String → Prop := Relation.ReflTransGen Widened

theorem Widened.entries_eq (h : Widened list list') : entries list' = entries list := by
  obtain ⟨before, new, after, hg, hn⟩ := h
  simp only [Chain.entries_eq, String.toList_append]
  rw [segments_insert hg hn]

/-- **A list that is spaced out names the same.** -/
theorem Spaced.entries_eq (h : Spaced list list') : entries list' = entries list := by
  induction h with
  | refl => rfl
  | tail _ hw ih => exact hw.entries_eq.trans ih

/-! ## Putting entries together -/

/-- A list names one thing only. -/
theorem existsUnique_names (list : String) : ∃! segs, Names list segs :=
  ⟨entries list, entries_eq_iff.mp rfl, fun _ h => (entries_eq_iff.mpr h).symm⟩

/-- **An entry as a list names it**: it has no commas in it, and no blanks around it. -/
structure Entry (hop : String) : Prop where
  nonempty : hop ≠ ""
  comma : ',' ∉ hop.toList
  core : Text.Core hop.toList hop.toList

/-- **What a list names are entries.** -/
theorem Names.entry (h : Names list segs) (hm : hop ∈ segs) : Entry hop := by
  obtain rfl := entries_eq_iff.mpr h
  obtain ⟨core, hcore, rfl⟩ := List.mem_map.mp hm
  obtain ⟨hcore, hne⟩ := List.mem_filter.mp hcore
  obtain ⟨piece, hpiece, rfl⟩ := List.mem_map.mp hcore
  have hc := Text.core_trimBlanks piece
  refine ⟨fun he => ?_, ?_, ?_⟩
  · rw [String.ofList_eq_empty_iff.mp he] at hne
    cases hne
  · rw [String.toList_ofList]
    exact fun hin => Text.not_mem_of_mem_pieces hpiece (hc.subset hin)
  · rw [String.toList_ofList]
    exact hc.self

/-- **Entries are named by the list that they are put together to.** -/
theorem names_intercalate (hne : segs ≠ []) (h : ∀ hop ∈ segs, Entry hop) :
    Names (",".intercalate segs) segs := by
  refine ⟨segs.map String.toList, segs.map String.toList, by simpa using hne, ?_, ?_, ?_, ?_⟩
  · simpa using fun hop hm => (h hop hm).comma
  · rw [String.toList_intercalate]
    rfl
  · rw [List.forall₂_map_left_iff, List.forall₂_map_right_iff, List.forall₂_same]
    exact fun hop hm => (h hop hm).core
  · rw [List.filter_eq_self.mpr, List.map_map]
    · exact (List.map_id'' (fun _ => String.ofList_toList) segs).symm
    · simpa using fun hop hm => (h hop hm).nonempty

/-! ## Refusals -/

/-- **The first entry that is no address.** -/
def Offends (segs : List String) (hop : String) : Prop :=
  ∃ sound rest, segs = sound ++ hop :: rest ∧ (∀ h ∈ sound, ∃ a, Address.parse h = .ok a)
    ∧ ∀ a, Address.parse hop ≠ .ok a

theorem find?_of_offends (h : Offends hops hop) :
    hops.find? (fun hop => !Address.accepts hop) = some hop := by
  obtain ⟨sound, rest, rfl, hsound, hno⟩ := h
  rw [List.find?_eq_some_iff_append]
  refine ⟨?_, sound, rest, rfl, fun h hm => ?_⟩
  · rw [Bool.not_eq_true', ← Bool.not_eq_true, Address.accepts_iff]
    exact fun ⟨a, ha⟩ => hno a ha
  · rw [Bool.not_not, Address.accepts_iff]
    exact hsound h hm

/-- **Hops are refused for the first that is no address.** -/
theorem ofHops_of_offends (h : Offends hops hop) :
    ofHops hops = .error (.config ("invalid proxy address " ++ Redacted.hop hop)) := by
  have hne : hops ≠ [] := by
    obtain ⟨sound, rest, rfl, -⟩ := h
    simp
  have hfind := find?_of_offends h
  rw [ofHops, dif_neg hne]
  split
  · rename_i hop' hfind'
    rw [hfind] at hfind'
    rw [Option.some.inj hfind']
  · rename_i hfind'
    rw [hfind] at hfind'
    cases hfind'

/-- **What is wrong with hops that are refused**: there are none, or one is no address. -/
theorem offends_of_ofHops_error {e : Error} (h : ofHops hops = .error e) :
    (hops = [] ∧ e = .config "at least one proxy address required")
      ∨ ∃ hop, Offends hops hop ∧ e = .config ("invalid proxy address " ++ Redacted.hop hop) := by
  cases hfind : hops.find? fun hop => !Address.accepts hop with
  | none =>
    refine .inl ((ofHops_error h).resolve_right ?_)
    rintro ⟨hop, hm, hno, -⟩
    exact List.find?_eq_none.mp hfind hop hm (by rw [hno]; rfl)
  | some hop =>
    obtain ⟨hno, sound, rest, rfl, hsound⟩ := List.find?_eq_some_iff_append.mp hfind
    have ho : Offends (sound ++ hop :: rest) hop := by
      refine ⟨sound, rest, rfl, fun h hm => ?_, fun a ha => ?_⟩
      · rw [← Address.accepts_iff]
        simpa using hsound h hm
      · rw [Address.accepts_iff.mpr ⟨a, ha⟩] at hno
        cases hno
    rw [ofHops_of_offends ho] at h
    exact .inr ⟨hop, ho, (Except.error.inj h).symm⟩

/-! ## Lists -/

/-- **A list as a chain of proxies.** -/
structure Faithful (list : String) : Prop where
  /-- It names certain entries. -/
  names : ∃! segs, Names list segs
  /-- It is a chain when there are some and each is an address, … -/
  parses : (∃ c, parse list = .ok c) ↔ ∃ segs, Names list segs ∧ segs ≠ []
    ∧ ∀ hop ∈ segs, ∃ a, Address.parse hop = .ok a
  /-- … and then they are its hops, each as often as it is named and in that order. -/
  hops : ∀ c, parse list = .ok c → Names list c.hops
  /-- Put together again, the hops are the same chain. -/
  joined : ∀ c, parse list = .ok c → parse (",".intercalate c.hops) = .ok c
  /-- Blanks around entries and empty entries change nothing. -/
  spaced : ∀ list', Spaced list list' → parse list' = parse list
  /-- It is refused for naming nothing, or for the first entry that is no address. -/
  refused : ∀ e, parse list = .error e →
    (Names list [] ∧ e = .config "at least one proxy address required")
      ∨ ∃ segs hop, Names list segs ∧ Offends segs hop
        ∧ e = .config ("invalid proxy address " ++ Redacted.hop hop)
  /-- Of that entry, and of all others, no more is told than may be shown of it. -/
  alike : ∀ list' segs segs' hop hop', Names list segs → Names list' segs' →
    Offends segs hop → Offends segs' hop' → Redacted.hop hop = Redacted.hop hop' →
    parse list = parse list'

/-- **Every list is read as the chain of what it names**, or refused for that. -/
theorem parse_faithful (list : String) : Faithful list := by
  have hparse {list : String} {segs : List String} (h : Names list segs) :
      parse list = ofHops segs := by
    rw [parse, entries_eq_iff.mpr h]
  constructor
  case names => exact existsUnique_names list
  case parses => simp only [exists_parse_iff, Address.accepts_iff]
  case hops => exact fun c => parse_eq_ok_iff.mp
  case joined =>
    intro c hc
    have hnames := parse_eq_ok_iff.mp hc
    exact parse_eq_ok_iff.mpr (names_intercalate c.nonempty fun hop hm => hnames.entry hm)
  case spaced =>
    intro list' h
    rw [parse, parse, h.entries_eq]
  case refused =>
    intro e he
    have hnames : Names list (entries list) := entries_eq_iff.mp rfl
    obtain ⟨hnil, he⟩ | ⟨hop, ho, he⟩ := offends_of_ofHops_error he
    · exact .inl ⟨hnil ▸ hnames, he⟩
    · exact .inr ⟨entries list, hop, hnames, ho, he⟩
  case alike =>
    intro list' segs segs' hop hop' hn hn' ho ho' hr
    rw [hparse hn, hparse hn', ofHops_of_offends ho, ofHops_of_offends ho', hr]

/-- An entry that is named twice is a hop twice. -/
example : entries " a:1, ,[b]:2 ,a:1," = ["a:1", "[b]:2", "a:1"] := by decide +kernel

end HopTorrent.Chain
