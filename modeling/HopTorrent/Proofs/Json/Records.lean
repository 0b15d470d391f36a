import HopTorrent.Proofs.Json.Values

/-!
# Proofs/Json/Records — what a record tells

A record tells of its known fields, by name or, as an array, by place (`Record`).  A field is told
by a text, or by `null` where that is allowed (`Told`); a member of another name tells nothing, and
its value is any.  The reader reads exactly the records that tell of no field twice
(`readRecord_eq_some_iff`).
-/

namespace HopTorrent.Json

variable {names : List String} {nullable : Bool} {bs r rest : Bytes} {fuel : ℕ}
  {seen fields told : Fields}

/-! ## Fields -/

theorem expect_eq_some_iff {word : Bytes} : expect word bs = some rest ↔ bs = word ++ rest := by
  rw [expect]
  constructor
  · intro h
    split at h
    · rename_i ht
      cases h
      have he := List.take_append_drop word.length bs
      rw [ht] at he
      exact he.symm
    · cases h
  · rintro rfl
    rw [List.take_left, if_pos rfl, List.drop_left]

/-- **What tells of a field**: a text, or `null` where that is allowed. -/
inductive Told (nullable : Bool) : Bytes → Option String → Bytes → Prop
  | text {bs r rest : Bytes} {s : String} (h : skipBlanks bs = quote :: r)
    (ht : readText r = some (s, rest)) : Told nullable bs (some s) rest
  | null {bs rest : Bytes} (hn : nullable = true)
    (h : skipBlanks bs = Bytes.utf8 "null" ++ rest) : Told nullable bs none rest

theorem readField_eq_some_iff {v : Option String} :
    readField nullable bs = some (v, rest) ↔ Told nullable bs v rest := by
  rw [readField.eq_def]
  constructor
  · intro h
    split at h
    case h_1 hb =>
      obtain ⟨⟨s, r⟩, ht, he⟩ := Option.map_eq_some_iff.mp h
      cases he
      exact .text hb ht
    case h_2 =>
      split at h
      · rename_i hn
        obtain ⟨r, he, hr⟩ := Option.map_eq_some_iff.mp h
        cases hr
        exact .null hn (expect_eq_some_iff.mp he)
      · cases h
  · intro h
    cases h with
    | text h ht =>
      rw [h]
      show (readText _).map _ = _
      rw [ht]
      rfl
    | null hn h =>
      rw [h]
      show (if nullable then (expect _ (Bytes.utf8 "null" ++ rest)).map _ else none) = _
      rw [if_pos hn, expect_eq_some_iff.mpr rfl]
      rfl

/-! ## Members -/

/-- **A member, and what it tells**: one of a known name tells of a field, any other nothing. -/
inductive Member (names : List String) (nullable : Bool) : Bytes → Fields → Bytes → Prop
  | known {bs r r' r'' rest : Bytes} {name : String} {v : Option String}
    (h : skipBlanks bs = quote :: r) (hn : readText r = some (name, r'))
    (hc : skipBlanks r' = colon :: r'') (hk : name ∈ names) (hv : Told nullable r'' v rest) :
    Member names nullable bs [(name, v)] rest
  | other {bs r r' r'' rest : Bytes} {name : String}
    (h : skipBlanks bs = quote :: r) (hn : readText r = some (name, r'))
    (hc : skipBlanks r' = colon :: r'') (hk : name ∉ names) (hv : Passed .value r'' rest) :
    Member names nullable bs [] rest

/-- **Members up to the mark that closes, and what they tell.** -/
inductive Members (names : List String) (nullable : Bool) : Bytes → Fields → Bytes → Prop
  | last {bs r rest : Bytes} {told : Fields} (h : Member names nullable bs told r)
    (hc : skipBlanks r = closeObject :: rest) : Members names nullable bs told rest
  | next {bs r r' rest : Bytes} {told later : Fields} (h : Member names nullable bs told r)
    (hc : skipBlanks r = comma :: r') (hm : Members names nullable r' later rest) :
    Members names nullable bs (told ++ later) rest

/-- The known fields after one more member, the fields `seen` being known before. -/
def readMember (names : List String) (nullable : Bool) (seen : Fields) (bs : Bytes) :
    Option (Fields × Bytes) :=
  match skipBlanks bs with
  | quote :: rest =>
    (readText rest).bind fun (name, rest) =>
      match skipBlanks rest with
      | colon :: rest =>
        if names.contains name then
          if (seen.lookup name).isSome then none
          else (readField nullable rest).map fun (v, rest) => (seen ++ [(name, v)], rest)
        else (skipValue rest).map (seen, ·)
      | _ => none
  | _ => none

/-- Members are read one after another. -/
theorem readMembers_succ : readMembers names nullable (fuel + 1) seen bs
    = (readMember names nullable seen bs).bind fun (seen, rest) =>
      match skipBlanks rest with
      | comma :: rest => readMembers names nullable fuel seen rest
      | closeObject :: rest => some (seen, rest)
      | _ => none := by
  rw [readMembers.eq_def, readMember.eq_def]
  dsimp only
  generalize skipBlanks bs = bs'
  by_cases hq : ∃ rest, bs' = quote :: rest
  · obtain ⟨rest, rfl⟩ := hq
    show (readText rest).bind _ = ((readText rest).bind _).bind _
    rw [Option.bind_assoc]
    congr 1
    funext ⟨name, rest⟩
    dsimp only
    generalize skipBlanks rest = r'
    by_cases hc : ∃ rest, r' = colon :: rest
    · obtain ⟨rest, rfl⟩ := hc
      show (if names.contains name then if (seen.lookup name).isSome then _ else _ else _)
        = Option.bind (if names.contains name then
            if (seen.lookup name).isSome then none else _ else _) _
      split
      · split <;> rfl
      · rfl
    · -- Neither side goes on.
      refine Eq.trans (b := none) ?_ (Eq.symm ?_)
      all_goals
        split
        · exact absurd ⟨_, rfl⟩ hc
        · rfl
  · -- Neither side goes on.
    refine Eq.trans (b := none) ?_ (Eq.symm ?_)
    all_goals
      split
      · exact absurd ⟨_, rfl⟩ hq
      · rfl

/-- **A member is read as it tells**, unless it tells of a field that is known already. -/
theorem readMember_eq_some_iff : readMember names nullable seen bs = some (fields, rest)
    ↔ ∃ told, Member names nullable bs told rest ∧ fields = seen ++ told
      ∧ ∀ field ∈ told, seen.lookup field.1 = none := by
  rw [readMember.eq_def]
  constructor
  · intro h
    split at h
    case h_1 hb =>
      obtain ⟨⟨name, r'⟩, hn, h⟩ := Option.bind_eq_some_iff.mp h
      dsimp only at h
      split at h
      case h_1 hc =>
        split at h
        · rename_i hk
          split at h
          · cases h
          · rename_i hl
            obtain ⟨⟨v, r⟩, hv, he⟩ := Option.map_eq_some_iff.mp h
            cases he
            refine ⟨_, .known hb hn hc (List.contains_iff_mem.mp hk)
              (readField_eq_some_iff.mp hv), rfl, fun field hf => ?_⟩
            rw [List.mem_singleton.mp hf]
            exact Option.not_isSome_iff_eq_none.mp hl
        · rename_i hk
          obtain ⟨r, hv, he⟩ := Option.map_eq_some_iff.mp h
          cases he
          exact ⟨_, .other hb hn hc (fun hm => hk (List.contains_iff_mem.mpr hm))
            (skipValue_eq_some_iff.mp hv), (List.append_nil _).symm, nofun⟩
      case h_2 => cases h
    case h_2 => cases h
  · rintro ⟨told, hm, rfl, hl⟩
    cases hm with
    | known hb hn hc hk hv =>
      have hnew := Option.not_isSome_iff_eq_none.mpr (hl _ (List.mem_singleton_self _))
      rw [hb]
      show (readText _).bind _ = _
      rw [hn, Option.bind_some]
      dsimp only
      rw [hc]
      show (if names.contains _ then _ else _) = _
      rw [if_pos (List.contains_iff_mem.mpr hk), if_neg hnew, readField_eq_some_iff.mpr hv]
      rfl
    | other hb hn hc hk hv =>
      rw [hb]
      show (readText _).bind _ = _
      rw [hn, Option.bind_some]
      dsimp only
      rw [hc]
      show (if names.contains _ then _ else _) = _
      rw [if_neg fun h => hk (List.contains_iff_mem.mp h), skipValue_eq_some_iff.mpr hv,
        List.append_nil]
      rfl

/-! ## The bound -/

/-- What is put in front of a text does not change what is behind it. -/
theorem behind_of_bind {text : Option (Bytes × Bytes)} {front : Bytes → Bytes} {content : Bytes}
    (h : (text.bind fun (bs, rest) => some (front bs, rest)) = some (content, r)) :
    ∃ bs, text = some (bs, r) := by
  obtain ⟨⟨bs, r'⟩, ht, he⟩ := Option.bind_eq_some_iff.mp h
  cases he
  exact ⟨bs, ht⟩

theorem length_textBytes {content : Bytes} (h : textBytes bs = some (content, r)) :
    r.length < bs.length := by
  fun_induction textBytes bs generalizing content with
  | case1 => cases h
  | case2 rest =>
    cases h
    exact Nat.lt_succ_self _
  | case3 a b c d rest whole halves =>
    obtain ⟨n, -, h⟩ := Option.bind_eq_some_iff.mp h
    dsimp only at h
    split at h
    · obtain ⟨bs, ht⟩ := behind_of_bind h
      exact (whole ht).trans_le (by simp only [List.length_cons]; omega)
    split at h
    · cases h
    split at h
    · obtain ⟨low, -, h⟩ := Option.bind_eq_some_iff.mp h
      split at h
      · cases h
      · obtain ⟨bs, ht⟩ := behind_of_bind h
        exact (halves ht).trans_le (by simp only [List.length_cons]; omega)
    · cases h
  | case4 b rest _ ih =>
    obtain ⟨e, -, h⟩ := Option.bind_eq_some_iff.mp h
    obtain ⟨bs, ht⟩ := behind_of_bind h
    exact (ih ht).trans_le (by simp only [List.length_cons]; omega)
  | case5 => cases h
  | case6 b rest =>
    rename_i ih
    obtain ⟨bs, ht⟩ := behind_of_bind h
    exact (ih ht).trans (Nat.lt_succ_self _)

theorem length_readText {s : String} (h : readText bs = some (s, r)) : r.length < bs.length := by
  obtain ⟨⟨content, r'⟩, ht, h⟩ := Option.bind_eq_some_iff.mp h
  obtain ⟨s, -, he⟩ := Option.bind_eq_some_iff.mp h
  cases he
  exact length_textBytes ht

/-- A part has a byte at least. -/
theorem Passed.length_lt {p : Part} (h : Passed p bs r) : r.length < bs.length := by
  induction h with
  | scalar h => exact (length_skipScalar h).trans_le (length_skipBlanks_le _)
  | hollow o h hr => exact (length_lt_of_skipBlanks hr).trans (length_lt_of_skipBlanks h)
  | nested o h _ _ ihe ihm => exact (ihm.trans ihe).trans (length_lt_of_skipBlanks h)
  | element _ ih => exact ih
  | member h ht hr _ ih =>
    exact ((ih.trans (length_lt_of_skipBlanks hr)).trans (length_skipText ht)).trans
      (length_lt_of_skipBlanks h)
  | closed o h => exact length_lt_of_skipBlanks h
  | next o h _ _ ihe ihm => exact (ihm.trans ihe).trans (length_lt_of_skipBlanks h)

theorem Told.length_lt {v : Option String} (h : Told nullable bs v r) : r.length < bs.length := by
  cases h with
  | text h ht => exact (length_readText ht).trans (length_lt_of_skipBlanks h)
  | null _ h =>
    have hl := length_skipBlanks_le bs
    have hw : 0 < (Bytes.utf8 "null").length := by decide
    rw [h, List.length_append] at hl
    omega

theorem Member.length_lt (h : Member names nullable bs told r) : r.length < bs.length := by
  cases h with
  | known h hn hc _ hv =>
    exact ((hv.length_lt.trans (length_lt_of_skipBlanks hc)).trans (length_readText hn)).trans
      (length_lt_of_skipBlanks h)
  | other h hn hc _ hv =>
    exact ((hv.length_lt.trans (length_lt_of_skipBlanks hc)).trans (length_readText hn)).trans
      (length_lt_of_skipBlanks h)

/-! ## Members -/

/-- Fields are told once if a member tells only of fields that are not known already. -/
theorem Member.nodup_iff (h : Member names nullable bs told r) (hs : (seen.map Prod.fst).Nodup) :
    ((seen ++ told).map Prod.fst).Nodup ↔ ∀ field ∈ told, seen.lookup field.1 = none := by
  cases h with
  | @known _ _ _ _ name v =>
    have hnone : seen.lookup name = none ↔ name ∉ seen.map Prod.fst := by
      rw [List.lookup_eq_none_iff, List.mem_map]
      grind
    rw [List.map_append, List.map_singleton, List.forall_mem_singleton, hnone,
      List.perm_append_comm.nodup_iff, List.singleton_append, List.nodup_cons]
    exact and_iff_left hs
  | other => simpa using hs

/-- **Members are read as they tell**, if no field is told twice. -/
theorem readMembers_eq_some_iff (hf : bs.length ≤ fuel) (hs : (seen.map Prod.fst).Nodup) :
    readMembers names nullable fuel seen bs = some (fields, rest)
      ↔ ∃ told, Members names nullable bs told rest ∧ fields = seen ++ told
        ∧ (fields.map Prod.fst).Nodup := by
  induction fuel generalizing seen bs fields with
  | zero =>
    refine iff_of_false nofun ?_
    rintro ⟨told, hm, -⟩
    cases hm with
    | last h | next h => exact absurd (h.length_lt.trans_le hf) (Nat.not_lt_zero _)
  | succ fuel ih =>
    rw [readMembers_succ, Option.bind_eq_some_iff]
    constructor
    · rintro ⟨⟨seen', r⟩, hread, h⟩
      obtain ⟨told, hm, rfl, hnew⟩ := readMember_eq_some_iff.mp hread
      have hnodup := (hm.nodup_iff hs).mpr hnew
      dsimp only at h
      split at h
      case h_1 hc =>
        have hlen := hm.length_lt
        have hlt := length_lt_of_skipBlanks hc
        obtain ⟨later, hms, rfl, hn⟩ := (ih (by omega) hnodup).mp h
        exact ⟨told ++ later, .next hm hc hms, List.append_assoc _ _ _, hn⟩
      case h_2 hc =>
        cases h
        exact ⟨told, .last hm hc, rfl, hnodup⟩
      case h_3 => cases h
    · rintro ⟨told, hms, rfl, hn⟩
      cases hms with
      | last hm hc =>
        refine ⟨_, readMember_eq_some_iff.mpr ⟨told, hm, rfl, (hm.nodup_iff hs).mp hn⟩, ?_⟩
        dsimp only
        rw [hc]
        rfl
      | @next _ r r' _ told later hm hc hms =>
        rw [← List.append_assoc] at hn ⊢
        have hnodup : ((seen ++ told).map Prod.fst).Nodup :=
          hn.sublist ((List.sublist_append_left _ _).map _)
        have hlen := hm.length_lt
        have hlt := length_lt_of_skipBlanks hc
        refine ⟨_, readMember_eq_some_iff.mpr ⟨told, hm, rfl, (hm.nodup_iff hs).mp hnodup⟩, ?_⟩
        dsimp only
        rw [hc]
        exact (ih (by omega) hnodup).mpr ⟨later, hms, rfl, hn⟩

/-- The members of a whole object. -/
theorem readMembers_nil_iff :
    readMembers names nullable (skipBlanks bs).length [] (skipBlanks bs) = some (fields, rest)
      ↔ Members names nullable (skipBlanks bs) fields rest ∧ (fields.map Prod.fst).Nodup := by
  have hnil : (([] : Fields).map Prod.fst).Nodup := List.nodup_nil
  rw [readMembers_eq_some_iff le_rfl hnil]
  constructor
  · rintro ⟨told, hm, rfl, hn⟩
    exact ⟨hm, hn⟩
  · rintro ⟨hm, hn⟩
    exact ⟨fields, hm, rfl, hn⟩

/-! ## Elements -/

/-- **Elements up to the mark that closes, and what they tell.** -/
inductive Elements (nullable : Bool) : Bytes → List (Option String) → Bytes → Prop
  | last {bs r rest : Bytes} {v : Option String} (h : Told nullable bs v r)
    (hc : skipBlanks r = closeArray :: rest) : Elements nullable bs [v] rest
  | next {bs r r' rest : Bytes} {v : Option String} {later : List (Option String)}
    (h : Told nullable bs v r) (hc : skipBlanks r = comma :: r')
    (hm : Elements nullable r' later rest) : Elements nullable bs (v :: later) rest

/-- **Elements are read as they tell of the fields in order**, if there are not too many. -/
theorem readElements_eq_some_iff : readElements nullable names bs = some (fields, rest)
    ↔ ∃ values, Elements nullable bs values rest ∧ values.length ≤ names.length
      ∧ fields = names.zip values := by
  induction names generalizing bs fields rest with
  | nil =>
    refine iff_of_false nofun ?_
    rintro ⟨values, he, hl, -⟩
    cases he <;> cases hl
  | cons name names ih =>
    rw [readElements]
    constructor
    · intro h
      obtain ⟨⟨v, r⟩, hv, h⟩ := Option.bind_eq_some_iff.mp h
      have hv := readField_eq_some_iff.mp hv
      dsimp only at h
      split at h
      case h_1 hc =>
        obtain ⟨⟨later, r'⟩, hr, he⟩ := Option.bind_eq_some_iff.mp h
        obtain ⟨values, hm, hl, rfl⟩ := ih.mp hr
        cases he
        exact ⟨v :: values, .next hv hc hm, Nat.succ_le_succ hl, rfl⟩
      case h_2 hc =>
        cases h
        exact ⟨[v], .last hv hc, Nat.succ_le_succ (Nat.zero_le _), by simp⟩
      case h_3 => cases h
    · rintro ⟨values, he, hl, rfl⟩
      cases he with
      | last hv hc =>
        rw [readField_eq_some_iff.mpr hv, Option.bind_eq_bind, Option.bind_some]
        dsimp only
        rw [hc, List.zip_cons_cons, List.zip_nil_right]
        rfl
      | next hv hc hm =>
        rw [readField_eq_some_iff.mpr hv, Option.bind_eq_bind, Option.bind_some]
        dsimp only
        rw [hc]
        show (readElements nullable names _).bind _ = _
        rw [ih.mpr ⟨_, hm, Nat.le_of_succ_le_succ hl, rfl⟩]
        rfl

/-! ## Records -/

/-- **A record, what it tells, and whether it is an array**: members or elements between the marks
that open and close, no field being told twice. -/
inductive Record (names : List String) (nullable : Bool) : Bytes → Fields → Bool → Bytes → Prop
  | hollow {bs r rest : Bytes} (isArray : Bool) (h : skipBlanks bs = opening (!isArray) :: r)
    (hc : skipBlanks r = closing (!isArray) :: rest) : Record names nullable bs [] isArray rest
  | object {bs r rest : Bytes} {fields : Fields} (h : skipBlanks bs = openObject :: r)
    (hm : Members names nullable r fields rest) (hn : (fields.map Prod.fst).Nodup) :
    Record names nullable bs fields false rest
  | array {bs r rest : Bytes} {values : List (Option String)} (h : skipBlanks bs = openArray :: r)
    (he : Elements nullable r values rest) (hl : values.length ≤ names.length) :
    Record names nullable bs (names.zip values) true rest

/-- Blanks in front do not matter. -/
theorem Told.congr {v : Option String} (h : Told nullable bs v rest)
    (hb : skipBlanks r = skipBlanks bs) : Told nullable r v rest := by
  cases h with
  | text h ht => exact .text (hb.trans h) ht
  | null hn h => exact .null hn (hb.trans h)

theorem Elements.congr {values : List (Option String)} (h : Elements nullable bs values rest)
    (hb : skipBlanks r = skipBlanks bs) : Elements nullable r values rest := by
  cases h with
  | last h hc => exact .last (h.congr hb) hc
  | next h hc he => exact .next (h.congr hb) hc he

theorem Member.congr (h : Member names nullable bs told rest)
    (hb : skipBlanks r = skipBlanks bs) : Member names nullable r told rest := by
  cases h with
  | known h hn hc hk hv => exact .known (hb.trans h) hn hc hk hv
  | other h hn hc hk hv => exact .other (hb.trans h) hn hc hk hv

theorem Members.congr (h : Members names nullable bs told rest)
    (hb : skipBlanks r = skipBlanks bs) : Members names nullable r told rest := by
  cases h with
  | last h hc => exact .last (h.congr hb) hc
  | next h hc hm => exact .next (h.congr hb) hc hm

/-- Neither begins with the mark that closes. -/
theorem Members.ne_closing (h : Members names nullable bs told rest) :
    skipBlanks bs ≠ closeObject :: r := by
  intro hb
  cases h with
  | last h | next h =>
    cases h with
    | known h | other h =>
      rw [hb] at h
      cases h

theorem Elements.ne_closing {values : List (Option String)}
    (h : Elements nullable bs values rest) : skipBlanks bs ≠ closeArray :: r := by
  intro hb
  cases h with
  | last h | next h =>
    cases h with
    | text h | null _ h =>
      rw [hb] at h
      cases h

/-- **The reader reads exactly the records.** -/
theorem readRecord_eq_some_iff {isArray : Bool} :
    readRecord names nullable bs = some ((fields, isArray), rest)
      ↔ Record names nullable bs fields isArray rest := by
  rw [readRecord.eq_def]
  constructor
  · intro h
    split at h
    case h_1 hb =>
      split at h
      case h_1 hc =>
        cases h
        exact .hollow false hb hc
      case h_2 =>
        obtain ⟨⟨fields, r⟩, hr, he⟩ := Option.map_eq_some_iff.mp h
        cases he
        obtain ⟨hm, hn⟩ := readMembers_nil_iff.mp hr
        exact .object hb (hm.congr (skipBlanks_skipBlanks _).symm) hn
    case h_2 hb =>
      split at h
      case h_1 hc =>
        cases h
        exact .hollow true hb hc
      case h_2 =>
        obtain ⟨⟨fields, r⟩, hr, he⟩ := Option.map_eq_some_iff.mp h
        cases he
        obtain ⟨values, he, hl, rfl⟩ := readElements_eq_some_iff.mp hr
        exact .array hb (he.congr (skipBlanks_skipBlanks _).symm) hl
    case h_3 => cases h
  · intro h
    split
    case h_1 ho =>
      cases h with
      | hollow _ h hc =>
        rw [ho] at h
        cases isArray <;> cases h
        rw [hc]
        rfl
      | object h hm hn =>
        rw [ho] at h
        cases h
        split
        case h_1 hc => exact absurd hc hm.ne_closing
        case h_2 =>
          rw [readMembers_nil_iff.mpr ⟨hm.congr (skipBlanks_skipBlanks _), hn⟩]
          rfl
      | array h =>
        rw [ho] at h
        cases h
    case h_2 ho =>
      cases h with
      | hollow _ h hc =>
        rw [ho] at h
        cases isArray <;> cases h
        rw [hc]
        rfl
      | object h hm hn =>
        rw [ho] at h
        cases h
      | array h he hl =>
        rw [ho] at h
        cases h
        split
        case h_1 hc => exact absurd hc he.ne_closing
        case h_2 =>
          rw [readElements_eq_some_iff.mpr ⟨_, he.congr (skipBlanks_skipBlanks _), hl, rfl⟩]
          rfl
    case h_3 ho ha =>
      cases h with
      | hollow _ h =>
        cases isArray with
        | false => exact (ho _ h).elim
        | true => exact (ha _ h).elim
      | object h => exact (ho _ h).elim
      | array h => exact (ha _ h).elim

end HopTorrent.Json
