import HopTorrent.Address.Ip
import HopTorrent.Proofs.Text.Numeral

/-!
# Proofs/Address/Ip — a numeric host is read back from its text

Every host of four octets and every host of eight groups is the reading of its own text
(`ofChars?_render`): the run of zero groups that writing leaves out is the run that reading fills
in, and the version 4 form stands where reading expects it.  The texts hold no brackets, and those
of version 4 no colon, so that they can stand in front of a port.
-/

namespace HopTorrent.Ip

variable {cs piece tail : List Char} {os : List UInt8} {gs : List UInt16} {c : Char}

/-! ## Four octets -/

/-- An octet is read back from its digits. -/
theorem octet?_toDigits (o : UInt8) : octet? (Nat.toDigits 10 o.toNat) = some o := by
  have h : ∀ n : Fin 256, octet? (Nat.toDigits 10 n) = some (UInt8.ofNat n) := by decide +kernel
  rw [h ⟨o.toNat, o.toNat_lt⟩, UInt8.ofNat_toNat]

/-- Only digits spell an octet. -/
theorem isDigit_of_octet? {o : UInt8} (h : octet? cs = some o) : ∀ c ∈ cs, c.isDigit = true := by
  rw [octet?] at h
  split at h
  · obtain ⟨n, hn, -⟩ := Option.map_eq_some_iff.mp h
    exact Text.isDigit_of_digits? (Option.filter_eq_some_iff.mp hn).1
  · cases h

/-- The text of octets is their digits between dots. -/
theorem toList_showOctets (os : List UInt8) :
    (showOctets os).toList = ['.'].intercalate (os.map fun o => Nat.toDigits 10 o.toNat) := by
  simp [showOctets, String.toList_intercalate, Function.comp_def]

/-- Octets are written with digits and dots. -/
theorem mem_showOctets (h : c ∈ (showOctets os).toList) : c = '.' ∨ c.isDigit = true := by
  rw [toList_showOctets] at h
  refine (Text.mem_intercalate h).imp_right fun ⟨piece, hp, hc⟩ => ?_
  obtain ⟨o, -, rfl⟩ := List.mem_map.mp hp
  exact Nat.isDigit_of_mem_toDigits (by decide) (by decide) hc

/-- **Four octets are read back from their text.** -/
theorem octets?_showOctets (h : os.length = 4) : octets? (showOctets os).toList = some os := by
  have hdots : ∀ piece ∈ os.map (fun o => Nat.toDigits 10 o.toNat), '.' ∉ piece := by
    rintro _ hp hc
    obtain ⟨o, -, rfl⟩ := List.mem_map.mp hp
    have hd : Char.isDigit '.' = true := Nat.isDigit_of_mem_toDigits (by decide) (by decide) hc
    simp at hd
  have hne : os.map (fun o => Nat.toDigits 10 o.toNat) ≠ [] := by
    rw [ne_eq, List.map_eq_nil_iff]
    rintro rfl
    cases h
  have hread : (os.map fun o => Nat.toDigits 10 o.toNat).mapM octet? = some os := by
    rw [List.mapM_map]
    clear h hdots hne
    induction os with
    | nil => rfl
    | cons o os ih =>
      rw [List.mapM_cons, Function.comp_apply, octet?_toDigits, Option.bind_eq_bind,
        Option.bind_some, ih]
      rfl
  rw [octets?, toList_showOctets, Text.pieces_intercalate hne hdots, hread]
  simp [h]

/-- No colon stands in a text of octets. -/
theorem octets?_of_colon (h : ':' ∈ cs) : octets? cs = none := by
  obtain ⟨piece, hp, hc⟩ := Text.exists_mem_pieces h (show ':' ≠ '.' by decide)
  have hpiece : octet? piece = none := by
    cases ho : octet? piece with
    | none => rfl
    | some o =>
      have hd := isDigit_of_octet? ho _ hc
      simp at hd
  have hnone : ∀ {ps : List (List Char)}, piece ∈ ps → ps.mapM octet? = none := by
    intro ps hps
    induction ps with
    | nil => cases hps
    | cons q ps ih =>
      obtain rfl | hps := List.mem_cons.mp hps
      · simp [List.mapM_cons, hpiece]
      · rw [List.mapM_cons, ih hps]
        cases octet? q <;> rfl
  rw [octets?, hnone hp]
  rfl

/-! ## Groups -/

/-- A digit more, read after others. -/
theorem hexValueOf_append (acc : Nat) (cs : List Char) (c : Char) :
    hexValueOf acc (cs ++ [c])
      = (hexValueOf acc cs).bind fun n => (Text.hexValue? c).map (n * 16 + ·) := by
  induction cs generalizing acc with
  | nil =>
    simp only [List.nil_append, hexValueOf, Option.bind_some]
    cases Text.hexValue? c <;> rfl
  | cons d cs ih =>
    simp only [List.cons_append, hexValueOf]
    cases Text.hexValue? d with
    | none => rfl
    | some v => exact ih _

/-- A hexadecimal digit has the value it was written for. -/
theorem hexValue?_digitChar {n : Nat} (h : n < 16) : Text.hexValue? n.digitChar = some n := by
  have : ∀ m : Fin 16, Text.hexValue? (Nat.digitChar m) = some m.val := by decide
  exact this ⟨n, h⟩

/-- A number is read back from its hexadecimal digits. -/
theorem hexValueOf_toDigits (n : Nat) : hexValueOf 0 (Nat.toDigits 16 n) = some n := by
  induction n using Nat.strongRecOn with
  | ind n ih =>
    rw [Nat.toDigits_eq_if (by decide)]
    split
    · rename_i hn
      simp [hexValueOf, hexValue?_digitChar hn]
    · rename_i hn
      rw [hexValueOf_append, ih (n / 16) (by omega),
        hexValue?_digitChar (Nat.mod_lt n (by decide))]
      simp only [Option.bind_some, Option.map_some, Option.some.injEq]
      omega

/-- **A group is read back from its digits.** -/
theorem group?_toDigits (g : UInt16) : group? (Nat.toDigits 16 g.toNat) = some g := by
  have hl : (Nat.toDigits 16 g.toNat).length ≤ 4 :=
    (Nat.length_toDigits_le_iff (by decide) (by decide)).mpr g.toNat_lt
  rw [group?, if_pos ⟨Nat.length_toDigits_pos, hl⟩, hexValueOf_toDigits, Option.map_some,
    UInt16.ofNat_toNat]

/-- Hexadecimal digits are characters with a value. -/
theorem hexValue?_of_mem_toDigits {n : Nat} (h : c ∈ Nat.toDigits 16 n) :
    (Text.hexValue? c).isSome = true := by
  induction n using Nat.strongRecOn with
  | ind n ih =>
    rw [Nat.toDigits_eq_if (by decide)] at h
    split at h
    · rename_i hn
      rw [List.mem_singleton.mp h, hexValue?_digitChar hn]
      rfl
    · obtain h | h := List.mem_append.mp h
      · exact ih (n / 16) (by omega) h
      · rw [List.mem_singleton.mp h, hexValue?_digitChar (Nat.mod_lt n (by decide))]
        rfl

/-- The groups of a text, digit by digit. -/
abbrev groupDigits (gs : List UInt16) : List (List Char) := gs.map fun g => Nat.toDigits 16 g.toNat

/-- The text of groups is their digits between colons. -/
theorem toList_showGroups (gs : List UInt16) :
    (showGroups gs).toList = [':'].intercalate (groupDigits gs) := by
  simp [showGroups, String.toList_intercalate, Function.comp_def]

/-- Groups are written with hexadecimal digits and colons. -/
theorem mem_showGroups (h : c ∈ (showGroups gs).toList) :
    c = ':' ∨ (Text.hexValue? c).isSome = true := by
  rw [toList_showGroups] at h
  refine (Text.mem_intercalate h).imp_right fun ⟨piece, hp, hc⟩ => ?_
  obtain ⟨g, -, rfl⟩ := List.mem_map.mp hp
  exact hexValue?_of_mem_toDigits hc

/-- No colon stands in a group. -/
theorem colon_not_mem_toDigits (n : Nat) : ':' ∉ Nat.toDigits 16 n := fun hc =>
  absurd (hexValue?_of_mem_toDigits hc) (by decide)

/-- Groups are read back, and after them the version 4 form. -/
theorem groupsOf_groupDigits (gs : List UInt16) : groupsOf (groupDigits gs) = some gs := by
  induction gs with
  | nil => rfl
  | cons g gs ih =>
    cases gs with
    | nil => simp [groupsOf, group?_toDigits]
    | cons next gs =>
      have hcons : groupsOf (groupDigits (g :: next :: gs))
          = (group? (Nat.toDigits 16 g.toNat)).bind fun h =>
            (groupsOf (groupDigits (next :: gs))).bind fun hs => some (h :: hs) := rfl
      rw [hcons, group?_toDigits, ih]
      rfl

/-- **Groups are read back from their text.** -/
theorem groups?_showGroups (gs : List UInt16) : groups? (showGroups gs).toList = some gs := by
  rw [groups?, toList_showGroups]
  cases gs with
  | nil => rfl
  | cons g gs =>
    have hne : ([':'].intercalate (groupDigits (g :: gs))).isEmpty = false := by
      cases hd : Nat.toDigits 16 g.toNat with
      | nil => exact absurd hd Nat.toDigits_ne_nil
      | cons c cs =>
        rw [groupDigits, List.map_cons, hd, List.intercalate_cons_cons_left]
        rfl
    have hcolon : ∀ piece ∈ groupDigits (g :: gs), ':' ∉ piece :=
      List.forall_mem_map.mpr fun g _ => colon_not_mem_toDigits g.toNat
    rw [hne, if_neg Bool.false_ne_true, Text.pieces_intercalate (by simp) hcolon,
      groupsOf_groupDigits]

/-! ## The gap -/

/-- A character that begins no gap stands before the first one. -/
theorem cutGap_cons (h : c = ':' → cs.head? ≠ some ':') :
    cutGap (c :: cs) = (cutGap cs).map (Prod.map (c :: ·) id) := by
  rw [cutGap]
  · rfl
  · rintro rest rfl rfl
    exact h rfl rfl

/-- What holds no colon stands before the first gap. -/
theorem cutGap_append (h : ':' ∉ piece) (cs : List Char) :
    cutGap (piece ++ cs) = (cutGap cs).map (Prod.map (piece ++ ·) id) := by
  induction piece with
  | nil => exact (Option.map_id_apply).symm
  | cons c piece ih =>
    obtain ⟨hc, hp⟩ := not_or.mp (mt List.mem_cons.mpr h)
    rw [List.cons_append, cutGap_cons fun hcolon => absurd hcolon.symm hc, ih hp, Option.map_map]
    rfl

/-- The text of a group begins with no colon. -/
theorem head?_groups (g : UInt16) (gs : List UInt16) (cs : List Char) :
    ([':'].intercalate (groupDigits (g :: gs)) ++ cs).head? ≠ some ':' := by
  have hg := colon_not_mem_toDigits g.toNat
  cases hd : Nat.toDigits 16 g.toNat with
  | nil => exact absurd hd Nat.toDigits_ne_nil
  | cons c ds =>
    rw [groupDigits, List.map_cons, hd, List.intercalate_cons_cons_left, List.cons_append,
      List.head?_cons]
    rw [hd] at hg
    exact fun hc => hg (Option.some.inj hc ▸ List.mem_cons_self)

/-- **No gap stands in a text of groups**: the first one is that of what follows it. -/
theorem cutGap_groups (gs : List UInt16) (cs : List Char) :
    cutGap ([':'].intercalate (groupDigits gs) ++ cs)
      = (cutGap cs).map (Prod.map ([':'].intercalate (groupDigits gs) ++ ·) id) := by
  induction gs with
  | nil => exact (Option.map_id_apply).symm
  | cons g gs ih =>
    have hg := colon_not_mem_toDigits g.toNat
    cases gs with
    | nil => simpa using cutGap_append hg cs
    | cons next gs =>
      have hcons : [':'].intercalate (groupDigits (g :: next :: gs))
          = Nat.toDigits 16 g.toNat ++ ':' :: [':'].intercalate (groupDigits (next :: gs)) := by
        simp [groupDigits, List.intercalate_cons_cons]
      rw [hcons, List.append_assoc, cutGap_append hg, List.cons_append,
        cutGap_cons fun _ => head?_groups next gs cs, ih, Option.map_map, Option.map_map]
      exact congrArg (Option.map · (cutGap cs)) (funext fun cut => Prod.ext (by simp) rfl)

/-- **What stands before and after a gap is found again.** -/
theorem cutGap_showGroups (front : List UInt16) (text : List Char) :
    cutGap ((showGroups front).toList ++ ':' :: ':' :: text)
      = some ((showGroups front).toList, text) := by
  rw [toList_showGroups front, cutGap_groups, cutGap, Option.map_some, Prod.map, List.append_nil,
    id]

/-- Groups alone hold no gap. -/
theorem cutGap_showGroups_alone (gs : List UInt16) : cutGap (showGroups gs).toList = none := by
  rw [toList_showGroups, ← List.append_nil ([':'].intercalate _), cutGap_groups, cutGap,
    Option.map_none]

/-! ## The run of zero groups that is left out -/

/-- So many groups are zero from a position on. -/
def ZerosAt (gs : List UInt16) (start count : Nat) : Prop :=
  ∀ i, start ≤ i → i < start + count → gs[i]? = some 0

/-- **A run that was found consists of zeros**, if those given did: the groups still to come are
those from `at_` on, right after `run` zeros. -/
theorem zerosAt_longestGap {all : List UInt16} {at_ run : Nat} {best : Nat × Nat}
    (hgs : all.drop at_ = gs) (hle : run ≤ at_) (hrun : ZerosAt all (at_ - run) run)
    (hbest : ZerosAt all best.1 best.2) :
    ZerosAt all (longestGap at_ run best gs).1 (longestGap at_ run best gs).2 := by
  induction gs generalizing at_ run best with
  | nil => exact hbest
  | cons g gs ih =>
    have hat : all[at_]? = some g := by
      rw [← Nat.add_zero at_, ← List.getElem?_drop, hgs, List.getElem?_cons_zero]
    have hrest : all.drop (at_ + 1) = gs := by
      rw [← List.drop_drop, hgs, List.drop_one, List.tail_cons]
    rw [longestGap]
    split
    · rename_i hg
      have hmore : ZerosAt all (at_ + 1 - (run + 1)) (run + 1) := fun i hi hlt => by
        obtain hlt | rfl : i < at_ ∨ i = at_ := by omega
        · exact hrun i (by omega) (by omega)
        · exact hat.trans (congrArg some hg)
      refine ih hrest (by omega) hmore ?_
      split
      · exact hmore
      · exact hbest
    · exact ih hrest (Nat.zero_le _) (fun i hi hlt => by omega) hbest

/-- A run of zeros lies within the groups. -/
theorem ZerosAt.le_length {start count : Nat} (h : ZerosAt gs start count) (hc : 0 < count) :
    start + count ≤ gs.length := by
  have := (List.getElem?_eq_some_iff.mp (h (start + count - 1) (by omega) (by omega))).1
  omega

/-- **Groups with a run of zeros** are those before it, the zeros, and those after it. -/
theorem ZerosAt.append_eq {start count : Nat} (h : ZerosAt gs start count) (hc : 0 < count) :
    gs.take start ++ List.replicate count 0 ++ gs.drop (start + count) = gs := by
  have hle := h.le_length hc
  have hzeros : (gs.drop start).take count = List.replicate count 0 := by
    refine List.eq_replicate_iff.mpr ⟨by rw [List.length_take, List.length_drop]; omega, ?_⟩
    intro g hg
    obtain ⟨i, hi, rfl⟩ := List.mem_iff_getElem.mp hg
    have hlt : i < count := Nat.lt_of_lt_of_le hi (List.length_take_le ..)
    rw [List.getElem_take, List.getElem_drop]
    exact Option.some.inj
      ((List.getElem?_eq_getElem (by omega)).symm.trans (h (start + i) (by omega) (by omega)))
  rw [← hzeros, List.append_assoc, ← List.drop_drop, List.take_append_drop, List.take_append_drop]

/-! ## Version 6 hosts -/

/-- The text of a version 6 host, by the run of zero groups that it leaves out. -/
theorem showV6_cases (h : gs.length = 8) :
    (∃ hi lo, gs = [0, 0, 0, 0, 0, 0xFFFF, hi, lo]
        ∧ showV6 gs = "::ffff:" ++ showOctets (groupOctets [hi, lo]))
      ∨ (∃ front back count, 1 < count ∧ gs = front ++ List.replicate count 0 ++ back
        ∧ showV6 gs = showGroups front ++ "::" ++ showGroups back)
      ∨ showV6 gs = showGroups gs := by
  rw [showV6]
  split
  · rename_i hm
    have hl : (gs.drop 6).length = 2 := by rw [List.length_drop, h]
    obtain ⟨hi, lo, hd⟩ : ∃ hi lo, gs.drop 6 = [hi, lo] :=
      match gs.drop 6, hl with
      | [hi, lo], _ => ⟨hi, lo, rfl⟩
    refine .inl ⟨hi, lo, ?_, by rw [hd]⟩
    rw [← List.take_append_drop 6 gs, hm, hd]
    rfl
  · dsimp only
    have hz : ZerosAt gs (longestGap 0 0 (0, 0) gs).1 (longestGap 0 0 (0, 0) gs).2 :=
      zerosAt_longestGap rfl (Nat.le_refl 0) (fun i _ hlt => by omega) fun i _ hlt => by omega
    split
    · rename_i hc
      exact .inr (.inl ⟨_, _, _, hc, (hz.append_eq (Nat.lt_of_succ_lt hc)).symm, rfl⟩)
    · exact .inr (.inr rfl)

/-- A colon stands in the text of a version 6 host. -/
theorem colon_mem_showV6 (h : gs.length = 8) : ':' ∈ (showV6 gs).toList := by
  obtain ⟨hi, lo, -, hs⟩ | ⟨front, back, count, -, -, hs⟩ | hs := showV6_cases h
  · simp [hs]
  · simp [hs]
  · rw [hs, toList_showGroups]
    match gs, h with
    | g :: next :: gs, _ =>
      rw [groupDigits, List.map_cons, List.map_cons, List.intercalate_cons_cons]
      simp

/-- **Groups are read back around a gap**, which stands for the zeros between them. -/
theorem v6Groups?_of_gap (front : List UInt16) {back : List UInt16} {text : List Char}
    (hback : groups? text = some back) (hl : front.length + back.length ≤ 7) :
    v6Groups? ((showGroups front).toList ++ ':' :: ':' :: text)
      = some (front ++ List.replicate (8 - front.length - back.length) 0 ++ back) := by
  have hdot : '.' ∉ (showGroups front).toList := fun hd =>
    (mem_showGroups hd).elim (by decide) (by decide)
  rw [v6Groups?, cutGap_showGroups]
  simp [hdot, groups?_showGroups, hback, Nat.not_lt_of_le hl]

/-- The octets of groups make these groups. -/
theorem octetGroups_groupOctets (gs : List UInt16) : octetGroups (groupOctets gs) = gs := by
  induction gs with
  | nil => rfl
  | cons g gs ih =>
    have hcons : octetGroups (groupOctets (g :: gs))
        = UInt16.ofNat (Bytes.toPort (UInt8.ofNat (g.toNat / 256)) (UInt8.ofNat g.toNat))
          :: octetGroups (groupOctets gs) := rfl
    rw [hcons, Bytes.toPort_ofPort g.toNat_lt, UInt16.ofNat_toNat, ih]

/-- Only hexadecimal digits spell a number. -/
theorem hexValue?_of_hexValueOf {acc n : Nat} (h : hexValueOf acc cs = some n) :
    ∀ c ∈ cs, (Text.hexValue? c).isSome = true := by
  induction cs generalizing acc with
  | nil => simp
  | cons c cs ih =>
    rw [hexValueOf] at h
    obtain ⟨d, hd, hcs⟩ := Option.bind_eq_some_iff.mp h
    exact List.forall_mem_cons.mpr ⟨by rw [hd]; rfl, ih hcs⟩

/-- No dot stands in a group. -/
theorem group?_of_dot (h : '.' ∈ cs) : group? cs = none := by
  rw [group?]
  split
  · cases hv : hexValueOf 0 cs with
    | none => rfl
    | some n => exact absurd (hexValue?_of_hexValueOf hv _ h) (by decide)
  · rfl

/-- The last two groups are read back from the version 4 form. -/
theorem groups?_mapped (hi lo : UInt16) :
    groups? ("ffff".toList ++ ':' :: (showOctets (groupOctets [hi, lo])).toList)
      = some [0xFFFF, hi, lo] := by
  have hcolon : ':' ∉ (showOctets (groupOctets [hi, lo])).toList := fun hc =>
    (mem_showOctets hc).elim (by decide) (by decide)
  have hdot : '.' ∈ (showOctets (groupOctets [hi, lo])).toList := by
    simp [toList_showOctets, groupOctets, Bytes.ofPort, List.intercalate_cons_cons]
  have hpieces : groupsOf ["ffff".toList, (showOctets (groupOctets [hi, lo])).toList]
      = (group? "ffff".toList).bind fun g =>
        (((group? (showOctets (groupOctets [hi, lo])).toList).map fun g => [g]).or
          ((octets? (showOctets (groupOctets [hi, lo])).toList).map octetGroups)).bind
            fun gs => some (g :: gs) := rfl
  have hffff : group? "ffff".toList = some 0xFFFF := by decide
  have hne : ("ffff".toList ++ ':' :: (showOctets (groupOctets [hi, lo])).toList).isEmpty = false :=
    rfl
  rw [groups?, hne, if_neg Bool.false_ne_true, Text.pieces_append_cons (by decide),
    Text.pieces_of_not_mem hcolon, hpieces, hffff, group?_of_dot hdot, octets?_showOctets rfl]
  simp [octetGroups_groupOctets]

/-- **Eight groups are read back from their text.** -/
theorem v6Groups?_showV6 (h : gs.length = 8) : v6Groups? (showV6 gs).toList = some gs := by
  obtain ⟨hi, lo, rfl, hs⟩ | ⟨front, back, count, hc, rfl, hs⟩ | hs := showV6_cases h
  · have hread := v6Groups?_of_gap [] (groups?_mapped hi lo) (Nat.le_of_ble_eq_true rfl)
    have hempty : (showGroups []).toList = [] := rfl
    rw [hempty] at hread
    rw [hs]
    simpa using hread
  · simp only [List.length_append, List.length_replicate] at h
    have hn : 8 - front.length - back.length = count := by omega
    rw [hs]
    simpa [hn] using v6Groups?_of_gap front (groups?_showGroups back) (by omega)
  · rw [hs, v6Groups?, cutGap_showGroups_alone]
    exact groups?_showGroups gs

/-! ## Every host -/

/-- **A numeric host is read back from its text.** -/
theorem ofChars?_render (ip : Ip) : ofChars? ip.render.toList = some ip := by
  cases ip with
  | v4 os =>
    have hos : (⟨os.toList.toArray, by simp⟩ : Vector UInt8 4) = os :=
      Vector.toList_inj.mp (by simp)
    simp [ofChars?, render, octets?_showOctets os.length_toList, hos]
  | v6 gs =>
    have hgs : (⟨gs.toList.toArray, by simp⟩ : Vector UInt16 8) = gs :=
      Vector.toList_inj.mp (by simp)
    simp [ofChars?, render, octets?_of_colon (colon_mem_showV6 gs.length_toList),
      v6Groups?_showV6 gs.length_toList, hgs]

/-- The four octets of a host are its octets. -/
theorem octets_ofOctets4 (os : Vector UInt8 4) : (ofOctets4 os).octets = os.toList := rfl

/-- **The sixteen octets of a host are its octets**, two in a group. -/
theorem octets_ofOctets6 (os : Vector UInt8 16) : (ofOctets6 os).octets = os.toList := by
  have hport : ∀ hi lo : UInt8, Bytes.toPort hi lo % 65536 = Bytes.toPort hi lo := fun hi lo =>
    Nat.mod_eq_of_lt (Bytes.toPort_lt hi lo)
  have hos : os.toList = List.ofFn fun i : Fin 16 => os[i] := by
    rw [← Vector.toList_ofFn]
    exact congrArg Vector.toList (Vector.ext fun i hi => by simp)
  change groupOctets (Vector.ofFn fun i : Fin 8 =>
      UInt16.ofNat (Bytes.toPort os[2 * i.val] os[2 * i.val + 1])).toList = os.toList
  rw [hos, Vector.toList_ofFn, groupOctets]
  simp [hport, Bytes.ofPort_toPort]

/-- A version 6 host has sixteen octets. -/
theorem length_octets_v6 (groups : Vector UInt16 8) : (v6 groups).octets.length = 16 := by
  simp [octets, groupOctets, Bytes.ofPort, List.length_flatMap, List.map_const']

/-- **Octets spell one version 6 host.** -/
theorem ofOctets6_eq {os : Vector UInt8 16} {groups : Vector UInt16 8}
    (h : os.toList = (v6 groups).octets) : ofOctets6 os = v6 groups := by
  have ho : (ofOctets6 os).octets = (v6 groups).octets := (octets_ofOctets6 os).trans h
  refine congrArg v6 (Vector.toList_inj.mp ?_)
  simpa [octets, ofOctets6, octetGroups_groupOctets] using congrArg octetGroups ho

/-- The characters that a numeric host is written with. -/
theorem mem_render {ip : Ip} (h : c ∈ ip.render.toList) :
    c = ':' ∨ c = '.' ∨ (Text.hexValue? c).isSome = true := by
  have hoctets : ∀ {os : List UInt8}, c ∈ (showOctets os).toList →
      c = '.' ∨ (Text.hexValue? c).isSome = true := fun hc =>
    (mem_showOctets hc).imp_right fun hd => by rw [Text.hexValue?, if_pos hd]; rfl
  cases ip with
  | v4 os => exact .inr (hoctets h)
  | v6 gs =>
    obtain ⟨hi, lo, -, hs⟩ | ⟨front, back, count, -, -, hs⟩ | hs := showV6_cases gs.length_toList
    · simp only [render, hs, String.toList_append, List.mem_append] at h
      obtain h | h := h
      · have hffff : ("::ffff:".toList.all fun d => d == ':' || (Text.hexValue? d).isSome) = true :=
          by decide
        have hc : c = ':' ∨ (Text.hexValue? c).isSome = true := by
          simpa using List.all_eq_true.mp hffff c h
        exact hc.imp_right .inr
      · exact .inr (hoctets h)
    · simp only [render, hs, String.toList_append, List.mem_append] at h
      obtain (h | h) | h := h
      · exact (mem_showGroups h).imp_right .inr
      · exact .inl (by simpa using h)
      · exact (mem_showGroups h).imp_right .inr
    · rw [render, hs] at h
      exact (mem_showGroups h).imp_right .inr

/-- No colon stands in a version 4 host. -/
theorem colon_not_mem_render (os : Vector UInt8 4) : ':' ∉ (v4 os).render.toList := fun h =>
  (mem_showOctets h).elim (by decide) (by decide)

end HopTorrent.Ip
