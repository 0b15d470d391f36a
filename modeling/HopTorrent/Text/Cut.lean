/-!
# Text/Cut — splitting a character sequence at a mark

Cutting at the first or the last occurrence of a mark gives back both sides without it; rejoining
them around the mark gives the sequence again.
-/

namespace HopTorrent.Text

/-- What stands before and after the first occurrence of `mark`. -/
def cutFirst (mark : Char) : List Char → Option (List Char × List Char)
  | [] => none
  | c :: cs =>
    if c = mark then some ([], cs)
    else (cutFirst mark cs).map fun (before, after) => (c :: before, after)

/-- What stands before and after the last occurrence of `mark`. -/
def cutLast (mark : Char) : List Char → Option (List Char × List Char)
  | [] => none
  | c :: cs =>
    match cutLast mark cs with
    | some (before, after) => some (c :: before, after)
    | none => if c = mark then some ([], cs) else none

/-- The pieces between the occurrences of `mark`, at least one. -/
def pieces (mark : Char) : List Char → List (List Char)
  | [] => [[]]
  | c :: cs =>
    if c = mark then [] :: pieces mark cs
    else match pieces mark cs with
      | [] => [[c]]
      | p :: ps => (c :: p) :: ps

/-! ## Cutting and rejoining -/

/-- There is no first cut exactly when the mark is missing. -/
theorem cutFirst_eq_none_iff {mark : Char} {cs : List Char} :
    cutFirst mark cs = none ↔ mark ∉ cs := by
  induction cs with
  | nil => simp [cutFirst]
  | cons c cs ih =>
    by_cases h : c = mark
    · simp [cutFirst, h]
    · have h' : ¬ mark = c := fun e => h e.symm
      simp [cutFirst, h, h', ih]

/-- **A first cut loses nothing but the mark**, and the mark does not stand before it. -/
theorem cutFirst_eq_some_iff {mark : Char} {cs before after : List Char} :
    cutFirst mark cs = some (before, after) ↔ cs = before ++ mark :: after ∧ mark ∉ before := by
  induction cs generalizing before with
  | nil => simp [cutFirst]
  | cons c cs ih =>
    cases before with
    | nil => by_cases h : c = mark <;> simp [cutFirst, h]
    | cons b bs =>
      by_cases h : c = mark
      · simp only [cutFirst, h, if_true]
        grind
      · simp only [cutFirst, h, if_false, Option.map_eq_some_iff, Prod.exists, Prod.mk.injEq]
        grind

/-- There is no last cut exactly when the mark is missing. -/
theorem cutLast_eq_none_iff {mark : Char} {cs : List Char} :
    cutLast mark cs = none ↔ mark ∉ cs := by
  induction cs with
  | nil => simp [cutLast]
  | cons c cs ih =>
    rw [cutLast]
    cases h : cutLast mark cs with
    | some cut => grind
    | none => by_cases hc : c = mark <;> grind

/-- **A last cut loses nothing but the mark**, and the mark does not stand after it. -/
theorem cutLast_eq_some_iff {mark : Char} {cs before after : List Char} :
    cutLast mark cs = some (before, after) ↔ cs = before ++ mark :: after ∧ mark ∉ after := by
  induction cs generalizing before after with
  | nil => simp [cutLast]
  | cons c cs ih =>
    have hnone : cutLast mark cs = none ↔ mark ∉ cs := cutLast_eq_none_iff
    rw [cutLast]
    cases h : cutLast mark cs with
    | some cut =>
      obtain ⟨u, v⟩ := cut
      have huv : cs = u ++ mark :: v ∧ mark ∉ v := ih.1 h
      cases before with
      | nil => grind
      | cons b bs =>
        have hbs : cutLast mark cs = some (bs, after) ↔ cs = bs ++ mark :: after ∧ mark ∉ after :=
          ih
        grind
    | none =>
      cases before with
      | nil => by_cases hc : c = mark <;> grind
      | cons b bs => by_cases hc : c = mark <;> grind

/-! ## Pieces and joining them -/

/-- What holds no mark is one piece. -/
theorem pieces_of_not_mem {mark : Char} {cs : List Char} (h : mark ∉ cs) :
    pieces mark cs = [cs] := by
  induction cs with
  | nil => rfl
  | cons c cs ih =>
    obtain ⟨hc, hcs⟩ := not_or.mp (mt List.mem_cons.mpr h)
    rw [pieces, if_neg (Ne.symm hc), ih hcs]

/-- What stands before the first mark is the first piece. -/
theorem pieces_append_cons {mark : Char} {piece : List Char} (h : mark ∉ piece)
    (cs : List Char) : pieces mark (piece ++ mark :: cs) = piece :: pieces mark cs := by
  induction piece with
  | nil => rw [List.nil_append, pieces, if_pos rfl]
  | cons c piece ih =>
    obtain ⟨hc, hp⟩ := not_or.mp (mt List.mem_cons.mpr h)
    rw [List.cons_append, pieces, if_neg (Ne.symm hc), ih hp]

/-- **Pieces are read back** from where they were joined around the mark. -/
theorem pieces_intercalate {mark : Char} {ps : List (List Char)} (hne : ps ≠ [])
    (h : ∀ piece ∈ ps, mark ∉ piece) : pieces mark ([mark].intercalate ps) = ps := by
  induction ps with
  | nil => exact absurd rfl hne
  | cons piece ps ih =>
    obtain ⟨hp, hps⟩ := List.forall_mem_cons.mp h
    cases ps with
    | nil => rw [List.intercalate_singleton, pieces_of_not_mem hp]
    | cons next ps =>
      rw [List.intercalate_cons_cons, List.append_assoc, List.singleton_append,
        pieces_append_cons hp, ih (List.cons_ne_nil next ps) hps]

/-- There is at least one piece. -/
theorem pieces_ne_nil (mark : Char) (cs : List Char) : pieces mark cs ≠ [] := by
  cases cs with
  | nil => nofun
  | cons c cs =>
    rw [pieces]
    split
    · nofun
    · split <;> nofun

/-- **A mark parts the pieces** in front of it from those behind it. -/
theorem pieces_append_mark (mark : Char) (cs rest : List Char) :
    pieces mark (cs ++ mark :: rest) = pieces mark cs ++ pieces mark rest := by
  induction cs with
  | nil => simp [pieces]
  | cons c cs ih =>
    rw [List.cons_append, pieces, pieces, ih]
    split
    · rfl
    · cases hps : pieces mark cs with
      | nil => exact absurd hps (pieces_ne_nil mark cs)
      | cons first ps => rfl

/-- No mark stands in a piece. -/
theorem not_mem_of_mem_pieces {mark : Char} {cs piece : List Char} (h : piece ∈ pieces mark cs) :
    mark ∉ piece := by
  induction cs generalizing piece with
  | nil => simp [List.mem_singleton.mp h]
  | cons c cs ih =>
    rw [pieces] at h
    split at h
    · obtain rfl | h := List.mem_cons.mp h
      · nofun
      · exact ih h
    rename_i hc
    cases hps : pieces mark cs with
    | nil => exact absurd hps (pieces_ne_nil mark cs)
    | cons first ps =>
      rw [hps] at h ih
      obtain rfl | h := List.mem_cons.mp h
      · exact fun hm => (List.mem_cons.mp hm).elim (Ne.symm hc) (ih List.mem_cons_self)
      · exact ih (List.mem_cons_of_mem first h)

/-- **Joined around the mark, the pieces are what was cut.** -/
theorem intercalate_pieces (mark : Char) (cs : List Char) :
    [mark].intercalate (pieces mark cs) = cs := by
  induction cs with
  | nil => rfl
  | cons c cs ih =>
    cases hps : pieces mark cs with
    | nil => exact absurd hps (pieces_ne_nil mark cs)
    | cons first ps =>
      rw [hps] at ih
      rw [pieces, hps]
      split
      · next hc => rw [List.intercalate_cons_cons, ih, hc]; rfl
      · cases ps with
        | nil => rw [List.intercalate_singleton] at ih ⊢; rw [ih]
        | cons next ps =>
          rw [List.intercalate_cons_cons] at ih ⊢
          rw [← ih]
          rfl

/-- **Cutting at a mark and joining around it undo each other.** -/
theorem pieces_eq_iff {mark : Char} {cs : List Char} {ps : List (List Char)} :
    pieces mark cs = ps
      ↔ ps ≠ [] ∧ (∀ piece ∈ ps, mark ∉ piece) ∧ [mark].intercalate ps = cs := by
  constructor
  · rintro rfl
    exact ⟨pieces_ne_nil mark cs, fun _ => not_mem_of_mem_pieces, intercalate_pieces mark cs⟩
  · rintro ⟨hne, hm, rfl⟩
    exact pieces_intercalate hne hm

/-- Only the marks stand in no piece. -/
theorem exists_mem_pieces {mark c : Char} {cs : List Char} (hc : c ∈ cs) (hm : c ≠ mark) :
    ∃ piece ∈ pieces mark cs, c ∈ piece := by
  induction cs with
  | nil => cases hc
  | cons d cs ih =>
    obtain rfl | hcs := List.mem_cons.mp hc
    · rw [pieces, if_neg hm]
      cases pieces mark cs with
      | nil => exact ⟨[c], List.mem_cons_self, List.mem_cons_self⟩
      | cons piece ps => exact ⟨c :: piece, List.mem_cons_self, List.mem_cons_self⟩
    · obtain ⟨piece, hp, hin⟩ := ih hcs
      rw [pieces]
      split
      · exact ⟨piece, List.mem_cons_of_mem _ hp, hin⟩
      cases hps : pieces mark cs with
      | nil => simp [hps] at hp
      | cons first ps =>
        obtain rfl | hp := List.mem_cons.mp (hps ▸ hp)
        · exact ⟨d :: piece, List.mem_cons_self, List.mem_cons_of_mem d hin⟩
        · exact ⟨piece, List.mem_cons_of_mem _ hp, hin⟩

/-- What stands in a joined text stands in one of its pieces, or is a mark. -/
theorem mem_intercalate {mark c : Char} {ps : List (List Char)} (h : c ∈ [mark].intercalate ps) :
    c = mark ∨ ∃ piece ∈ ps, c ∈ piece := by
  induction ps with
  | nil => simp at h
  | cons piece ps ih =>
    cases ps with
    | nil => exact .inr ⟨piece, List.mem_cons_self, by simpa using h⟩
    | cons next ps =>
      rw [List.intercalate_cons_cons, List.append_assoc] at h
      obtain h | h := List.mem_append.mp h
      · exact .inr ⟨piece, List.mem_cons_self, h⟩
      obtain h | h := List.mem_cons.mp h
      · exact .inl h
      · exact (ih h).imp_right fun ⟨p, hp, hc⟩ => ⟨p, List.mem_cons_of_mem _ hp, hc⟩

end HopTorrent.Text
