import HopTorrent.Proofs.Http.Traffic

/-!
# Proofs/Http/Overtaken — which interleavings leave the rows of removed transfers

A request that shows transfers keeps them only in its second section.  If a removal does both of its
sections in between, the row comes back and nothing takes it away: the removal has overtaken the
look.  A row without a transfer has come back in this way, and its transfer was neither added nor
removed again since (`faithful_iff_covered_again`); there are such rows (`not_forall_faithful`).
-/

namespace HopTorrent

namespace Http

open Storage (Mirrors Shelf)

variable {σ : Type} {b : Backend σ} {c c' : Traffic σ} {i : Nat} {id : InfoHash} {shelf : Shelf}

/-! ## Rows without a transfer -/

/-- The row of a transfer is still to be removed by a request in flight. -/
def Flight.Removes (id : InfoHash) : Flight → Prop
  | .left (.forget id' _) => id' = id
  | .left (.clear _) => True
  | _ => False

namespace Traffic

/-- **Every row names a live transfer.** -/
def Faithful (c : Traffic σ) : Prop :=
  ∀ rows, c.service.database.contents.transfers = some rows → ∀ key row, rows.get? key = some row →
    ∃ id : InfoHash, key = id.toHex ∧ id ∈ c.service.live

/-- A request in flight removes the row of a transfer. -/
def Removing (c : Traffic σ) (id : InfoHash) : Prop := ∃ f ∈ c.flights, f.Removes id

/-- A transfer is live, or its row is still to be removed. -/
def Covered (c : Traffic σ) (id : InfoHash) : Prop := id ∈ c.service.live ∨ c.Removing id

/-- **The removal of a transfer has overtaken a request** that is done in a section: the request
keeps the transfer, which is no longer live, and the removal is over. -/
def Overtaken (c : Traffic σ) (a : Section σ) (id : InfoHash) : Prop :=
  ¬ c.Covered id ∧ ∃ i views r, a = .finish i ∧ c.flights[i]? = some (.left (.keep views r))
    ∧ ∃ view ∈ views, view.infoHash = id

/-- The rows are those of a shelf, and what is left to keep can be stored. -/
structure Sound (c : Traffic σ) (shelf : Shelf) : Prop where
  mirrors : Mirrors c.service.database shelf
  storable : ∀ rem, .left rem ∈ c.flights →
    ∀ view ∈ rem.views, Storage.storedProgress view.progress = some view.progress

/-- **A stray row**: its transfer is not live, and no request in flight removes it. -/
def Stray (c : Traffic σ) (shelf : Shelf) (id : InfoHash) : Prop := shelf id ≠ [] ∧ ¬ c.Covered id

/-- Where no request is in flight, the rows are faithful unless one is stray. -/
theorem Sound.faithful_iff (hs : c.Sound shelf) (hf : c.flights = []) :
    c.Faithful ↔ ∀ id, ¬ c.Stray shelf id := by
  obtain ⟨rows, hr, hrows, hkeys⟩ := hs.mirrors
  have hremoving (id : InfoHash) : ¬ c.Removing id := fun ⟨f, hm, _⟩ => nomatch hf ▸ hm
  constructor
  · rintro ha id ⟨hid, hc⟩
    obtain ⟨row, hrow⟩ := Option.ne_none_iff_exists'.mp
      (mt Storage.Row.ofViews_eq_none_iff.mp hid)
    obtain ⟨id', he, hl⟩ := ha rows hr id.toHex row ((hrows id).trans hrow)
    obtain rfl := InfoHash.toHex_injective he
    exact hc (.inl hl)
  · intro hn rows' hr' key row hk
    obtain rfl : rows = rows' := Option.some.inj (hr.symm.trans hr')
    obtain ⟨id, rfl⟩ := hkeys key row hk
    have hid : shelf id ≠ [] := by
      intro he
      rw [hrows, he] at hk
      cases hk
    have hc : c.Covered id := not_not.mp fun h => hn id ⟨hid, h⟩
    exact ⟨id, rfl, hc.resolve_right (hremoving id)⟩

/-- **What a section does to the rows**: stray are those that were, and the row of a transfer whose
removal has overtaken the section, as long as the transfer is not covered. -/
structure Leads (c : Traffic σ) (shelf : Shelf) (a : Section σ) (c' : Traffic σ)
    (shelf' : Shelf) : Prop where
  sound : c'.Sound shelf'
  stray_iff : ∀ id, c'.Stray shelf' id
    ↔ ¬ c'.Covered id ∧ (c.Stray shelf id ∨ c.Overtaken a id)

/-- Where a row is left as it is and its transfer stays covered. -/
theorem stray_iff_of_same {shelf' : Shelf} {a : Section σ} (hshelf : shelf' id = shelf id)
    (hcovered : c.Covered id → c'.Covered id) (ho : ¬ c.Overtaken a id) :
    c'.Stray shelf' id ↔ ¬ c'.Covered id ∧ (c.Stray shelf id ∨ c.Overtaken a id) := by
  rw [Stray, Stray, hshelf, or_iff_left ho]
  exact ⟨fun ⟨h, hc⟩ => ⟨hc, h, mt hcovered hc⟩, fun ⟨hc, h, _⟩ => ⟨h, hc⟩⟩

/-! ## Sections on the sessions -/

/-- **What a section on the sessions does to the rows**: nothing, and their transfers stay
covered. -/
structure Follows (c c' : Traffic σ) : Prop where
  rows : c'.service.database.contents.transfers = c.service.database.contents.transfers
  storable : ∀ rem, .left rem ∈ c'.flights → .left rem ∈ c.flights
    ∨ ∀ view ∈ rem.views, Storage.storedProgress view.progress = some view.progress
  covered : ∀ id, c.Covered id → c'.Covered id

theorem Follows.refl (c : Traffic σ) : Follows c c := ⟨rfl, fun _ => .inl, fun _ => id⟩

/-- Such a section leads from a shelf to the same shelf. -/
theorem Follows.leads (h : Follows c c') (hs : c.Sound shelf) {a : Section σ}
    (ha : ∀ i, a ≠ .finish i) : Leads c shelf a c' shelf where
  sound := ⟨hs.mirrors.of_transfers h.rows,
    fun rem hm => (h.storable rem hm).elim (hs.storable rem) id⟩
  stray_iff id := stray_iff_of_same rfl (h.covered id) fun ⟨_, i, _, _, he, _⟩ => ha i he

/-- A transfer that was live is live, or its row is left to be removed. -/
theorem live_or_removes {live live' : Set InfoHash} {rem : Remainder} (h : Acted live rem live')
    (hid : id ∈ live) : id ∈ live' ∨ (Flight.left rem).Removes id := by
  cases h with
  | answered | shown | readSettings | writeSettings => exact .inl hid
  | entered => exact .inl (.inr hid)
  | @removed id' r hi =>
    by_cases he : id = id'
    · exact .inr he.symm
    · exact .inl ⟨hid, he⟩
  | cleared => exact .inr trivial

/-- One more request is in flight. -/
theorem follows_append {s' : Service σ} {f : Flight}
    (hr : s'.database.contents.transfers = c.service.database.contents.transfers)
    (hv : ∀ rem, f = .left rem →
      ∀ view ∈ rem.views, Storage.storedProgress view.progress = some view.progress)
    (hl : ∀ id ∈ c.service.live, id ∈ s'.live ∨ f.Removes id) :
    Follows c ⟨s', c.flights ++ [f]⟩ := by
  refine ⟨hr, fun rem hm => ?_, ?_⟩
  · obtain hm | hm := List.mem_append.mp hm
    · exact .inl hm
    · exact .inr (hv rem (List.mem_singleton.mp hm).symm)
  · rintro id (hid | ⟨g, hg, hr⟩)
    · exact (hl id hid).imp_right fun h =>
        ⟨f, List.mem_append_right _ (List.mem_singleton_self f), h⟩
    · exact .inr ⟨g, List.mem_append_left _ hg, hr⟩

variable (b) in
/-- A request arrives. -/
theorem arrive_follows (c : Traffic σ) (e : Endpoint) (now : Int) :
    Follows c (c.step b (.arrive e now)) := by
  rw [step]
  obtain ⟨p, hp, hk⟩ | ⟨rem, hr, ha⟩ := Api.arrive_cases b now e c.service
  · rw [hp]
    refine follows_append hk.rows (fun rem he => ?_) fun id hl => .inl (hk.live.symm ▸ hl)
    cases he
  · rw [hr]
    refine follows_append ha.rows (fun rem' he => ?_) fun id hl => live_or_removes ha.acted hl
    cases he
    exact ha.acted.storable

variable (b) in
/-- The wait of an add ends. -/
theorem conclude_follows (c : Traffic σ) (i : Nat) (w : Session.Waited) (now : Int) :
    Follows c (c.step b (.conclude i w now)) := by
  rw [step]
  split
  · rename_i p hp
    have ha := Api.concludeAdd_acts b p w now c.service
    obtain ⟨hlt, -⟩ := List.getElem?_eq_some_iff.mp hp
    refine ⟨ha.rows, fun rem hm => ?_, ?_⟩
    · obtain hm | hm := List.mem_or_eq_of_mem_set hm
      · exact .inl hm
      · cases hm
        exact .inr ha.acted.storable
    · rintro id (hl | ⟨f, hf, hr⟩)
      · exact (live_or_removes ha.acted hl).imp_right fun hr => ⟨_, List.mem_set hlt _, hr⟩
      · obtain ⟨j, hj⟩ := List.mem_iff_getElem?.mp hf
        have hne : i ≠ j := by
          rintro rfl
          cases hp.symm.trans hj
          exact hr
        exact .inr ⟨f, List.mem_of_getElem? ((List.getElem?_set_ne hne).trans hj), hr⟩
  · exact .refl c

/-! ## Sections on the database -/

/-- A removal in flight stays so while another request is done. -/
theorem Removing.eraseIdx {f : Flight} (h : c.Removing id) (hi : c.flights[i]? = some f)
    (hf : ¬ f.Removes id) : ∃ g ∈ c.flights.eraseIdx i, g.Removes id := by
  obtain ⟨g, hg, hr⟩ := h
  obtain ⟨j, hj⟩ := List.mem_iff_getElem?.mp hg
  refine ⟨g, List.mem_eraseIdx_iff_getElem?.mpr ⟨j, fun he => hf ?_, hj⟩, hr⟩
  rw [he, hi] at hj
  cases hj
  exact hr

/-- A request that is done leaves the rows that were left to be done. -/
theorem Sound.finish (hs : c.Sound shelf) {rem : Remainder}
    (hi : c.flights[i]? = some (.left rem)) :
    (c.step b (.finish i)).Sound (rem.shelve shelf)
      ∧ (c.step b (.finish i)).service.live = c.service.live := by
  have hf := Api.finish_finished hs.mirrors (hs.storable rem (List.mem_of_getElem? hi))
  rw [step_finish hi]
  exact ⟨⟨hf.mirrors, fun rem' hm => hs.storable rem' (List.mem_of_mem_eraseIdx hm)⟩,
    congrArg Session.live hf.store⟩

/-- A request that is done covers the same transfers, but for those whose rows it removed. -/
theorem Sound.finish_covered_iff (hs : c.Sound shelf) {rem : Remainder}
    (hi : c.flights[i]? = some (.left rem)) (hr : ¬ (Flight.left rem).Removes id) :
    (c.step b (.finish i)).Covered id ↔ c.Covered id := by
  rw [Covered, Covered, (hs.finish (b := b) hi).2, Removing, step_finish hi]
  refine or_congr_right ⟨fun ⟨f, hf, h⟩ => ⟨f, List.mem_of_mem_eraseIdx hf, h⟩, fun h => ?_⟩
  exact h.eraseIdx hi hr

/-- A removal has overtaken a request exactly when the request shows a transfer that is not
covered. -/
theorem overtaken_finish_iff {rem : Remainder} (hi : c.flights[i]? = some (.left rem)) :
    c.Overtaken (.finish i) id
      ↔ ¬ c.Covered id ∧ (rem.views.filter fun view => view.infoHash = id) ≠ [] := by
  refine and_congr_right fun _ => ⟨?_, fun hv => ?_⟩
  · rintro ⟨j, views, r, hj, hi', view, hv, he⟩
    cases hj
    cases hi.symm.trans hi'
    exact List.ne_nil_of_mem (List.mem_filter.mpr ⟨hv, decide_eq_true he⟩)
  · obtain ⟨view, hv⟩ := List.exists_mem_of_ne_nil _ hv
    obtain ⟨hm, he⟩ := List.mem_filter.mp hv
    obtain ⟨views, r, rfl⟩ : ∃ views r, rem = .keep views r := by
      cases rem with
      | keep views r => exact ⟨views, r, rfl⟩
      | answer | forget | clear | readSettings | writeSettings => cases hm
    exact ⟨i, views, r, rfl, hi, view, hm, of_decide_eq_true he⟩

/-- A transfer whose row is removed was covered, and has no row after that. -/
theorem stray_iff_of_removes {rem : Remainder} {shelf' : Shelf}
    (hi : c.flights[i]? = some (.left rem)) (hr : (Flight.left rem).Removes id)
    (hshelf : shelf' id = []) :
    c'.Stray shelf' id
      ↔ ¬ c'.Covered id ∧ (c.Stray shelf id ∨ c.Overtaken (.finish i) id) := by
  have hc : c.Covered id := .inr ⟨_, List.mem_of_getElem? hi, hr⟩
  have hn : ¬ (c.Stray shelf id ∨ c.Overtaken (.finish i) id) :=
    fun h => h.elim (fun h => h.2 hc) fun h => h.1 hc
  exact iff_of_false (fun h => h.1 hshelf) fun h => hn h.2

/-- **A request that is done** leaves stray rows only where a removal has overtaken it. -/
theorem Sound.finish_leads (hs : c.Sound shelf) {rem : Remainder}
    (hi : c.flights[i]? = some (.left rem)) :
    Leads c shelf (.finish i) (c.step b (.finish i)) (rem.shelve shelf) := by
  refine ⟨(hs.finish hi).1, fun id => ?_⟩
  have hcovered (hr : ¬ (Flight.left rem).Removes id) :
      (c.step b (.finish i)).Covered id ↔ c.Covered id := hs.finish_covered_iff hi hr
  have hover : c.Overtaken (.finish i) id
      ↔ ¬ c.Covered id ∧ (rem.views.filter fun view => view.infoHash = id) ≠ [] :=
    overtaken_finish_iff hi
  cases rem with
  | answer r | readSettings | writeSettings =>
    exact stray_iff_of_same rfl (hcovered fun h => h).mpr fun h => (hover.mp h).2 rfl
  | clear count => exact stray_iff_of_removes hi trivial rfl
  | forget id' r =>
    by_cases he : id = id'
    · exact stray_iff_of_removes hi he.symm (he ▸ Function.update_self ..)
    · exact stray_iff_of_same (Function.update_of_ne he _ _) (hcovered (Ne.symm he)).mpr
        fun h => (hover.mp h).2 rfl
  | keep views r =>
    have hshelf : shelf.noting views id ≠ []
        ↔ shelf id ≠ [] ∨ (views.filter fun view => view.infoHash = id) ≠ [] := by
      rw [Shelf.noting, ne_eq, List.append_eq_nil_iff, not_and_or]
    rw [Stray, Stray, Remainder.shelve, hshelf, hover, hcovered fun h => h, Remainder.views]
    tauto

/-! ## Interleavings -/

/-- **Every section leads** from a shelf to a shelf. -/
theorem Sound.exists_leads (hs : c.Sound shelf) (b : Backend σ) (a : Section σ) :
    ∃ shelf', Leads c shelf a (c.step b a) shelf' := by
  cases a with
  | arrive e now => exact ⟨shelf, (arrive_follows b c e now).leads hs nofun⟩
  | conclude i w now => exact ⟨shelf, (conclude_follows b c i w now).leads hs nofun⟩
  | drift f =>
    have h : Follows c (c.step b (.drift f)) := ⟨rfl, fun _ => .inl, fun _ => id⟩
    exact ⟨shelf, h.leads hs nofun⟩
  | finish i =>
    -- a section that comes too early, or too late, does nothing
    have hidle (hf : ∀ rem, c.flights[i]? ≠ some (.left rem)) :
        Leads c shelf (.finish i) (c.step b (.finish i)) shelf := by
      rw [step_of_ne hf]
      refine ⟨hs, fun id => stray_iff_of_same rfl (fun h => h) ?_⟩
      rintro ⟨-, j, views, r, hj, hi, -⟩
      cases hj
      exact hf _ hi
    rcases hi : c.flights[i]? with _ | p | rem
    · exact ⟨shelf, hidle fun rem h => nomatch hi.symm.trans h⟩
    · exact ⟨shelf, hidle fun rem h => nomatch hi.symm.trans h⟩
    · exact ⟨_, hs.finish_leads hi⟩

/-- The removal of a transfer has overtaken a request in a run, and the transfer was not covered
since. -/
def Unrecovered (b : Backend σ) (c₀ : Traffic σ) (as : List (Section σ)) (id : InfoHash) : Prop :=
  ∃ bs a, bs ++ [a] <+: as ∧ (c₀.run b bs).Overtaken a id
    ∧ ∀ cs, bs <+: cs → cs <+: as → ¬ (c₀.run b cs).Covered id

theorem not_unrecovered_nil (c₀ : Traffic σ) : ¬ Unrecovered b c₀ [] id := fun ⟨bs, a, hp, _⟩ =>
  List.append_ne_nil_of_right_ne_nil bs (List.cons_ne_nil a []) (List.prefix_nil.mp hp)

/-- After one more section. -/
theorem unrecovered_snoc_iff (c₀ : Traffic σ) (as : List (Section σ)) (a : Section σ) :
    Unrecovered b c₀ (as ++ [a]) id
      ↔ ¬ (c₀.run b (as ++ [a])).Covered id
        ∧ (Unrecovered b c₀ as id ∨ (c₀.run b as).Overtaken a id) := by
  have hstep : as <+: as ++ [a] := List.prefix_append as [a]
  constructor
  · rintro ⟨bs, a', hp, ho, hn⟩
    refine ⟨hn _ ((List.prefix_append bs [a']).trans hp) List.prefix_rfl, ?_⟩
    obtain he | hp := List.prefix_concat_iff.mp hp
    · obtain ⟨hb, ha⟩ := List.append_inj' he rfl
      obtain rfl := (List.cons.inj ha).1
      exact .inr (hb ▸ ho)
    · exact .inl ⟨bs, a', hp, ho, fun cs hb hcs => hn cs hb (hcs.trans hstep)⟩
  · rintro ⟨hc, ⟨bs, a', hp, ho, hn⟩ | ho⟩
    · refine ⟨bs, a', hp.trans hstep, ho, fun cs hb hcs => ?_⟩
      obtain rfl | hcs := List.prefix_concat_iff.mp hcs
      · exact hc
      · exact hn cs hb hcs
    · refine ⟨as, a, List.prefix_rfl, ho, fun cs hb hcs => ?_⟩
      obtain rfl | hcs := List.prefix_concat_iff.mp hcs
      · exact hc
      · obtain rfl := hb.eq_of_length_le hcs.length_le
        exact ho.1

/-- **The stray rows of a run** are those of transfers that did not recover in it. -/
theorem exists_run_stray_iff (b : Backend σ) (engine : σ) (limiter : Limiter)
    (as : List (Section σ)) :
    ∃ shelf, ((initial engine limiter).run b as).Sound shelf
      ∧ ∀ id, ((initial engine limiter).run b as).Stray shelf id
        ↔ Unrecovered b (initial engine limiter) as id := by
  induction as using List.reverseRecOn with
  | nil =>
    refine ⟨fun _ => [], ⟨Storage.mirrors_empty, nofun⟩, fun id => ?_⟩
    exact iff_of_false (fun h => h.1 rfl) (not_unrecovered_nil _)
  | append_singleton as a ih =>
    obtain ⟨shelf, hs, hstray⟩ := ih
    obtain ⟨shelf', hl⟩ := hs.exists_leads b a
    rw [← run_snoc] at hl
    refine ⟨shelf', hl.sound, fun id => ?_⟩
    rw [hl.stray_iff, hstray, unrecovered_snoc_iff]

/-- **When every row names a live transfer**: where no request is in flight, exactly when each
transfer whose removal had overtaken a request was covered again since. -/
theorem faithful_iff_covered_again (b : Backend σ) (engine : σ) (limiter : Limiter)
    (as : List (Section σ)) (hf : ((initial engine limiter).run b as).flights = []) :
    ((initial engine limiter).run b as).Faithful
      ↔ ∀ bs a id, bs ++ [a] <+: as → ((initial engine limiter).run b bs).Overtaken a id →
        ∃ cs, bs <+: cs ∧ cs <+: as ∧ ((initial engine limiter).run b cs).Covered id := by
  obtain ⟨shelf, hs, hstray⟩ := exists_run_stray_iff b engine limiter as
  rw [hs.faithful_iff hf]
  constructor
  · intro hn bs a id hp ho
    by_contra hc
    exact hn id ((hstray id).mpr ⟨bs, a, hp, ho, fun cs hb hcs h => hc ⟨cs, hb, hcs, h⟩⟩)
  · intro hall id hid
    obtain ⟨bs, a, hp, ho, hn⟩ := (hstray id).mp hid
    obtain ⟨cs, hb, hcs, hc⟩ := hall bs a id hp ho
    exact hn cs hb hcs hc

/-! ## A row that outlives its transfer -/

/-- A section of a request to add, list, show or remove transfers. -/
def OnTransfers : Section σ → Prop
  | .arrive (.add _) _ | .arrive .list _ | .arrive (.get _) _ | .arrive (.delete _) _
  | .arrive .cleanup _ => True
  | .arrive _ _ => False
  | .conclude .. | .finish _ | .drift _ => True

/-- A transfer is added.  Then it is looked at, and its removal overtakes the look. -/
def overtakenLook : List (Section Registry) :=
  let id := "0101010101010101010101010101010101010101"
  [.arrive (.add id) 0, .conclude 0 .ready 0, .finish 0,
    .arrive (.get id) 1, .arrive (.delete id) 2, .finish 1, .finish 0]

/-- The state after that. -/
def afterLook : Traffic Registry :=
  (initial [] (.ofPolicy .standard)).run overRegistry overtakenLook

theorem flights_afterLook : afterLook.flights = [] := List.isEmpty_iff.mp (by decide +kernel)

/-- The row is there, and no transfer is live. -/
theorem not_faithful_afterLook : ¬ afterLook.Faithful := by
  intro hf
  have hrow : (afterLook.service.database.contents.transfers.any fun rows =>
      (rows.get? "0101010101010101010101010101010101010101").isSome) = true := by
    decide +kernel
  have hempty : afterLook.service.sessions.store.entries = [] :=
    List.isEmpty_iff.mp (by decide +kernel)
  obtain ⟨rows, hr, hk⟩ := (Option.any_eq_true _ _).mp hrow
  obtain ⟨row, hk⟩ := Option.isSome_iff_exists.mp hk
  obtain ⟨id, -, hl⟩ := hf rows hr _ row hk
  refine hl ?_
  rw [Table.get?, hempty, Table.find]

/-- **There are rows without a transfer** where no request is in flight. -/
theorem not_forall_faithful :
    ¬ ∀ (σ : Type) (b : Backend σ) (engine : σ) (limiter : Limiter) (as : List (Section σ)),
      (∀ a ∈ as, OnTransfers a) → ((initial engine limiter).run b as).flights = [] →
        ((initial engine limiter).run b as).Faithful := by
  intro h
  have hon : ∀ a ∈ overtakenLook, OnTransfers a := by
    simp [overtakenLook, OnTransfers]
  exact not_faithful_afterLook
    (h Registry overRegistry [] (.ofPolicy .standard) overtakenLook hon flights_afterLook)

/-- What it takes for the rows to be faithful then. -/
theorem faithful_iff_overtakenLook :
    afterLook.flights = [] ∧ (afterLook.Faithful
      ↔ ∀ bs a id, bs ++ [a] <+: overtakenLook →
        ((initial [] (.ofPolicy .standard)).run overRegistry bs).Overtaken a id →
          ∃ cs, bs <+: cs ∧ cs <+: overtakenLook
            ∧ ((initial [] (.ofPolicy .standard)).run overRegistry cs).Covered id) :=
  ⟨flights_afterLook,
    faithful_iff_covered_again overRegistry [] (.ofPolicy .standard) overtakenLook
      flights_afterLook⟩

end Traffic

end Http

end HopTorrent
