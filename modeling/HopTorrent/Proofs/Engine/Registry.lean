import HopTorrent.Proofs.Engine.History

/-!
# Proofs/Engine/Registry — an engine that shares its handles

A registry of torrents that knows which of them are managed.  A magnet of a managed torrent gives
the handle that torrent was first added with; a torrent that was discarded is managed no more, and
added again it gets an entry of its own.  This is all that `Engine.Shares` asks for.
-/

namespace HopTorrent

/-- Every torrent ever added, and whether it is still managed. -/
abbrev Registry := List (InfoHash × Bool)

namespace Registry

variable {s s' : Registry} {cs : List Call} {h : Handle}

/-- Gives the handle of a managed torrent, and manages any other. -/
def addMagnet (magnet : String) (s : Registry) : Except Error Handle × Registry :=
  match InfoHash.parse magnet with
  | .error e => (.error e, s)
  | .ok id =>
    match s.findIdx? fun t => t = (id, true) with
    | some h => (.ok h, s)
    | none => (.ok s.length, s ++ [(id, true)])

/-- The identifier of a torrent. -/
def hashOf (s : Registry) (h : Handle) : InfoHash :=
  (s[h]?.map Prod.fst).getD ⟨Vector.replicate 20 0⟩

/-- Discards a torrent, if there is one. -/
def drop (h : Handle) (s : Registry) : Except Error Unit × Registry :=
  match s[h]? with
  | some (id, _) => (.ok (), s.set h (id, false))
  | none => (.error (.engine "no torrent"), s)

/-- The engine. -/
def engine : Engine Registry where
  addMagnet := addMagnet
  torrent s h := ⟨s.hashOf h, "", 0, 0, 0, 0, 0⟩
  metadata _ _ := .after 0 (.ok ())
  downloadAll _ s := (.ok (), s)
  cancelPieces _ s := (.ok (), s)
  dropTorrent := drop

/-! ## What one call does -/

/-- **What an add does**: it gives the handle of a managed torrent, or a new entry. -/
theorem addMagnet_cases (m : String) (s : Registry) :
    (∃ e, addMagnet m s = (.error e, s))
      ∨ (∃ id h, addMagnet m s = (.ok h, s) ∧ s[h]? = some (id, true))
      ∨ ∃ id, addMagnet m s = (.ok s.length, s ++ [(id, true)]) ∧ (id, true) ∉ s := by
  rw [addMagnet]
  cases InfoHash.parse m with
  | error e => exact .inl ⟨e, rfl⟩
  | ok id =>
    right
    dsimp only
    cases hf : s.findIdx? fun t => t = (id, true) with
    | some h =>
      obtain ⟨hlt, hp, -⟩ := List.findIdx?_eq_some_iff_getElem.mp hf
      exact .inl ⟨id, h, rfl, by rw [List.getElem?_eq_getElem hlt]; simpa using hp⟩
    | none =>
      refine .inr ⟨id, rfl, fun hm => ?_⟩
      simpa using List.findIdx?_eq_none_iff.mp hf _ hm

/-- What an operation does to the entries: one may be managed no more. -/
theorem perform_cases (op : Operation) (h : Handle) (s : Registry) :
    (engine.perform op h s).2 = s ∧ (op = .dropTorrent → ∃ e, (engine.perform op h s).1 = .error e)
      ∨ op = .dropTorrent ∧ ∃ id b, s[h]? = some (id, b)
        ∧ engine.perform op h s = (.ok (), s.set h (id, false)) := by
  cases op with
  | downloadAll | cancelPieces => exact .inl ⟨rfl, nofun⟩
  | dropTorrent =>
    show (drop h s).2 = s ∧ (_ → ∃ e, (drop h s).1 = .error e) ∨ _ ∧ ∃ id b, _ ∧ drop h s = _
    rw [drop]
    cases hs : s[h]? with
    | none => exact .inl ⟨rfl, fun _ => ⟨_, rfl⟩⟩
    | some t => exact .inr ⟨rfl, t.1, t.2, rfl, rfl⟩

/-! ## What a history tells of the registry -/

/-- **The registry knows its history**: it has an entry for each handle it gave, the managed ones
are those that were not discarded, and no two of these have one identifier. -/
structure Knows (cs : List Call) (s : Registry) : Prop where
  given : ∀ h ∈ Call.given cs, h < s.length
  managed : ∀ h t, s[h]? = some t → (t.2 = false ↔ Call.Dropped h cs)
  dropped : ∀ h, Call.Dropped h cs → h < s.length
  unique : ∀ (h h' : Handle) id, s[h]? = some (id, true) → s[h']? = some (id, true) → h = h'

/-- A call that discards nothing and gives nothing new changes nothing that is known. -/
theorem Knows.call (hk : Knows cs s) {c : Call} (hg : ∀ h ∈ Call.given [c], h < s.length)
    (hd : ∀ h, c ≠ .perform .dropTorrent h (.ok ())) : Knows (cs ++ [c]) s := by
  have dropped : ∀ h, Call.Dropped h (cs ++ [c]) ↔ Call.Dropped h cs := fun h =>
    ⟨fun hm => (List.mem_append.mp hm).elim id fun hm => absurd (List.mem_singleton.mp hm).symm
      (hd h), List.mem_append_left _⟩
  refine ⟨fun h hm => ?_, fun h t ht => (hk.managed h t ht).trans (dropped h).symm,
    fun h hm => hk.dropped h ((dropped h).mp hm), hk.unique⟩
  rw [Call.given_append, List.mem_append] at hm
  exact hm.elim (hk.given h) (hg h)

/-- A new entry is known as one. -/
theorem Knows.new (hk : Knows cs s) (m : String) {id : InfoHash} (hid : (id, true) ∉ s) :
    Knows (cs ++ [.add m (.ok s.length)]) (s ++ [(id, true)]) := by
  have old : ∀ {h : Handle} {t : InfoHash × Bool}, (s ++ [(id, true)])[h]? = some t →
      s[h]? = some t ∨ h = s.length ∧ t = (id, true) := by
    intro h t ht
    rw [List.getElem?_append] at ht
    split at ht
    · exact .inl ht
    · rename_i hge
      rw [List.getElem?_singleton] at ht
      split at ht <;> cases ht
      rename_i hz
      exact .inr ⟨Nat.le_antisymm (Nat.sub_eq_zero_iff_le.mp hz) (Nat.le_of_not_lt hge), rfl⟩
  have dropped : ∀ h, Call.Dropped h (cs ++ [.add m (.ok s.length)]) ↔ Call.Dropped h cs := by
    simp
  refine ⟨fun h hm => ?_, fun h t ht => ?_, fun h hm => ?_, fun h h' j ht ht' => ?_⟩
  · rw [List.length_append]
    rw [Call.given_append, List.mem_append, Call.given_add_ok, List.mem_singleton] at hm
    exact hm.elim (fun hm => Nat.lt_add_right 1 (hk.given h hm)) fun hm => hm ▸ Nat.lt_succ_self _
  · rw [dropped]
    obtain ht | ⟨rfl, rfl⟩ := old ht
    · exact hk.managed h t ht
    · exact iff_of_false nofun fun hm => Nat.lt_irrefl _ (hk.dropped _ hm)
  · rw [List.length_append]
    exact Nat.lt_add_right 1 (hk.dropped h ((dropped h).mp hm))
  · obtain hs | ⟨rfl, he⟩ := old ht <;> obtain hs' | ⟨rfl, he'⟩ := old ht'
    · exact hk.unique h h' j hs hs'
    · exact absurd (he' ▸ List.mem_of_getElem? hs) hid
    · exact absurd (he ▸ List.mem_of_getElem? hs') hid
    · rfl

/-- A discarded entry is known as one. -/
theorem Knows.drop (hk : Knows cs s) {id : InfoHash} {b : Bool} (hs : s[h]? = some (id, b)) :
    Knows (cs ++ [.perform .dropTorrent h (.ok ())]) (s.set h (id, false)) := by
  obtain ⟨hlt, -⟩ := List.getElem?_eq_some_iff.mp hs
  have dropped : ∀ g, Call.Dropped g (cs ++ [.perform .dropTorrent h (.ok ())])
      ↔ g = h ∨ Call.Dropped g cs := by
    intro g
    simp [or_comm, eq_comm]
  refine ⟨fun g hg => ?_, fun g t ht => ?_, fun g hg => ?_, fun g g' j ht ht' => ?_⟩
  · rw [Call.given_append, Call.given_perform, List.append_nil] at hg
    rw [List.length_set]
    exact hk.given g hg
  · rw [dropped]
    by_cases hgh : g = h
    · subst hgh
      rw [List.getElem?_set_self hlt] at ht
      cases ht
      exact iff_of_true rfl (.inl rfl)
    · rw [List.getElem?_set_ne (Ne.symm hgh)] at ht
      rw [hk.managed g t ht]
      exact ⟨.inr, fun h => h.resolve_left hgh⟩
  · rw [List.length_set]
    obtain rfl | hg := (dropped g).mp hg
    · exact hlt
    · exact hk.dropped g hg
  · have still : ∀ {k : Handle}, (s.set h (id, false))[k]? = some (j, true) →
        s[k]? = some (j, true) := by
      intro k hk
      by_cases hkh : k = h
      · subst hkh
        rw [List.getElem?_set_self hlt] at hk
        cases hk
      · rwa [List.getElem?_set_ne (Ne.symm hkh)] at hk
    exact hk.unique g g' j (still ht) (still ht')

/-- **The registry always knows its history.** -/
theorem knows_of_ran (h₀ : engine.Ran [] cs s) : Knows cs s := by
  induction h₀ with
  | start => exact ⟨nofun, nofun, nofun, nofun⟩
  | @call _ t _ _ _ hc ih =>
    cases hc with
    | add m =>
      show Knows (_ ++ [.add m (addMagnet m t).1]) (addMagnet m t).2
      obtain ⟨e, he⟩ | ⟨id, h, he, hs⟩ | ⟨id, he, hid⟩ := addMagnet_cases m t <;> rw [he]
      · exact ih.call nofun nofun
      · refine ih.call (fun g hg => ?_) nofun
        obtain rfl := List.mem_singleton.mp hg
        exact (List.getElem?_eq_some_iff.mp hs).1
      · exact ih.new m hid
    | perform op h =>
      obtain ⟨hs, he⟩ | ⟨rfl, id, b, hs, he⟩ := perform_cases op h t
      · rw [hs]
        refine ih.call nofun fun g hg => ?_
        obtain ⟨rfl, -, hr⟩ := Call.perform.inj hg
        obtain ⟨e, he⟩ := he rfl
        rw [he] at hr
        cases hr
      · rw [he]
        exact ih.drop hs

/-- What the engine reports of an entry. -/
theorem hash_of_getElem? {t : InfoHash × Bool} (hs : s[h]? = some t) : engine.hash s h = t.1 := by
  show hashOf s h = t.1
  rw [hashOf, hs]
  rfl

/-- An entry that was not discarded is managed. -/
theorem Knows.getElem?_of_not_dropped (hk : Knows cs s) (hg : h ∈ Call.given cs)
    (hd : ¬ Call.Dropped h cs) : s[h]? = some (engine.hash s h, true) := by
  obtain ⟨⟨id, b⟩, ht⟩ : ∃ t, s[h]? = some t := ⟨_, List.getElem?_eq_getElem (hk.given h hg)⟩
  rw [hash_of_getElem? ht, ht]
  cases b with
  | true => rfl
  | false => exact absurd ((hk.managed h _ ht).mp rfl) hd

/-- **The registry shares its handles.** -/
theorem shares : engine.Shares [] where
  again cs s m h h' h₀ hr hg hd hh := by
    have hk := knows_of_ran h₀
    have hs := hk.getElem?_of_not_dropped hg hd
    obtain ⟨e, he⟩ | ⟨id, g, he, hg⟩ | ⟨id, he, hid⟩ := addMagnet_cases m s
    · exact absurd ((congrArg Prod.fst he).symm.trans hr) nofun
    · obtain rfl : g = h := Except.ok.inj ((congrArg Prod.fst he).symm.trans hr)
      have h₂ : (engine.addMagnet m s).2 = s := congrArg Prod.snd he
      rw [h₂, hash_of_getElem? hg] at hh
      rw [hh] at hs
      exact hk.unique _ _ id hg hs
    · obtain rfl : s.length = h := Except.ok.inj ((congrArg Prod.fst he).symm.trans hr)
      have h₂ : (engine.addMagnet m s).2 = s ++ [(id, true)] := congrArg Prod.snd he
      have hnew : (s ++ [(id, true)])[s.length]? = some (id, true) := by simp
      have hold : (s ++ [(id, true)])[h']? = some (engine.hash s h', true) := by
        rw [List.getElem?_append_left (hk.given _ ‹_›), hs]
      rw [h₂, hash_of_getElem? hnew, hash_of_getElem? hold] at hh
      dsimp only at hh
      rw [hh] at hs
      exact absurd (List.mem_of_getElem? hs) hid
  anew cs s m h h₀ hr hd := by
    have hk := knows_of_ran h₀
    obtain ⟨e, he⟩ | ⟨id, g, he, hg⟩ | ⟨id, he, hid⟩ := addMagnet_cases m s
    · exact absurd ((congrArg Prod.fst he).symm.trans hr) nofun
    · obtain rfl : g = h := Except.ok.inj ((congrArg Prod.fst he).symm.trans hr)
      exact absurd ((hk.managed g _ hg).mpr hd) nofun
    · obtain rfl : s.length = h := Except.ok.inj ((congrArg Prod.fst he).symm.trans hr)
      exact Nat.lt_irrefl _ (hk.dropped _ hd)

/-- **A handle keeps its identifier.** -/
theorem keepsHashes : engine.KeepsHashes [] := by
  intro cs s c s' h h₀ hc hg
  have hlt := (knows_of_ran h₀).given h hg
  cases hc with
  | add m =>
    show hashOf (addMagnet m s).2 h = hashOf s h
    obtain ⟨e, he⟩ | ⟨id, g, he, -⟩ | ⟨id, he, -⟩ := addMagnet_cases m s <;> rw [he]
    rw [hashOf, List.getElem?_append_left hlt, hashOf]
  | perform op g =>
    obtain ⟨hs, -⟩ | ⟨rfl, id, b, hs, he⟩ := perform_cases op g s
    · rw [hs]
    · rw [he]
      show hashOf (s.set g (id, false)) h = hashOf s h
      by_cases hgh : g = h
      · subst hgh
        rw [hashOf, hashOf, List.getElem?_set_self hlt, hs]
        rfl
      · rw [hashOf, hashOf, List.getElem?_set_ne hgh]

/-- The registry says of a torrent it does not have that the engine fails. -/
theorem knowing : engine.Knowing := by
  intro op h s d
  cases op with
  | downloadAll | cancelPieces => nofun
  | dropTorrent =>
    show (drop h s).1 ≠ _
    rw [drop]
    cases s[h]? <;> nofun

end Registry

end HopTorrent
