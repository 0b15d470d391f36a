import HopTorrent.Proofs.Stream.Carries
import HopTorrent.Stream.Relay

/-!
# Proofs/Stream/Relay — what passes between two joined connections

Each side is written the beginning of what the other offers, and all of it unless a side fails
(`relay_relays`).  No side fails as long as both take what they are written and neither breaks off.
Then a side is closed exactly when the other closed.
-/

namespace HopTorrent.Stream

variable {s source sink : Stream}

/-! ## The end of a stream -/

/-- **The peer closes its side**; it may wait for this side to be closed. -/
def Closes (s : Stream) (shut : Bool) : Prop :=
  [] ∈ s.feed ∨ s.ending = .eof ∨ s.ending = .afterShutdown ∧ shut = true

/-- **The peer breaks the connection off.** -/
def Breaks (s : Stream) : Prop := [] ∉ s.feed ∧ s.ending = .reset

/-- A peer that closes its side when this one is open closes it when this one is closed. -/
theorem Closes.mono {shut shut' : Bool} (h : s.Closes shut) (hs : shut = true → shut' = true) :
    s.Closes shut' :=
  h.imp_right (Or.imp_right (And.imp_right hs))

/-- Streams that offer the same and end in the same way close in the same way. -/
theorem closes_congr {s t : Stream} (hn : [] ∈ t.feed ↔ [] ∈ s.feed) (he : t.ending = s.ending)
    (shut : Bool) : t.Closes shut ↔ s.Closes shut := by
  rw [Closes, Closes, hn, he]

theorem breaks_congr {s t : Stream} (hn : [] ∈ t.feed ↔ [] ∈ s.feed) (he : t.ending = s.ending) :
    t.Breaks ↔ s.Breaks := by
  rw [Breaks, Breaks, hn, he]

/-- Everything is read that is offered, up to the end of the stream or an empty piece. -/
theorem drain_cases (s : Stream) : s.drain.1 = s.offered
    ∧ (s.drain.2.feed = [] ∧ [] ∉ s.feed
      ∨ (∃ rest, s.drain.2.feed = [] :: rest) ∧ [] ∈ s.feed) := by
  rw [drain, offered]
  generalize s.feed = pieces
  induction pieces with
  | nil => exact ⟨rfl, .inl ⟨rfl, List.not_mem_nil⟩⟩
  | cons piece pieces ih =>
    by_cases hp : piece = []
    · subst hp
      exact ⟨rfl, .inr ⟨⟨pieces, rfl⟩, List.mem_cons_self⟩⟩
    · simpa [offeredBy, hp, Ne.symm hp] using ih

/-- What is read over, and what is left. -/
theorem drain_eq (s : Stream) : s.drain = (s.offered, s.drain.2) :=
  Prod.ext (drain_cases s).1 rfl

/-- Nothing is offered any more. -/
theorem offered_drain (s : Stream) : s.drain.2.offered = [] := by
  rw [offered]
  obtain ⟨h, -⟩ | ⟨⟨rest, h⟩, -⟩ := (drain_cases s).2 <;> rw [h] <;> rfl

/-- Reading over takes no end away. -/
theorem nil_mem_drain_iff (s : Stream) : [] ∈ s.drain.2.feed ↔ [] ∈ s.feed := by
  obtain ⟨h, hn⟩ | ⟨⟨rest, h⟩, hn⟩ := (drain_cases s).2
  · exact iff_of_false (by simp [h]) hn
  · exact iff_of_true (by simp [h]) hn

/-- **What a stream comes to** that is read over. -/
theorem closing_drain (s : Stream) :
    (∃ closed, s.drain.2.closing = .ok closed ∧ (closed = true ↔ s.Closes s.shut) ∧ ¬ s.Breaks)
      ∨ s.drain.2.closing = .error .reset ∧ s.Breaks := by
  have hending : s.drain.2.ending = s.ending := rfl
  have hshut : s.drain.2.shut = s.shut := rfl
  rw [closing, hending, hshut]
  obtain ⟨h, hn⟩ | ⟨⟨rest, h⟩, hn⟩ := (drain_cases s).2
  · rw [h, if_pos (show ([] : List Bytes).isEmpty = true from rfl), Closes, Breaks]
    cases he : s.ending with
    | reset => exact .inr ⟨rfl, hn, rfl⟩
    | eof => exact .inl ⟨true, rfl, by simp, by simp⟩
    | hang => exact .inl ⟨false, rfl, by simp [hn], by simp⟩
    | afterShutdown => exact .inl ⟨s.shut, rfl, by simp [hn], by simp⟩
  · rw [h]
    exact .inl ⟨true, rfl, iff_of_true rfl (.inl hn), fun hb => hb.1 hn⟩

/-! ## One direction -/

/-- **What came of passing on what one side offers.** -/
structure Pours (source sink : Stream) (p : Poured) : Prop where
  fault_iff : p.fault = none ↔ sink.Takes source.offered.length ∧ ¬ source.Breaks
  source_eq : p.source = source.drain.2
  wrote : ∃ part, part <+: source.offered ∧ p.sink.wrote = sink.wrote ++ part
    ∧ (p.fault = none → part = source.offered)
  shut_iff : p.fault = none →
    (p.sink.shut = true ↔ sink.shut = true ∨ source.Closes source.shut)
  feed : p.sink.feed = sink.feed
  ending : p.sink.ending = sink.ending
  takes : p.fault = none → ∀ m, p.sink.Takes m ↔ sink.Takes (source.offered.length + m)

/-- What a write does not change. -/
theorem send_snd_unchanged (s : Stream) (bs : Bytes) :
    (s.send bs).2.feed = s.feed ∧ (s.send bs).2.ending = s.ending
      ∧ (s.send bs).2.shut = s.shut := by
  rw [send]
  split
  · exact ⟨rfl, rfl, rfl⟩
  · split <;> exact ⟨rfl, rfl, rfl⟩

/-- **Bytes are passed on in order.** -/
theorem pour_pours (source sink : Stream) : Pours source sink (pour source sink) := by
  obtain ⟨hfeed, hending, hshut⟩ := sink.send_snd_unchanged source.offered
  rw [pour, drain_eq source]
  dsimp only
  by_cases ht : sink.Takes source.offered.length
  · obtain ⟨t, hs, hw, -, htakes, -⟩ := send_of_takes ht
    rw [hs] at hfeed hending hshut ⊢
    obtain ⟨closed, hc, hiff, hb⟩ | ⟨hc, hb⟩ := closing_drain source
    · have hfault : (none : Option Fault) = none
          ↔ sink.Takes source.offered.length ∧ ¬ source.Breaks := iff_of_true rfl ⟨ht, hb⟩
      have hwrote : ∃ part, part <+: source.offered ∧ t.wrote = sink.wrote ++ part
          ∧ ((none : Option Fault) = none → part = source.offered) :=
        ⟨_, List.prefix_rfl, hw, fun _ => rfl⟩
      cases closed with
      | true =>
        simp only [hc]
        exact ⟨hfault, rfl, hwrote, fun _ => iff_of_true rfl (.inr (hiff.mp rfl)), hfeed, hending,
          fun _ => htakes⟩
      | false =>
        simp only [hc]
        have hopen : ¬ source.Closes source.shut := fun h => nomatch hiff.mpr h
        exact ⟨hfault, rfl, hwrote, fun _ => by rw [hshut, or_iff_left hopen], hfeed, hending,
          fun _ => htakes⟩
    · simp only [hc]
      exact ⟨iff_of_false (by simp) fun h => h.2 hb, rfl,
        ⟨_, List.prefix_rfl, hw, fun _ => rfl⟩, nofun, hfeed, hending, nofun⟩
  · obtain ⟨f, t, part, hs, hp, hw, -⟩ := send_of_not_takes ht
    rw [hs] at hfeed hending hshut ⊢
    exact ⟨iff_of_false (by simp) fun h => ht h.1, rfl, ⟨part, hp, hw, nofun⟩, nofun, hfeed,
      hending, nofun⟩

/-- **A second look** at a side that was read over passes on nothing but that it closed. -/
theorem pour_again (ho : source.offered = []) (hb : ¬ source.Breaks) (sink : Stream) :
    (pour source sink).fault = none ∧ (pour source sink).sink.wrote = sink.wrote
      ∧ (pour source sink).source = source.drain.2
      ∧ ((pour source sink).sink.shut = true ↔ sink.shut = true ∨ source.Closes source.shut) := by
  obtain ⟨hfault, hsource, ⟨part, hp, hw, -⟩, hshut, -⟩ := pour_pours source sink
  rw [ho, List.prefix_nil] at hp
  rw [hp, List.append_nil] at hw
  have hnone := hfault.mpr ⟨by rw [ho]; exact fun k _ => Nat.zero_le k, hb⟩
  exact ⟨hnone, hw, hsource, hshut hnone⟩

/-! ## Both directions -/

variable {a b : Stream}

/-- **What came of joining two connections.** -/
structure Relays (a b : Stream) (p : Poured) : Prop where
  /-- No side fails exactly when both take what they are written and neither breaks off. -/
  fault_iff : p.fault = none
    ↔ a.Takes b.offered.length ∧ b.Takes a.offered.length ∧ ¬ a.Breaks ∧ ¬ b.Breaks
  /-- Each side is written the beginning of what the other offered, and all of it if no side
  failed. -/
  wrote : ∃ there back, there <+: a.offered ∧ back <+: b.offered
    ∧ p.sink.wrote = b.wrote ++ there ∧ p.source.wrote = a.wrote ++ back
    ∧ (p.fault = none → there = a.offered ∧ back = b.offered)
  /-- Each side is closed when the other closed, which may have waited for that. -/
  shut_iff : p.fault = none →
    (p.sink.shut = true ↔ b.shut = true ∨ a.Closes p.source.shut)
      ∧ (p.source.shut = true ↔ a.shut = true ∨ b.Closes p.sink.shut)

/-- **When the second look at the first side is over**, each side is closed as the other closed. -/
theorem shut_iff_of_looks {shutA shutB shutA' shutB' shutB'' : Bool}
    (hthere : shutB' = true ↔ shutB = true ∨ a.Closes shutA)
    (hback : shutA' = true ↔ shutA = true ∨ b.Closes shutB')
    (hagain : shutB'' = true ↔ shutB' = true ∨ a.Closes shutA') :
    (shutB'' = true ↔ shutB = true ∨ a.Closes shutA')
      ∧ (shutA' = true ↔ shutA = true ∨ b.Closes shutB'') := by
  have hmono : shutA = true → shutA' = true := fun h => hback.mpr (.inl h)
  constructor
  · rw [hagain, hthere, or_assoc]
    exact or_congr_right (or_iff_right_of_imp fun h => h.mono hmono)
  · constructor
    · exact fun h => (hback.mp h).imp_right fun h => h.mono fun hb => hagain.mpr (.inl hb)
    · rintro (h | h)
      · exact hmono h
      · obtain hA | hA := Bool.eq_false_or_eq_true shutA'
        · exact hA
        -- the first side is still open, so the second look at it gave nothing new
        have hsame : shutA' = shutA := by
          rw [hA, eq_comm, Bool.eq_false_iff]
          exact fun h => Bool.false_ne_true (hA.symm.trans (hmono h))
        refine hback.mpr (.inr (h.mono fun hb => (hagain.mp hb).elim id fun hc => ?_))
        exact hthere.mpr (.inr (hsame ▸ hc))

variable {p q : Poured}

/-- **There and back**: what was passed on when the second side was looked at, too. -/
theorem Pours.back (hp : Pours a b p) (hq : Pours p.sink p.source q) (h : p.fault = none) :
    (q.fault = none
        ↔ a.Takes b.offered.length ∧ b.Takes a.offered.length ∧ ¬ a.Breaks ∧ ¬ b.Breaks)
      ∧ ∃ there back, there <+: a.offered ∧ back <+: b.offered
        ∧ p.sink.wrote = b.wrote ++ there ∧ q.sink.wrote = a.wrote ++ back
        ∧ (q.fault = none → there = a.offered ∧ back = b.offered) := by
  have hoffered : p.sink.offered = b.offered := congrArg offeredBy hp.feed
  have hbreaks : p.sink.Breaks ↔ b.Breaks := breaks_congr (by rw [hp.feed]) hp.ending
  obtain ⟨htakes, hnot⟩ := hp.fault_iff.mp h
  obtain ⟨there, hthere, hw, hall⟩ := hp.wrote
  obtain ⟨back, hback, hw', hall'⟩ := hq.wrote
  have hfault := hq.fault_iff
  rw [hoffered, hbreaks, hp.source_eq] at hfault
  rw [hoffered] at hback hall'
  rw [hp.source_eq] at hw'
  exact ⟨hfault.trans ⟨fun h => ⟨h.1, htakes, hnot, h.2⟩, fun h => ⟨h.1, h.2.2.2⟩⟩,
    there, back, hthere, hback, hw, hw', fun h' => ⟨hall h, hall' h'⟩⟩

/-- **The second look at the first side** passes on nothing, and closes what there is to close. -/
theorem Pours.again (hp : Pours a b p) (hq : Pours p.sink p.source q) (h : p.fault = none)
    (h' : q.fault = none) : (pour q.sink q.source).fault = none
      ∧ (pour q.sink q.source).sink.wrote = p.sink.wrote
      ∧ (pour q.sink q.source).source.wrote = q.sink.wrote
      ∧ ((pour q.sink q.source).sink.shut = true
        ↔ b.shut = true ∨ a.Closes (pour q.sink q.source).source.shut)
      ∧ ((pour q.sink q.source).source.shut = true
        ↔ a.shut = true ∨ b.Closes (pour q.sink q.source).sink.shut) := by
  have hfeed : q.sink.feed = a.drain.2.feed := by rw [hq.feed, hp.source_eq]
  have hending : q.sink.ending = a.ending := by rw [hq.ending, hp.source_eq]; rfl
  have hnil : [] ∈ q.sink.feed ↔ [] ∈ a.feed := by rw [hfeed, nil_mem_drain_iff]
  have hoffered : q.sink.offered = [] := (congrArg offeredBy hfeed).trans (offered_drain a)
  have hbreaks : ¬ q.sink.Breaks := by
    rw [breaks_congr hnil hending]
    exact (hp.fault_iff.mp h).2
  obtain ⟨hnone, hw, hsource, hagain⟩ := pour_again hoffered hbreaks q.source
  have hback := hq.shut_iff h'
  rw [closes_congr (by rw [hp.feed]) hp.ending, hp.source_eq] at hback
  rw [closes_congr hnil hending, hq.source_eq] at hagain
  rw [hsource]
  refine ⟨hnone, hw.trans (by rw [hq.source_eq]; rfl), rfl, ?_⟩
  rw [hq.source_eq]
  exact shut_iff_of_looks (hp.shut_iff h) hback hagain

/-- **Joined connections lose nothing and add nothing.** -/
theorem relay_relays (a b : Stream) : Relays a b (relay a b) := by
  have hp := pour_pours a b
  have hq := pour_pours (pour a b).sink (pour a b).source
  rw [relay]
  dsimp only
  generalize pour a b = p at hp hq ⊢
  cases h : p.fault with
  | some f =>
    obtain ⟨there, hthere, hw, -⟩ := hp.wrote
    have hnot : p.fault ≠ none := by simp [h]
    rw [Option.isSome_some, if_pos rfl]
    refine ⟨iff_of_false hnot fun hall => hnot (hp.fault_iff.mpr ⟨hall.2.1, hall.2.2.1⟩),
      ⟨there, [], hthere, List.nil_prefix, hw, ?_, fun h => absurd h hnot⟩,
      fun h => absurd h hnot⟩
    rw [hp.source_eq, List.append_nil]
    rfl
  | none =>
    obtain ⟨hfault, hwrote⟩ := hp.back hq h
    generalize pour p.sink p.source = q at hq hfault hwrote ⊢
    rw [Option.isSome_none, if_neg Bool.false_ne_true]
    cases h' : q.fault with
    | some f =>
      rw [h'] at hfault hwrote
      rw [Option.isSome_some, if_pos rfl]
      obtain ⟨there, back, hthere, hback, hw, hw', -⟩ := hwrote
      refine ⟨hfault, ⟨there, back, hthere, hback, ?_, hw', nofun⟩, nofun⟩
      rw [hq.source_eq]
      exact hw
    | none =>
      obtain ⟨hnone, hw, hw', hshut⟩ := hp.again hq h h'
      rw [h'] at hfault hwrote
      rw [Option.isSome_none, if_neg Bool.false_ne_true]
      refine ⟨by rw [hnone]; exact hfault, ?_, fun _ => hshut⟩
      rw [hnone, hw, hw']
      exact hwrote

end HopTorrent.Stream
