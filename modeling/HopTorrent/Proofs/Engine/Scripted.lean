import HopTorrent.Engine.Scripted
import HopTorrent.Proofs.Engine.History

/-!
# Proofs/Engine/Scripted — what the scripted engine promises

The scripted engine numbers its torrents in the order it makes them and never forgets one, so a
handle keeps its identifier; and unless a reply lets an old torrent serve again, every add gets a
new one.
-/

namespace HopTorrent.Scripted

variable {s s' s₀ : Scripted} {cs : List Call}

/-- No reply lets an old torrent serve again. -/
def NoReuse (s : Scripted) : Prop :=
  ∀ r ∈ s.queue, match r with
    | .give _ reuse _ => reuse = false
    | .fail _ => True

/-- An operation changes nothing. -/
theorem perform_snd (op : Operation) (h : Handle) (s : Scripted) :
    (engine.perform op h s).2 = s := by
  cases op <;> rfl

/-- **What an add does**: it takes a reply, and either makes no torrent and gives none but an old
one, or makes the next one and gives that. -/
theorem addMagnet_cases (m : String) (s : Scripted) :
    (addMagnet m s).2.queue = s.queue.tail
      ∧ (((addMagnet m s).2.torrents = s.torrents
          ∧ ∀ h, (addMagnet m s).1 = .ok h → h < s.torrents.length ∧ ¬ NoReuse s)
        ∨ ∃ t, (addMagnet m s).2.torrents = s.torrents ++ [t]
          ∧ (addMagnet m s).1 = .ok s.torrents.length) := by
  rw [addMagnet]
  rcases hq : s.queue with _ | ⟨_ | ⟨hash, reuse, script⟩, queue⟩
  · exact ⟨hq, .inl ⟨rfl, nofun⟩⟩
  · exact ⟨rfl, .inl ⟨rfl, nofun⟩⟩
  · dsimp only
    cases InfoHash.parse (hash.getD (magnetHash m)) with
    | error e => exact ⟨rfl, .inl ⟨rfl, nofun⟩⟩
    | ok id =>
      dsimp only
      rw [give]
      cases hf : (if reuse then firstOf { s with queue } id else none) with
      | none => exact ⟨rfl, .inr ⟨_, rfl, rfl⟩⟩
      | some g =>
        refine ⟨rfl, .inl ⟨rfl, fun h hg => ?_⟩⟩
        obtain rfl : g = h := Except.ok.inj hg
        cases reuse with
        | false => cases hf
        | true =>
          refine ⟨(List.findIdx?_eq_some_iff_findIdx_eq.mp hf).1, fun hn => ?_⟩
          have := hn _ (hq ▸ List.mem_cons_self)
          cases this

/-- The handles given so far are those of torrents. -/
theorem lt_length_of_mem_given (h₀ : engine.Ran s₀ cs s) :
    ∀ h ∈ Call.given cs, h < s.torrents.length := by
  induction h₀ with
  | start => nofun
  | @call _ t _ _ _ hc ih =>
    intro h hg
    rw [Call.given_append, List.mem_append] at hg
    cases hc with
    | perform op g =>
      rw [perform_snd]
      exact hg.elim (ih h) nofun
    | add m =>
      obtain ⟨-, ⟨ht, hold⟩ | ⟨u, ht, hnew⟩⟩ := addMagnet_cases m t
      · show h < (addMagnet m t).2.torrents.length
        rw [ht]
        refine hg.elim (ih h) fun hg => ?_
        cases hr : (addMagnet m t).1 with
        | error e => simp [Call.given, Call.handle?, engine, hr] at hg
        | ok g =>
          have : h = g := by simpa [Call.given, Call.handle?, engine, hr] using hg
          exact this ▸ (hold g hr).1
      · show h < (addMagnet m t).2.torrents.length
        rw [ht, List.length_append]
        refine hg.elim (fun hg => Nat.lt_add_right 1 (ih h hg)) fun hg => ?_
        have : h = t.torrents.length := by
          simpa [Call.given, Call.handle?, engine, hnew] using hg
        exact this ▸ Nat.lt_succ_self _

/-- What follows in a queue without reuse has none. -/
theorem NoReuse.tail (hn : NoReuse s) (hq : s'.queue = s.queue.tail) : NoReuse s' :=
  fun r hr => hn r (List.mem_of_mem_tail (hq ▸ hr))

/-- Whatever is asked, no reply lets an old torrent serve again if none did at first. -/
theorem NoReuse.ran (hn : NoReuse s₀) (h₀ : engine.Ran s₀ cs s) : NoReuse s := by
  induction h₀ with
  | start => exact hn
  | call _ hc ih =>
    cases hc with
    | perform op g => rwa [perform_snd]
    | add m => exact ih.tail (addMagnet_cases m _).1

/-- **Without reuse every add gets a new handle.** -/
theorem givesNew (hn : NoReuse s₀) : engine.GivesNew s₀ := by
  intro cs s m h h₀ hr hg
  obtain ⟨-, ⟨-, hold⟩ | ⟨-, -, hnew⟩⟩ := addMagnet_cases m s
  · exact (hold h hr).2 (hn.ran h₀)
  · obtain rfl : s.torrents.length = h := Except.ok.inj (hnew.symm.trans hr)
    exact absurd (lt_length_of_mem_given h₀ _ hg) (Nat.lt_irrefl _)

/-- **A handle keeps its identifier.** -/
theorem keepsHashes (s₀ : Scripted) : engine.KeepsHashes s₀ := by
  intro cs s c s' h h₀ hc hg
  have hlt := lt_length_of_mem_given h₀ h hg
  cases hc with
  | perform op g => rw [perform_snd]
  | add m =>
    obtain ⟨-, ⟨ht, -⟩ | ⟨u, ht, -⟩⟩ := addMagnet_cases m s
    · show ((addMagnet m s).2.script h).1 = (s.script h).1
      rw [script, script, ht]
    · show ((addMagnet m s).2.script h).1 = (s.script h).1
      rw [script, script, ht, List.getElem?_append_left hlt]

end HopTorrent.Scripted
