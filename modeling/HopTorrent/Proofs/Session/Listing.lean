import HopTorrent.Proofs.InfoHash
import HopTorrent.Proofs.Session.Book

/-!
# Proofs/Session/Listing — listing the transfers is getting each of them

A look at a session is no mere reading: it samples the counters, and the rates and the status that
are shown follow from what was sampled before.  A second look at the same instant samples nothing,
so it does not matter whether a session was got or listed, nor how often (`sampled_sampled`).  Hence
a listing shows what getting every session would have shown in its place, and leaves of every
session what getting it would have left (`list_agrees`).  Sessions may be met in any order; only the
order among equally old ones hangs on it.
-/

namespace HopTorrent

/-! ## Two looks at one instant -/

/-- A look at the instant of the last sample changes nothing. -/
theorem Rates.Sample.update_of_taken {s : Rates.Sample} {now : Int} (h : s.taken = some now)
    (read written : Nat) : s.update read written now = s := by
  have hsoon : (now - now).toNat / 1000000 < Rates.minSampleMillis := by
    rw [Int.sub_self]
    decide
  rw [update, h]
  exact if_pos hsoon

/-- A look samples the counters at its instant, or leaves the sample as it was. -/
theorem Rates.Sample.taken_update (s : Rates.Sample) (read written : Nat) (now : Int) :
    (s.update read written now).taken = some now ∨ s.update read written now = s := by
  rw [update]
  split
  · exact .inl rfl
  · dsimp only
    split
    · exact .inr rfl
    · exact .inl rfl

/-- **A second look at the same instant changes nothing.** -/
theorem Rates.Sample.update_update (s : Rates.Sample) (read written : Nat) (now : Int) :
    (s.update read written now).update read written now = s.update read written now := by
  obtain ht | hs := s.taken_update read written now
  · exact update_of_taken ht read written
  · rw [hs, hs]

namespace Session

variable {σ : Type} {eng : Engine σ} {e : σ} {now : Int} {s s' : Sessions σ} {id : InfoHash}
  {session : Session} {views : List Snapshot} {met : List (InfoHash × Session)}

theorem sampled_sampled (session : Session) (t : Torrent) (now : Int) :
    (session.sampled t now).sampled t now = session.sampled t now := by
  simp only [sampled, Rates.Sample.update_update]

/-- A session after a look at it. -/
def looked (eng : Engine σ) (e : σ) (now : Int) (session : Session) : Session :=
  session.sampled (eng.torrent e session.handle) now

/-- What a look at a session shows. -/
def snapshot (eng : Engine σ) (e : σ) (now : Int) (id : InfoHash) (session : Session) : Snapshot :=
  (session.looked eng e now).view (eng.torrent e session.handle) id

theorem looked_looked (session : Session) :
    (session.looked eng e now).looked eng e now = session.looked eng e now :=
  sampled_sampled session _ now

/-- Once looked at, a session shows the same at that instant. -/
theorem snapshot_looked (id : InfoHash) (session : Session) :
    snapshot eng e now id (session.looked eng e now) = snapshot eng e now id session := by
  rw [snapshot, looked_looked]
  rfl

/-- Getting a transfer shows its session, if there is one. -/
theorem get?_fst (id : InfoHash) (now : Int) (s : Sessions σ) :
    ((get? eng id now).run s).1
      = ((s.store.get? id).map (snapshot eng s.engine now id)).elim (.error (notFound id)) .ok := by
  obtain ⟨hn, he⟩ | ⟨session, hs, he⟩ := get?_cases eng id now s
  · rw [he, hn]
    rfl
  · rw [he, hs]
    rfl

/-- Getting a transfer leaves its session looked at. -/
theorem get?_snd (id : InfoHash) (now : Int) (s : Sessions σ) :
    ((get? eng id now).run s).2.store.get? id
      = (s.store.get? id).map (looked eng s.engine now) := by
  obtain ⟨hn, he⟩ | ⟨session, hs, he⟩ := get?_cases eng id now s
  · rw [he, hn]
    rfl
  · rw [he, Table.get?_put, if_pos rfl, hs]
    rfl

/-- A listing leaves every session looked at. -/
theorem list_snd (now : Int) (s : Sessions σ) (id : InfoHash) :
    ((list eng now).run s).2.store.get? id = (s.store.get? id).map (looked eng s.engine now) :=
  Table.get?_mapValues (fun _ => looked eng s.engine now) s.store id

/-! ## What is listed -/

/-- **What a listing shows** if the sessions are met in an order: the newer ones first, and of
equally old ones the one that was met before. -/
def listing (eng : Engine σ) (e : σ) (now : Int) (met : List (InfoHash × Session)) :
    List Snapshot :=
  (met.map fun entry => snapshot eng e now entry.1 entry.2).mergeSort
    fun a b => b.createdAt ≤ a.createdAt

/-- **Snapshots list the transfers** as getting each of them would show it. -/
structure Lists (eng : Engine σ) (s : Sessions σ) (now : Int) (views : List Snapshot) : Prop where
  /-- Every session is shown, once, and nothing else. -/
  once : (views.map Snapshot.infoHash).Perm s.store.keys
  /-- It is shown in every field as getting it would show it. -/
  shown : ∀ view ∈ views, ((get? eng view.infoHash now).run s).1 = .ok view
  /-- No session stands behind an older one. -/
  newestFirst : views.Pairwise fun a b => b.createdAt ≤ a.createdAt

/-- The snapshots of all sessions, in a fitting order, list them. -/
theorem lists_of_perm
    (hp : views.Perm (s.store.entries.map fun entry => snapshot eng s.engine now entry.1 entry.2))
    (ho : views.Pairwise fun a b => b.createdAt ≤ a.createdAt) : Lists eng s now views := by
  refine ⟨?_, fun view hv => ?_, ho⟩
  · have hids := hp.map Snapshot.infoHash
    rwa [List.map_map] at hids
  · obtain ⟨⟨id, session⟩, hm, rfl⟩ := List.mem_map.mp (hp.mem_iff.mp hv)
    have hs : s.store.get? id = some session := (s.store.mem_entries_iff id session).mp hm
    show ((get? eng id now).run s).1 = _
    rw [get?_fst, hs]
    rfl

/-- **In whatever order the sessions are met, they are listed.** -/
theorem listing_lists (now : Int) (hm : met.Perm s.store.entries) :
    Lists eng s now (listing eng s.engine now met) := by
  refine lists_of_perm ((List.mergeSort_perm _ _).trans (hm.map _)) ?_
  refine (List.pairwise_mergeSort ?_ ?_ _).imp of_decide_eq_true
  · intro a b c hab hbc
    rw [decide_eq_true_iff] at *
    exact Int.le_trans hbc hab
  · intro a b
    rw [Bool.or_eq_true, decide_eq_true_iff, decide_eq_true_iff]
    exact Int.le_total b.createdAt a.createdAt

/-! ## The order of a listing -/

theorem listedBefore_iff {a b : Snapshot} : listedBefore a b = true
    ↔ b.createdAt < a.createdAt
      ∨ (a.createdAt = b.createdAt ∧ (compare a.infoHash b.infoHash).isLE = true) := by
  simp only [listedBefore, Bool.or_eq_true, Bool.and_eq_true, decide_eq_true_iff, gt_iff_lt]

theorem listedBefore_trans (a b c : Snapshot) (hab : listedBefore a b = true)
    (hbc : listedBefore b c = true) : listedBefore a c = true := by
  rw [listedBefore_iff] at *
  obtain hab | ⟨hab, hids⟩ := hab <;> obtain hbc | ⟨hbc, hids'⟩ := hbc
  · exact .inl (by omega)
  · exact .inl (by omega)
  · exact .inl (by omega)
  · exact .inr ⟨by omega, Std.TransCmp.isLE_trans hids hids'⟩

theorem listedBefore_total (a b : Snapshot) : (listedBefore a b || listedBefore b a) = true := by
  rw [Bool.or_eq_true, listedBefore_iff, listedBefore_iff]
  obtain hlt | heq | hgt := Int.lt_trichotomy a.createdAt b.createdAt
  · exact .inr (.inl hlt)
  · exact (InfoHash.isLE_total a.infoHash b.infoHash).imp (fun h => .inr ⟨heq, h⟩)
      fun h => .inr ⟨heq.symm, h⟩
  · exact .inl (.inl hgt)

/-- **The listing is what is shown if the sessions are met in a certain order.** -/
theorem exists_list_eq_listing (eng : Engine σ) (now : Int) (s : Sessions σ) : ∃ met,
    met.Perm s.store.entries ∧ ((list eng now).run s).1 = listing eng s.engine now met := by
  let shown (entry : InfoHash × Session) := snapshot eng s.engine now entry.1 entry.2
  let before (a b : InfoHash × Session) := listedBefore (shown a) (shown b)
  have hviews : ((list eng now).run s).1 = (s.store.entries.map shown).mergeSort listedBefore := by
    have hmap : s.store.entries.map shown
        = (s.store.mapValues fun _ => looked eng s.engine now).entries.map fun entry =>
          entry.2.view (eng.torrent s.engine entry.2.handle) entry.1 := by
      rw [Table.mapValues, List.map_map]
      rfl
    rw [hmap]
    rfl
  have hlist : ((list eng now).run s).1 = (s.store.entries.mergeSort before).map shown :=
    hviews.trans (List.map_mergeSort (f := shown) fun _ _ _ _ => rfl).symm
  refine ⟨s.store.entries.mergeSort before, List.mergeSort_perm _ _, ?_⟩
  have hsorted : ((list eng now).run s).1.Pairwise fun a b => listedBefore a b = true :=
    hviews ▸ List.pairwise_mergeSort listedBefore_trans listedBefore_total _
  rw [listing, ← hlist, List.mergeSort_of_pairwise]
  refine hsorted.imp fun {a b} hab => decide_eq_true ?_
  obtain h | ⟨h, -⟩ := listedBefore_iff.mp hab
  · exact Int.le_of_lt h
  · exact Int.le_of_eq h.symm

/-! ## Listing and getting -/

/-- **Only samples differ**: no session comes, goes, or is changed otherwise, and nothing is asked
of the engine. -/
structure OnlySampled (s s' : Sessions σ) : Prop where
  keys : s'.store.keys = s.store.keys
  book : book s'.store = book s.store
  engine : s'.engine = s.engine
  events : s'.events = s.events

/-- Getting a transfer changes its sample only. -/
theorem get?_onlySampled (id : InfoHash) (now : Int) (s : Sessions σ) :
    OnlySampled s ((get? eng id now).run s).2 := by
  obtain ⟨-, he⟩ | ⟨session, hs, he⟩ := get?_cases eng id now s
  · rw [he]
    exact ⟨rfl, rfl, rfl, rfl⟩
  · rw [he]
    refine ⟨?_, book_put_of_get? hs rfl, rfl, rfl⟩
    have hm : id ∈ s.store.entries.map Prod.fst :=
      List.mem_map_of_mem (f := Prod.fst) ((s.store.mem_entries_iff id session).mpr hs)
    rw [Table.keys, Table.put, dif_pos hm, Table.map_fst_replaced, Table.keys]

/-- Listing the transfers changes their samples only. -/
theorem list_onlySampled (now : Int) (s : Sessions σ) :
    OnlySampled s ((list eng now).run s).2 := by
  refine ⟨?_, book_mapValues fun _ _ => rfl, rfl, rfl⟩
  show (s.store.mapValues fun _ => looked eng s.engine now).keys = s.store.keys
  rw [Table.keys, Table.mapValues, List.map_map]
  rfl

/-- **A listing is the same as getting every transfer** in its place, at one instant. -/
structure ListingAgrees (eng : Engine σ) (s : Sessions σ) (now : Int) : Prop where
  /-- Every session is shown once, as getting it would show it, the newest first. -/
  lists : Lists eng s now ((list eng now).run s).1
  /-- That is what is shown if the sessions are met in a certain order … -/
  met : ∃ met, met.Perm s.store.entries
    ∧ ((list eng now).run s).1 = listing eng s.engine now met
  /-- … and met in any other they would be listed as well. -/
  anyOrder : ∀ met, met.Perm s.store.entries → Lists eng s now (listing eng s.engine now met)
  /-- Every session is sampled at that instant, … -/
  sampled : ∀ id, ((list eng now).run s).2.store.get? id
    = (s.store.get? id).map (looked eng s.engine now)
  /-- … and left as getting it would have left it. -/
  left : ∀ id, ((list eng now).run s).2.store.get? id
    = ((get? eng id now).run s).2.store.get? id
  /-- Getting a transfer after the listing shows what getting it instead would have shown. -/
  again : ∀ id, ((get? eng id now).run ((list eng now).run s).2).1 = ((get? eng id now).run s).1
  /-- A listing does nothing else, … -/
  listed : OnlySampled s ((list eng now).run s).2
  /-- … and neither does getting a transfer. -/
  got : ∀ id, OnlySampled s ((get? eng id now).run s).2

/-- **Listing agrees with getting**, in every state of the engine and of the store, whenever the
sessions were created and last looked at, and at every instant, be it before those. -/
theorem list_agrees (eng : Engine σ) (s : Sessions σ) (now : Int) : ListingAgrees eng s now := by
  obtain ⟨met, hm, hlist⟩ := exists_list_eq_listing eng now s
  constructor
  case lists => exact hlist ▸ listing_lists now hm
  case met => exact ⟨met, hm, hlist⟩
  case anyOrder => exact fun _ => listing_lists now
  case sampled => exact list_snd now s
  case left => exact fun id => (list_snd now s id).trans (get?_snd id now s).symm
  case again =>
    intro id
    have hengine : ((list eng now).run s).2.engine = s.engine := rfl
    rw [get?_fst, get?_fst, list_snd, hengine, Option.map_map]
    congr 2
    funext session
    exact snapshot_looked id session
  case listed => exact list_onlySampled now s
  case got => exact fun id => get?_onlySampled id now s

end Session

end HopTorrent
