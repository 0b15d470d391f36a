import HopTorrent.Proofs.Secrecy.Sessions
import HopTorrent.Proofs.Session.Filed
import Mathlib.Data.List.Perm.Basic

/-!
# Proofs/Secrecy/Shutdown — two shutdowns that meet the sessions in different orders

A shutdown meets the sessions in any order, and where identifiers differ it may well be another one.
Then its lines on the torrents that the engine refuses to discard come in another order too.  So
logs are compared up to the order of these lines (`Log.Agree`), over engines that behave alike also
when torrents are discarded in different orders (`Engine.DropsAlike`), as those do that discard each
torrent apart from the others (`Engine.Alike.dropsAlike`).  All else that a shutdown leaves is alike
whatever the orders are (`Session.shutdown_agree`).
-/

namespace HopTorrent

variable {σ τ : Type} {eng : Engine σ} {eng' : Engine τ} {R : σ → τ → Prop}
  {M : String → String → Prop} {H : InfoHash → InfoHash → Prop}

/-! ## Logs that agree -/

/-- **Two logs agree**: they are the same, but that the lines of one shutdown on the torrents that
were not discarded may come in different orders. -/
inductive Log.Agree : List Log.Line → List Log.Line → Prop
  | nil : Agree [] []
  | line (l : Log.Line) {ls ls' : List Log.Line} (h : Agree ls ls') : Agree (l :: ls) (l :: ls')
  | shutdown (count : Nat) {torn torn' ls ls' : List Log.Line}
      (ht : ∀ l ∈ torn, ∃ id e, l = Session.undropped id e) (hp : torn.Perm torn')
      (h : Agree ls ls') :
    Agree (torn ++ Session.allCleared count :: ls) (torn' ++ Session.allCleared count :: ls')

theorem Log.Agree.refl (ls : List Log.Line) : Log.Agree ls ls := by
  induction ls with
  | nil => exact .nil
  | cons l ls ih => exact ih.line l

/-- Logs that agree go on with logs that agree. -/
theorem Log.Agree.append {ls ls' ms ms' : List Log.Line} (h : Log.Agree ls ls')
    (hm : Log.Agree ms ms') : Log.Agree (ls ++ ms) (ls' ++ ms') := by
  induction h with
  | nil => exact hm
  | line l _ ih => exact ih.line l
  | shutdown count ht hp _ ih =>
    rw [List.append_assoc, List.append_assoc]
    exact ih.shutdown count ht hp

/-- **Two managers agree**: they are alike, but for the order of the lines of shutdowns in what they
recorded. -/
structure Sessions.Agree (R : σ → τ → Prop) (H : InfoHash → InfoHash → Prop) (s : Sessions σ)
    (s' : Sessions τ) : Prop where
  engine : R s.engine s'.engine
  store : s.store.Alike H Session.Alike s'.store
  lines : Log.Agree (SessionEvent.lines s.events) (SessionEvent.lines s'.events)

/-- Managers that are alike agree. -/
theorem Sessions.Alike.agree {s : Sessions σ} {s' : Sessions τ} (h : s.Alike True R H s') :
    s.Agree R H s' :=
  ⟨h.engine, h.store, SessionEvent.lines_eq (h.events trivial) ▸ .refl _⟩

/-! ## Discarding torrents in any order -/

/-- Discards torrents one after another: what came of each. -/
def Engine.dropEach (eng : Engine σ) (hs : List Handle) : StateM σ (List (Except Error Unit)) :=
  hs.mapM fun h => (eng.dropTorrent h : StateM σ (Except Error Unit))

theorem Engine.dropEach_cons (eng : Engine σ) (h : Handle) (hs : List Handle) (e : σ) :
    (eng.dropEach (h :: hs)).run e
      = ((eng.dropTorrent h e).1 :: ((eng.dropEach hs).run (eng.dropTorrent h e).2).1,
        ((eng.dropEach hs).run (eng.dropTorrent h e).2).2) := by
  rw [dropEach, List.mapM_cons]
  rfl

/-- **Two engines discard torrents alike, in whatever orders**: told to discard the same torrents,
each of them once, they refuse the same of them, with errors that are alike, and end in states that
are related again. -/
def Engine.DropsAlike (eng : Engine σ) (eng' : Engine τ) (R : σ → τ → Prop) : Prop :=
  ∀ e e', R e e' → ∀ hs hs' : List Handle, hs.Nodup → hs'.Perm hs →
    R ((eng.dropEach hs).run e).2 ((eng'.dropEach hs').run e').2
      ∧ ∃ out out' : Handle → Except Error Unit,
        ((eng.dropEach hs).run e).1 = hs.map out ∧ ((eng'.dropEach hs').run e').1 = hs'.map out'
          ∧ ∀ h ∈ hs, Concur (fun _ _ => True) (out h) (out' h)

/-- **Torrents are discarded apart from each other**: whether one is refused does not depend on
another that was discarded before, and two leave the same in either order. -/
structure Engine.DropsApart (eng : Engine σ) : Prop where
  result : ∀ e g h, g ≠ h → (eng.dropTorrent g (eng.dropTorrent h e).2).1 = (eng.dropTorrent g e).1
  comm : ∀ e g h, (eng.dropTorrent g (eng.dropTorrent h e).2).2
    = (eng.dropTorrent h (eng.dropTorrent g e).2).2

/-- What becomes of torrents that are discarded apart from each other. -/
theorem Engine.DropsApart.run (ha : eng.DropsApart) {hs : List Handle} (hn : hs.Nodup) (e : σ) :
    (eng.dropEach hs).run e
      = (hs.map fun h => (eng.dropTorrent h e).1,
        hs.foldl (fun e h => (eng.dropTorrent h e).2) e) := by
  induction hs generalizing e with
  | nil => rfl
  | cons h hs ih =>
    obtain ⟨hh, hn⟩ := List.nodup_cons.mp hn
    have hmap : hs.map (fun g => (eng.dropTorrent g (eng.dropTorrent h e).2).1)
        = hs.map fun g => (eng.dropTorrent g e).1 :=
      List.map_congr_left fun g hg => ha.result e g h fun he => hh (he ▸ hg)
    rw [dropEach_cons, ih hn, hmap]
    rfl

/-- Engines that behave alike discard torrents alike in the same order. -/
theorem Engine.Alike.foldl_drop (hE : eng.Alike eng' R M H) (hs : List Handle) {e : σ} {e' : τ}
    (hR : R e e') :
    R (hs.foldl (fun e h => (eng.dropTorrent h e).2) e)
      (hs.foldl (fun e' h => (eng'.dropTorrent h e').2) e') := by
  induction hs generalizing e e' with
  | nil => exact hR
  | cons h hs ih => exact ih (hE.perform hR .dropTorrent h).2

/-- **Engines that behave alike and discard torrents apart from each other** do so alike in
different orders. -/
theorem Engine.Alike.dropsAlike (hE : eng.Alike eng' R M H) (ha : eng.DropsApart)
    (ha' : eng'.DropsApart) : eng.DropsAlike eng' R := by
  intro e e' hR hs hs' hn hp
  have hcomm : RightCommutative fun e' h => (eng'.dropTorrent h e').2 :=
    ⟨fun e' g h => ha'.comm e' h g⟩
  rw [ha.run hn, ha'.run (hp.nodup_iff.mpr hn), hp.foldl_eq]
  exact ⟨hE.foldl_drop hs hR, _, _, rfl, rfl, fun h _ => (hE.perform hR .dropTorrent h).1⟩

namespace Session

/-! ## The lines of a shutdown -/

/-- The handles of sessions. -/
def handles (met : List (InfoHash × Session)) : List Handle := met.map fun entry => entry.2.handle

/-- The line on a torrent, if the engine refuses to discard it. -/
def undropped? (id : InfoHash) : Except Error Unit → Option Log.Line
  | .ok _ => none
  | .error e => some (undropped id e)

/-- The lines on sessions, of whose torrents comes `out`. -/
def tornLines (out : Handle → Except Error Unit) (met : List (InfoHash × Session)) :
    List Log.Line :=
  met.filterMap fun entry => undropped? entry.1 (out entry.2.handle)

theorem eq_undropped_of_mem {out : Handle → Except Error Unit} {met : List (InfoHash × Session)}
    {l : Log.Line} (h : l ∈ tornLines out met) : ∃ id e, l = undropped id e := by
  obtain ⟨⟨id, session⟩, -, hl⟩ := List.mem_filterMap.mp h
  dsimp only at hl
  cases hr : out session.handle with
  | ok =>
    rw [hr] at hl
    cases hl
  | error e =>
    rw [hr] at hl
    exact ⟨id, e, (Option.some.inj hl).symm⟩

variable (eng) in
/-- What tearing a session down asks of the engine, and logs. -/
theorem tearDown_run (entry : InfoHash × Session) (s : Sessions σ) :
    ((tearDown eng entry).run s).2.engine = (eng.dropTorrent entry.2.handle s.engine).2
      ∧ SessionEvent.lines ((tearDown eng entry).run s).2.events = SessionEvent.lines s.events
        ++ (undropped? entry.1 (eng.dropTorrent entry.2.handle s.engine).1).toList := by
  have hp : (perform eng .dropTorrent entry.2.handle).run { s with store := s.store.erase entry.1 }
      = ((eng.dropTorrent entry.2.handle s.engine).1,
        ⟨(eng.dropTorrent entry.2.handle s.engine).2, s.store.erase entry.1,
          s.events ++ [.performed .dropTorrent entry.2.handle
            (eng.dropTorrent entry.2.handle s.engine).1]⟩) := rfl
  rw [tearDown, run_bind, run_modify, run_bind, hp]
  cases (eng.dropTorrent entry.2.handle s.engine).1 with
  | ok => exact ⟨rfl, SessionEvent.lines_append _ _⟩
  | error e =>
    refine ⟨rfl, Eq.trans (SessionEvent.lines_append (s.events ++ [_]) [.logged _]) ?_⟩
    rw [SessionEvent.lines_append, List.append_assoc]
    rfl

variable (eng) in
/-- **What tearing sessions down asks of the engine, and logs**: each torrent is discarded once, and
there is a line on each that is refused. -/
theorem forM_tearDown_run (met : List (InfoHash × Session)) {out : Handle → Except Error Unit}
    (s : Sessions σ)
    (ho : ((eng.dropEach (handles met)).run s.engine).1 = (handles met).map out) :
    ((met.forM (tearDown eng)).run s).2.engine = ((eng.dropEach (handles met)).run s.engine).2
      ∧ SessionEvent.lines ((met.forM (tearDown eng)).run s).2.events
        = SessionEvent.lines s.events ++ tornLines out met := by
  induction met generalizing s with
  | nil => exact ⟨rfl, (List.append_nil _).symm⟩
  | cons entry met ih =>
    obtain ⟨he, hl⟩ := tearDown_run eng entry s
    rw [handles, List.map_cons, eng.dropEach_cons, ← he] at ho ⊢
    obtain ⟨hr, hrest⟩ := List.cons.inj ho
    obtain ⟨he', hl'⟩ := ih ((tearDown eng entry).run s).2 hrest
    refine ⟨he', hl'.trans ?_⟩
    rw [hl, hr, List.append_assoc]
    congr 1
    cases h : undropped? entry.1 (out entry.2.handle) <;> simp [tornLines, h]

variable (eng) in
/-- **What a shutdown asks of the engine, and logs.** -/
theorem shutdown_run (order : Order) {out : Handle → Except Error Unit} (s : Sessions σ)
    (ho : ((eng.dropEach (handles (order.met s.store))).run s.engine).1
      = (handles (order.met s.store)).map out) :
    ((shutdown eng order).run s).2.engine
        = ((eng.dropEach (handles (order.met s.store))).run s.engine).2
      ∧ SessionEvent.lines ((shutdown eng order).run s).2.events = SessionEvent.lines s.events
        ++ (tornLines out (order.met s.store) ++ [allCleared s.store.size]) := by
  obtain ⟨he, hl⟩ := forM_tearDown_run eng _ s ho
  refine ⟨he, ?_⟩
  rw [← List.append_assoc, ← hl]
  exact SessionEvent.lines_append _ [.logged _]

/-! ## Two shutdowns -/

/-- A shutdown leaves nothing in the store. -/
theorem entries_shutdown (eng : Engine σ) (order : Order) (s : Sessions σ) :
    ((shutdown eng order).run s).2.store.entries = [] := by
  obtain ⟨calls, -, hd⟩ := shutdown_does eng order s
  rw [hd.store, List.eq_nil_iff_forall_not_mem]
  rintro ⟨id, session⟩ he
  rw [Table.mem_entries_iff, get?_foldl_erase_met] at he
  cases he

/-- Corresponding sessions have the same handles. -/
theorem handles_eq {met met' : List (InfoHash × Session)}
    (h : List.Forall₂ (Table.Entry H Session.Alike) met met') : handles met = handles met' := by
  induction h with
  | nil => rfl
  | cons hxy _ ih => exact congrArg₂ List.cons hxy.2.handle_eq ih

/-- **Corresponding sessions get the same lines**, if their torrents come out alike. -/
theorem tornLines_eq (hH : Disguise H) {met met' : List (InfoHash × Session)}
    (h : List.Forall₂ (Table.Entry H Session.Alike) met met')
    {out out' : Handle → Except Error Unit}
    (hc : ∀ h ∈ handles met, Concur (fun _ _ => True) (out h) (out' h)) :
    tornLines out met = tornLines out' met' := by
  induction h with
  | nil => rfl
  | @cons x y xs ys hxy _ ih =>
    obtain ⟨hx, hxs⟩ := List.forall_mem_cons.mp hc
    have hy : undropped? x.1 (out x.2.handle) = undropped? y.1 (out' y.2.handle) := by
      rw [← hxy.2.handle_eq]
      generalize out x.2.handle = r at hx ⊢
      generalize out' x.2.handle = r' at hx ⊢
      cases hx with
      | ok => rfl
      | error he => exact congrArg some (undropped_eq hH hxy.1 he)
    have hrest : xs.filterMap _ = ys.filterMap _ := ih hxs
    rw [tornLines, tornLines, List.filterMap_cons, List.filterMap_cons, hy, hrest]

/-- In whatever order sessions are met, their handles are the same. -/
theorem perm_handles (order : Order) (store : Store) :
    (handles (order.met store)).Perm (handles store.entries) := (order.perm store).map _

/-- **In whatever orders corresponding sessions are met, they get the same lines.** -/
theorem perm_tornLines (hH : Disguise H) {store store' : Store}
    (h : store.Alike H Session.Alike store') (order order' : Order)
    {out out' : Handle → Except Error Unit}
    (hc : ∀ h ∈ handles store.entries, Concur (fun _ _ => True) (out h) (out' h)) :
    (tornLines out (order.met store)).Perm (tornLines out' (order'.met store')) := by
  have hmet : (tornLines out (order.met store)).Perm (tornLines out store.entries) :=
    (order.perm store).filterMap _
  have hmet' : (tornLines out' (order'.met store')).Perm (tornLines out' store'.entries) :=
    (order'.perm store').filterMap _
  rw [tornLines_eq hH h hc] at hmet
  exact hmet.trans hmet'.symm

/-- **Shutdowns agree in whatever orders they meet the sessions.** -/
theorem shutdown_agree (hD : eng.DropsAlike eng' R) (hH : Disguise H) (order order' : Order)
    {Settled : σ → Handle → Prop} {s : Sessions σ} {s' : Sessions τ} (hf : Filed eng Settled s)
    (h : s.Alike True R H s') :
    Sessions.Agree R H ((shutdown eng order).run s).2 ((shutdown eng' order').run s').2 := by
  have hp := perm_handles order s.store
  have hp' := perm_handles order' s'.store
  rw [← handles_eq h.store] at hp'
  -- no torrent is discarded twice, as each is filed under one identifier only
  have hn : (handles (order.met s.store)).Nodup := hp.nodup_iff.mpr hf.nodup_handles
  obtain ⟨hR, out, out', ho, ho', hc⟩ := hD _ _ h.engine _ _ hn (hp'.trans hp.symm)
  obtain ⟨he, hl⟩ := shutdown_run eng order s ho
  obtain ⟨he', hl'⟩ := shutdown_run eng' order' s' ho'
  rw [← he, ← he'] at hR
  refine ⟨hR, ?_, ?_⟩
  · show List.Forall₂ _ _ _
    rw [entries_shutdown, entries_shutdown]
    exact .nil
  · have htorn := perm_tornLines hH h.store order order' fun g hg => hc g (hp.mem_iff.mpr hg)
    rw [hl, hl', h.store.size_eq]
    exact h.agree.lines.append (.shutdown _ (fun l hm => eq_undropped_of_mem hm) htorn .nil)

end Session

/-! ## Two engines with different secrets -/

/-- An engine that makes a torrent of every magnet and never lets go of any. -/
def Engine.hoarding (name : Handle → InfoHash) (why : String) : Engine Nat where
  addMagnet _ n := (.ok n, n + 1)
  torrent _ h := ⟨name h, "linux", 8, 2, 0, 0, 1⟩
  metadata _ _ := .after 5 (.ok ())
  downloadAll _ n := (.ok (), n)
  cancelPieces _ n := (.ok (), n)
  dropTorrent _ n := (.error (.engine why), n)

theorem Engine.hoarding_alike {name name' : Handle → InfoHash} (why why' : String)
    (M : String → String → Prop) (hn : ∀ h, H (name h) (name' h)) :
    (hoarding name why).Alike (hoarding name' why') Eq M H where
  addMagnet := by
    rintro n _ rfl - - -
    exact ⟨.ok rfl, rfl⟩
  torrent := by
    rintro n _ rfl h
    exact ⟨name' h, hn h, rfl⟩
  metadata _ _ := .after (.ok trivial)
  perform := by
    rintro n _ rfl op h
    cases op with
    | downloadAll | cancelPieces => exact ⟨.ok trivial, rfl⟩
    | dropTorrent => exact ⟨.error rfl, rfl⟩

theorem Engine.hoarding_dropsApart (name : Handle → InfoHash) (why : String) :
    (hoarding name why).DropsApart where
  result _ _ _ _ := rfl
  comm _ _ _ := rfl

theorem Engine.hoarding_settles (name : Handle → InfoHash) (why : String) :
    (hoarding name why).Settles fun _ _ => True where
  started _ _ _ := ⟨trivial, rfl⟩
  addMagnet _ _ _ _ := ⟨trivial, rfl⟩
  perform _ _ _ _ _ := ⟨trivial, rfl⟩

end HopTorrent
