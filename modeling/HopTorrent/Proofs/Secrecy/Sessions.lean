import HopTorrent.Proofs.InfoHash
import HopTorrent.Proofs.Secrecy.Alike
import HopTorrent.Proofs.Session.Book
import HopTorrent.Proofs.Text.Blank

/-!
# Proofs/Secrecy/Sessions — the manager over two engines that behave alike

Two engines behave alike when they are given magnets that are related and what they answer differs
in the texts of errors only, and what they say of a torrent in its identifier only, identifiers
corresponding one to one (`Engine.Alike`).  Over such engines every section of the manager comes out
alike, and leaves stores that are alike (`add_paired`, `get?_paired`, `list_paired`,
`remove_paired`, `switch_paired`, `shutdown_paired`).  Where the logs are compared too (`audited`),
magnets have equal sizes and identifiers equal ends; then the same lines are recorded.
-/

namespace HopTorrent

/-! ## What is shown of an identifier -/

/-- The first and the last four digits of an identifier. -/
def InfoHash.ends (id : InfoHash) : List Char × List Char :=
  (id.toHex.toList.take 4, id.toHex.toList.drop 36)

/-- **A redacted identifier shows its ends** and nothing else. -/
theorem InfoHash.redacted_eq (id : InfoHash) :
    id.redacted = String.ofList (id.ends.1 ++ "...".toList ++ id.ends.2) := by
  have hl : id.toHex.toList.length = 40 := by
    rw [toHex, Text.toHex, String.toList_ofList, Text.length_hexDigits, length_toBytes]
  have hs : 12 < id.toHex.utf8ByteSize := by
    rw [toHex, Text.utf8ByteSize_toHex, length_toBytes]
    decide
  have ha : id.toHex.toList.all fun c => c.toNat < 128 := by
    rw [List.all_eq_true]
    intro c hc
    rw [toHex, Text.toHex, String.toList_ofList, Text.hexDigits] at hc
    obtain ⟨b, -, hc⟩ := List.mem_flatMap.mp hc
    have hb : b.toNat < 256 := b.toNat_lt
    rw [decide_eq_true_eq]
    rcases List.mem_cons.mp hc with rfl | hc
    · exact Text.toNat_lt_of_hexValue? (Text.hexValue?_hexDigit (by omega))
    · rw [List.mem_singleton.mp hc]
      exact Text.toNat_lt_of_hexValue? (Text.hexValue?_hexDigit (by omega))
  rw [redacted, Redacted.hash, if_pos ⟨hs, ha⟩, hl]
  rfl

/-! ## Engines that behave alike -/

/-- **A correspondence of identifiers**: one to one, and telling no ends apart. -/
structure Disguise (H : InfoHash → InfoHash → Prop) : Prop where
  oneToOne : Table.OneToOne H
  ends : ∀ {a b}, H a b → a.ends = b.ends

theorem Disguise.eq : Disguise Eq := ⟨.eq, congrArg InfoHash.ends⟩

/-- What is known of two torrents is the same, but for the identifiers, which correspond. -/
def Torrent.Alike (H : InfoHash → InfoHash → Prop) (t t' : Torrent) : Prop :=
  ∃ id, H t.infoHash id ∧ t' = { t with infoHash := id }

/-- Metadata come at the same time, or fail at the same time, or never. -/
inductive Metadata.Alike : Metadata → Metadata → Prop
  | never : Alike .never .never
  | after {ms : Nat} {r r' : Except Error Unit} (h : Concur (fun _ _ => True) r r') :
    Alike (.after ms r) (.after ms r')

/-- **Two engines behave alike**, `R` telling in which states, when one is given magnets where the
other is given those related to them by `M`: they come to the same handles, say the same of
torrents, but for the identifiers, and their operations succeed or fail alike. -/
structure Engine.Alike {σ τ : Type} (eng : Engine σ) (eng' : Engine τ) (R : σ → τ → Prop)
    (M : String → String → Prop) (H : InfoHash → InfoHash → Prop) : Prop where
  addMagnet : ∀ {e e'}, R e e' → ∀ {m m'}, M m m' →
    Concur Eq (eng.addMagnet m e).1 (eng'.addMagnet m' e').1
      ∧ R (eng.addMagnet m e).2 (eng'.addMagnet m' e').2
  torrent : ∀ {e e'}, R e e' → ∀ h, (eng.torrent e h).Alike H (eng'.torrent e' h)
  metadata : ∀ {e e'}, R e e' → ∀ h, (eng.metadata e h).Alike (eng'.metadata e' h)
  perform : ∀ {e e'}, R e e' → ∀ op h,
    Concur (fun _ _ => True) (eng.perform op h e).1 (eng'.perform op h e').1
      ∧ R (eng.perform op h e).2 (eng'.perform op h e').2

/-! ## States that are alike -/

/-- Two sessions are the same, but for the magnets they were added with. -/
def Session.Alike (s s' : Session) : Prop := ∃ m, s' = { s with magnet := m }

theorem Session.Alike.handle_eq {s s' : Session} (h : s.Alike s') : s.handle = s'.handle := by
  obtain ⟨m, rfl⟩ := h
  rfl

/-- Two snapshots are the same, but for the magnets and the identifiers, which correspond. -/
def Snapshot.Alike (H : InfoHash → InfoHash → Prop) (v v' : Snapshot) : Prop :=
  ∃ id m, H v.infoHash id ∧ v' = { v with infoHash := id, magnet := m }

/-- Two events tell of the same, and come out alike; lines are the same. -/
inductive SessionEvent.Alike : SessionEvent → SessionEvent → Prop
  | added {m m' : String} {r r' : Except Error Handle} (h : Concur Eq r r') :
    Alike (.added m r) (.added m' r')
  | resolved {h : Handle} {r r' : Except Error Unit} (hr : Concur (fun _ _ => True) r r') :
    Alike (.resolved h r) (.resolved h r')
  | performed {op : Operation} {h : Handle} {r r' : Except Error Unit}
      (hr : Concur (fun _ _ => True) r r') :
    Alike (.performed op h r) (.performed op h r')
  | logged {l : Log.Line} : Alike (.logged l) (.logged l)

theorem SessionEvent.lines_append (es fs : List SessionEvent) :
    lines (es ++ fs) = lines es ++ lines fs := List.filterMap_append

/-- **Events that are alike tell of the same lines.** -/
theorem SessionEvent.lines_eq {es es' : List SessionEvent}
    (h : List.Forall₂ SessionEvent.Alike es es') : lines es = lines es' := by
  induction h with
  | nil => rfl
  | @cons e e' es es' he _ ih =>
    cases he with
    | added | resolved | performed => exact ih
    | @logged l => exact congrArg (List.cons l) ih

/-- **Two managers are alike**: their engines are in states related by `R`, and their stores hold
the same sessions under corresponding identifiers.  Where the logs are compared, they recorded
events that are alike. -/
structure Sessions.Alike {σ τ : Type} (audited : Prop) (R : σ → τ → Prop)
    (H : InfoHash → InfoHash → Prop) (s : Sessions σ) (s' : Sessions τ) : Prop where
  engine : R s.engine s'.engine
  store : s.store.Alike H Session.Alike s'.store
  events : audited → List.Forall₂ SessionEvent.Alike s.events s'.events

/-- **Two magnets are alike**: both are blank, or they are related once trimmed.  Where the logs are
compared, they have the same size. -/
structure Magnet.Alike (audited : Prop) (M : String → String → Prop) (m m' : String) : Prop where
  blank : Text.isBlankText m = Text.isBlankText m'
  size : audited → (Text.trim m).utf8ByteSize = (Text.trim m').utf8ByteSize
  related : Text.isBlankText m = false → M (Text.trim m) (Text.trim m')

namespace Session

/-- Two orders are alike: of stores that are alike they meet the sessions in the same order. -/
def Order.Alike (H : InfoHash → InfoHash → Prop) (order order' : Order) : Prop :=
  ∀ store store', store.Alike H Session.Alike store' →
    List.Forall₂ (Table.Entry H Session.Alike) (order.met store) (order'.met store')

theorem Order.Alike.asPut (H : InfoHash → InfoHash → Prop) : Order.asPut.Alike H .asPut :=
  fun _ _ h => h

variable {σ τ : Type} {eng : Engine σ} {eng' : Engine τ} {R : σ → τ → Prop}
  {M : String → String → Prop} {H : InfoHash → InfoHash → Prop} {audited : Prop}

/-- Two adds wait for the same torrent; where the logs are compared, their magnets have the same
size. -/
def Pending.Alike (audited : Prop) (p p' : Pending) : Prop :=
  p.handle = p'.handle ∧ (audited → p.magnet.utf8ByteSize = p'.magnet.utf8ByteSize)

/-- Two waits ended alike. -/
inductive Waited.Alike : Waited → Waited → Prop
  | ready : Alike .ready .ready
  | failed {e e' : Error} (h : e.Alike e') : Alike (.failed e) (.failed e')
  | timedOut : Alike .timedOut .timedOut

/-- Metadata that come alike end a wait alike, after the same time. -/
theorem waitAtMost_alike {d d' : Metadata} (h : d.Alike d') (timeout : Nat) :
    (waitAtMost timeout d).1 = (waitAtMost timeout d').1
      ∧ Waited.Alike (waitAtMost timeout d).2 (waitAtMost timeout d').2 := by
  cases h with
  | never => exact ⟨rfl, .timedOut⟩
  | after h =>
    simp only [waitAtMost]
    split
    · cases h with
      | ok => exact ⟨rfl, .ready⟩
      | error h => exact ⟨rfl, .failed h⟩
    · exact ⟨rfl, .timedOut⟩

theorem Alike.sampled {s s' : Session} (h : s.Alike s') {t t' : Torrent} (ht : t.Alike H t')
    (now : Int) : (s.sampled t now).Alike (s'.sampled t' now) := by
  obtain ⟨m, rfl⟩ := h
  obtain ⟨id, -, rfl⟩ := ht
  exact ⟨m, rfl⟩

theorem Alike.view {s s' : Session} (h : s.Alike s') {t t' : Torrent} (ht : t.Alike H t')
    {id id' : InfoHash} (hid : H id id') : (s.view t id).Alike H (s'.view t' id') := by
  obtain ⟨m, rfl⟩ := h
  obtain ⟨_, -, rfl⟩ := ht
  exact ⟨id', m, hid, rfl⟩

/-! ## One section of the manager -/

/-- **What is recorded alike leaves managers alike.** -/
theorem record_paired {e e' : SessionEvent} (h : audited → e.Alike e') :
    Paired (Sessions.Alike audited R H) (record e) (record e') fun _ _ => True :=
  .modify fun _ _ hs =>
    ⟨hs.engine, hs.store, fun ha => List.rel_append (hs.events ha) (.cons (h ha) .nil)⟩

theorem log_paired {l l' : Log.Line} (h : audited → l = l') :
    Paired (Sessions.Alike audited R H) (log l) (log l') fun _ _ => True :=
  record_paired fun ha => h ha ▸ .logged

variable (hE : eng.Alike eng' R M H) (hH : Disguise H)

include hE

/-- Operations succeed or fail alike. -/
theorem perform_paired (op : Operation) (h : Handle) :
    Paired (Sessions.Alike audited R H) (perform eng op h) (perform eng' op h)
      (Concur fun _ _ => True) := by
  refine .get fun s s' hs => ?_
  obtain ⟨hr, he⟩ := hE.perform hs.engine op h
  exact (Paired.set ⟨he, hs.store, hs.events⟩).bind fun _ _ _ =>
    (record_paired fun _ => .performed hr).bind fun _ _ _ => .pure hr

/-- Torrents are discarded alike. -/
theorem release_paired {h h' : Handle} (hh : h = h') (reason : String) :
    Paired (Sessions.Alike audited R H) (release eng h reason) (release eng' h' reason)
      fun _ _ => True := by
  subst hh
  refine (perform_paired hE .dropTorrent h).bind fun r r' hr => ?_
  cases hr with
  | ok => exact .pure trivial
  | error he => exact log_paired fun _ => by rw [he.message_eq]

/-- **Adds of magnets that are alike begin alike.** -/
theorem begin_paired {m m' : String} (hm : Magnet.Alike audited M m m') :
    Paired (Sessions.Alike audited R H) (begin eng m) (begin eng' m')
      (Concur (Pending.Alike audited)) := by
  rw [begin, begin, Text.isEmpty_trim, Text.isEmpty_trim, ← hm.blank]
  cases hb : Text.isBlankText m with
  | true => exact .pure (.error (.refl _))
  | false =>
    refine .get fun s s' hs => ?_
    obtain ⟨hr, he⟩ := hE.addMagnet hs.engine (hm.related hb)
    exact (Paired.set ⟨he, hs.store, hs.events⟩).bind fun _ _ _ =>
      (record_paired fun _ => .added hr).bind fun _ _ _ =>
        .pure (hr.map fun h h' hh => ⟨hh, hm.size⟩)

/-- How long adds wait, and how that ends. -/
theorem waiting_paired {p p' : Pending} (hp : p.Alike audited p') (timeout : Nat) :
    Paired (Sessions.Alike audited R H) (waiting eng timeout p) (waiting eng' timeout p')
      fun r r' => r.1 = r'.1 ∧ Waited.Alike r.2 r'.2 := by
  refine .get fun s s' hs => .pure ?_
  rw [← hp.1]
  exact waitAtMost_alike (hE.metadata hs.engine p.handle) timeout

include hH

omit hE in
/-- The field that names a transfer shows the ends of the identifier only. -/
theorem hashField_eq {id id' : InfoHash} (hid : H id id') : hashField id = hashField id' := by
  rw [hashField, hashField, InfoHash.redacted_eq, InfoHash.redacted_eq, hH.ends hid]

omit hE in
/-- The line on a torrent that is not discarded shows the ends of its identifier, and the message of
the error. -/
theorem undropped_eq {id id' : InfoHash} (hid : H id id') {e e' : Error} (he : e.Alike e') :
    undropped id e = undropped id' e' := by
  rw [undropped, undropped, he.message_eq, hashField_eq hH hid]

omit hE in
/-- **What is found under corresponding identifiers**: nothing, or the same session, but for its
magnet. -/
theorem lookup_alike {s : Sessions σ} {s' : Sessions τ} (hs : s.Alike audited R H s')
    {id id' : InfoHash} (hid : H id id') :
    s.store.get? id = none ∧ s'.store.get? id' = none
      ∨ ∃ live m, s.store.get? id = some live
        ∧ s'.store.get? id' = some { live with magnet := m } := by
  have hg := hs.store.get? hH.oneToOne hid
  generalize s.store.get? id = live at hg ⊢
  generalize s'.store.get? id' = live' at hg ⊢
  cases hg with
  | none => exact .inl ⟨rfl, rfl⟩
  | some hl =>
    obtain ⟨m, rfl⟩ := hl
    exact .inr ⟨_, m, rfl, rfl⟩

omit hE in
/-- Sessions that are alike are put into the store alike. -/
theorem put_paired {id id' : InfoHash} (hid : H id id') {session session' : Session}
    (h : session.Alike session') :
    Paired (Sessions.Alike audited R H)
      (modify fun s => { s with store := s.store.put id session } : Managed σ Unit)
      (modify fun s => { s with store := s.store.put id' session' } : Managed τ Unit)
      fun _ _ => True :=
  .modify fun _ _ hs => ⟨hs.engine, hs.store.put hH.oneToOne hid h, hs.events⟩

omit hE in
/-- Corresponding sessions are taken out of the store alike. -/
theorem erase_paired {id id' : InfoHash} (hid : H id id') :
    Paired (Sessions.Alike audited R H)
      (modify fun s => { s with store := s.store.erase id } : Managed σ Unit)
      (modify fun s => { s with store := s.store.erase id' } : Managed τ Unit)
      fun _ _ => True :=
  .modify fun _ _ hs => ⟨hs.engine, hs.store.erase hH.oneToOne hid, hs.events⟩

/-- **Adds get hold of the store alike.** -/
theorem enter_paired {p p' : Pending} (hp : p.Alike audited p') (now : Int) :
    Paired (Sessions.Alike audited R H) (enter eng p now) (enter eng' p' now) (Concur H) := by
  obtain ⟨handle, m⟩ := p
  obtain ⟨_, m'⟩ := p'
  obtain ⟨rfl, -⟩ := hp
  refine .get fun s s' hs => ?_
  obtain ⟨id', hid, ht⟩ := hE.torrent hs.engine handle
  have hf := hashField_eq hH hid
  rw [ht]
  dsimp only
  obtain ⟨h, h'⟩ | ⟨live, _, h, h'⟩ := lookup_alike hH hs hid <;> rw [h, h']
  · refine (perform_paired hE .downloadAll handle).bind fun r r' hr => ?_
    cases hr with
    | error he => exact .pure (.error he)
    | ok =>
      exact (put_paired hH hid ⟨m', rfl⟩).bind fun _ _ _ =>
        (log_paired fun _ => by rw [hf]).bind fun _ _ _ => .pure (.ok hid)
  · dsimp only
    split
    · exact (release_paired hE rfl _).bind fun _ _ _ =>
        (log_paired fun _ => by rw [hf]).bind fun _ _ _ => .pure (.ok hid)
    · exact (log_paired fun _ => by rw [hf]).bind fun _ _ _ => .pure (.ok hid)

omit hH in
/-- Adds that cannot start their torrents end alike. -/
theorem abandon_paired {p p' : Pending} (hp : p.Alike audited p') {e e' : Error}
    (he : e.Alike e') :
    Paired (Sessions.Alike audited R H) (abandon eng p e) (abandon eng' p' e') (Concur H) :=
  (release_paired hE hp.1 _).bind fun _ _ _ => .pure (.error he)

/-- Adds get through their critical sections alike. -/
theorem commit_paired {p p' : Pending} (hp : p.Alike audited p') (now : Int) :
    Paired (Sessions.Alike audited R H) (commit eng p now) (commit eng' p' now) (Concur H) := by
  refine (enter_paired hE hH hp now).bind fun r r' hr => ?_
  cases hr with
  | ok hid => exact .pure (.ok hid)
  | error he => exact abandon_paired hE hp he

omit hE hH in
/-- The ends of waits are noted alike. -/
theorem resolve_paired {p p' : Pending} (hp : p.Alike audited p') {w w' : Waited}
    (hw : w.Alike w') :
    Paired (Sessions.Alike audited R H) (resolve p w) (resolve p' w') fun _ _ => True := by
  cases hw with
  | ready =>
    rw [resolve, resolve, hp.1]
    exact record_paired fun _ => .resolved (.ok trivial)
  | failed he =>
    rw [resolve, resolve, hp.1]
    exact record_paired fun _ => .resolved (.error he)
  | timedOut => exact .pure trivial

/-- **Adds whose waits ended alike end alike.** -/
theorem conclude_paired {p p' : Pending} (hp : p.Alike audited p') {w w' : Waited}
    (hw : w.Alike w') (now : Int) :
    Paired (Sessions.Alike audited R H) (conclude eng p w now) (conclude eng' p' w' now)
      (Concur H) := by
  cases hw with
  | ready => exact commit_paired hE hH hp now
  | failed he => exact (release_paired hE hp.1 _).bind fun _ _ _ => .pure (.error he)
  | timedOut =>
    have hl (ha : audited) : Redacted.magnet p.magnet = Redacted.magnet p'.magnet := by
      rw [Redacted.magnet, Redacted.magnet, hp.2 ha]
    exact (release_paired hE hp.1 _).bind fun _ _ _ =>
      (log_paired fun ha => by rw [hl ha]).bind fun _ _ _ => .pure (.error (.refl _))

/-- **Magnets that are alike are added alike**, in the same time. -/
theorem add_paired (timeout : Nat) {m m' : String} (hm : Magnet.Alike audited M m m') (now : Int) :
    Paired (Sessions.Alike audited R H) (add eng timeout m now) (add eng' timeout m' now)
      fun r r' => Concur H r.1 r'.1 ∧ r.2 = r'.2 := by
  refine (begin_paired hE hm).bind fun r r' hr => ?_
  cases hr with
  | error he => exact .pure ⟨.error he, rfl⟩
  | ok hp =>
    refine (waiting_paired hE hp timeout).bind fun d d' hd => ?_
    obtain ⟨ms, w⟩ := d
    obtain ⟨_, w'⟩ := d'
    have hsettle : Paired (Sessions.Alike audited R H) (settle eng _ w now) (settle eng' _ w' now)
        (Concur H) :=
      (resolve_paired hp hd.2).bind fun _ _ _ => conclude_paired hE hH hp hd.2 now
    exact hsettle.bind fun _ _ hr => .pure ⟨hr, hd.1⟩

/-! ## The other sections -/

/-- Sessions that are alike are shown alike. -/
theorem look_paired {id id' : InfoHash} (hid : H id id') (session : Session) (m : String)
    (now : Int) :
    Paired (Sessions.Alike audited R H) (look eng id session now)
      (look eng' id' { session with magnet := m } now) (Snapshot.Alike H) := by
  refine .get fun s s' hs => ?_
  have ht := hE.torrent hs.engine session.handle
  have hl : session.Alike { session with magnet := m } := ⟨m, rfl⟩
  have hsm := hl.sampled ht now
  exact (Paired.set ⟨hs.engine, hs.store.put hH.oneToOne hid hsm, hs.events⟩).bind fun _ _ _ =>
    .pure (hsm.view ht hid)

/-- **Transfers are shown alike.** -/
theorem get?_paired {id id' : InfoHash} (hid : H id id') (now : Int) :
    Paired (Sessions.Alike audited R H) (get? eng id now) (get? eng' id' now)
      (Concur (Snapshot.Alike H)) := by
  refine .get fun s s' hs => ?_
  obtain ⟨h, h'⟩ | ⟨live, m, h, h'⟩ := lookup_alike hH hs hid <;> rw [h, h']
  · exact .pure (.error rfl)
  · exact (look_paired hE hH hid live m now).bind fun _ _ hv => .pure (.ok hv)

omit hH in
/-- **Transfers are listed alike**, if corresponding identifiers come in the same order. -/
theorem list_paired (now : Int) :
    Paired (Sessions.Alike audited R H) (list eng now) (list eng' now) fun views views' =>
      (∀ a b a' b', H a a' → H b b' → compare a b = compare a' b') →
        List.Forall₂ (Snapshot.Alike H) views views' := by
  refine .get fun s s' hs => ?_
  have ht {session session' : Session} (hl : session.Alike session') :
      (eng.torrent s.engine session.handle).Alike H (eng'.torrent s'.engine session'.handle) := by
    obtain ⟨m, rfl⟩ := hl
    exact hE.torrent hs.engine session.handle
  have hst : (s.store.mapValues fun _ session =>
        session.sampled (eng.torrent s.engine session.handle) now).Alike H Session.Alike
      (s'.store.mapValues fun _ session =>
        session.sampled (eng'.torrent s'.engine session.handle) now) :=
    hs.store.mapValues fun _ _ _ _ _ hl => hl.sampled (ht hl) now
  refine (Paired.set ⟨hs.engine, hst, hs.events⟩).bind fun _ _ _ => .pure fun hO => ?_
  refine forall₂_mergeSort (List.forall₂_map_left_iff.mpr <| List.forall₂_map_right_iff.mpr <|
    hst.imp fun x y hxy => hxy.2.view (ht hxy.2) hxy.1) fun v w v' w' hv hw => ?_
  obtain ⟨id, m, hid, rfl⟩ := hv
  obtain ⟨id', m', hid', rfl⟩ := hw
  rw [listedBefore, listedBefore, hO _ _ _ _ hid hid']

/-- **Removals come out alike.** -/
theorem remove_paired {id id' : InfoHash} (hid : H id id') :
    Paired (Sessions.Alike audited R H) (remove eng id) (remove eng' id')
      (Concur fun _ _ => True) := by
  refine .get fun s s' hs => ?_
  obtain ⟨h, h'⟩ | ⟨live, _, h, h'⟩ := lookup_alike hH hs hid <;> rw [h, h']
  · exact .pure (.error rfl)
  refine (perform_paired hE .dropTorrent live.handle).bind fun r r' hr => ?_
  cases hr with
  | error he => exact .pure (.error he)
  | ok =>
    exact (erase_paired hH hid).bind fun _ _ _ =>
      (log_paired fun _ => by rw [hashField_eq hH hid]).bind fun _ _ _ => .pure (.ok trivial)

/-- **Pauses and resumptions come out alike.** -/
theorem switch_paired (op : Operation) (paused : Bool) (message : String) {id id' : InfoHash}
    (hid : H id id') :
    Paired (Sessions.Alike audited R H) (switch eng op paused message id)
      (switch eng' op paused message id') (Concur fun _ _ => True) := by
  refine .get fun s s' hs => ?_
  obtain ⟨h, h'⟩ | ⟨live, m, h, h'⟩ := lookup_alike hH hs hid <;> rw [h, h']
  · exact .pure (.error rfl)
  refine (perform_paired hE op live.handle).bind fun r r' hr => ?_
  cases hr with
  | error he => exact .pure (.error he)
  | ok =>
    exact (put_paired hH hid ⟨m, rfl⟩).bind fun _ _ _ =>
      (log_paired fun _ => by rw [hashField_eq hH hid]).bind fun _ _ _ => .pure (.ok trivial)

/-- Corresponding sessions are torn down alike. -/
theorem tearDown_paired {x y : InfoHash × Session} (h : Table.Entry H Session.Alike x y) :
    Paired (Sessions.Alike audited R H) (tearDown eng x) (tearDown eng' y) fun _ _ => True := by
  obtain ⟨id, session⟩ := x
  obtain ⟨id', _⟩ := y
  obtain ⟨hid, m, rfl⟩ := h
  refine (erase_paired hH hid).bind fun _ _ _ =>
    (perform_paired hE .dropTorrent session.handle).bind fun r r' hr => ?_
  cases hr with
  | ok => exact .pure trivial
  | error he => exact log_paired fun _ => undropped_eq hH hid he

/-- **Shutdowns come out alike**, if they meet the sessions in orders that are alike. -/
theorem shutdown_paired {order order' : Order} (ho : order.Alike H order') :
    Paired (Sessions.Alike audited R H) (shutdown eng order) (shutdown eng' order') Eq := by
  refine .get fun s s' hs => ?_
  dsimp only
  rw [hs.store.size_eq]
  exact (Paired.forM (ho _ _ hs.store) fun _ _ h => tearDown_paired hE hH h).bind fun _ _ _ =>
    (log_paired fun _ => rfl).bind fun _ _ _ => .pure rfl

end Session

/-! ## Two engines with different secrets -/

/-- An engine with one torrent, which it never lets go of. -/
def Engine.clinging (id : InfoHash) (why : String) : Engine Unit where
  addMagnet _ e := (.ok 0, e)
  torrent _ _ := ⟨id, "linux", 8, 2, 0, 0, 1⟩
  metadata _ _ := .after 5 (.ok ())
  downloadAll _ e := (.ok (), e)
  cancelPieces _ e := (.ok (), e)
  dropTorrent _ e := (.error (.engine why), e)

theorem Engine.clinging_alike {H : InfoHash → InfoHash → Prop} {id id' : InfoHash}
    (why why' : String) (M : String → String → Prop) (hid : H id id') :
    (clinging id why).Alike (clinging id' why') Eq M H where
  addMagnet _ _ _ _ := ⟨.ok rfl, rfl⟩
  torrent _ _ := ⟨id', hid, rfl⟩
  metadata _ _ := .after (.ok trivial)
  perform _ op _ := by
    cases op with
    | downloadAll | cancelPieces => exact ⟨.ok trivial, rfl⟩
    | dropTorrent => exact ⟨.error rfl, rfl⟩

end HopTorrent
