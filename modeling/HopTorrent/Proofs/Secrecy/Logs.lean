import HopTorrent.Proofs.Secrecy.Dial
import HopTorrent.Proofs.Secrecy.Overlapping
import HopTorrent.Proofs.Secrecy.Shutdown

/-!
# Proofs/Secrecy/Logs — what the core logs

The core manages transfers, dials through chains and checks chains, in any order (`Core.Step`).  Two
runs are alike when they are asked for the same, up to magnets of one size, identifiers with the
same ends, the hosts of hops, the targets and the credentials.  Over engines and transports that
behave alike they log the same lines, but that each shutdown may meet the sessions in an order of
its own (`Core.logged_agree`): every step leaves managers that agree (`Core.Step.Alike.next`).
-/

namespace HopTorrent

/-! ## Operations of the manager -/

namespace Session

variable {σ τ : Type} {eng : Engine σ} {eng' : Engine τ} {R : σ → τ → Prop}
  {M : String → String → Prop} {H : InfoHash → InfoHash → Prop}

/-- Two tasks ask for the same, of magnets that are alike and of corresponding identifiers.  A
shutdown meets the sessions in whatever order. -/
inductive Task.Alike (M : String → String → Prop) (H : InfoHash → InfoHash → Prop) :
    Task → Task → Prop
  | add {m m' : String} (h : Magnet.Alike True M m m') : Alike M H (.add m) (.add m')
  | get {id id' : InfoHash} (h : H id id') : Alike M H (.get id) (.get id')
  | list : Alike M H .list .list
  | remove {id id' : InfoHash} (h : H id id') : Alike M H (.remove id) (.remove id')
  | pause {id id' : InfoHash} (h : H id id') : Alike M H (.pause id) (.pause id')
  | resume {id id' : InfoHash} (h : H id id') : Alike M H (.resume id) (.resume id')
  | shutdown {order order' : Order} : Alike M H (.shutdown order) (.shutdown order')

/-- Activities that go alike leave managers that agree. -/
theorem agree_of_paired {α β : Type} {m : Managed σ α} {m' : Managed τ β}
    (h : Paired (Sessions.Alike True R H) m m' fun _ _ => True) {s : Sessions σ} {s' : Sessions τ}
    (hs : s.Alike True R H s') : Sessions.Agree R H (m.run s).2 (m'.run s').2 :=
  (h s s' hs).2.agree

/-- **Tasks that are alike leave managers that agree.** -/
theorem Task.Alike.agree (hE : eng.Alike eng' R M H) (hD : eng.DropsAlike eng' R) (hH : Disguise H)
    {Settled : σ → Handle → Prop} {s : Sessions σ} {s' : Sessions τ} (hf : Filed eng Settled s)
    (hs : s.Alike True R H s') {task task' : Task} (h : task.Alike M H task') (timeout : Nat)
    (now : Int) :
    Sessions.Agree R H ((task.perform eng timeout now).run s).2
      ((task'.perform eng' timeout now).run s').2 := by
  cases h with
  | add hm =>
    exact agree_of_paired ((add_paired hE hH timeout hm now).bind fun _ _ _ => .pure trivial) hs
  | get hid =>
    exact agree_of_paired ((get?_paired hE hH hid now).bind fun _ _ _ => .pure trivial) hs
  | list => exact agree_of_paired ((list_paired hE now).bind fun _ _ _ => .pure trivial) hs
  | remove hid =>
    exact agree_of_paired ((remove_paired hE hH hid).bind fun _ _ _ => .pure trivial) hs
  | pause hid | resume hid =>
    exact agree_of_paired ((switch_paired hE hH _ _ _ hid).bind fun _ _ _ => .pure trivial) hs
  | shutdown => exact shutdown_agree hD hH _ _ hf hs

/-- **Two managers with operations under way agree.** -/
structure Concurrent.Agree (R : σ → τ → Prop) (H : InfoHash → InfoHash → Prop) (c : Concurrent σ)
    (c' : Concurrent τ) : Prop where
  sessions : c.sessions.Agree R H c'.sessions
  adds : List.Forall₂ (Adding.Alike True H) c.adds c'.adds
  lock : c.lock = c'.lock

/-- The manager with an empty record. -/
def Concurrent.afresh (c : Concurrent σ) : Concurrent σ :=
  { c with sessions := { c.sessions with events := [] } }

variable {c : Concurrent σ} {c' : Concurrent τ}

theorem Concurrent.Alike.agree (h : c.Alike True R H c') : c.Agree R H c' :=
  ⟨h.sessions.agree, h.adds, h.lock⟩

/-- Managers that agree are alike once their records are emptied. -/
theorem Concurrent.Agree.afresh (h : c.Agree R H c') : c.afresh.Alike True R H c'.afresh :=
  ⟨⟨h.sessions.engine, h.sessions.store, fun _ => .nil⟩, h.adds, h.lock⟩

end Session

/-! ## Runs of the core -/

namespace Core

open Session (Concurrent)

/-- Something that happens in the core. -/
inductive Step (σ : Type) where
  /-- A whole operation of the manager, nothing else happening meanwhile. -/
  | manage (task : Session.Task) (now : Int)
  /-- One section of an operation that may overlap others. -/
  | act (a : Session.Action)
  /-- The engine moves on by itself. -/
  | drift (f : σ → σ)
  /-- A dial with an explicit number of attempts. -/
  | dialWith (d : Chain.Setup) (network target : String) (attempts : Nat)
  /-- A dial that may be cancelled. -/
  | dialUntil (d : Chain.Setup) (cancelAt : Option Nat) (network target : String)
  /-- A check of each hop on its own. -/
  | probeHops (d : Chain.Setup)
  /-- A check of the whole route. -/
  | probeRoute (d : Chain.Setup)
  | health (d : Chain.Setup)

/-- What a dial or a check tells the log. -/
def told {α : Type} (d : Timeline DialEvent α) : List Log.Line := DialEvent.lines (d.run 0).events

section

variable {σ : Type} (eng : Engine σ) (timeout : Nat)

/-- The manager after a step, with the record of that step alone; dials and checks leave it as it
was. -/
def Step.next (c : Concurrent σ) : Step σ → Concurrent σ
  | .manage task now => c.afresh.exclusively (task.perform eng timeout now)
  | .act a => c.afresh.step eng a
  | .drift f => { c with sessions := ⟨f c.sessions.engine, c.sessions.store, []⟩ }
  | _ => c.afresh

/-- What a step tells the log besides the manager. -/
def Step.told : Step σ → List Log.Line
  | .dialWith d network target attempts => Core.told (d.dialWith network target attempts)
  | .dialUntil d cancelAt network target => Core.told (d.dialUntil cancelAt network target)
  | .probeHops d => Core.told d.probeHops
  | .probeRoute d => Core.told d.probeRoute
  | .health d => Core.told d.health
  | _ => []

/-- **The lines of a step.** -/
def Step.lines (c : Concurrent σ) (step : Step σ) : List Log.Line :=
  SessionEvent.lines (step.next eng timeout c).sessions.events ++ step.told

/-- **The lines of a run**, in order. -/
def logged (c : Concurrent σ) : List (Step σ) → List Log.Line
  | [] => []
  | step :: steps => step.lines eng timeout c ++ logged (step.next eng timeout c) steps

end

/-- **Two steps are alike**: they ask for the same, of magnets of one size that are related by `M`,
of identifiers that correspond by `H`, through chains that are alike, and to targets that proxies
can be asked for alike; and the transports answer alike.  An engine that moves on by itself leaves
settled what is.  A shutdown that is done as a whole meets the sessions in any order; one that is
done in sections, between which anything may happen, meets them in orders that are alike. -/
inductive Step.Alike {σ τ : Type} (eng : Engine σ) (Settled : σ → Handle → Prop) (R : σ → τ → Prop)
    (M : String → String → Prop) (H : InfoHash → InfoHash → Prop) : Step σ → Step τ → Prop
  | manage {task task' : Session.Task} {now : Int} (h : task.Alike M H task') :
    Alike eng Settled R M H (.manage task now) (.manage task' now)
  | act {a a' : Session.Action} (h : a.Alike True M H a') :
    Alike eng Settled R M H (.act a) (.act a')
  | drift {f : σ → σ} {f' : τ → τ} (h : ∀ e e', R e e' → R (f e) (f' e'))
      (hk : eng.KeepsSettled Settled f) :
    Alike eng Settled R M H (.drift f) (.drift f')
  | dialWith {d d' : Chain.Setup} {network target target' : String} {attempts : Nat}
      (hd : d.AlikeDialed d') (ht : Socks.Encodable target ↔ Socks.Encodable target')
      (ha : d.AnswerDial d' attempts network target target') :
    Alike eng Settled R M H (.dialWith d network target attempts)
      (.dialWith d' network target' attempts)
  | dialUntil {d d' : Chain.Setup} {cancelAt : Option Nat} {network target target' : String}
      (hd : d.AlikeDialed d') (ht : Socks.Encodable target ↔ Socks.Encodable target')
      (ha : d.AnswerDial d' d.policy.maxAttempts network target target') :
    Alike eng Settled R M H (.dialUntil d cancelAt network target)
      (.dialUntil d' cancelAt network target')
  | probeHops {d d' : Chain.Setup} (hd : d.Alike d') (ha : d.AnswerProbes d') :
    Alike eng Settled R M H (.probeHops d) (.probeHops d')
  | probeRoute {d d' : Chain.Setup} (hd : d.AlikeDialed d')
      (ha : d.AnswerDial d' 1 "tcp" d.policy.probeAddress d'.policy.probeAddress) :
    Alike eng Settled R M H (.probeRoute d) (.probeRoute d')
  | health {d d' : Chain.Setup} (hd : d.Alike d') (ha : d.AnswerProbes d') :
    Alike eng Settled R M H (.health d) (.health d')

variable {σ τ : Type} {eng : Engine σ} {eng' : Engine τ} {Settled : σ → Handle → Prop}
  {R : σ → τ → Prop} {M : String → String → Prop} {H : InfoHash → InfoHash → Prop}

/-! ### One step -/

/-- Activities that go alike tell the same. -/
theorem told_eq {α β : Type} {A : α → β → Prop} {d : Timeline DialEvent α}
    {d' : Timeline DialEvent β} (h : Timeline.Alike DialEvent.Alike A d d') : told d = told d' :=
  DialEvent.lines_eq (h.run 0).1

/-- **Dials and checks that are alike tell the same.** -/
theorem Step.Alike.told_eq {step : Step σ} {step' : Step τ}
    (h : step.Alike eng Settled R M H step') : step.told = step'.told := by
  cases h with
  | manage | act | drift => rfl
  | dialWith hd ht ha => exact Core.told_eq (Chain.Setup.dialWith_alike hd ht ha)
  | dialUntil hd ht ha => exact Core.told_eq (Chain.Setup.dialUntil_alike hd ht ha _)
  | probeHops hd ha => exact Core.told_eq (Chain.Setup.probeHops_alike hd ha)
  | probeRoute hd ha => exact Core.told_eq (Chain.Setup.probeRoute_alike hd ha)
  | health hd ha => exact Core.told_eq (Chain.Setup.health_alike hd ha)

/-- **Steps that are alike leave managers that agree.** -/
theorem Step.Alike.next (hE : eng.Alike eng' R M H) (hD : eng.DropsAlike eng' R) (hH : Disguise H)
    (timeout : Nat) {c : Concurrent σ} {c' : Concurrent τ}
    (hf : Session.Filed eng Settled c.sessions) (hc : c.Agree R H c') {step : Step σ}
    {step' : Step τ} (h : step.Alike eng Settled R M H step') :
    (step.next eng timeout c).Agree R H (step'.next eng' timeout c') := by
  cases h with
  | manage ht =>
    rw [Step.next, Step.next, Concurrent.exclusively, Concurrent.exclusively, ← hc.afresh.lock]
    cases c.afresh.lock with
    | some holder => exact hc.afresh.agree
    | none =>
      exact ⟨ht.agree hE hD hH (s := c.afresh.sessions) hf hc.afresh.sessions timeout _, hc.adds,
        hc.lock⟩
  | act ha => exact (hc.afresh.step hE hH ha).agree
  | drift h => exact ⟨⟨h _ _ hc.sessions.engine, hc.sessions.store, .nil⟩, hc.adds, hc.lock⟩
  | dialWith | dialUntil | probeHops | probeRoute | health => exact hc.afresh.agree

/-- **A step keeps every session filed.** -/
theorem Step.Alike.filed (hS : eng.Settles Settled) (timeout : Nat) {c : Concurrent σ}
    (hf : Session.Filed eng Settled c.sessions) {step : Step σ} {step' : Step τ}
    (h : step.Alike eng Settled R M H step') :
    Session.Filed eng Settled (step.next eng timeout c).sessions := by
  cases h with
  | @manage task =>
    rw [Step.next, Concurrent.exclusively]
    cases c.afresh.lock with
    | some holder => exact hf
    | none => exact Session.Filed.task hS (s := c.afresh.sessions) hf timeout _ task
  | @act a => exact Session.Filed.act hS (c := c.afresh) hf a
  | drift _ hk => exact hf.drift hk
  | dialWith | dialUntil | probeHops | probeRoute | health => exact hf

/-- **Steps that are alike log what agrees**, one after another. -/
theorem logged_agree_of_agree (hE : eng.Alike eng' R M H) (hD : eng.DropsAlike eng' R)
    (hS : eng.Settles Settled) (hH : Disguise H) (timeout : Nat) {c : Concurrent σ}
    {c' : Concurrent τ} (hf : Session.Filed eng Settled c.sessions) (hc : c.Agree R H c')
    {steps : List (Step σ)} {steps' : List (Step τ)}
    (h : List.Forall₂ (Step.Alike eng Settled R M H) steps steps') :
    Log.Agree (logged eng timeout c steps) (logged eng' timeout c' steps') := by
  induction h generalizing c c' with
  | nil => exact .nil
  | cons hstep _ ih =>
    have hnext := hstep.next hE hD hH timeout hf hc
    rw [logged, logged, Step.lines, Step.lines, hstep.told_eq]
    exact (hnext.sessions.lines.append (.refl _)).append (ih (hstep.filed hS timeout hf) hnext)

/-! ### Two runs with different secrets -/

/-- The identifiers of the torrents of a run: some middle between the ends of each. -/
def veiled (middle : UInt8) (h : Handle) : InfoHash :=
  ⟨Vector.ofFn fun i => if 2 ≤ i ∧ i < 18 then middle else if h = 0 then 0xab else 0xcd⟩

/-- The identifiers of one torrent in two runs correspond. -/
def Veiled (a b : InfoHash) : Prop := ∃ h, a = veiled 1 h ∧ b = veiled 2 h

theorem disguise_veiled : Disguise Veiled where
  oneToOne := by
    rintro _ _ _ _ ⟨h, rfl, rfl⟩ ⟨g, rfl, rfl⟩
    unfold veiled
    by_cases hh : h = 0 <;> by_cases hg : g = 0 <;> simp only [hh, hg, if_true, if_false] <;> decide
  ends := by
    rintro _ _ ⟨h, rfl, rfl⟩
    unfold veiled
    by_cases hh : h = 0 <;> simp only [hh, if_true, if_false] <;> decide

/-- Two transfers are added and one is paused; a dial, a check and a shutdown follow while another
add waits. -/
def errands (magnet : String) (id : InfoHash) (d : Chain.Setup) (target : String)
    (order : Session.Order) : List (Step Nat) :=
  [.manage (.add magnet) 0, .manage (.add magnet) 0, .manage (.pause id) 1, .act (.begin magnet),
    .dialUntil d none "tcp" target, .probeHops d, .manage (.shutdown order) 2,
    .act (.resolve 0 .timedOut), .act (.conclude 0 3)]

/-- A run with one set of secrets. -/
def plain : List (Step Nat) :=
  errands "magnet:?xt=first" (veiled 1 0) .onion "tracker:6969" .asPut

/-- The same run with another set, and another order of the sessions. -/
def altered : List (Step Nat) :=
  errands "magnet:?xt=other" (veiled 2 0) .garlic "10.9.8.7:80"
    ⟨fun store => store.entries.reverse, fun _ => List.reverse_perm _⟩

theorem plain_alike :
    List.Forall₂ (Step.Alike (.hoarding (veiled 1) "busy") (fun _ _ => True) Eq (fun _ _ => True)
      Veiled) plain altered := by
  have hm : Magnet.Alike True (fun _ _ => True) "magnet:?xt=first" "magnet:?xt=other" :=
    ⟨by decide, fun _ => by decide, fun _ => trivial⟩
  have hid : Veiled (veiled 1 0) (veiled 2 0) := ⟨0, rfl, rfl⟩
  refine .cons (.manage (.add hm)) <| .cons (.manage (.add hm)) <| .cons (.manage (.pause hid)) <|
    .cons (.act (.begin hm)) <|
    .cons (.dialUntil Chain.Setup.onion_alike (by decide) fun _ _ _ _ _ _ _ _ _ =>
      Chain.Setup.onion_answers _ _ _ _ _ _) <|
    .cons (.probeHops Chain.Setup.onion_alike.toAlike fun _ _ _ _ _ =>
      Chain.Setup.onion_answers _ _ _ _ _ _) <|
    .cons (.manage .shutdown) <| .cons (.act (.resolve .timedOut)) <|
    .cons (.act .conclude) .nil

/-- **Logs tell no secrets.**  Let two engines behave alike, also when torrents are discarded in
different orders, and let identifiers be settled once a torrent was started.  Two runs that begin in
states that are related and are made of steps that are alike log the same lines, up to the order of
the lines of each shutdown on the torrents that were not discarded. -/
theorem logged_agree (hE : eng.Alike eng' R M H) (hD : eng.DropsAlike eng' R)
    (hS : eng.Settles Settled) (hH : Disguise H) (timeout : Nat) {s₀ : σ} {s₀' : τ} (h₀ : R s₀ s₀')
    {steps : List (Step σ)} {steps' : List (Step τ)}
    (h : List.Forall₂ (Step.Alike eng Settled R M H) steps steps') :
    Log.Agree (logged eng timeout (.initial s₀) steps)
      (logged eng' timeout (.initial s₀') steps') := by
  have hc : (Concurrent.initial s₀).Agree R H (.initial s₀') := ⟨⟨h₀, .nil, .nil⟩, .nil, rfl⟩
  exact logged_agree_of_agree hE hD hS hH timeout (Session.filed_initial eng Settled s₀) hc h

/-- Two runs with different secrets, whose shutdowns meet two sessions in different orders: the logs
differ, and agree. -/
theorem logged_agree_altered :
    (Engine.hoarding (veiled 1) "busy").Alike (.hoarding (veiled 2) "disk full") Eq
        (fun _ _ => True) Veiled
      ∧ (Engine.hoarding (veiled 1) "busy").DropsAlike (.hoarding (veiled 2) "disk full") Eq
      ∧ (Engine.hoarding (veiled 1) "busy").Settles (fun _ _ => True)
      ∧ Disguise Veiled
      ∧ List.Forall₂ (Step.Alike (.hoarding (veiled 1) "busy") (fun _ _ => True) Eq
          (fun _ _ => True) Veiled) plain altered
      ∧ logged (.hoarding (veiled 1) "busy") 10 (.initial 0) plain
        ≠ logged (.hoarding (veiled 2) "disk full") 10 (.initial 0) altered
      ∧ Log.Agree (logged (.hoarding (veiled 1) "busy") 10 (.initial 0) plain)
        (logged (.hoarding (veiled 2) "disk full") 10 (.initial 0) altered) := by
  have hid (h : Handle) : Veiled (veiled 1 h) (veiled 2 h) := ⟨h, rfl, rfl⟩
  have hE := Engine.hoarding_alike "busy" "disk full" (fun _ _ => True) hid
  have hD := hE.dropsAlike (Engine.hoarding_dropsApart (veiled 1) "busy")
    (Engine.hoarding_dropsApart (veiled 2) "disk full")
  have hS := Engine.hoarding_settles (veiled 1) "busy"
  exact ⟨hE, hD, hS, disguise_veiled, plain_alike, by decide +kernel,
    logged_agree hE hD hS disguise_veiled 10 rfl plain_alike⟩

end Core

end HopTorrent
