import HopTorrent.Proofs.Secrecy.Sessions
import HopTorrent.Session.Concurrent

/-!
# Proofs/Secrecy/Overlapping — operations that overlap, over two engines that behave alike

Two managers with operations under way are alike when their adds got equally far
(`Concurrent.Alike`).  Sections of operations that are alike leave them so
(`Concurrent.Alike.step`), in whatever order they come.
-/

namespace HopTorrent.Session

variable {σ τ : Type} {eng : Engine σ} {eng' : Engine τ} {R : σ → τ → Prop}
  {M : String → String → Prop} {H : InfoHash → InfoHash → Prop} {audited : Prop}

/-! ## What is under way -/

/-- Two adds got equally far. -/
inductive Stage.Alike (H : InfoHash → InfoHash → Prop) : Stage → Stage → Prop
  | waiting : Alike H .waiting .waiting
  | waited {w w' : Waited} (h : w.Alike w') : Alike H (.waited w) (.waited w')
  | failed {e e' : Error} (h : e.Alike e') : Alike H (.failed e) (.failed e')
  | ended {r r' : Except Error InfoHash} (h : Concur H r r') : Alike H (.ended r) (.ended r')

/-- Two adds under way are alike. -/
structure Adding.Alike (audited : Prop) (H : InfoHash → InfoHash → Prop) (a a' : Adding) :
    Prop where
  pending : a.pending.Alike audited a'.pending
  stage : a.stage.Alike H a'.stage

/-- **Two managers with operations under way are alike.** -/
structure Concurrent.Alike (audited : Prop) (R : σ → τ → Prop) (H : InfoHash → InfoHash → Prop)
    (c : Concurrent σ) (c' : Concurrent τ) : Prop where
  sessions : c.sessions.Alike audited R H c'.sessions
  adds : List.Forall₂ (Adding.Alike audited H) c.adds c'.adds
  lock : c.lock = c'.lock

/-- Two sections are of the same operations, on magnets that are alike and on corresponding
identifiers; waits end alike, and sessions are met in orders that are alike. -/
inductive Action.Alike (audited : Prop) (M : String → String → Prop)
    (H : InfoHash → InfoHash → Prop) : Action → Action → Prop
  | begin {m m' : String} (h : Magnet.Alike audited M m m') :
    Alike audited M H (.begin m) (.begin m')
  | resolve {i : Nat} {w w' : Waited} (h : w.Alike w') :
    Alike audited M H (.resolve i w) (.resolve i w')
  | conclude {i : Nat} {now : Int} : Alike audited M H (.conclude i now) (.conclude i now)
  | get {id id' : InfoHash} {now : Int} (h : H id id') :
    Alike audited M H (.get id now) (.get id' now)
  | list {now : Int} : Alike audited M H (.list now) (.list now)
  | remove {id id' : InfoHash} (h : H id id') : Alike audited M H (.remove id) (.remove id')
  | pause {id id' : InfoHash} (h : H id id') : Alike audited M H (.pause id) (.pause id')
  | resume {id id' : InfoHash} (h : H id id') : Alike audited M H (.resume id) (.resume id')
  | shutdown {order order' : Order} (h : order.Alike H order') :
    Alike audited M H (.shutdown order) (.shutdown order')

namespace Concurrent

variable {c : Concurrent σ} {c' : Concurrent τ}

/-! ## One section -/

/-- The same adds are under way after the sessions have changed alike. -/
theorem Alike.moved (h : c.Alike audited R H c') {s : Sessions σ} {s' : Sessions τ}
    (hs : s.Alike audited R H s') {lock lock' : Option Holder} (hl : lock = lock') :
    Concurrent.Alike audited R H ⟨s, c.adds, lock⟩ ⟨s', c'.adds, lock'⟩ := ⟨hs, h.adds, hl⟩

/-- Activities side by side leave managers alike. -/
theorem Alike.perform {α β : Type} {Q : α → β → Prop} {m : Managed σ α} {m' : Managed τ β}
    (h : c.Alike audited R H c') (hm : Paired (Sessions.Alike audited R H) m m' Q) :
    (c.perform m).Alike audited R H (c'.perform m') :=
  h.moved (hm _ _ h.sessions).2 h.lock

theorem Alike.exclusively {α β : Type} {Q : α → β → Prop} {m : Managed σ α} {m' : Managed τ β}
    (h : c.Alike audited R H c') (hm : Paired (Sessions.Alike audited R H) m m' Q) :
    (c.exclusively m).Alike audited R H (c'.exclusively m') := by
  rw [Concurrent.exclusively, Concurrent.exclusively, ← h.lock]
  cases c.lock with
  | none => exact h.perform hm
  | some holder => exact h

/-- Adds are taken to alike stages. -/
theorem Alike.advance (h : c.Alike audited R H c') (i : Nat) {p p' : Pending}
    (hp : p.Alike audited p') {stage stage' : Stage} (hs : stage.Alike H stage') :
    (c.advance i p stage).Alike audited R H (c'.advance i p' stage') :=
  ⟨h.sessions, forall₂_set h.adds i ⟨hp, hs⟩, h.lock⟩

/-- The add of a number is there in both managers, equally far, or in none. -/
theorem Alike.add (h : c.Alike audited R H c') (i : Nat) :
    c.adds[i]? = none ∧ c'.adds[i]? = none
      ∨ ∃ p p' stage stage', c.adds[i]? = some ⟨p, stage⟩ ∧ c'.adds[i]? = some ⟨p', stage'⟩
        ∧ p.Alike audited p' ∧ stage.Alike H stage' := by
  have ha := forall₂_getElem? h.adds i
  generalize c.adds[i]? = a at ha ⊢
  generalize c'.adds[i]? = a' at ha ⊢
  cases ha with
  | none => exact .inl ⟨rfl, rfl⟩
  | some ha => exact .inr ⟨_, _, _, _, rfl, rfl, ha.pending, ha.stage⟩

variable (hE : eng.Alike eng' R M H)

include hE

/-- The next session is torn down alike, and shutdowns are over alike. -/
theorem Alike.tearDown (hH : Disguise H) (h : c.Alike audited R H c') {order order' : Order}
    (ho : order.Alike H order') (count : Nat) :
    (c.tearDown eng order count).Alike audited R H (c'.tearDown eng' order' count) := by
  have hs := ho _ _ h.sessions.store
  rw [Concurrent.tearDown, Concurrent.tearDown]
  generalize order.met c.sessions.store = entries at hs ⊢
  generalize order'.met c'.sessions.store = entries' at hs ⊢
  cases hs with
  | nil =>
    have hl : Paired (Sessions.Alike audited R H) (cleared count) (cleared count) _ :=
      log_paired fun _ => rfl
    exact h.moved (hl _ _ h.sessions).2 rfl
  | cons he _ => exact h.moved (tearDown_paired hE hH he _ _ h.sessions).2 rfl

/-- Adds whose metadata came in time get hold of the store alike. -/
theorem Alike.enter (hH : Disguise H) (h : c.Alike audited R H c') (i : Nat) {p p' : Pending}
    (hp : p.Alike audited p') (now : Int) (ha : c.adds[i]? = some ⟨p, .waited .ready⟩)
    (ha' : c'.adds[i]? = some ⟨p', .waited .ready⟩) :
    (c.conclude eng i now).Alike audited R H (c'.conclude eng' i now) := by
  rw [Concurrent.conclude, Concurrent.conclude, ha, ha', ← h.lock]
  cases c.lock with
  | some holder => exact h
  | none =>
    obtain ⟨hr, hs⟩ := enter_paired hE hH hp now _ _ h.sessions
    dsimp only
    generalize (Session.enter eng p now).run c.sessions = out at hr hs ⊢
    generalize (Session.enter eng' p' now).run c'.sessions = out' at hr hs ⊢
    obtain ⟨r, sessions⟩ := out
    obtain ⟨r', sessions'⟩ := out'
    cases hr with
    | ok hid => exact (h.moved hs rfl).advance i hp (.ended (.ok hid))
    | error he => exact (h.moved hs rfl).advance i hp (.failed he)

/-- **Adds whose waits are over go on alike.** -/
theorem Alike.conclude (hH : Disguise H) (h : c.Alike audited R H c') (i : Nat) (now : Int) :
    (c.conclude eng i now).Alike audited R H (c'.conclude eng' i now) := by
  obtain ⟨ha, ha'⟩ | ⟨p, p', stage, stage', ha, ha', hp, hst⟩ := h.add i
  · rw [Concurrent.conclude, Concurrent.conclude, ha, ha']
    exact h
  cases hst with
  | waiting | ended =>
    rw [Concurrent.conclude, Concurrent.conclude, ha, ha']
    exact h
  | failed he =>
    rw [Concurrent.conclude, Concurrent.conclude, ha, ha']
    obtain ⟨hr, hs⟩ := abandon_paired hE hp he _ _ h.sessions
    exact (h.moved hs rfl).advance i hp (.ended hr)
  | waited hw =>
    obtain ⟨hr, hs⟩ := conclude_paired hE hH hp hw now _ _ h.sessions
    cases hw with
    | ready => exact h.enter hE hH i hp now ha ha'
    | failed | timedOut =>
      rw [Concurrent.conclude, Concurrent.conclude, ha, ha']
      exact (h.moved hs h.lock).advance i hp (.ended hr)

/-- **What one section does**: sections that are alike leave managers alike. -/
theorem Alike.step (hH : Disguise H) (h : c.Alike audited R H c') {a a' : Action}
    (ha : a.Alike audited M H a') : (c.step eng a).Alike audited R H (c'.step eng' a') := by
  cases ha with
  | begin hm =>
    obtain ⟨hr, hs⟩ := begin_paired hE hm _ _ h.sessions
    rw [Concurrent.step, Concurrent.step]
    generalize (Session.begin eng _).run c.sessions = out at hr hs ⊢
    generalize (Session.begin eng' _).run c'.sessions = out' at hr hs ⊢
    obtain ⟨r, sessions⟩ := out
    obtain ⟨r', sessions'⟩ := out'
    cases hr with
    | ok hp => exact ⟨hs, List.rel_append h.adds (.cons ⟨hp, .waiting⟩ .nil), h.lock⟩
    | error he => exact ⟨hs, h.adds, h.lock⟩
  | @resolve i w w' hw =>
    rw [Concurrent.step, Concurrent.step]
    obtain ⟨ha, ha'⟩ | ⟨p, p', stage, stage', ha, ha', hp, hst⟩ := h.add i <;> rw [ha, ha']
    · exact h
    cases hst with
    | waiting => exact (h.perform (resolve_paired hp hw)).advance i hp (.waited hw)
    | waited | failed | ended => exact h
  | conclude => exact h.conclude hE hH _ _
  | get hid => exact h.exclusively (get?_paired hE hH hid _)
  | list => exact h.exclusively (list_paired hE _)
  | remove hid => exact h.exclusively (remove_paired hE hH hid)
  | pause hid | resume hid => exact h.exclusively (switch_paired hE hH _ _ _ hid)
  | shutdown ho =>
    rw [Concurrent.step, Concurrent.step, ← h.lock, ← h.sessions.store.size_eq]
    cases c.lock with
    | none => exact h.tearDown hE hH ho _
    | some holder =>
      cases holder with
      | add i => exact h
      | shutdown count => exact h.tearDown hE hH ho _

end Concurrent

end HopTorrent.Session
