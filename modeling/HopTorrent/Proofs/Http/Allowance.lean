import HopTorrent.Proofs.Http.Answers

/-!
# Proofs/Http/Allowance — a request and the allowance of its route

A request that is no preflight request uses the allowance of its route once (`handle_limiter`).
Nothing behind the limiter touches the allowances or answers 429 (`inner_limited`), so 429 says that
none was left (`status_eq_429_iff`), and then nothing else is done (`handle_refused`).  The section
on the sessions does not touch the database either (`apart_act`).
-/

namespace HopTorrent

namespace Http

variable {σ α β : Type}

/-! ## Behind the limiter -/

namespace Api

variable {P : α → Prop} {Q : β → Prop}

/-- An activity behind the limiter: it leaves all allowances as they are, and comes to a result of
this kind. -/
def Inner (P : α → Prop) (m : Serving σ α) : Prop :=
  ∀ s, P (m.run s).1 ∧ (m.run s).2.limiter = s.limiter

theorem Inner.pure {a : α} (h : P a) : Inner P (pure a : Serving σ α) := fun _ => ⟨h, rfl⟩

theorem Inner.bind {m : Serving σ α} {f : α → Serving σ β} (hm : Inner P m)
    (hf : ∀ a, P a → Inner Q (f a)) : Inner Q (m >>= f) := by
  intro s
  obtain ⟨ha, hk⟩ := hm s
  obtain ⟨hb, hk'⟩ := hf _ ha (m.run s).2
  exact ⟨hb, hk'.trans hk⟩

theorem inner_onDatabase (m : Storage.Statement α) :
    Inner (fun _ => True) (onDatabase m : Serving σ α) := fun _ => ⟨trivial, rfl⟩

/-- An activity apart from the database, behind the limiter. -/
def Apart (P : α → Prop) (m : Serving σ α) : Prop :=
  ∀ s, P (m.run s).1 ∧ (m.run s).2.limiter = s.limiter ∧ (m.run s).2.database = s.database

theorem Apart.inner {m : Serving σ α} (h : Apart P m) : Inner P m := fun s => ⟨(h s).1, (h s).2.1⟩

theorem Apart.pure {a : α} (h : P a) : Apart P (pure a : Serving σ α) := fun _ => ⟨h, rfl, rfl⟩

theorem Apart.bind {m : Serving σ α} {f : α → Serving σ β} (hm : Apart P m)
    (hf : ∀ a, P a → Apart Q (f a)) : Apart Q (m >>= f) := by
  intro s
  obtain ⟨ha, hl, hd⟩ := hm s
  obtain ⟨hb, hl', hd'⟩ := hf _ ha (m.run s).2
  exact ⟨hb, hl'.trans hl, hd'.trans hd⟩

theorem apart_onSessions (m : Managed σ α) : Apart (fun _ => True) (onSessions m) :=
  fun _ => ⟨trivial, rfl, rfl⟩

theorem apart_log (l : Log.Line) : Apart (fun _ => True) (log l : Serving σ Unit) :=
  fun _ => ⟨trivial, rfl, rfl⟩

theorem apart_logs (ls : List Log.Line) :
    Apart (fun _ => True) (do for l in ls do log l : Serving σ Unit) := by
  induction ls with
  | nil => exact .pure trivial
  | cons l ls ih =>
    simp only [List.forIn_cons, bind_assoc, pure_bind]
    exact (apart_log l).bind fun _ _ => ih

/-- A reply that does not refuse a request for its number. -/
def Unthrottled (r : Reply) : Prop := r.status ≠ 429

/-- **What an endpoint may leave to do**: there is such a reply already, or it is still to come.
Only a change of the settings leaves them to be written. -/
inductive Proceeds : Endpoint → Remainder → Prop
  | replied {e : Endpoint} {rem : Remainder} {r : Reply} (h : rem.reply? = some r)
    (hr : Unthrottled r) : Proceeds e rem
  | clear {count : Nat} : Proceeds .cleanup (.clear count)
  | readSettings : Proceeds .getSettings .readSettings
  | writeSettings {u : SettingsUpdate} : Proceeds (.putSettings u) (.writeSettings u.entries)

theorem unthrottled_ok (body : Json) : Unthrottled (ok body) :=
  (by decide : 200 ≠ 429)

theorem unthrottled_refused {status : Nat} (h : status ≠ 429) (text : String) :
    Unthrottled (refused status text) := h

theorem apart_failed (failure : String) (e : Error) :
    Apart Unthrottled (failed failure e : Serving σ Reply) := by
  cases e with
  | validation d | notFound d => exact .pure (unthrottled_refused (by decide) _)
  | _ => exact (apart_log _).bind fun _ _ => .pure (unthrottled_refused (by decide) _)

variable {e : Endpoint}

theorem apart_after (failure : String) (r : Except Error α) {next : α → Remainder}
    (hn : ∀ a, Proceeds e (next a)) :
    Apart (Proceeds e) (after failure r next : Serving σ Remainder) := by
  cases r with
  | ok a => exact .pure (hn a)
  | error err => exact (apart_failed failure err).bind fun r hr => .pure (.replied rfl hr)

theorem apart_withId (raw : String) {f : InfoHash → Serving σ Remainder}
    (hf : ∀ id, Apart (Proceeds e) (f id)) : Apart (Proceeds e) (withId raw f) := by
  rw [withId]
  cases InfoHash.parse raw with
  | ok id => exact hf id
  | error err => exact .pure (.replied rfl (unthrottled_refused (by decide) _))

/-- An operation on a transfer that is named in a path. -/
theorem apart_named (raw failure : String) (m : InfoHash → Managed σ (Except Error α))
    {next : InfoHash → α → Remainder} (hn : ∀ id a, Proceeds e (next id a)) :
    Apart (Proceeds e)
      (withId raw fun id => do after failure (← onSessions (m id)) (next id)) :=
  apart_withId raw fun id => (apart_onSessions (m id)).bind fun r _ => apart_after failure r (hn id)

theorem apart_checkHealth (b : Backend σ) : Apart (Proceeds e) (checkHealth b) := by
  have hanswer (working : Bool) : Proceeds e (.answer (healthReply working)) :=
    .replied rfl (unthrottled_ok _)
  refine Apart.bind (P := fun _ => True) (fun s => ⟨trivial, rfl, rfl⟩) fun s _ => ?_
  refine Apart.bind (P := fun _ => True) (fun s => ⟨trivial, rfl, rfl⟩) fun _ _ => ?_
  refine (apart_logs _).bind fun _ _ => ?_
  split
  · exact .pure (hanswer true)
  · exact (apart_log _).bind fun _ _ => .pure (hanswer false)
  · exact .pure (hanswer false)

/-- **The section on the sessions is apart from the database**, and behind the limiter. -/
theorem apart_act (b : Backend σ) (now : Int) (e : Endpoint) :
    Apart (Proceeds e) (act b now e) := by
  cases e with
  | add magnet =>
    rw [act]
    split
    · exact .pure (.replied rfl (unthrottled_refused (by decide) _))
    · exact (apart_onSessions _).bind fun r _ =>
        apart_after _ r.1 fun id => .replied rfl (unthrottled_ok _)
  | list =>
    exact (apart_onSessions _).bind fun _ _ => .pure (.replied rfl (unthrottled_ok _))
  | get raw | delete raw | pause raw | resume raw =>
    exact apart_named raw _ _ fun _ _ => .replied rfl (unthrottled_ok _)
  | getSettings => exact .pure .readSettings
  | putSettings u => exact .pure .writeSettings
  | health => exact apart_checkHealth b
  | cleanup => exact (apart_onSessions _).bind fun _ _ => .pure .clear

theorem inner_keep (views : List Snapshot) :
    Inner (fun _ => True) (keep views : Serving σ Unit) := by
  induction views with
  | nil => exact .pure trivial
  | cons view views ih =>
    refine (inner_onDatabase _).bind fun r _ => ?_
    cases r with
    | ok _ => exact ih
    | error e => exact (apart_log _).inner.bind fun _ _ => ih

theorem inner_writeAll (entries : List (String × String)) :
    Inner (fun _ => True) (writeAll entries : Serving σ (Except Error Unit)) := by
  induction entries with
  | nil => exact .pure trivial
  | cons entry entries ih =>
    refine (inner_onDatabase _).bind fun r _ => ?_
    cases r with
    | ok _ => exact ih
    | error e => exact .pure trivial

/-- What has its reply already comes to it. -/
theorem inner_finish_replied {rem : Remainder} {r : Reply} (h : rem.reply? = some r)
    (hr : Unthrottled r) : Inner Unthrottled (finish rem : Serving σ Reply) := by
  cases rem with
  | answer r' =>
    cases h
    exact .pure hr
  | keep views r' =>
    cases h
    exact (inner_keep views).bind fun _ _ => .pure hr
  | forget id r' =>
    cases h
    refine (inner_onDatabase _).bind fun result _ => ?_
    cases result with
    | ok _ => exact .pure hr
    | error e => exact (apart_log _).inner.bind fun _ _ => .pure hr
  | clear | readSettings | writeSettings => cases h

/-- **The section on the database is behind the limiter.** -/
theorem inner_finish {rem : Remainder} (h : Proceeds e rem) :
    Inner Unthrottled (finish rem : Serving σ Reply) := by
  cases h with
  | replied h hr => exact inner_finish_replied h hr
  | clear =>
    refine (inner_onDatabase _).bind fun result _ => ?_
    cases result with
    | ok rows => exact (apart_log _).inner.bind fun _ _ => .pure (unthrottled_ok _)
    | error e => exact (apart_failed _ e).inner
  | readSettings =>
    refine (inner_onDatabase _).bind fun result _ => ?_
    cases result with
    | ok values => exact .pure (unthrottled_ok _)
    | error e => exact (apart_failed _ e).inner
  | @writeSettings u =>
    refine (inner_writeAll u.entries).bind fun result _ => ?_
    cases result with
    | ok _ => exact .pure (unthrottled_ok _)
    | error e => exact (apart_failed _ e).inner

theorem inner_perform (b : Backend σ) (now : Int) (e : Endpoint) :
    Inner Unthrottled (perform b now e) :=
  (apart_act b now e).inner.bind fun _ h => inner_finish h

end Api

namespace Service

open Api (Inner)

variable {b : Backend σ} {now : Int} {req : Request} {s : Service σ}

/-- **Everything behind the limiter** leaves the allowances as they are, and answers no request with
429. -/
theorem inner_limited (b : Backend σ) (now : Int) (req : Request) (route : Option Route) :
    Inner (fun r => r.status ≠ 429) (limited b now req route) := by
  rw [limited]
  split
  · exact .pure (by decide)
  cases Target.ofRequest req route with
  | endpoint e => exact (Api.inner_perform b now e).bind fun r hr => .pure hr
  | badPath | badBody | methodNotAllowed | notFound => exact .pure (by decide)

/-- **A request is refused for its number exactly when its route has no allowance left.** -/
theorem status_eq_429_iff (ho : req.method ≠ "OPTIONS") :
    ((handle b now req).run s).1.status = 429 ↔ s.allows now req = false := by
  rw [run_handle ho, run_throttled, outward_status]
  cases s.allows now req with
  | false => exact iff_of_true rfl rfl
  | true => exact iff_of_false (inner_limited b now req req.route _).1 Bool.noConfusion

/-- **A request uses the allowance of its route once**, whatever it is answered. -/
theorem handle_limiter (ho : req.method ≠ "OPTIONS") :
    ((handle b now req).run s).2.limiter = (s.charged now req).limiter := by
  rw [run_handle ho, run_throttled]
  cases s.allows now req with
  | false => rfl
  | true => exact (inner_limited b now req req.route _).2

/-- **A refused request does nothing** but to use the allowance. -/
theorem handle_refused (ho : req.method ≠ "OPTIONS") (h : s.allows now req = false) :
    (handle b now req).run s
      = (outward req (respond (Api.refused 429 "Rate limit exceeded")), s.charged now req) := by
  rw [run_handle ho, run_throttled, h]
  rfl

/-- A preflight request does nothing, and is never refused. -/
theorem run_preflight (ho : req.method = "OPTIONS") :
    (handle b now req).run s = (sent req.method (withAllow req.route req.method preflight), s) := by
  rw [handle, if_pos ho]
  rfl

end Service

end Http

end HopTorrent
