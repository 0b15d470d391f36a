/-!
# Timeline — what happens when

A timeline is an activity as data: it ends with a result, goes on for ever, notes an event, or lets
time pass and goes on.  Bounding its time (`within`) cuts it off at the bound; whatever happens
exactly then still happens.  `run` reads off every event and the result, each with its time.
-/

namespace HopTorrent

/-- An activity with events of type `ε` and a result of type `α`. -/
inductive Timeline (ε α : Type) where
  | done (a : α)
  /-- Nothing happens any more. -/
  | never
  | note (e : ε) (next : Timeline ε α)
  | wait (millis : Nat) (next : Unit → Timeline ε α)

namespace Timeline

variable {ε α β : Type}

/-- One activity after another. -/
def bind (t : Timeline ε α) (f : α → Timeline ε β) : Timeline ε β :=
  match t with
  | done a => f a
  | never => .never
  | note e next => .note e (next.bind f)
  | wait ms next => .wait ms fun u => (next u).bind f

/-- The result seen through a function. -/
def map (f : α → β) (t : Timeline ε α) : Timeline ε β := t.bind fun a => .done (f a)

/-- **Cuts an activity off** when its time is up; no result says that it was cut off. -/
def within (limit : Nat) : Timeline ε α → Timeline ε (Option α)
  | done a => .done (some a)
  | never => .wait limit fun _ => .done none
  | note e next => .note e (next.within limit)
  | wait ms next =>
    if ms ≤ limit then .wait ms fun u => (next u).within (limit - ms)
    else .wait limit fun _ => .done none

/-- An activity seen from outside: its events with their times, and its result with its time if
there is one. -/
structure Record (ε α : Type) where
  events : List (Nat × ε)
  result : Option (Nat × α)

/-- Everything that happens, from time `now` on. -/
def run (now : Nat) : Timeline ε α → Record ε α
  | done a => ⟨[], some (now, a)⟩
  | never => ⟨[], none⟩
  | note e next =>
    let r := next.run now
    ⟨(now, e) :: r.events, r.result⟩
  | wait ms next => (next ()).run (now + ms)

/-! ## Running one activity after another -/

/-- **The second activity starts when the first one ends.** -/
theorem run_bind (t : Timeline ε α) (f : α → Timeline ε β) (now : Nat) :
    (t.bind f).run now
      = match (t.run now).result with
        | some (at_, a) =>
          ⟨(t.run now).events ++ ((f a).run at_).events, ((f a).run at_).result⟩
        | none => ⟨(t.run now).events, none⟩ := by
  induction t generalizing now with
  | done a => simp [bind, run]
  | never => simp [bind, run]
  | note e next ih =>
    simp only [bind, run, ih]
    cases (next.run now).result <;> rfl
  | wait ms next ih => simp only [bind, run, ih]

end Timeline

end HopTorrent
