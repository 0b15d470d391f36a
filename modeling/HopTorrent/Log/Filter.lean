import HopTorrent.Log
import HopTorrent.Text.Cut

/-!
# Log/Filter — which lines are written

A filter is a comma-separated list of directives.  A directive is a level for everything, or a
target with a level for what the target names; a target alone stands for every level.  The longest
target decides, and of equal ones the last.  A filter of no directives writes errors only.
-/

namespace HopTorrent.Log

/-- A level for a target; the empty target names everything. -/
structure Directive where
  target : String
  /-- The rank of the least serious level that is written; nothing has rank zero. -/
  rank : Nat
deriving DecidableEq, Repr

/-- What a line must pass to be written. -/
abbrev Filter := List Directive

namespace Filter

/-- The name all targets of the service begin with. -/
def service : String := "b2torrent"

/-- The variable that names a filter. -/
def variableName : String := "RUST_LOG"

/-- The ranks that can be named, by word or by digit. -/
def ranks : List (String × Nat) :=
  [("off", 0), ("error", 1), ("warn", 2), ("info", 3), ("debug", 4), ("trace", 5), ("0", 0),
    ("1", 1), ("2", 2), ("3", 3), ("4", 4), ("5", 5)]

/-- The rank that lets everything pass. -/
def everything : Nat := 5

/-- The rank that a word names, whatever its case. -/
def rank? (word : List Char) : Option Nat := ranks.lookup (String.ofList word).toLower

/-- Whether a character may stand in a target. -/
def isTargetChar (c : Char) : Bool := c.isAlphanum || c = '_' || c = ':' || c = '-'

/-- The directive for a target at a level. -/
def targeted (target : List Char) (rank : Nat) : Option Directive :=
  if target.isEmpty ∨ !target.all isTargetChar then none
  else some ⟨if (rank? target).isSome then "" else String.ofList target, rank⟩

/-- Reads a directive. -/
def directive? (cs : List Char) : Option Directive :=
  match rank? cs with
  | some rank => some ⟨"", rank⟩
  | none =>
    match Text.cutFirst '=' cs with
    | none => targeted cs everything
    | some (target, []) => targeted target everything
    | some (target, level) => (rank? level).bind (targeted target)

/-- Reads a filter. -/
def parse? (text : String) : Option Filter :=
  ((Text.pieces ',' text.toList).filter (!·.isEmpty)).mapM directive?

/-- The more deciding of two directives, the second one being the later. -/
def stronger (a b : Directive) : Directive := if b.target.length < a.target.length then a else b

/-- The rank up to which a filter lets the service write. -/
def threshold (f : Filter) : Nat :=
  if f.isEmpty then Level.error.rank
  else ((f.filter fun d => service.startsWith d.target).foldl stronger ⟨"", 0⟩).rank

/-- **Whether a line is written.** -/
def admits (f : Filter) (l : Line) : Bool := l.level.rank ≤ f.threshold

/-- The filter in force: everything down to debugging on request, else the one that is named, else
everything down to information. -/
def chosen (verbose : Bool) (named : Option String) : Filter :=
  if verbose then [⟨"", Level.debug.rank⟩]
  else (named.bind parse?).getD [⟨"", Level.info.rank⟩]

end Filter

end HopTorrent.Log
