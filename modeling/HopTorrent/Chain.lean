import HopTorrent.Address
import HopTorrent.Redacted
import HopTorrent.Text.Blank

/-!
# Chain — the proxies a connection passes

A chain is a nonempty list of proxy addresses in a fixed order.  Each connection visits them in an
order of its own (`Chain/Shuffle`).
-/

namespace HopTorrent

/-- A nonempty list of proxy addresses. -/
structure Chain where
  hops : List String
  nonempty : hops ≠ []
  accepted : ∀ hop ∈ hops, Address.accepts hop = true

namespace Chain

/-- The chain of these proxies, if there are any and each is an address. -/
def ofHops (hops : List String) : Except Error Chain :=
  if h : hops = [] then .error (.config "at least one proxy address required")
  else
    match e : hops.find? fun hop => !Address.accepts hop with
    | some hop => .error (.config ("invalid proxy address " ++ Redacted.hop hop))
    | none => .ok ⟨hops, h, fun hop mem => by simpa using List.find?_eq_none.1 e hop mem⟩

/-- The entries of a comma-separated list, trimmed, without the blank ones. -/
def entries (list : String) : List String :=
  (((Text.pieces ',' list.toList).map Text.trimBlanks).filter (!·.isEmpty)).map String.ofList

/-- The chain that a comma-separated list names. -/
def parse (list : String) : Except Error Chain := ofHops (entries list)

/-- The number of hops. -/
def length (c : Chain) : Nat := c.hops.length

/-- **The chain of accepted addresses has exactly these hops**, and no other list makes a chain. -/
theorem ofHops_eq_ok_iff {hops : List String} {c : Chain} :
    ofHops hops = .ok c ↔ hops = c.hops := by
  constructor
  · intro h
    unfold ofHops at h
    split at h
    · cases h
    · split at h
      · cases h
      · cases h
        rfl
  · rintro rfl
    obtain ⟨hops, hne, hacc⟩ := c
    have hnone : hops.find? (fun hop => !Address.accepts hop) = none := by
      rw [List.find?_eq_none]
      intro hop mem
      simp [hacc hop mem]
    unfold ofHops
    rw [dif_neg hne]
    split
    · next e => simp [hnone] at e
    · rfl

end Chain

end HopTorrent
