import HopTorrent.Error
import HopTorrent.Redacted
import HopTorrent.Text.Hex

/-!
# InfoHash — the identifier of a transfer

Twenty bytes, written as forty hexadecimal digits.  Reading takes digits of either case and writing
uses lower case, so two texts name the same transfer exactly when they agree up to case.
-/

namespace HopTorrent

/-- The identifier of a transfer, derived from its content. -/
structure InfoHash where
  bytes : Vector UInt8 20
deriving DecidableEq, Repr

namespace InfoHash

/-- Length in bytes. -/
def size : Nat := 20

/-- The bytes as a list. -/
def toBytes (h : InfoHash) : Bytes := h.bytes.toList

/-- Forty lowercase digits. -/
def toHex (h : InfoHash) : String := Text.toHex h.toBytes

/-- The identifier with these bytes, if there are twenty of them. -/
def ofBytes? (bs : Bytes) : Option InfoHash :=
  if h : bs.length = 20 then some ⟨⟨bs.toArray, by simp [h]⟩⟩ else none

/-- Reads forty digits of either case. -/
def parse (s : String) : Except Error InfoHash :=
  match (Text.ofHex? s).bind ofBytes? with
  | some h => .ok h
  | none => .error (.validation "info-hash must be 40 hex characters")

/-- The two ends of the identifier, for logs. -/
def redacted (h : InfoHash) : String := Redacted.hash h.toHex

/-- The order of the bytes, first byte first. -/
def compare (a b : InfoHash) : Ordering := List.compareLex Ord.compare a.toBytes b.toBytes

instance : Ord InfoHash := ⟨compare⟩

/-- An identifier has twenty bytes. -/
@[simp] theorem length_toBytes (h : InfoHash) : h.toBytes.length = 20 := by simp [toBytes]

/-- The identifier with the bytes of an identifier is that identifier. -/
@[simp] theorem ofBytes?_toBytes (h : InfoHash) : ofBytes? h.toBytes = some h := by
  rw [ofBytes?, dif_pos h.length_toBytes]
  rfl

end InfoHash

end HopTorrent
