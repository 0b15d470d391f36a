import HopTorrent.Engine
import HopTorrent.Log

/-!
# Engine/Options — what an engine is started with

Everything that would announce the host outside the chain is off unless it is asked for.  The
service itself links no engine: the one it falls back on refuses every torrent.
-/

namespace HopTorrent.Engine

/-- What an engine is started with. -/
structure Options where
  /-- Where downloads go. -/
  dataDir : String
  /-- No distributed hash table. -/
  disableDht : Bool
  /-- No exchange of peers. -/
  disablePex : Bool
  /-- No version 6 peers. -/
  disableIpv6 : Bool
  /-- Whether to go on uploading what is complete. -/
  seed : Bool
  /-- Open connections per torrent. -/
  established : Nat
  /-- Connections per torrent that are being opened. -/
  halfOpen : Nat
  /-- So many known peers are too many. -/
  highWater : Nat
  /-- So few known peers are too few. -/
  lowWater : Nat
deriving DecidableEq, Repr

namespace Options

/-- Options that announce nothing. -/
def private_ (dataDir : String) : Options := ⟨dataDir, true, true, true, false, 50, 25, 100, 50⟩

/-- The options as named fields, the limits on known peers left out. -/
def fields (o : Options) : List (String × String) :=
  [("data_dir", Text.quoted o.dataDir), ("disable_dht", toString o.disableDht),
    ("disable_pex", toString o.disablePex), ("disable_ipv6", toString o.disableIpv6),
    ("seed", toString o.seed), ("established_conns_per_torrent", toString o.established),
    ("half_open_conns_per_torrent", toString o.halfOpen)]

/-- The options on one line; two dots stand for what is left out. -/
def render (o : Options) : String :=
  "EngineConfig \x7b " ++ String.join (o.fields.map fun (name, v) => name ++ ": " ++ v ++ ", ")
    ++ ".. \x7d"

end Options

/-- What the log says when the service falls back on no engine. -/
def unlinkedNotice : Log.Line := Log.warn "No torrent engine linked; adds will be rejected" []

/-- **No engine**: every torrent is refused, so there is never a handle to ask about. -/
def unlinked : Engine Unit where
  addMagnet _ s := (.error (.engine "no torrent engine linked into this build"), s)
  torrent _ _ := ⟨⟨Vector.replicate 20 0⟩, "", 0, 0, 0, 0, 0⟩
  metadata _ _ := .never
  downloadAll _ s := (.ok (), s)
  cancelPieces _ s := (.ok (), s)
  dropTorrent _ s := (.ok (), s)

end HopTorrent.Engine
