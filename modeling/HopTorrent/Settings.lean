/-!
# Settings — the preferences a user may change

There are five.  Each has a key, under which it is stored and shown, and a field, under which a
request names it.
-/

namespace HopTorrent

/-- A preference. -/
inductive Setting where
  | maxDownloadRate
  | maxUploadRate
  | maxConnections
  | enableTor
  | downloadPath
deriving DecidableEq, Repr

namespace Setting

/-- All preferences, in the order they are stored. -/
def all : List Setting := [maxDownloadRate, maxUploadRate, maxConnections, enableTor, downloadPath]

/-- The key a preference is stored and shown under. -/
def key : Setting → String
  | maxDownloadRate => "max_download_rate"
  | maxUploadRate => "max_upload_rate"
  | maxConnections => "max_connections"
  | enableTor => "enable_tor"
  | downloadPath => "download_path"

/-- The field a request names a preference by. -/
def field : Setting → String
  | maxDownloadRate => "maxDownloadRate"
  | maxUploadRate => "maxUploadRate"
  | maxConnections => "maxConnections"
  | enableTor => "enableTor"
  | downloadPath => "downloadPath"

end Setting

/-- The new values a request gives, missing ones being left alone. -/
structure SettingsUpdate where
  value : Setting → Option String

/-- The keys to store and their values: those of the preferences given a nonempty value. -/
def SettingsUpdate.entries (u : SettingsUpdate) : List (String × String) :=
  Setting.all.filterMap fun s =>
    ((u.value s).filter fun v => !v.isEmpty).map fun v => (s.key, v)

end HopTorrent
