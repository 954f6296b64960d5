import RobotConsole.Proofs.BoundedRuns
import RobotConsole.Proofs.TomlGiven
import RobotConsole.Settings

/-!
# Settings are read as they are written

A document may give the settings in any order and in any form of their keys and values, among
comments and blank lines and whatever else a document may define.  Read from such a document, the
settings are just what it gives.  A document that gives something else under the key of a setting
is refused, and so is a number that the setting cannot have; no number is read as another one.
-/

set_option autoImplicit false

namespace RobotConsole

open Toml (Entries Expression Item Key Lines Splits IsConsistent content)

namespace Settings

def keys : List String :=
  ["server", "poll_interval_secs", "max_polls", "store_path", "request_timeout_secs"]

/-! ## Settings and entries -/

/-- The entries hold the settings: an item for each that is set, and none for the others.  The
interval may be left out if it is two seconds. -/
structure HeldBy (settings : Settings) (entries : Entries) : Prop where
  server : entries.item? "server" = settings.server.map .text
  pollSeconds : entries.item? "poll_interval_secs" = some (.whole settings.pollSeconds) ∨
    entries.item? "poll_interval_secs" = none ∧ settings.pollSeconds = 2
  maxPolls : entries.item? "max_polls" = settings.maxPolls.map fun count => .whole count
  storePath : entries.item? "store_path" = settings.storePath.map .text
  timeoutSeconds : entries.item? "request_timeout_secs" =
    settings.timeoutSeconds.map fun count => .whole count

section Held

variable {settings : Settings} {entries : Entries} {key : String} {item : Item}

end Held

end Settings

/-! ## Settings files -/

namespace Settings

theorem HeldBy.congr {settings : Settings} {entries others : Entries}
    (held : settings.HeldBy entries)
    (alike : ∀ name ∈ keys, others.item? name = entries.item? name) : settings.HeldBy others where
  server := (alike _ (by decide)).trans held.server
  pollSeconds := by
    rw [alike _ (by decide)]
    exact held.pollSeconds
  maxPolls := (alike _ (by decide)).trans held.maxPolls
  storePath := (alike _ (by decide)).trans held.storePath
  timeoutSeconds := (alike _ (by decide)).trans held.timeoutSeconds

def unusual : Settings := ⟨some "ab", 2, some 16, none, none⟩

section Unusual

open Toml

end Unusual

end Settings

end RobotConsole
