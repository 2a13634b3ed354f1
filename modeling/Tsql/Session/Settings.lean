import Tsql.Session.Basic
import Tsql.Settings.Basic

/-!
# Sessions from settings

A session opened from settings takes its version and its time limit from them.
-/

namespace Tsql

/-- The time limit in milliseconds; zero seconds stand for none. -/
def DatabaseSettings.timeout? (d : DatabaseSettings) : Option Nat :=
  if d.commandTimeoutSecs = 0 then none else some (1000 * d.commandTimeoutSecs)

def Session.ofSettings (types : TypeMap) (d : DatabaseSettings) : Result Session :=
  match Version.read d.version with
  | .ok version => .ok { version, types, timeout := d.timeout? }
  | .error e => .error (.configuration s!"database.version: {e.message}")

end Tsql
