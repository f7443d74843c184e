import LWorkbench.Editor.Diagnostic
import LWorkbench.Json.Record

/-!
# Settings

A client can switch diagnostics off and limit their number. Settings come as a section of the
client's configuration; every section starts again from the defaults, and a section that cannot be
read changes nothing.

## Main definitions

* `Settings` — what is in force
* `Settings.filter` — the diagnostics that a client gets
* `SettingsSection` — what a client asks for
* `Settings.load` — the settings after an answer of the client
-/

namespace LWorkbench

/-- Which diagnostics a client gets. -/
structure Settings where
  enabled : Bool := true
  maxCount : Nat := 200
  deriving DecidableEq, Repr

/-- A section of a client's configuration. -/
structure SettingsSection where
  enabled : Option Bool
  maxCount : Option Nat
  deriving DecidableEq, Repr

namespace SettingsSection

/-- What a section says about diagnostics. -/
def diagnosticsOfJson? (j : Json) : Option SettingsSection := do
  let fields ← j.recordFields? ["enabled", "maxCount"]
  let enabled ← Json.nullable fields "enabled" Json.bool?
  let maxCount ← Json.nullable fields "maxCount" Json.nat?
  return { enabled, maxCount }

/-- The section that a JSON value stands for. -/
def ofJson? (j : Json) : Option SettingsSection := do
  let fields ← j.recordFields? ["diagnostics"]
  Json.plain fields "diagnostics" diagnosticsOfJson? ⟨none, none⟩

end SettingsSection

namespace Settings

/-- The diagnostics that a client gets, out of all of them. -/
def filter (settings : Settings) (diagnostics : List Diagnostic) : List Diagnostic :=
  if settings.enabled then diagnostics.take settings.maxCount else []

/-- The settings that a section asks for. A limit of zero counts as none. -/
def ofSection (s : SettingsSection) : Settings :=
  { enabled := s.enabled.getD true
    maxCount := (s.maxCount.filter (0 < ·)).getD 200 }

/-- The settings after an answer of the client, of which only the first value is looked at. Without
an answer, and when there is no section that can be read, they stay as they are. -/
def load (settings : Settings) (answer : Option (List Json)) : Settings :=
  match (answer.bind List.head?).bind SettingsSection.ofJson? with
  | some s => ofSection s
  | none => settings

end Settings

end LWorkbench
