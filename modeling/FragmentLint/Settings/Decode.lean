import FragmentLint.Json.Mismatch
import FragmentLint.Json.Reader
import FragmentLint.Settings.Basic

/-!
Contract: settings in JSON.

Keys that mean nothing here are ignored, because the settings may be shared with other tools; a
known key with a value of the wrong shape is refused. Null stands for the absence of anything, and
an array may list the values of a block without their keys.
-/

namespace FragmentLint

/-- Why settings are refused. -/
inductive SettingsError where
  | syntaxError (error : Json.SyntaxError)
  | mismatch (error : Json.Mismatch)
deriving Repr

namespace SettingsError

def reason : SettingsError → String
  | syntaxError error => error.message
  | mismatch error => error.message

def message (error : SettingsError) : String :=
  "malformed react settings: " ++ error.reason

end SettingsError

namespace ReactSettings

/-- The block of settings about how fragments are written. In an array the name in front of the dot
comes first; in an object the name behind it is looked at first. -/
def decode : Json.Decoder ReactSettings
  | .array items => do
    let pragma ← Json.decodeAbsent Json.decodeText items[0]?
    let fragment ← Json.decodeAbsent Json.decodeText items[1]?
    if 2 < items.length then .error (.invalidLength items.length) else return ⟨pragma, fragment⟩
  | .object entries => do
    let block := Json.object entries
    let fragment ← Json.decodeAbsent Json.decodeText (block.field? "fragment".toList)
    let pragma ← Json.decodeAbsent Json.decodeText (block.field? "pragma".toList)
    return ⟨pragma, fragment⟩
  | other => .error (.invalidType other "struct ReactSettings")

end ReactSettings

namespace Settings

def decode : Json.Decoder Settings
  | .null => .ok unset
  | .array items => do
    let react ← Json.decodeAbsent ReactSettings.decode items[0]?
    if 1 < items.length then .error (.invalidLength items.length) else return ⟨react⟩
  | .object entries => do
    let react ← Json.decodeAbsent ReactSettings.decode
      ((Json.object entries).field? "react".toList)
    return ⟨react⟩
  | other => .error (.invalidType other "struct Settings")

def ofJson (value : Json) : Except SettingsError Settings :=
  (decode value).mapError .mismatch

def ofText (text : Text) : Except SettingsError Settings :=
  match Json.read text with
  | .ok value => ofJson value
  | .error error => .error (.syntaxError error)

@[simp] theorem ofJson_null : ofJson .null = .ok unset := rfl

end Settings

end FragmentLint
