import FragmentLint.Text

/-!
Contract: the settings that the check takes note of.
-/

namespace FragmentLint

/-- The block of settings about how fragments are written. -/
structure ReactSettings where
  pragma : Option Text
  fragment : Option Text
deriving DecidableEq, Repr

/-- All settings. -/
structure Settings where
  react : Option ReactSettings
deriving DecidableEq, Repr

instance : Inhabited ReactSettings := ⟨⟨none, none⟩⟩

instance : Inhabited Settings := ⟨⟨none⟩⟩

namespace Settings

def unset : Settings := ⟨none⟩

/-- The name in front of the dot that the settings ask for; an empty name asks for none. -/
def pragma? (settings : Settings) : Option Text :=
  (settings.react.bind (·.pragma)).filter (!·.isEmpty)

/-- The name behind the dot that the settings ask for; an empty name asks for none. -/
def fragment? (settings : Settings) : Option Text :=
  (settings.react.bind (·.fragment)).filter (!·.isEmpty)

end Settings

end FragmentLint
