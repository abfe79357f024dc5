import FragmentLint.Proofs.Except
import FragmentLint.Settings.Decode

/-!
Contract: which JSON values are settings.

The documented form is an object with an object in it whose two fields are texts; null may stand for
anything that may be missing. Besides it a list may stand in the place of each of the two objects
(`Listed`). Main statements: `ofJson_eq_ok_iff_documented`, and that a known key with a list is not
refused (`list_is_read_as_block`).

Does not own: what the settings are good for.
-/

namespace FragmentLint

namespace Json

/-- Whether a value is a text. -/
def IsText (value : Json) (text : Text) : Prop := value = string text

/-- Whether a field holds something of a certain form, or nothing because it is missing or null. -/
inductive Optional {α : Type} (Form : Json → α → Prop) : Option Json → Option α → Prop where
  | missing : Optional Form none none
  | null : Optional Form (some null) none
  | present {value : Json} {found : α} (formed : Form value found) :
      Optional Form (some value) (some found)

theorem Optional.imp {α : Type} {Form Other : Json → α → Prop} {field : Option Json}
    {found : Option α} (isOptional : Optional Form field found)
    (implies : ∀ value found, Form value found → Other value found) : Optional Other field found := by
  cases isOptional with
  | missing => exact .missing
  | null => exact .null
  | present formed => exact .present (implies _ _ formed)

theorem decodeText_eq_ok_iff {value : Json} {text : Text} :
    decodeText value = .ok text ↔ IsText value text := by
  cases value <;> simp [decodeText, IsText]

theorem decodeOption_eq_ok_iff {α : Type} {decode : Decoder α} {value : Json}
    (isThere : value ≠ null) {found : Option α} :
    decodeOption decode value = .ok found ↔ ∃ inner, decode value = .ok inner ∧ some inner = found := by
  have present : decodeOption decode value = (decode value).map some := by
    cases value with
    | null => exact absurd rfl isThere
    | _ => rfl
  rw [present]
  cases decode value with
  | error mismatch => simp [Except.map]
  | ok inner => simp [Except.map]

/-- If a form is what a decoder reads, and null does not have it, then the fields with that form or
without anything are what the decoder reads where a field may be missing. -/
theorem decodeAbsent_eq_ok_iff {α : Type} {decode : Decoder α} {Form : Json → α → Prop}
    (reads : ∀ value found, decode value = .ok found ↔ Form value found)
    (notNull : ∀ found, ¬ Form null found) {field : Option Json} {found : Option α} :
    decodeAbsent decode field = .ok found ↔ Optional Form field found := by
  constructor
  · intro decoded
    cases field with
    | none =>
      obtain rfl := Except.ok.inj decoded
      exact .missing
    | some value =>
      by_cases isNull : value = null
      · subst isNull
        obtain rfl := Except.ok.inj decoded
        exact .null
      · obtain ⟨inner, read, rfl⟩ := (decodeOption_eq_ok_iff isNull).1 decoded
        exact .present ((reads value inner).1 read)
  · intro isOptional
    cases isOptional with
    | missing => rfl
    | null => rfl
    | @present value inner formed =>
      have isThere : value ≠ null := by
        rintro rfl
        exact notNull inner formed
      exact (decodeOption_eq_ok_iff isThere).2 ⟨inner, (reads value inner).2 formed, rfl⟩

theorem decodeAbsent_decodeText_eq_ok_iff {field : Option Json} {found : Option Text} :
    decodeAbsent decodeText field = .ok found ↔ Optional IsText field found :=
  decodeAbsent_eq_ok_iff (fun _ _ => decodeText_eq_ok_iff) (by simp [IsText])

end Json

namespace ReactSettings

/-- Whether a value is the documented form of a block: an object in which each of the two fields is a
text, null or missing, and any others may be what they like. -/
inductive Documented : Json → ReactSettings → Prop where
  | object {entries : List (Text × Json)} {pragma fragment : Option Text}
      (pragmaField : Json.Optional Json.IsText ((Json.object entries).field? "pragma".toList) pragma)
      (fragmentField :
        Json.Optional Json.IsText ((Json.object entries).field? "fragment".toList) fragment) :
      Documented (.object entries) ⟨pragma, fragment⟩

/-- Whether a value is a list of the two fields of a block, from the back of which some may be
missing. -/
inductive Listed : Json → ReactSettings → Prop where
  | array {items : List Json} {pragma fragment : Option Text} (few : items.length ≤ 2)
      (pragmaItem : Json.Optional Json.IsText items[0]? pragma)
      (fragmentItem : Json.Optional Json.IsText items[1]? fragment) :
      Listed (.array items) ⟨pragma, fragment⟩

theorem decode_object_eq_ok_iff {entries : List (Text × Json)} {settings : ReactSettings} :
    decode (.object entries) = .ok settings ↔ Documented (.object entries) settings := by
  simp only [decode, bind_eq_ok_iff, Json.decodeAbsent_decodeText_eq_ok_iff]
  constructor
  · rintro ⟨fragment, fragmentField, pragma, pragmaField, ⟨⟩⟩
    exact .object pragmaField fragmentField
  · rintro ⟨pragmaField, fragmentField⟩
    exact ⟨_, fragmentField, _, pragmaField, rfl⟩

theorem decode_array_eq_ok_iff {items : List Json} {settings : ReactSettings} :
    decode (.array items) = .ok settings ↔ Listed (.array items) settings := by
  simp only [decode, bind_eq_ok_iff, Json.decodeAbsent_decodeText_eq_ok_iff, ite_eq_ok_iff,
    Nat.not_lt]
  constructor
  · rintro ⟨pragma, pragmaItem, fragment, fragmentItem, few, rfl⟩
    exact .array few pragmaItem fragmentItem
  · rintro ⟨few, pragmaItem, fragmentItem⟩
    exact ⟨_, pragmaItem, _, fragmentItem, few, rfl⟩

/-- A block is read if it is in the documented form or a list of its fields. -/
theorem decode_eq_ok_iff {value : Json} {settings : ReactSettings} :
    decode value = .ok settings ↔ Documented value settings ∨ Listed value settings := by
  cases value with
  | object entries =>
    rw [decode_object_eq_ok_iff]
    exact (or_iff_left fun listed => nomatch listed).symm
  | array items =>
    rw [decode_array_eq_ok_iff]
    exact (or_iff_right fun documented => nomatch documented).symm
  | _ =>
    refine iff_of_false (by simp [decode]) ?_
    rintro (documented | listed)
    · cases documented
    · cases listed

end ReactSettings

namespace Settings

/-- Whether a value is the documented form of settings: null, or an object in which the block is in
the documented form, null or missing. -/
inductive Documented : Json → Settings → Prop where
  | null : Documented .null ⟨none⟩
  | object {entries : List (Text × Json)} {react : Option ReactSettings}
      (block : Json.Optional ReactSettings.Documented
        ((Json.object entries).field? "react".toList) react) :
      Documented (.object entries) ⟨react⟩

/-- Whether a value has a list in the place of the settings or of the block in them. -/
inductive Listed : Json → Settings → Prop where
  | array {items : List Json} {react : Option ReactSettings} (few : items.length ≤ 1)
      (block : Json.Optional
        (fun value found => ReactSettings.Documented value found ∨ ReactSettings.Listed value found)
        items[0]? react) :
      Listed (.array items) ⟨react⟩
  | block {entries : List (Text × Json)} {value : Json} {react : ReactSettings}
      (isBlock : (Json.object entries).field? "react".toList = some value)
      (listed : ReactSettings.Listed value react) :
      Listed (.object entries) ⟨some react⟩

/-- Where a block may be missing, it is read in the documented form or as a list. -/
theorem decodeAbsent_decode_eq_ok_iff {field : Option Json} {react : Option ReactSettings} :
    Json.decodeAbsent ReactSettings.decode field = .ok react ↔
      Json.Optional
        (fun value found => ReactSettings.Documented value found ∨ ReactSettings.Listed value found)
        field react := by
  apply Json.decodeAbsent_eq_ok_iff
  · intro value found
    exact ReactSettings.decode_eq_ok_iff
  · rintro found (documented | listed)
    · cases documented
    · cases listed

/-- The block of an object of settings is in the documented form, null or missing, or it is a list. -/
theorem decode_object_eq_ok_iff {entries : List (Text × Json)} {settings : Settings} :
    decode (.object entries) = .ok settings ↔
      Documented (.object entries) settings ∨ Listed (.object entries) settings := by
  simp only [decode, bind_eq_ok_iff, decodeAbsent_decode_eq_ok_iff]
  constructor
  · rintro ⟨react, block, ⟨⟩⟩
    generalize fieldEq : (Json.object entries).field? "react".toList = field at block
    cases block with
    | missing =>
      refine Or.inl (.object ?_)
      rw [fieldEq]
      exact .missing
    | null =>
      refine Or.inl (.object ?_)
      rw [fieldEq]
      exact .null
    | present formed =>
      rcases formed with documented | listed
      · refine Or.inl (.object ?_)
        rw [fieldEq]
        exact .present documented
      · exact Or.inr (.block fieldEq listed)
  · rintro (documented | listed)
    · cases documented with
      | object block => exact ⟨_, block.imp fun _ _ => Or.inl, rfl⟩
    · cases listed with
      | block isBlock listed =>
        rw [isBlock]
        exact ⟨_, .present (Or.inr listed), rfl⟩

theorem decode_array_eq_ok_iff {items : List Json} {settings : Settings} :
    decode (.array items) = .ok settings ↔ Listed (.array items) settings := by
  simp only [decode, bind_eq_ok_iff, decodeAbsent_decode_eq_ok_iff, ite_eq_ok_iff, Nat.not_lt]
  constructor
  · rintro ⟨react, block, few, rfl⟩
    exact .array few block
  · intro listed
    cases listed with
    | array few block => exact ⟨_, block, few, rfl⟩

/-- Settings are read if they are in the documented form or have a list in the place of an object. -/
theorem decode_eq_ok_iff {value : Json} {settings : Settings} :
    decode value = .ok settings ↔ Documented value settings ∨ Listed value settings := by
  cases value with
  | null =>
    have fresh : decode .null = .ok settings ↔ unset = settings := by simp [decode]
    rw [fresh]
    constructor
    · rintro rfl
      exact Or.inl .null
    · rintro (documented | listed)
      · cases documented
        rfl
      · cases listed
  | object entries => exact decode_object_eq_ok_iff
  | array items =>
    rw [decode_array_eq_ok_iff]
    exact (or_iff_right fun documented => nomatch documented).symm
  | _ =>
    refine iff_of_false (by simp [decode]) ?_
    rintro (documented | listed)
    · cases documented
    · cases listed

/-- The documented form has objects where the other one has lists, so no value has both. -/
theorem Documented.not_listed {value : Json} {settings other : Settings}
    (documented : Documented value settings) : ¬ Listed value other := by
  intro listed
  cases documented with
  | null => cases listed
  | object block =>
    cases listed with
    | block isBlock listed =>
      rw [isBlock] at block
      cases listed
      cases block with
      | present formed => cases formed

theorem ofJson_eq_ok_iff {value : Json} {settings : Settings} :
    ofJson value = .ok settings ↔ decode value = .ok settings := by
  unfold ofJson
  cases decode value with
  | error mismatch => exact iff_of_false nofun nofun
  | ok found =>
    show Except.ok found = Except.ok settings ↔ _
    rw [Except.ok.injEq, Except.ok.injEq]

/-- What is read from JSON. The documented form is read, as what it says, whatever other keys there
are. A value with a list in the place of an object is read as well, the items in the order of the
fields; there is nothing else that is read but not documented. All else is refused as a mismatch. -/
theorem ofJson_eq_ok_iff_documented (value : Json) :
    (∀ settings, ofJson value = .ok settings ↔
        Documented value settings ∨ Listed value settings)
      ∧ ((∀ settings, ofJson value = .ok settings ↔ Documented value settings) ↔
          ∀ settings, ¬ Listed value settings)
      ∧ ((∃ mismatch, ofJson value = .error (.mismatch mismatch)) ↔
          ∀ settings, ¬ Documented value settings ∧ ¬ Listed value settings) := by
  have read (settings : Settings) : ofJson value = .ok settings ↔
      Documented value settings ∨ Listed value settings :=
    ofJson_eq_ok_iff.trans decode_eq_ok_iff
  refine ⟨read, ?_, ?_⟩
  · constructor
    · intro asDocumented settings listed
      have documented := (asDocumented settings).1 ((read settings).2 (Or.inr listed))
      exact documented.not_listed listed
    · intro noList settings
      rw [read settings]
      exact or_iff_left (noList settings)
  · simp only [← not_or, ← read]
    unfold ofJson
    cases decode value with
    | error mismatch => exact iff_of_true ⟨mismatch, rfl⟩ fun settings => nofun
    | ok settings =>
      refine iff_of_false nofun ?_
      intro refused
      exact refused settings rfl

/-- A known key with a list instead of an object is not refused: the item of the list is taken for
the name in front of the dot. -/
theorem list_is_read_as_block :
    ofJson (.record [("react", .array [.ofString "h"])])
        = .ok ⟨some ⟨some "h".toList, none⟩⟩
      ∧ ∀ settings, ¬ Documented (.record [("react", .array [.ofString "h"])]) settings := by
  refine ⟨rfl, ?_⟩
  intro settings documented
  exact documented.not_listed
    (.block rfl (.array (by decide) (.present rfl) .missing))

end Settings

end FragmentLint
