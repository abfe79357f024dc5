import FragmentLint.Editor.Wire
import FragmentLint.Json.Mismatch

/-!
Contract: what an editor tells a language server, and what it is told by it.

Owns: the notifications that the server takes note of, the request for actions, the messages that
it sends of its own accord, and the form of all these in JSON.
Does not own: what the server does about them.
-/

namespace FragmentLint.Server

/-- What an editor tells the server. -/
inductive Notification where
  | initialized
  | didOpen (uri : Uri) (language : Text) (version : Int) (text : Text)
  /-- Each change is the text of the whole document. -/
  | didChange (uri : Uri) (version : Int) (changes : List Text)
  | didClose (uri : Uri)
  | didChangeConfiguration (settings : Json)
deriving Repr

/-- A question for the actions in a range; `only` are the kinds that are wanted, if not all are. -/
structure ActionRequest where
  uri : Uri
  range : Range
  only : Option (List Text)
deriving Repr

/-- What an editor says about itself. -/
structure Introduction where
  settings : Option Json
  root : Option Uri
deriving Repr

/-- What the server tells an editor. -/
inductive Message where
  /-- What is to be shown about a document, and the version of its text if it is open. There is
  nothing to show if a span of the document cannot be shown; then the message never leaves. -/
  | publish (uri : Uri) (diagnostics : Option (List Diagnostic)) (version : Option Int)
  | log (text : String)
deriving DecidableEq, Repr, Inhabited

namespace Message

def method : Message → String
  | publish _ _ _ => "textDocument/publishDiagnostics"
  | log _ => "window/logMessage"

def uri? : Message → Option Uri
  | publish uri _ _ => some uri
  | log _ => none

def integer (value : Int) : Json :=
  if value < 0 then .number (.negative value.natAbs) else .ofNat value.natAbs

/-- What is sent along with the method of a message. -/
def params? : Message → Option Json
  | publish uri diagnostics version => do
    let shown ← diagnostics
    return .record ([("uri", .string uri.text),
        ("diagnostics", .array (shown.map Diagnostic.toJson))]
      ++ (version.map fun number => ("version", integer number)).toList)
  | log text => some (.record [("type", .ofNat 3), ("message", .ofString text)])

end Message

/-- Why what was sent along with a method is refused. -/
inductive ParamsError where
  | missing
  | unexpected (params : Json)
  | mismatch (error : Json.Mismatch)
  | notUri (text : Text)
deriving Repr

namespace ParamsError

def message : ParamsError → String
  | missing => "Missing params field"
  | unexpected params => "Unexpected params: " ++ params.render
  | mismatch error => error.message
  | notUri text =>
    "relative URL without a base: " ++ Text.toString (Text.Quoted.encode text)

end ParamsError

/-- What reads the values that are sent along with a method. -/
abbrev Params (α : Type) := Except ParamsError α

namespace Params

variable [UriLibrary]

def shaped {α : Type} (result : Except Json.Mismatch α) : Params α := result.mapError .mismatch

def uri (value : Json) : Params Uri := do
  let text ← shaped (Json.decodeText value)
  match Uri.read? text with
  | some found => .ok found
  | none => .error (.notUri text)

/-- Something in the field of an object that must have it. -/
def field {α : Type} (key : String) (decode : Json → Params α) (value : Json) : Params α := do
  let found ← shaped (Json.decodeField key .ok value)
  decode found

/-- Something in the field of an object unless it is absent or null. -/
def optionalField {α : Type} (key : String) (decode : Json → Params α) (value : Json) :
    Params (Option α) :=
  match value.field? key.toList with
  | none => .ok none
  | some .null => .ok none
  | some found => (decode found).map some

/-- An object, under the name of the structure that it is expected to be. -/
def structured (name : String) (value : Json) : Params Unit :=
  shaped (Json.decodeObject name (fun _ => .ok ()) value)

def position (value : Json) : Params Position := do
  structured "Position" value
  let line ← field "line" (shaped ∘ Json.decodeNatural) value
  let character ← field "character" (shaped ∘ Json.decodeNatural) value
  return ⟨line, character⟩

def range (value : Json) : Params Range := do
  structured "Range" value
  let start ← field "start" position value
  let stop ← field "end" position value
  return ⟨start, stop⟩

/-- The identifier in the object that names a document. -/
def document (value : Json) : Params Uri := do
  structured "TextDocumentIdentifier" value
  field "uri" uri value

def introduction (value : Json) : Params Introduction := do
  structured "InitializeParams" value
  let root ← optionalField "rootUri" uri value
  let settings ← optionalField "initializationOptions" .ok value
  field "capabilities" (structured "ClientCapabilities") value
  return ⟨settings, root⟩

def opened (value : Json) : Params Notification := do
  structured "TextDocumentItem" value
  let found ← field "uri" uri value
  let language ← field "languageId" (shaped ∘ Json.decodeText) value
  let version ← field "version" (shaped ∘ Json.decodeInteger) value
  let text ← field "text" (shaped ∘ Json.decodeText) value
  return .didOpen found language version text

def change (value : Json) : Params Text := do
  structured "TextDocumentContentChangeEvent" value
  let _ ← optionalField "range" range value
  field "text" (shaped ∘ Json.decodeText) value

def items {α : Type} (decode : Json → Params α) (value : Json) : Params (List α) := do
  let found ← shaped (Json.decodeItems .ok value)
  found.mapM decode

def changed (value : Json) : Params Notification := do
  structured "DidChangeTextDocumentParams" value
  let (found, version) ← field "textDocument"
    (fun inner => do
      let found ← document inner
      let version ← field "version" (shaped ∘ Json.decodeInteger) inner
      return (found, version)) value
  let changes ← field "contentChanges" (items change) value
  return .didChange found version changes

def closed (value : Json) : Params Notification := do
  structured "DidCloseTextDocumentParams" value
  let found ← field "textDocument" document value
  return .didClose found

def actions (value : Json) : Params ActionRequest := do
  structured "CodeActionParams" value
  let found ← field "textDocument" document value
  let wanted ← field "range" range value
  let only ← field "context"
    (fun context => do
      structured "CodeActionContext" context
      let _ ← field "diagnostics" (items .ok) context
      optionalField "only" (items (shaped ∘ Json.decodeText)) context) value
  return ⟨found, wanted, only⟩

end Params

end FragmentLint.Server
