import FragmentLint.Server.State

/-!
Contract: the order in which an editor may talk to a language server, and the answers it gets.

Before the introduction nothing but the introduction is answered, and after the farewell nothing at
all. Everything that is said at the wrong time, or in a wrong form, changes nothing; a request gets
an error, a notification is ignored.

Owns: methods, the phases of a session, and the answer to one call.
Does not own: what the server does once a call is accepted.
-/

namespace FragmentLint.Server

/-- What a server knows how to do under the name of a method. -/
inductive Method where
  | introduction
  | shutdown
  | exit
  | codeAction
  /-- A request that is understood but never answered with a result. -/
  | unsupported
  | notification (decode : Json → Params Notification)
  /-- A notification that is understood but changes nothing. -/
  | ignored
  /-- A notification that is understood in every phase and changes nothing. -/
  | ungated

namespace Method

/-- The requests that are understood but never answered with a result. -/
def unsupportedNames : List String := [
  "textDocument/willSaveWaitUntil", "textDocument/declaration", "textDocument/definition",
  "textDocument/typeDefinition", "textDocument/implementation", "textDocument/references",
  "textDocument/prepareCallHierarchy", "callHierarchy/incomingCalls",
  "callHierarchy/outgoingCalls", "textDocument/prepareTypeHierarchy", "typeHierarchy/supertypes",
  "typeHierarchy/subtypes", "textDocument/documentHighlight", "textDocument/documentLink",
  "documentLink/resolve", "textDocument/hover", "textDocument/codeLens", "codeLens/resolve",
  "textDocument/foldingRange", "textDocument/selectionRange", "textDocument/documentSymbol",
  "textDocument/semanticTokens/full", "textDocument/semanticTokens/full/delta",
  "textDocument/semanticTokens/range", "textDocument/inlineValue", "textDocument/inlayHint",
  "inlayHint/resolve", "textDocument/moniker", "textDocument/completion",
  "completionItem/resolve", "textDocument/diagnostic", "workspace/diagnostic",
  "textDocument/signatureHelp", "codeAction/resolve", "textDocument/documentColor",
  "textDocument/colorPresentation", "textDocument/formatting", "textDocument/rangeFormatting",
  "textDocument/onTypeFormatting", "textDocument/rename", "textDocument/prepareRename",
  "textDocument/linkedEditingRange", "workspace/symbol", "workspaceSymbol/resolve",
  "workspace/willCreateFiles", "workspace/willRenameFiles", "workspace/willDeleteFiles",
  "workspace/executeCommand"]

/-- The notifications that are understood but change nothing. -/
def ignoredNames : List String := [
  "textDocument/willSave", "textDocument/didSave", "workspace/didChangeWorkspaceFolders",
  "workspace/didChangeWatchedFiles", "workspace/didCreateFiles", "workspace/didRenameFiles",
  "workspace/didDeleteFiles", "window/workDoneProgress/cancel"]

section Library

variable [UriLibrary]

def configuration (value : Json) : Params Notification := do
  Params.structured "DidChangeConfigurationParams" value
  let settings ← Params.field "settings" .ok value
  return .didChangeConfiguration settings

def ready (value : Json) : Params Notification := do
  Params.structured "InitializedParams" value
  return .initialized

def opening (value : Json) : Params Notification := do
  Params.structured "DidOpenTextDocumentParams" value
  Params.field "textDocument" Params.opened value

def ofName? (name : String) : Option Method :=
  match name with
  | "initialize" => some introduction
  | "shutdown" => some shutdown
  | "exit" => some exit
  | "textDocument/codeAction" => some codeAction
  | "initialized" => some (notification ready)
  | "textDocument/didOpen" => some (notification opening)
  | "textDocument/didChange" => some (notification Params.changed)
  | "textDocument/didClose" => some (notification Params.closed)
  | "workspace/didChangeConfiguration" => some (notification configuration)
  | "$/cancelRequest" => some ungated
  | other =>
    if unsupportedNames.contains other then some unsupported
    else if ignoredNames.contains other then some ignored
    else none

end Library

end Method

/-- How far a session has come. -/
inductive Phase where
  | waiting
  | running
  | closing
  | finished
deriving DecidableEq, Repr, Inhabited

/-- A session: its phase and what the server knows. -/
structure Session where
  phase : Phase
  state : State

/-- One call of a method. Only requests are answered. -/
structure Call where
  method : String
  params : Option Json
  isRequest : Bool

/-- The answer to a call. -/
inductive Response where
  /-- Notifications have no answer. -/
  | silence
  | result (value : Json)
  | error (code : Int) (message : String)
  /-- There is no answer, since something in it could not be put into words. -/
  | failed
  /-- The session is over. -/
  | exited
deriving Repr

namespace Response

def notInitialized : Response := error (-32002) "Server not initialized"

/-- The answer to a request that comes too late, or once too often. -/
def invalidRequest : Response := error (-32600) "Invalid request"

/-- The answer to a request that is not known or not supported. -/
def methodNotFound : Response := error (-32601) "Method not found"

/-- The answer to a request with unsuitable parameters. -/
def invalidParams (reason : ParamsError) : Response := error (-32602) reason.message

end Response

/-- What comes of a call. -/
structure Outcome where
  session : Session
  response : Response
  sent : List Message

namespace Session

def fresh : Session := ⟨.waiting, .fresh⟩

instance : Inhabited Session := ⟨fresh⟩

def capabilities : Json :=
  .record [
    ("capabilities", .record [
      ("textDocumentSync", .ofNat 1),
      ("codeActionProvider", .record [("codeActionKinds", .array
        [.ofString ActionKind.quickFix.id, .ofString ActionKind.fixAll.id])])]),
    ("serverInfo", .record [("name", .ofString "jsx-lint"), ("version", .ofString "0.1.0")])]

/-- A call that changes nothing; only a request gets the answer. -/
def refuse (session : Session) (call : Call) (response : Response) : Outcome :=
  ⟨session, if call.isRequest then response else .silence, []⟩

def refusePhase (session : Session) (call : Call) : Outcome :=
  session.refuse call
    (if session.phase == .waiting then .notInitialized else .invalidRequest)

def decoded {α : Type} (decode : Json → Params α) (call : Call) : Params α :=
  match call.params with
  | none => .error .missing
  | some .null => .error .missing
  | some params => decode params

section Library

variable [SyntaxParser] [UriLibrary]

def introduce (session : Session) (call : Call) : Outcome :=
  if session.phase != .waiting then session.refuse call .invalidRequest
  else if !call.isRequest then session.refuse call .silence
  else
    match decoded Params.introduction call with
    | .error reason => session.refuse call (.invalidParams reason)
    | .ok introduced =>
      ⟨⟨.running, session.state.introduce introduced⟩, .result capabilities, []⟩

/-- The farewell of an editor, after which it may only leave. -/
def shutdown (session : Session) (call : Call) : Outcome :=
  if session.phase != .running then session.refusePhase call
  else
    let closing : Session := { session with phase := .closing }
    match call.params with
    | none => closing.refuse call (.result .null)
    | some .null => closing.refuse call (.result .null)
    | some params => closing.refuse call (.invalidParams (.unexpected params))

def codeAction (session : Session) (call : Call) : Outcome :=
  match decoded Params.actions call with
  | .error reason => session.refuse call (.invalidParams reason)
  | .ok request =>
    match session.state.actions? request with
    | none => session.refuse call .failed
    | some [] => session.refuse call (.result .null)
    | some found => session.refuse call (.result (.array (found.map Action.toJson)))

/-- A notification that may change what the server knows. -/
def notified (disk : Disk) (session : Session) (decode : Json → Params Notification)
    (call : Call) : Outcome :=
  match decoded decode call with
  | .error _ => ⟨session, .silence, []⟩
  | .ok notification =>
    let (state, sent) := session.state.notify disk notification
    ⟨{ session with state }, .silence, sent⟩

def step (disk : Disk) (session : Session) (call : Call) : Outcome :=
  if session.phase == .finished then ⟨session, .exited, []⟩
  else
    match Method.ofName? call.method with
    | none =>
      session.refuse call (if call.method.startsWith "$/" then .silence else .methodNotFound)
    | some .exit => ⟨{ session with phase := .finished }, .silence, []⟩
    | some .ungated => ⟨session, .silence, []⟩
    | some .introduction => session.introduce call
    | some .shutdown => session.shutdown call
    | some .codeAction =>
      if session.phase == .running then session.codeAction call else session.refusePhase call
    | some .unsupported =>
      if session.phase == .running then
        session.refuse call
          (if (decoded .ok call).isOk then .methodNotFound else .invalidParams .missing)
      else session.refusePhase call
    | some (.notification decode) =>
      if session.phase != .running then session.refusePhase call
      else if call.isRequest then ⟨session, .silence, []⟩
      else session.notified disk decode call
    | some .ignored =>
      if session.phase == .running then ⟨session, .silence, []⟩ else session.refusePhase call

end Library

end Session

end FragmentLint.Server
