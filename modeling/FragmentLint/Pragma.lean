import FragmentLint.Markup.Node
import FragmentLint.Settings.Basic
import FragmentLint.Text.Blank

/-!
Contract: the two names under which fragments are written out in a file.

The name in front of the dot comes from the first annotation in the comments of the file, else from
the settings, else it is `React`; the name behind the dot comes from the settings, else it is
`Fragment`. Both must be identifiers of plain letters.
-/

namespace FragmentLint

/-- Which of the two names is meant. -/
inductive PragmaRole where
  | react
  | fragment
deriving DecidableEq, Repr, Inhabited

/-- A name that is no identifier. -/
structure InvalidPragma where
  role : PragmaRole
  value : Text
deriving DecidableEq, Repr, Inhabited

namespace PragmaRole

def label : PragmaRole → String
  | react => "React"
  | fragment => "Fragment"

end PragmaRole

namespace InvalidPragma

/-- The message about a name that is no identifier. -/
def message (error : InvalidPragma) : String :=
  error.role.label ++ " pragma " ++ Text.toString error.value ++ " is not a valid identifier"

end InvalidPragma

/-- The names under which fragments are written out: `react.fragment`, or `fragment` alone. -/
structure Pragmas where
  react : Text
  fragment : Text
deriving DecidableEq, Repr

namespace Pragmas

/-- The name in front of the dot unless something else is said. -/
def defaultReact : Text := "React".toList

/-- The name behind the dot unless something else is said. -/
def defaultFragment : Text := "Fragment".toList

instance : Inhabited Pragmas := ⟨⟨defaultReact, defaultFragment⟩⟩

/-- What follows the mark of an annotation if the text begins with one: white space and, behind it,
the longest run without white space, which must not be empty. -/
def annotatedHere? (text : Text) : Option Text :=
  let mark := "@jsx".toList
  if mark.isPrefixOf text then
    let behind := text.drop mark.length
    let value := (Text.trimLeft behind).takeWhile (!Text.isBlankChar ·)
    if (Text.lead behind).isEmpty || value.isEmpty then none else some value
  else none

/-- The value of the first annotation in the body of a comment. -/
def annotation? : Text → Option Text
  | [] => none
  | c :: rest =>
    match annotatedHere? (c :: rest) with
    | some value => some value
    | none => annotation? rest

def uptoDot (text : Text) : Text := text.takeWhile (· != '.')

def isStart (c : Char) : Bool := c.isAlpha || c == '_' || c == '$'

/-- Whether a name is an identifier of plain letters, digits, `_` and `$`. Reserved words are not
told apart. -/
def isIdentifier (name : Text) : Bool :=
  match name with
  | [] => false
  | c :: rest => isStart c && rest.all fun c => isStart c || c.isDigit

def validate (role : PragmaRole) (value : Text) : Except InvalidPragma Text :=
  if isIdentifier value then .ok value else .error ⟨role, value⟩

def resolveReact (comments : List Comment) (settings : Settings) : Except InvalidPragma Text :=
  validate .react <|
    match comments.findSome? fun comment => annotation? comment.body with
    | some value => uptoDot value
    | none => settings.pragma?.getD defaultReact

def resolveFragment (settings : Settings) : Except InvalidPragma Text :=
  validate .fragment (settings.fragment?.getD defaultFragment)

/-- Both names; an error about the first one is found first. -/
def resolve (comments : List Comment) (settings : Settings) : Except InvalidPragma Pragmas := do
  let react ← resolveReact comments settings
  let fragment ← resolveFragment settings
  return ⟨react, fragment⟩

/-- A validated name is an identifier, and is the name that was given. -/
theorem validate_eq_ok_iff {role : PragmaRole} {value result : Text} :
    validate role value = .ok result ↔ isIdentifier value = true ∧ result = value := by
  unfold validate
  split
  next identifier =>
    simp only [Except.ok.injEq, identifier, true_and]
    exact eq_comm
  next other => simp [other]

end Pragmas

end FragmentLint
