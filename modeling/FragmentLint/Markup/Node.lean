import FragmentLint.Grammar.Construct
import FragmentLint.Span
import FragmentLint.Text

/-!
Contract: the nodes of markup: elements, fragments, and what stands in them.

Owns: names, attributes and tags of elements, and the kinds of nodes.
Does not own: how nodes hang together.
-/

namespace FragmentLint

/-- The name of an element, without the white space and comments that it was written with. -/
inductive ElementName where
  | identifier (word : Text)
  | member (object : ElementName) (property : Text)
  | namespaced (space suffix : Text)
deriving DecidableEq, Repr, Inhabited

namespace ElementName

/-- The word that a name consists of, if it is a single one. -/
def word? : ElementName → Option Text
  | identifier word => some word
  | member _ _ => none
  | namespaced _ _ => none

/-- A name in one piece, with dots and colons between its words. -/
def display : ElementName → Text
  | identifier word => word
  | member object property => object.display ++ '.' :: property
  | namespaced space suffix => space ++ ':' :: suffix

end ElementName

/-- What an attribute is set to. -/
inductive AttributeValue where
  /-- A string, quotes included. -/
  | literal (text : Text)
  /-- Something in braces. -/
  | expression
  /-- An element without braces around it. -/
  | element
deriving DecidableEq, Repr, Inhabited

/-- An attribute of an element. -/
structure Attribute where
  /-- The name of the attribute; a spread has none. -/
  key : Option Text
  value : Option AttributeValue
  span : Span
deriving DecidableEq, Repr, Inhabited

/-- The delimiters of an element or a fragment. -/
structure Tags where
  opening : Span
  /-- The closing tag; an element that closes itself has none. -/
  closing : Option Span
deriving DecidableEq, Repr, Inhabited

namespace Tags

def isSelfClosing (tags : Tags) : Bool := tags.closing.isNone

/-- What stands strictly between the tags; nothing if there is only one. -/
def inner (tags : Tags) : Span :=
  match tags.closing with
  | some closing => ⟨tags.opening.stop, closing.start⟩
  | none => ⟨tags.opening.stop, tags.opening.stop⟩

end Tags

/-- An element: its name, its attributes and its tags. -/
structure Element where
  name : ElementName
  attributes : List Attribute
  tags : Tags
deriving DecidableEq, Repr, Inhabited

/-- What a node is. -/
inductive NodeKind where
  | element (element : Element)
  /-- A fragment in shorthand, with nameless tags. -/
  | fragment (tags : Tags)
  /-- Text between tags, white space included. -/
  | text (raw : Text)
  /-- A pair of braces; its one child is what stands between them. -/
  | container
  /-- The nothing between braces that hold no expression. -/
  | empty
  /-- Anything that is not markup. -/
  | other (construct : Grammar.Construct)
deriving DecidableEq, Repr, Inhabited

namespace NodeKind

def element? : NodeKind → Option Element
  | element found => some found
  | _ => none

def tags? : NodeKind → Option Tags
  | element found => some found.tags
  | fragment tags => some tags
  | _ => none

def text? : NodeKind → Option Text
  | text raw => some raw
  | _ => none

def isTagged : NodeKind → Bool
  | element _ => true
  | fragment _ => true
  | _ => false

theorem isSome_tags? (kind : NodeKind) : kind.tags?.isSome = kind.isTagged := by
  cases kind <;> rfl

end NodeKind

/-- A comment, without its delimiters. -/
structure Comment where
  span : Span
  body : Text
deriving DecidableEq, Repr, Inhabited

end FragmentLint
