import FragmentLint.Edit
import FragmentLint.Pragma
import FragmentLint.Rule.Site
import FragmentLint.Text.LineTrim

/-!
Contract: when a fragment is useless, and how it is taken away.

A fragment is useless if it holds fewer than two children worth the name, or if it stands directly
in a host element, which takes a list of children anyway. It is taken away only where the value that
its surroundings receive keeps its shape.

Owns: the reasons for a report, the verdict on a site, and the edit that takes a fragment away.
Does not own: walking a tree.
-/

namespace FragmentLint

/-- Why a fragment is useless. -/
inductive Reason where
  | needsMoreChildren
  | childOfHostElement
deriving DecidableEq, Repr, Inhabited

namespace Reason

def id : Reason → String
  | needsMoreChildren => "NeedsMoreChildren"
  | childOfHostElement => "ChildOfHostElement"

def message : Reason → String
  | needsMoreChildren =>
    "Fragments should contain either an expression or at least two children."
  | childOfHostElement => "Passing a fragment to an HTML element is useless."

def ofId? (name : String) : Option Reason :=
  [needsMoreChildren, childOfHostElement].find? (·.id == name)

end Reason

/-- Whether a name is one under which fragments are written out. -/
def Pragmas.nameFragment (pragmas : Pragmas) : ElementName → Bool
  | .identifier word => word == pragmas.fragment
  | .member object property => object.word? == some pragmas.react && property == pragmas.fragment
  | .namespaced _ _ => false

/-- Whether a name is that of a host element: one word of small plain letters. -/
def ElementName.isHost (name : ElementName) : Bool :=
  name.word?.any fun word => !word.isEmpty && word.all fun c => 'a' ≤ c && c ≤ 'z'

/-- Whether an attribute gives its element an identity that has to be kept. -/
def Attribute.isExempt (given : Attribute) : Bool :=
  given.key == some "key".toList

namespace NodeKind

/-- Whether a node is a fragment, in shorthand or by name. -/
def isWrapper (pragmas : Pragmas) : NodeKind → Bool
  | fragment _ => true
  | element found => pragmas.nameFragment found.name
  | _ => false

/-- Whether a node is an element with an attribute that exempts it. -/
def isKeyed (kind : NodeKind) : Bool :=
  kind.element?.any fun found => found.attributes.any Attribute.isExempt

/-- Whether a node is white space over a line end, which is dropped when markup is compiled. -/
def isPadding (kind : NodeKind) : Bool :=
  kind.text?.any fun raw => Text.isBlank raw && raw.contains '\n'

/-- Whether a node is text with something to see in it, or a pair of braces. -/
def isVisibleTextOrContainer : NodeKind → Bool
  | text raw => !Text.isBlank raw
  | container => true
  | _ => false

def isHost (kind : NodeKind) : Bool := kind.element?.any (·.name.isHost)

/-- Whether a node is an element of some component, which may insist on a single child. -/
def isComponent (pragmas : Pragmas) (kind : NodeKind) : Bool :=
  kind.element?.any fun found => !found.name.isHost && !pragmas.nameFragment found.name

end NodeKind

namespace Child

/-- Whether a child is a plain call in braces, which may render any number of nodes. -/
def isCall (child : Child) : Bool :=
  child.kind == .container && child.first == some (.other .call)

/-- Whether a child is a pair of braces without an expression. -/
def isVacant (child : Child) : Bool :=
  child.kind == .container && child.first == some .empty

def counts (child : Child) : Bool := !child.kind.isPadding

end Child

namespace Site

/-- Whether the parent is an element or a fragment. -/
def isInMarkup (site : Site) : Bool := site.parent.any NodeKind.isTagged

def isInHost (site : Site) : Bool := site.parent.any NodeKind.isHost

/-- Whether the parent is an element of a component. -/
def isInComponent (pragmas : Pragmas) (site : Site) : Bool :=
  site.parent.any (NodeKind.isComponent pragmas)

def countedChildren (site : Site) : List Child := site.children.filter Child.counts

/-- Whether a node is a fragment in shorthand around nothing but braces without an expression. -/
def isVacant (site : Site) : Bool :=
  match site.kind, site.children with
  | .fragment _, [only] => only.isVacant
  | _, _ => false

/-- Whether there are fewer than two children; a lone call is taken for many. -/
def hasFewChildren (site : Site) : Bool :=
  match site.countedChildren with
  | [] => true
  | [only] => !only.isCall
  | _ => false

/-- Whether a node is nothing but text and is used as a value, where a string will not do for an
element. -/
def isTextValue (site : Site) : Bool :=
  match site.children with
  | [only] => only.kind.text?.isSome && !site.isInMarkup
  | _ => false

/-- Whether what a node holds may stand without it: there is something, and it is not a lone
expression, unless a host element takes whatever that renders. -/
def holdsSafely (site : Site) : Bool :=
  !site.children.isEmpty
    && match site.countedChildren with
      | [only] => only.kind != .container || site.isInHost
      | _ => true

/-- The reasons to report a node, in the order in which they are reported. -/
def reasons (pragmas : Pragmas) (site : Site) : List Reason :=
  if !site.kind.isWrapper pragmas || site.kind.isKeyed then []
  else
    (if site.isVacant || (site.hasFewChildren && !site.isTextValue && site.holdsSafely)
      then [.needsMoreChildren] else [])
    ++ if site.isInHost then [.childOfHostElement] else []

def isRemovable (pragmas : Pragmas) (site : Site) : Bool :=
  site.isVacant
    || ((site.isInMarkup
        || (!site.children.isEmpty
          && !site.children.any fun child => child.kind.isVisibleTextOrContainer))
      && !site.isInComponent pragmas)

end Site

namespace Tree

/-- The edit that takes a node away, if it may be taken away. A fragment around vacant braces loses
the braces; any other node is replaced by what stands between its tags. -/
def removal (tree : Tree) (pragmas : Pragmas) (site : Site) : Except BadSlice (Option Edit) :=
  if !site.isRemovable pragmas then .ok none
  else if site.isVacant then .ok (some ⟨site.span, "<></>".toList⟩)
  else
    match site.kind.tags? with
    | some tags => do
      let inner ← tree.slice tags.inner
      return some ⟨site.span, Text.trimLines inner⟩
    | none => .ok none

end Tree

/-- A finding of the rule. -/
structure Report where
  /-- The whole fragment, tags included. -/
  range : Span
  reason : Reason
  fix : Option Edit
deriving DecidableEq, Repr, Inhabited

namespace Tree

def judge (tree : Tree) (pragmas : Pragmas) (site : Site) : Except BadSlice (List Report) :=
  (site.reasons pragmas).mapM fun reason => do
    let fix ← tree.removal pragmas site
    return ⟨site.span, reason, fix⟩

/-- The reports on a node if it is an element that names a fragment. -/
def onElement (tree : Tree) (pragmas : Pragmas) (site : Site) : Except BadSlice (List Report) :=
  match site.kind with
  | .element found => if pragmas.nameFragment found.name then tree.judge pragmas site else .ok []
  | _ => .ok []

/-- The reports on a node if it is a fragment in shorthand. -/
def onFragment (tree : Tree) (pragmas : Pragmas) (site : Site) : Except BadSlice (List Report) :=
  match site.kind with
  | .fragment _ => tree.judge pragmas site
  | _ => .ok []

end Tree

def ruleId : String := "jsx-no-useless-fragment"

end FragmentLint
