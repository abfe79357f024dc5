import FragmentLint.Grammar.Source
import FragmentLint.Markup.SyntaxNode

/-!
Contract: a parser that hands out the phrases of a source as a concrete tree.

Where a node stands follows from the sizes of the phrases in front of it. White space becomes no
node; words and signs become nodes without a name, and stretches of text between tags nodes with
one. A source that is not well formed becomes one error, all of it.

Owns: one parser, in a scope of its own. Whatever reads sources takes any parser.
-/

namespace FragmentLint

namespace Grammar

/-- The role of a child of a node. -/
def role (parent child : Construct) (isFirst : Bool) : Option Field :=
  match parent, child with
  | .call, .arguments => some .arguments
  | .call, .templateString => if isFirst then some .function else some .arguments
  | .call, .optionalChain => some .optionalChain
  | .call, _ => if isFirst then some .function else none
  | .member, .optionalChain => some .optionalChain
  | .member, _ => if isFirst then some .object else none
  | .subscript, .optionalChain => some .optionalChain
  | .subscript, _ => if isFirst then some .object else none
  | .jsxOpening, .identifier => some .name
  | .jsxOpening, .member => some .name
  | .jsxOpening, .jsxNamespaceName => some .name
  | .jsxSelfClosing, .identifier => some .name
  | .jsxSelfClosing, .member => some .name
  | .jsxSelfClosing, .jsxNamespaceName => some .name
  | _, _ => none

/-- A node without children for a piece of text at a byte offset. -/
def leaf (kind : Construct) (isNamed : Bool) (start : Nat) (text : Text) : SyntaxNode :=
  .mk ⟨kind, isNamed, false, none, ⟨start, start + Text.bytes text⟩⟩ []

/-- A word or a sign that the grammar spells out. -/
def sign (start : Nat) (text : Text) : SyntaxNode :=
  leaf (.unlisted (Text.toString text)) false start text

/-- A node in the role that it has in its parent. -/
def give (parent : Construct) (isFirst : Bool) : SyntaxNode → SyntaxNode
  | .mk info children =>
    .mk { info with field := info.field.or (role parent info.kind isFirst) } children

def giveAll (parent : Construct) : List SyntaxNode → List SyntaxNode
  | [] => []
  | first :: rest => give parent true first :: rest.map (give parent false)

/-- A node with a name and some children, which are given their roles in it. -/
def inner (kind : Construct) (field : Option Field) (span : Span) (children : List SyntaxNode) :
    SyntaxNode :=
  .mk ⟨kind, true, false, field, span⟩ (giveAll kind children)

/-- A node with a delimiter at either end, around nodes that take a number of bytes. -/
def enclosed (kind : Construct) (field : Option Field) (start : Nat) (opening closing : Text)
    (size : Nat) (between : List SyntaxNode) : SyntaxNode :=
  let last := start + Text.bytes opening + size
  inner kind field ⟨start, last + Text.bytes closing⟩
    (sign start opening :: between ++ [sign last closing])

namespace Trivia

/-- The node that a piece of trivia at a byte offset is; white space is none. -/
def concrete (start : Nat) (trivia : Trivia) : List SyntaxNode :=
  match trivia with
  | .space _ => []
  | .line _ => [leaf .comment true start trivia.spell]
  | .block _ => [leaf .comment true start trivia.spell]
  | .hidden _ => [leaf .htmlComment true start trivia.spell]

def concreteAll (start : Nat) : List Trivia → List SyntaxNode
  | [] => []
  | first :: rest => first.concrete start ++ concreteAll (start + Text.bytes first.spell) rest

end Trivia

namespace TagName

/-- The node for a name at a byte offset. -/
def concrete (start : Nat) (field : Option Field) : TagName → SyntaxNode
  | .simple word =>
    .mk ⟨.identifier, true, false, field, ⟨start, start + Text.bytes word⟩⟩ []
  | .member object before after property =>
    let dot := start + Text.bytes object.spell + Text.bytes (Trivia.spellAll before)
    let last := dot + 1 + Text.bytes (Trivia.spellAll after)
    .mk ⟨.member, true, false, field, ⟨start, last + Text.bytes property⟩⟩
      (concrete start (some .object) object
        :: Trivia.concreteAll (start + Text.bytes object.spell) before
        ++ sign dot ['.'] :: Trivia.concreteAll (dot + 1) after
        ++ [.mk ⟨.propertyIdentifier, true, false, some .property,
          ⟨last, last + Text.bytes property⟩⟩ []])
  | .qualified space before after suffix =>
    let colon := start + Text.bytes space + Text.bytes (Trivia.spellAll before)
    let last := colon + 1 + Text.bytes (Trivia.spellAll after)
    .mk ⟨.jsxNamespaceName, true, false, field, ⟨start, last + Text.bytes suffix⟩⟩
      (leaf .identifier true start space
        :: Trivia.concreteAll (start + Text.bytes space) before
        ++ sign colon [':'] :: Trivia.concreteAll (colon + 1) after
        ++ [leaf .identifier true last suffix])

end TagName

namespace Phrase

mutual
/-- The nodes for a phrase at a byte offset. -/
def concrete (start : Nat) : Phrase → List SyntaxNode
  | .token text => [sign start text]
  | .gap trivia => trivia.concrete start
  | .construct kind parts =>
    [inner kind none ⟨start, start + sizeAll parts⟩ (concreteAll start parts)]
  | .name written => [written.concrete start none]
  | .quoted text => [leaf .string true start text]
  | .attr parts =>
    [inner .jsxAttribute none ⟨start, start + sizeAll parts⟩ (concreteAll start parts)]
  | .container inside =>
    [enclosed .jsxExpression none start ['\x7b'] ['\x7d'] (sizeAll inside)
      (concreteAll (start + 1) inside)]
  | .selfClosing inside =>
    [enclosed .jsxSelfClosing none start ['<'] ['/', '>'] (sizeAll inside)
      (concreteAll (start + 1) inside)]
  | .element opening content closing =>
    let contentStart := start + sizeAll opening + 2
    let contentStop := contentStart + sizeAll content
    [inner .jsxElement none ⟨start, contentStop + sizeAll closing + 3⟩
      (enclosed .jsxOpening (some .openTag) start ['<'] ['>'] (sizeAll opening)
          (concreteAll (start + 1) opening)
        :: concreteContent contentStart content
        ++ [enclosed .jsxClosing (some .closeTag) contentStop ['<', '/'] ['>'] (sizeAll closing)
          (concreteAll (contentStop + 2) closing)])]

/-- The nodes for phrases in a row, the first of which stands at a byte offset. -/
def concreteAll (start : Nat) : List Phrase → List SyntaxNode
  | [] => []
  | phrase :: rest => concrete start phrase ++ concreteAll (start + phrase.size) rest

/-- The nodes for what stands between two tags. -/
def concreteContent (start : Nat) : List Phrase → List SyntaxNode
  | [] => []
  | .token text :: rest =>
    leaf .jsxText true start text :: concreteContent (start + Text.bytes text) rest
  | phrase :: rest => concrete start phrase ++ concreteContent (start + phrase.size) rest
end

end Phrase

/-- The concrete tree of a whole source. -/
def concreteRoot (size : Nat) (children : List SyntaxNode) : SyntaxNode :=
  .mk ⟨.program, true, false, none, ⟨0, size⟩⟩ children

/-- The concrete tree of a source. There always is one. -/
def concrete (dialect : Dialect) (source : Text) : SyntaxNode :=
  match phrases? dialect source with
  | some phrases => concreteRoot (Text.bytes source) (Phrase.concreteAll 0 phrases)
  | none => concreteRoot (Text.bytes source) [leaf .error true 0 source]

end Grammar

/-- The parser of this library's own grammar. -/
scoped instance Scripts.parser : SyntaxParser :=
  ⟨fun dialect source => some (Grammar.concrete dialect source)⟩

end FragmentLint
