import FragmentLint.Lint

/-!
Contract: a listing of what was found in a source: its comments, its markup, and the reports on it.

Markup is indented by depth. Texts are shown by their first characters, on one line.
-/

namespace FragmentLint.Inspection

def sample : Text := "/** @jsx React.createElement */
const List = (\x7b items \x7d) => (
  <ul>
    <>\x7bitems.map(item => <li key=\x7bitem.id\x7d>\x7bitem.label\x7d</li>)\x7d</>
  </ul>
);

const Title = () => (
  <React.Fragment>
    <h1>Hello</h1>
  </React.Fragment>
);
".toList

def bounds (span : Span) : String :=
  "[" ++ toString span.start ++ ".." ++ toString span.stop ++ "]"

/-- The number of characters that are shown of a text. -/
def previewLength : Nat := 30

def preview (raw : Text) : Text :=
  (raw.take previewLength).flatMap fun c => if c == '\n' then ['\\', 'n'] else [c]

def label : NodeKind → String
  | .element found => "element <" ++ Text.toString found.name.display ++ ">"
  | .fragment _ => "fragment"
  | .text raw => "text \"" ++ Text.toString (preview raw) ++ "\""
  | .container => "container"
  | .empty => "empty"
  | .other construct => "(" ++ construct.name ++ ")"

/-- The lines for a node and what lies below it, `levels` generations deep at most. -/
def nodeLines (tree : Tree) (indent : String) : (levels : Nat) → (id : Nat) → List String
  | 0, _ => []
  | levels + 1, id =>
    match tree.node? id with
    | none => []
    | some node =>
      (indent ++ label node.kind ++ " " ++ bounds node.span)
        :: node.children.flatMap (nodeLines tree (indent ++ "  ") levels)

def commentLine (comment : Comment) : String :=
  "  " ++ bounds comment.span ++ " " ++ Text.toString (Text.Quoted.encode comment.body)

def reportLine (report : Report) : String :=
  let fix := match report.fix with
    | some edit => Text.toString (Text.Quoted.encode edit.replacement)
    | none => "none"
  "  " ++ bounds report.range ++ " " ++ report.reason.id ++ " fix=" ++ fix

def reportLines (tree : Tree) : List String :=
  match tree.lint .unset with
  | .ok reports => reports.map reportLine
  | .error error => ["  " ++ error.message]

/-- The lines for a tree. No node has more generations below it than there are nodes. -/
def lines (tree : Tree) : List String :=
  ["Parse successful!", "", "Comments:"] ++ tree.comments.map commentLine
    ++ ["", "JSX tree:"] ++ tree.roots.flatMap (nodeLines tree "" tree.size)
    ++ ["", "Reports:"] ++ reportLines tree

/-- The listing of a source, each line with its end. -/
def listing [SyntaxParser] (dialect : Dialect) (source : Text) : Except LintError String :=
  (Tree.ofSource dialect source).map fun tree =>
    String.join ((lines tree).map (· ++ "\n"))

end FragmentLint.Inspection
