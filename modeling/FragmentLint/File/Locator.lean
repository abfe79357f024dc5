import FragmentLint.File.Path
import FragmentLint.File.Percent
import FragmentLint.File.Uri

/-!
Contract: a library of identifiers, with a normal form for the common schemes.

Schemes and hosts are in small letters, dots in paths are resolved, and what must not stand in a
place is encoded there. An identifier in normal form is taken apart again without changing it.

Owns: one library of identifiers, in a scope of its own. Whatever deals with identifiers takes any.
Does not own: looking up hosts.
-/

namespace FragmentLint

/-- The parts of an identifier. -/
structure Locator where
  scheme : Text
  /-- What stands between two slashes and the path. -/
  authority : Option Text
  path : Text
  /-- The query and the fragment, with their marks. -/
  suffix : Text
deriving DecidableEq, Repr, Inhabited

namespace Locator

/-- What stands between the scheme and the path. Without a host a dot keeps two slashes at the front
of the path from being read as those of one. -/
def front (locator : Locator) : Text :=
  match locator.authority with
  | some host => '/' :: '/' :: host
  | none => if ['/', '/'].isPrefixOf locator.path then ['/', '.'] else []

def uri (locator : Locator) : Uri :=
  ⟨locator.scheme ++ ':' :: (locator.front ++ locator.path ++ locator.suffix)⟩

def fileScheme : Text := "file".toList

/-- The schemes under which backslashes are slashes and a path is never empty. -/
def slashedSchemes : List Text :=
  ["file".toList, "http".toList, "https".toList, "ws".toList, "wss".toList, "ftp".toList]

def inFragment (c : Char) : Bool := c == ' ' || c == '"' || c == '<' || c == '>' || c == '\x60'

def inPath (c : Char) : Bool := inFragment c || c == '#' || c == '?' || c == '{' || c == '}'

/-- The characters that are encoded in a name that becomes a part of a path. -/
def inName (c : Char) : Bool := inPath c || c == '/' || c == '%' || c == '\\'

def inQuery (slashed : Bool) (c : Char) : Bool :=
  c == ' ' || c == '"' || c == '#' || c == '<' || c == '>' || (slashed && c == '\'')

/-- Whether a character may stand in a scheme behind its first letter. -/
def isSchemeChar (c : Char) : Bool := c.isAlphanum || c == '+' || c == '-' || c == '.'

/-- A part of a path with encoded dots written out. -/
def plainDots (part : Text) : Text :=
  match part with
  | '%' :: '2' :: c :: rest =>
    if c == 'e' || c == 'E' then '.' :: plainDots rest else '%' :: '2' :: c :: rest
  | '.' :: rest => '.' :: plainDots rest
  | other => other

/-- The parts of a path without those that are dots, where two dots take away the part in front of
them; `done` are the parts in front, nearest first. Dots at the end leave an empty part there. -/
def resolveDots (done : List Text) : List Text → List Text
  | [] => done.reverse
  | part :: rest =>
    let plain := plainDots part
    if plain == ['.'] then resolveDots (if rest.isEmpty then [] :: done else done) rest
    else if plain == Path.above then
      resolveDots (if rest.isEmpty then [] :: done.drop 1 else done.drop 1) rest
    else resolveDots (part :: done) rest

/-- A path from its first slash on, in normal form. -/
def normalPath (path : Text) : Text :=
  match path with
  | [] => []
  | _ :: rest =>
    '/' :: Text.joinWith '/'
      ((resolveDots [] (Text.splitAt '/' rest)).map (Percent.encode inPath))

def rooted (path : Text) : Text := if Path.isAbsolute path then path else '/' :: path

def upTo (mark : Char → Bool) (text : Text) : Text × Text :=
  (text.takeWhile (!mark ·), text.dropWhile (!mark ·))

def normalSuffix (slashed : Bool) (query fragment : Text) : Text :=
  let encodeMarked (reserved : Char → Bool) : Text → Text
    | [] => []
    | mark :: rest => mark :: Percent.encode reserved rest
  encodeMarked (inQuery slashed) query ++ encodeMarked inFragment fragment

/-- The parts behind the scheme. Of files the host may be missing; under the other slashed schemes
it may not. -/
def ofParts? (scheme body suffix : Text) : Option Locator :=
  if scheme == fileScheme then
    let slashes := body.map fun c => if c == '\\' then '/' else c
    match slashes with
    | '/' :: '/' :: rest =>
      let (host, path) := upTo (· == '/') rest
      let known := host.map Char.toLower
      some ⟨scheme, some (if known == "localhost".toList then [] else known),
        normalPath (rooted path), suffix⟩
    | path => some ⟨scheme, some [], normalPath (rooted path), suffix⟩
  else if slashedSchemes.contains scheme then
    let slashes := body.map fun c => if c == '\\' then '/' else c
    let (host, path) := upTo (· == '/') (slashes.dropWhile (· == '/'))
    if host.isEmpty then none
    else some ⟨scheme, some (host.map Char.toLower), normalPath (rooted path), suffix⟩
  else
    match body with
    | '/' :: '/' :: rest =>
      let (host, path) := upTo (· == '/') rest
      some ⟨scheme, some host, normalPath path, suffix⟩
    | '/' :: rest => some ⟨scheme, none, normalPath ('/' :: rest), suffix⟩
    | flatPath => some ⟨scheme, none, Percent.encode (fun _ => false) flatPath, suffix⟩

/-- Whether a character at the ends of an identifier is ignored. -/
def isMargin (c : Char) : Bool := c.toNat ≤ 0x20

def read? (written : Text) : Option Locator :=
  let trimmed := ((written.dropWhile isMargin).reverse.dropWhile isMargin).reverse
  let solid := trimmed.filter fun c => c != '\t' && c != '\n' && c != '\r'
  match upTo (· == ':') solid with
  | (c :: scheme, ':' :: rest) =>
    if c.isAlpha && scheme.all isSchemeChar then
      let name := (c :: scheme).map Char.toLower
      let (front, fragment) := upTo (· == '#') rest
      let (body, query) := upTo (· == '?') front
      ofParts? name body (normalSuffix (slashedSchemes.contains name) query fragment)
    else none
  | _ => none

/-- The parts of an identifier in normal form, its query and its fragment aside. -/
def ofNormal (written : Text) : Locator :=
  let (scheme, rest) := upTo (· == ':') written
  let body := (upTo (fun c => c == '?' || c == '#') (rest.drop 1)).1
  match body with
  | '/' :: '/' :: below =>
    let (host, path) := upTo (· == '/') below
    ⟨scheme, some host, path, []⟩
  | '/' :: '.' :: '/' :: '/' :: path => ⟨scheme, none, '/' :: '/' :: path, []⟩
  | path => ⟨scheme, none, path, []⟩

/-- The host of an identifier, without who logs in there and the port. -/
def host (locator : Locator) : Text :=
  let authority := locator.authority.getD []
  ((authority.reverse.takeWhile (· != '@')).reverse).takeWhile (· != ':')

/-- The path of the file that an identifier stands for. -/
def filePath? (locator : Locator) : Option Text :=
  if Path.isAbsolute locator.path
      && (locator.host.isEmpty || locator.host == "localhost".toList) then
    some (Percent.decode locator.path)
  else none

/-- The identifier of the file that a path leads to; `none` for a relative path. -/
def ofPath? (path : Text) : Option Locator :=
  if Path.isAbsolute path then
    some ⟨fileScheme, some [],
      '/' :: Text.joinWith '/' ((Path.parts path).map (Percent.encode inName)), []⟩
  else none

end Locator

/-- The library of the identifiers above. -/
scoped instance Scripts.uris : UriLibrary where
  read? written := (Locator.read? written).map Locator.uri
  ofPath? path := (Locator.ofPath? path).map Locator.uri
  filePath? uri := (Locator.ofNormal uri.text).filePath?

end FragmentLint
