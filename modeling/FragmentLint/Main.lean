import FragmentLint.File.Path
import FragmentLint.Grammar.Concrete
import FragmentLint.Inspection

/-!
Contract: the command line. With the path of a file it lists what was found in that file, without
one what was found in a sample.
-/

open FragmentLint Scripts

/-- The listing of a source, or the reason why there is none. -/
def listingOrFailure (dialect : Dialect) (source : Text) : String :=
  match Inspection.listing dialect source with
  | .ok listing => listing
  | .error error => "Parse failed: " ++ error.message ++ "\n"

/-- Lists what was found in a file or in the sample. -/
def main (arguments : List String) : IO Unit := do
  match arguments with
  | [] => IO.print (listingOrFailure .javascript Inspection.sample)
  | path :: _ =>
    let source ← IO.FS.readFile path
    let dialect := (Dialect.ofPath? path.toList).getD .javascript
    IO.print (listingOrFailure dialect source.toList)
