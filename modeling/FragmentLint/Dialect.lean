/-!
Contract: the two grammars that source files are written in.
-/

namespace FragmentLint

/-- JavaScript with markup, or TypeScript with markup. -/
inductive Dialect where
  | javascript
  | tsx
deriving DecidableEq, Repr, Inhabited

end FragmentLint
