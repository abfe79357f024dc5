/-!
Contract: half-open ranges of byte offsets.
-/

namespace FragmentLint

/-- The bytes from `start` up to, but not including, `stop`. Nothing forces `start ≤ stop`: spans
also come from outside. -/
structure Span where
  start : Nat
  stop : Nat
deriving DecidableEq, Repr, Inhabited

namespace Span

/-- Whether two spans share a byte or an end: both are taken as closed intervals. -/
def touches (left right : Span) : Bool :=
  left.start ≤ right.stop && right.start ≤ left.stop

end Span

end FragmentLint
