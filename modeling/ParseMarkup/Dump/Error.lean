import ParseMarkup.Stream.Error

/-!
# Errors of a dump

Writing a tree fails for one of two reasons: the sink refused a call, or the tree nests deeper
than is allowed.
-/

namespace ParseMarkup

/-- Why a tree could not be written. -/
inductive DumpError where
  /-- The sink refused a call. -/
  | sink (err : StreamError)
  /-- A node at depth `depth` was met where at most `limit` is allowed. -/
  | depthLimitExceeded (depth limit : UInt64)
  deriving DecidableEq, Repr

namespace DumpError

/-- The text for a reader. -/
def message : DumpError → String
  | sink err => "markup sink failed: " ++ err.message
  | depthLimitExceeded depth limit =>
    "nesting depth exceeded: depth " ++ depth.toNat.repr ++ " > limit " ++ limit.toNat.repr

/-- The sink's own error, if that is the reason. -/
def streamError? : DumpError → Option StreamError
  | sink err => some err
  | depthLimitExceeded .. => none

end DumpError

end ParseMarkup
