/-
**Positions in source text.**

Lines and columns count from one, the offset counts characters from zero.
-/

namespace MethodPatch

/-- A place in a source text. -/
structure Position where
  line : Nat
  column : Nat
  offset : Nat
  deriving DecidableEq, Inhabited

/-- The place before the first character. -/
def Position.start : Position := ⟨1, 1, 0⟩

/-- The line and the column, as messages give them. -/
def Position.lineColumn (position : Position) : String :=
  toString position.line ++ ":" ++ toString position.column

end MethodPatch
