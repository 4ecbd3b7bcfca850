import ClassicBasic.Keyword

namespace ClassicBasic

/-!
# Terminators

Every block is closed by a line whose code is the terminator of the block.  A
loop is closed by a line that opens with its terminator.
-/

/-- What closes a block. -/
inductive Terminator where
  | endType
  | endEnum
  | endProperty
  | endMethod (kind : MethodKind)
  | endIf
  | next
  deriving Repr, DecidableEq

/-- The spelling of a terminator. -/
def Terminator.text : Terminator → Text
  | .endType => "End Type"
  | .endEnum => "End Enum"
  | .endProperty => "End Property"
  | .endMethod .sub => "End Sub"
  | .endMethod .function => "End Function"
  | .endIf => "End If"
  | .next => "Next"

end ClassicBasic
