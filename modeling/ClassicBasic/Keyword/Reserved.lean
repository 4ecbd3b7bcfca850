import ClassicBasic.Text.Blank

namespace ClassicBasic

/-!
# Reserved words

The keywords that an instruction can open with, in three tables.  A reserved
word never names a label.
-/

/-- Keywords that open a declaration. -/
def declarationWords : List Text :=
  ["Const", "Dim", "Static", "Public", "Private", "Friend", "Global", "Declare",
    "Type", "Enum", "Property", "Function", "Sub"]

/-- Keywords that open an instruction. -/
def instructionWords : List Text :=
  ["Set", "Let", "Call", "Beep", "Open", "Option", "On", "Close", "ChDir",
    "ChDrive", "Debug", "DoEvents", "Exit", "End", "GoTo", "GoSub", "Input",
    "Kill", "MkDir", "MsgBox", "Output", "Print", "Put", "Randomize", "Read",
    "ReDim", "Resume", "Return", "RmDir", "Shell", "Stop", "Write"]

/-- Keywords that open a control statement.  Where a space is part of the
keyword, a space has to follow it. -/
def statementWords : List Text :=
  ["Do", "Else", "ElseIf", "For", "If ", "Loop", "Next", "Select ", "Wend",
    "While", "With "]

/-- All reserved words. -/
def reservedWords : List Text :=
  declarationWords ++ instructionWords ++ statementWords.map Text.trimEnd

/-- Whether a word is reserved and so cannot name a label. -/
def isReservedWord (word : Text) : Bool :=
  reservedWords.contains word

end ClassicBasic
