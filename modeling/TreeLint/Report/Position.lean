import TreeLint.Json.Display
import TreeLint.Report.Basic

/-!
# Positions in Reports

Lines are shown as they stand. Columns are counted from zero in a tree and from one in a
report, so a column is shown with one added. A tree may hold anything in place of a number;
what cannot be counted up, or has no text, has no position to show.
-/

namespace TreeLint

/-- Why a position cannot be shown. -/
inductive PositionFault where
  | tooManyDigits (fault : DigitLimit)
  /-- A position is nested deeper than can be written. -/
  | tooDeep
  /-- A column is a text, to which one cannot be added. -/
  | textColumn
  /-- A column is a list. -/
  | listColumn
  /-- A column is an object. -/
  | objectColumn
  /-- A column is nothing at all. -/
  | nullColumn
  deriving DecidableEq, Repr

/-- The text of the fault. -/
def PositionFault.message : PositionFault → String
  | .tooManyDigits fault => fault.message
  | .tooDeep => "maximum recursion depth exceeded"
  | .textColumn => "can only concatenate str (not \"int\") to str"
  | .listColumn => "can only concatenate list (not \"int\") to list"
  | .objectColumn => "unsupported operand type(s) for +: 'dict' and 'int'"
  | .nullColumn => "unsupported operand type(s) for +: 'NoneType' and 'int'"

/-- The fault of a position that cannot be written as data. -/
def PositionFault.ofPrinting : Json.PrintFault → PositionFault
  | .tooManyDigits fault => .tooManyDigits fault
  | .tooDeep => .tooDeep

/-- A column counted from one. -/
def shiftColumn : Json → Except PositionFault Json
  | .bool b => .ok (.int (if b then 2 else 1))
  | .int n => .ok (.int (n + 1))
  | .float x => .ok (.float (x.addInt 1))
  | .str _ => .error .textColumn
  | .arr _ => .error .listColumn
  | .obj .. => .error .objectColumn
  | .null => .error .nullColumn

/-- The text of a line or a column. -/
def positionText (v : Json) : Except PositionFault String := v.display.mapError .tooManyDigits

/-- A place in a file as far as it is known: nothing, a line, or a line and a column. -/
inductive Place where
  | unknown
  | line (line : String)
  | point (line column : String)
  deriving DecidableEq, Repr

/-- The **place of a diagnostic**. A column without a line is not shown. -/
def Diagnostic.place (d : Diagnostic) : Except PositionFault Place :=
  if d.line.isNull then .ok .unknown
  else do
    let line ← positionText d.line
    if d.column.isNull then return .line line
    let column ← positionText (← shiftColumn d.column)
    return .point line column

end TreeLint
