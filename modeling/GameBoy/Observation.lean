import GameBoy.Hex

/-!
# Observed values

What a query for some part of a machine's state is answered with: a truth value, a number of one of
three widths, a text, or a row of values. The text of a value shows its width, bytes and words being
written in hexadecimal and wider numbers in decimal.
-/

namespace GameBoy

/-- **The answer to a query.** -/
inductive Value where
  | flag (b : Bool)
  | byte (b : UInt8)
  | word (w : UInt16)
  | count (n : Nat)
  | text (s : String)
  | row (items : List Value)

namespace Value

mutual

/-- A value as a report shows it. -/
def render : Value → String
  | .flag b => if b then "true" else "false"
  | .byte b => "0x" ++ byteHexUpper b
  | .word w => "0x" ++ wordHexUpper w
  | .count n => toString n
  | .text s => s
  | .row items => "[" ++ ", ".intercalate (renderAll items) ++ "]"

/-- The values of a row, each as a report shows it. -/
def renderAll : List Value → List String
  | [] => []
  | v :: rest => render v :: renderAll rest

end

end Value

end GameBoy
