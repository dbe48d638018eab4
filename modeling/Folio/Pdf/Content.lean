import Folio.Pdf.Text

/-!
# Content streams

What is drawn on a page is a list of operations, each an operator behind its operands.
-/

set_option autoImplicit false

namespace Folio.Pdf

/-- An operation of a content stream. -/
structure Operation where
  operator : String
  operands : List Object := []

namespace Operation

/-- The written form of an operation. -/
def text (operation : Operation) : Bytes :=
  operation.operands.flatMap (fun operand => operand.text ++ asciiBytes [' ']) ++
    asciiBytes operation.operator.toList

def beginText : Operation := { operator := "BT" }

def endText : Operation := { operator := "ET" }

/-- Selects a font and its size. -/
def selectFont (resource : String) (size : Float32) : Operation :=
  { operator := "Tf", operands := [.name resource, .real size] }

/-- Sets the distance between lines. -/
def setLeading (leading : Float32) : Operation :=
  { operator := "TL", operands := [.real leading] }

/-- Moves to the start of a line. -/
def moveTo (x y : Float32) : Operation :=
  { operator := "Td", operands := [.real x, .real y] }

def showText (bytes : Bytes) : Operation :=
  { operator := "Tj", operands := [.hexString bytes] }

def nextLine : Operation := { operator := "T*" }

end Operation

/-- The content stream of operations, one a line. -/
def contentText : List Operation → Bytes
  | [] => []
  | [operation] => operation.text
  | operation :: operations => operation.text ++ asciiBytes ['\n'] ++ contentText operations

end Folio.Pdf
