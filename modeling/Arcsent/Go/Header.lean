/-
# The values of header fields

What the servers and their clients do with the value of a header field, which is a byte string
that need not be text.
-/
import Arcsent.Go.Url

namespace Arcsent.Go

/-- The method `Get` of a header and of a query: the first value, or the empty text. -/
def getFirst {κ : Type} [BEq κ] (values : List (κ × Bytes)) (key : κ) : Bytes :=
  (values.lookup key).getD []

/-- The blanks that `textproto.TrimString` takes away. -/
def isBlank (c : UInt8) : Bool := c = Url.space || c = 0x09 || c = 0x0A || c = 0x0D

/-- The function `textproto.TrimString`. -/
def trimString (s : Bytes) : Bytes := ((s.dropWhile isBlank).reverse.dropWhile isBlank).reverse

/-- The function `ValidHeaderFieldValue`. -/
def validHeaderFieldValue (value : Bytes) : Bool := value.all fun c => !Url.isCTL c || c = 0x09

/-- A value that arrives as it has been sent. -/
structure Sendable (value : Bytes) : Prop where
  valid : validHeaderFieldValue value = true
  trimmed : trimString value = value

end Arcsent.Go
