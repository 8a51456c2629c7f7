import Moira.Lib.Text

/-!
# Bytes and letters of texts
-/

namespace WebUrl

/-- The bytes of a text. -/
def utf8 (text : List Char) : List UInt8 :=
  text.flatMap String.utf8EncodeChar

end WebUrl
