import Apidoc.Text.Alphanumeric
import Apidoc.Text.Basic
import Apidoc.Text.Digit

namespace Apidoc.Identifier

def reserved : List Text :=
  ["abstract", "as", "base", "bool", "break", "byte", "case", "catch", "char", "checked",
    "class", "const", "continue", "decimal", "default", "delegate", "do", "double", "else",
    "enum", "event", "explicit", "extern", "false", "finally", "fixed", "float", "for",
    "foreach", "goto", "if", "implicit", "in", "int", "interface", "internal", "is", "lock",
    "long", "namespace", "new", "null", "object", "operator", "out", "override", "params",
    "private", "protected", "public", "readonly", "ref", "return", "sbyte", "sealed", "short",
    "sizeof", "stackalloc", "static", "string", "struct", "switch", "this", "throw", "true",
    "try", "typeof", "uint", "ulong", "unchecked", "unsafe", "ushort", "using", "virtual",
    "void", "volatile", "while"].map String.toList

def startsWithDigit (name : Text) : Bool := name.head?.any Text.isDigit

/-- A usable identifier for a documented name: other characters become underscores, a leading
digit gets one in front, and a keyword gets an at sign. -/
def sanitize (name : Text) : Text :=
  let plain := name.map fun c => if Text.isWord c then c else '_'
  let named := if startsWithDigit plain then '_' :: plain else plain
  if reserved.contains named then '@' :: named else named

end Apidoc.Identifier
