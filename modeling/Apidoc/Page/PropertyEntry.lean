import Apidoc.Pattern.Match
import Apidoc.PrintedType.Pattern

namespace Apidoc.Page

open Pattern PrintedType

def propertyEntry (table : AliasTable) (name type : Text) : Pattern :=
  all [.fixed "Property Documentation".toList, .chars .any .star, .notAfter .word, .quoted name,
    .fixed " : ".toList, PrintedType.pattern type table true,
    .group (all [someSpaces, .fixed "const".toList]) .optional, .fixed "\n".toList,
    .field .docs (.chars .any .lazyStar), .fixed "\nAccess functions:".toList]

end Apidoc.Page
