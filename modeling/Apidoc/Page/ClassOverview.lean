import Apidoc.Layout
import Apidoc.Pattern.Match
import Apidoc.PrintedType.Pattern

namespace Apidoc.Page

open Pattern PrintedType

def classOverview (layout : Layout) (name : Text) : Pattern :=
  all [.field .brief (all [
      .group (.alt (.group (all [.fixed "The ".toList, .quoted name]) .one)
        (.group (.fixed "This class".toList) .one)) .one,
      .chars .any .lazyPlus]),
    .fixed "More...".toList, .chars .any .lazyStar, .fixed "\nDetailed Description".toList,
    someSpaces, .field .detailed (.chars .any .lazyStar),
    .chars (.char '\n') (.atLeast layout.classBlock)]

end Apidoc.Page
