import Apidoc.Text.Basic

namespace Apidoc

inductive Level
  | debug
  | info
  | error
  deriving DecidableEq, Repr

inductive Event
  | aliasesRegistered (types : Nat)
  | rootMissing (root : Text)
  | readingArchive (path : Text)
  | readingPages (path : Text)
  | pageLoaded (name : Text)
  | loadingFailed (reason : Text)
  | pagesLoaded (count : Nat) (module : Text)
  | functionDocumented (name page : Text)
  | propertyDocumented (name page : Text)
  | enumDocumented (name page : Text)
  | classDocumented (name page : Text)
  deriving DecidableEq, Repr

def Level.label : Level → Text
  | .debug => "DEBUG".toList
  | .info => "INFO".toList
  | .error => "ERROR".toList

namespace Event

def level : Event → Level
  | .aliasesRegistered _ | .rootMissing _ | .readingArchive _ | .readingPages _
  | .pagesLoaded _ _ => .info
  | .loadingFailed _ => .error
  | .pageLoaded _ | .functionDocumented _ _ | .propertyDocumented _ _ | .enumDocumented _ _
  | .classDocumented _ _ => .debug

def found (kind : String) (name page : Text) : Text :=
  "Documented ".toList ++ kind.toList ++ " ".toList ++ name ++ " from ".toList ++ page

def message : Event → Text
  | .aliasesRegistered types =>
    "Registered typedef aliases for ".toList ++ Text.ofNat types ++ " types".toList
  | .rootMissing root => "Documentation path does not exist: ".toList ++ root
  | .readingArchive path => "Reading documentation archive ".toList ++ path
  | .readingPages path => "Reading documentation pages from ".toList ++ path
  | .pageLoaded name => "Loaded: ".toList ++ name
  | .loadingFailed reason => "Documentation loading failed: ".toList ++ reason
  | .pagesLoaded count module =>
    "Loaded ".toList ++ Text.ofNat count ++ " documentation pages for module ".toList ++ module
  | .functionDocumented name page => found "function" name page
  | .propertyDocumented name page => found "property" name page
  | .enumDocumented name page => found "enum" name page
  | .classDocumented name page => found "class" name page

def line (e : Event) : Text := e.level.label ++ " ".toList ++ e.message

end Event

end Apidoc
