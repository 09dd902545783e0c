import Apidoc.Entity

/-!
The plain text of a page: its markup is dropped, table cells stay apart, and character references
are decoded once.
-/
namespace Apidoc.Page

/-- The end of one table cell and the start of the next, as they read between angle brackets. -/
def cellSeam : Text := "/tdtd".toList

/-- Drops what stands in angle brackets. `inside` tells whether the next character does, and
`tag` holds, in reverse, what did since the last character kept. -/
def dropTags : Bool → Text → Text → Text
  | _, _, [] => []
  | inside, tag, c :: cs =>
    if c = '<' then dropTags true tag cs
    else if c = '>' then dropTags false tag cs
    else if inside then dropTags true (c :: tag) cs
    else if cellSeam.occursIn tag.reverse then '\t' :: c :: dropTags false [] cs
    else c :: dropTags false [] cs

def plainText (source : Text) : Text := Entity.decode (dropTags false [] source)

def readMarkup (source : Text) : Except Entity.NumberError Text :=
  match Entity.overlong? (dropTags false [] source) with
  | some e => .error e
  | none => .ok (plainText source)

end Apidoc.Page
