/-!
Texts are lists of characters, so that every position is a code point. This module holds the
searches and replacements that the library needs of them.
-/
namespace Apidoc

abbrev Text := List Char

namespace Text

def occursIn (part : Text) : Text → Bool
  | [] => part.isEmpty
  | c :: cs => part.isPrefixOf (c :: cs) || occursIn part cs

/-- Replaces occurrences from left to right; the first `skip` characters belong to one that was
replaced already. -/
def replaceFrom (old new : Text) : Nat → Text → Text
  | _, [] => []
  | skip + 1, _ :: cs => replaceFrom old new skip cs
  | 0, c :: cs =>
    if old.isPrefixOf (c :: cs) then new ++ replaceFrom old new (old.length - 1) cs
    else c :: replaceFrom old new 0 cs

/-- Replaces every occurrence of `old`. The empty text occurs before each character and at the
end. -/
def replaceAll (old new s : Text) : Text :=
  if old.isEmpty then s.flatMap (fun c => new ++ [c]) ++ new else replaceFrom old new 0 s

def ofNat (n : Nat) : Text := Nat.toDigits 10 n

def hex (width n : Nat) : Text :=
  let digits := Nat.toDigits 16 n
  List.replicate (width - digits.length) '0' ++ digits

end Text

end Apidoc
