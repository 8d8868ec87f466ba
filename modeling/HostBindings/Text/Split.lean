/-!
Texts in parts, by the characters that separate them.
-/

namespace HostBindings.Text

/-- The parts of a text between separating characters; one part more than separators. -/
def splitAtChar (isSeparator : Char → Bool) : List Char → List (List Char)
  | [] => [[]]
  | c :: cs =>
    if isSeparator c then [] :: splitAtChar isSeparator cs
    else
      match splitAtChar isSeparator cs with
      | [] => [[c]]
      | part :: parts => (c :: part) :: parts

end HostBindings.Text
