/-!
# Letters A to Z

Names of directives and of truth values are compared without regard to the case of the letters A to Z; all other letters
count as they are.
-/

namespace Stencil.Text

/-- Whether two texts are the same but for the case of the letters A to Z. -/
def sameIgnoringCase (a b : String) : Bool := a.toList.map Char.toLower == b.toList.map Char.toLower

end Stencil.Text
