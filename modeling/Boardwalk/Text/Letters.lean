/-!
# Letters without case

Keywords and names are compared ignoring the case of the letters `A` to `Z`. No
other letter has its case changed, so `ſ` and `K` (Kelvin) never match `s` and `k`.
-/
namespace Boardwalk.Text

/-- The text with `A` to `Z` in lower case. -/
def lowered (text : List Char) : List Char := text.map Char.toLower

/-- Whether two texts agree when the case of `A` to `Z` is ignored. -/
def sameLetters (a b : List Char) : Bool := lowered a == lowered b

@[simp] theorem length_lowered (text : List Char) : (lowered text).length = text.length := by
  simp [lowered]

@[simp] theorem sameLetters_self (text : List Char) : sameLetters text text = true := by
  simp [sameLetters]

end Boardwalk.Text
