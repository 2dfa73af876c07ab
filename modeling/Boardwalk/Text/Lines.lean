/-!
# Lines of a text

Two ways to cut a text into lines. Program text ends a line at a line feed, a
carriage return or the pair of the two, and always has a last line, which may be
empty. Board layouts end a line at a line feed, forget the carriage returns
before it, and have no line after a final line feed.
-/
namespace Boardwalk.Text

def splitLines : List Char → List (List Char)
  | [] => [[]]
  | '\r' :: '\n' :: rest => [] :: splitLines rest
  | '\r' :: rest => [] :: splitLines rest
  | '\n' :: rest => [] :: splitLines rest
  | c :: rest => (splitLines rest).modifyHead (c :: ·)

/-- The line without the carriage returns at its end. -/
def dropReturns (line : List Char) : List Char :=
  (line.reverse.dropWhile (· == '\r')).reverse

/-- The lines of a board layout: the pieces between line feeds, except an empty last one. -/
def layoutLines (text : List Char) : List (List Char) :=
  let cut := text.splitOn '\n'
  (if cut.getLast? = some [] then cut.dropLast else cut).map dropReturns

/-- The text with every tab replaced by `width` spaces. -/
def expandTabs (width : Nat) (text : List Char) : List Char :=
  text.flatMap fun c => if c = '\t' then List.replicate width ' ' else [c]

theorem splitLines_ne_nil (text : List Char) : splitLines text ≠ [] := by
  fun_induction splitLines text with
  | case1 | case2 | case3 | case4 => exact List.cons_ne_nil _ _
  | case5 c rest _ _ _ ih => rwa [Ne, List.modifyHead_eq_nil_iff]

theorem expandTabs_append (width : Nat) (a b : List Char) :
    expandTabs width (a ++ b) = expandTabs width a ++ expandTabs width b := by
  simp [expandTabs]

end Boardwalk.Text
