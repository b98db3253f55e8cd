/-! The white space of JSON. -/
namespace MicroBench.Json

/-- The four characters that may stand between the tokens of JSON. -/
def isSpace (c : Char) : Bool := c == ' ' || c == '\t' || c == '\n' || c == '\r'

def skipSpace (text : List Char) : List Char := text.dropWhile isSpace

theorem length_dropWhile_le {α : Type} (p : α → Bool) (l : List α) :
    (l.dropWhile p).length ≤ l.length := (List.dropWhile_suffix p).length_le

theorem length_skipSpace_le (text : List Char) : (skipSpace text).length ≤ text.length :=
  length_dropWhile_le isSpace text

/-- What comes after the first character that is no space is shorter than the text. -/
theorem length_lt_of_skipSpace {text rest : List Char} {c : Char}
    (h : skipSpace text = c :: rest) : rest.length < text.length := by
  have := length_skipSpace_le text
  rw [h, List.length_cons] at this
  exact this

end MicroBench.Json
