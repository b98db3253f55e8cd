/-! Numbers as texts have them: with a sign, a fraction and an exponent if one likes, or
by one of the names for what is no finite number. -/
namespace MicroBench.Text

def withoutSign : List Char → List Char
  | [] => []
  | c :: text => if c = '+' ∨ c = '-' then text else c :: text

/-- Numbers that have a name, in lower case. -/
def numberNames : List String := ["inf", "infinity", "nan"]

def isExponent : List Char → Bool
  | [] => true
  | c :: text =>
    let digits := withoutSign text
    c.toLower = 'e' && digits ≠ [] && digits.all Char.isDigit

/-- A number. There must be digits before the point or after it. -/
def isNumeral (text : List Char) : Bool :=
  let body := withoutSign text
  let whole := body.takeWhile Char.isDigit
  String.ofList (body.map Char.toLower) ∈ numberNames ||
    match body.dropWhile Char.isDigit with
    | '.' :: rest =>
      (whole ≠ [] || rest.takeWhile Char.isDigit ≠ []) && isExponent (rest.dropWhile Char.isDigit)
    | rest => whole ≠ [] && isExponent rest

end MicroBench.Text
