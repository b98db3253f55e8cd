/-! Places in a text, told in bytes of UTF-8. Not every number of bytes is a place: some
end inside a character. -/
namespace MicroBench.Text

def byteCount (text : List Char) : Nat := text.foldr (fun c bytes => c.utf8Size + bytes) 0

/-- A text in two parts, the first one of so many bytes. There are none if the text is shorter or
the parts would share a character. -/
def splitBytes : Nat → List Char → Option (List Char × List Char)
  | 0, text => some ([], text)
  | _ + 1, [] => none
  | bytes, c :: text =>
    if c.utf8Size ≤ bytes then
      (splitBytes (bytes - c.utf8Size) text).map fun (before, after) => (c :: before, after)
    else none

end MicroBench.Text
