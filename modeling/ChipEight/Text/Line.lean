/-!
The lines of a text. Many characters end a line: the line feed and the carriage return, which count once
where they follow each other in that order, the other vertical motions of ASCII, its separators of files,
groups and records, and the line and paragraph ends of Unicode.
-/

namespace ChipEight.Text

def lineBreaks : List Nat :=
  [0x0A, 0x0B, 0x0C, 0x0D, 0x1C, 0x1D, 0x1E, 0x85, 0x2028, 0x2029]

def isLineBreak (c : Char) : Bool :=
  lineBreaks.contains c.toNat

def dropBreak : List Char → List Char
  | '\n' :: '\r' :: rest => rest
  | c :: rest => if isLineBreak c then rest else c :: rest
  | [] => []

/-- The last line of a text, at the end of which a line break may stand. -/
def lastLine (text : String) : String :=
  String.ofList ((dropBreak text.toList.reverse).takeWhile (!isLineBreak ·)).reverse

end ChipEight.Text
