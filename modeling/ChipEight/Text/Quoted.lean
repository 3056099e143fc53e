import ChipEight.Text.Numeral
import ChipEight.Text.Printable

/-!
Text between quotes, in one line: single quotes, or double ones if the text holds a single quote and no
double one. What cannot stand in a line, the quote itself and the backslash are escaped.
-/

namespace ChipEight.Text

def quoteFor (cs : List Char) : Char :=
  if cs.contains '\'' && !cs.contains '"' then '"' else '\''

/-- A code point in the shortest of the three numeric escapes that holds it. -/
def numericEscape (n : Nat) : List Char :=
  if n < 0x100 then '\\' :: 'x' :: zeroFill 2 (hexDigits n)
  else if n < 0x10000 then '\\' :: 'u' :: zeroFill 4 (hexDigits n)
  else '\\' :: 'U' :: zeroFill 8 (hexDigits n)

def escape (quote c : Char) : List Char :=
  if c = quote ∨ c = '\\' then ['\\', c]
  else if c = '\t' then ['\\', 't']
  else if c = '\n' then ['\\', 'n']
  else if c = '\r' then ['\\', 'r']
  else if isPrintable c then [c]
  else numericEscape c.toNat

def quoted (text : String) : String :=
  let cs := text.toList
  let quote := quoteFor cs
  String.ofList (quote :: cs.flatMap (escape quote) ++ [quote])

end ChipEight.Text
