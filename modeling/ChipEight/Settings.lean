import ChipEight.Fault
import ChipEight.Text.Integer
import ChipEight.Text.Quoted

/-!
The switch for debugging, as it is given from outside: an integer in a text, where anything from one up
turns debugging on and nothing at all leaves it off. A text from outside cannot hold the character zero.
-/

namespace ChipEight.Settings

def shownLength : Nat := 200

def debug? (text : Option String) : Except ArgumentError Bool :=
  match text with
  | none => .ok false
  | some text =>
    if text.toList.contains '\x00' then .error .zeroCharacter
    else
      match Text.readInt text with
      | .ok n => .ok (1 ≤ n)
      | .error .notAnInteger =>
        .error (.notANumber (String.ofList ((Text.quoted text).toList.take shownLength)))
      | .error (.tooManyDigits count) => .error (.tooManyDigits Text.digitLimit count)

end ChipEight.Settings
