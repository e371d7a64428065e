import Jack.Text.Digits
import Jack.Yaml.Document

namespace Jack.Yaml

/-- A number of at most 64 bits: decimal digits, which do not begin with a zero unless it is the
only one, or digits behind the mark of their base. A plus may stand in front. -/
def number? (text : String) : Option Nat :=
  let unsigned := match text.toList with
    | '+' :: rest => rest
    | chars => chars
  match unsigned with
  | '0' :: 'x' :: digits => Text.Digits.word? 16 digits
  | '0' :: 'o' :: digits => Text.Digits.word? 8 digits
  | '0' :: 'b' :: digits => Text.Digits.word? 2 digits
  | '0' :: _ :: _ => none
  | digits => Text.Digits.word? 10 digits

/-- Whether a scalar may be a number: a plain one may, and so may a literal block with the tag of
whole numbers. -/
def Scalar.mayBeNumber (scalar : Scalar) : Bool :=
  scalar.style = .plain || (scalar.style = .literal && scalar.tag = some Tag.integer)

/-- What a document says of the limit. All its keys are scalars. Those without a meaning are passed
over, and a key with one may stand there once. -/
def Document.limit? (document : Document) : Option (Option Nat) := do
  let members ← (← document.members?).mapM fun (key, value) => do
    return ((← document.scalar? key).text, value)
  match members.filter fun (key, _) => key = "max_depth" with
  | [] => return none
  | [(_, value)] =>
    let scalar ← document.scalar? value
    if scalar.mayBeNumber then return some (← number? scalar.text) else none
  | _ => none

end Jack.Yaml
