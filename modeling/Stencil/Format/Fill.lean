import Stencil.Format.Piece
import Stencil.Value.Arithmetic
import Stencil.Value.Text
import Stencil.Decimal.Layout
import Stencil.Text.Basic

/-!
# Filling a format

`format` puts arguments into the conversions of a format, one after the other.

* `FormatError`: why a format cannot be filled;
* `Spec.number`, `Spec.text`: numbers and texts in their width;
* `convert`: the field of one conversion;
* `fill`, `format`: the text of all pieces.
-/

namespace Stencil.Format

/-- Why a format cannot be filled. -/
inductive FormatError
  | spec (error : SpecError)
  | missingArgument (letter : Char)
  | unknownLetter (letter : Char)
  | notInteger (letter : Char) (type : String)
  | notNumber (letter : Char) (type : String)
  | notCharacter (type : String)
  | noSuchCharacter (code : Int64)
  deriving DecidableEq

/-- The text of the error. -/
def FormatError.message : FormatError → String
  | spec (.tooLarge .width) => "sprintf: width too large"
  | spec (.tooLarge .precision) => "sprintf: precision too large"
  | spec .incomplete => "sprintf: incomplete format specifier at end of format"
  | missingArgument c => s!"sprintf: missing argument for '%{c}'"
  | unknownLetter c => s!"sprintf: unknown conversion '%{c}'"
  | notInteger c type => s!"sprintf: '%{c}' expects an integer, got {type}"
  | notNumber c type => s!"sprintf: '%{c}' expects a number, got {type}"
  | notCharacter type => s!"sprintf: '%c' expects a character, got {type}"
  | noSuchCharacter code => s!"sprintf: {code} is not a valid character"

/-- The sign of a number: a minus, or what the flags ask for. -/
def Spec.sign (spec : Spec) (negative : Bool) : List Char :=
  if negative then ['-'] else if spec.plus then ['+'] else if spec.space then [' '] else []

/-- A number in its width. Zeros go between the sign and the digits, and only in front. -/
def Spec.number (spec : Spec) (sign digits : List Char) : List Char :=
  let fill := spec.width.getD 0 - (sign.length + digits.length)
  if spec.left then sign ++ digits ++ List.replicate fill ' '
  else if spec.zero then sign ++ List.replicate fill '0' ++ digits
  else List.replicate fill ' ' ++ sign ++ digits

/-- A text in its width. -/
def Spec.text (spec : Spec) (cs : List Char) : List Char :=
  let fill := List.replicate (spec.width.getD 0 - cs.length) ' '
  if spec.left then cs ++ fill else fill ++ cs

/-- An integer among the arguments. -/
def integerOf (letter : Char) : Value → Except FormatError Int64
  | .int n => .ok n
  | v => .error (.notInteger letter v.typeName)

/-- A number among the arguments, as a double. -/
def numberOf (letter : Char) : Value → Except FormatError Float
  | .float x => .ok x
  | .int n => .ok (toDouble n)
  | v => .error (.notNumber letter v.typeName)

/-- The power of ten of a number: its sign and at least two digits. -/
def powerOfTen (e : Int) : List Char :=
  (if e < 0 then '-' else '+') :: (Nat.toDigits 10 e.natAbs).leftpad 2 '0'

/-- The digits of a double with a given number of places, its sign aside. -/
def fixedDigits (places : Nat) (x : Float) : List Char :=
  match Decimal.Magnitude.ofBits x.toBits with
  | .nan => ['N', 'a', 'N']
  | .infinite => ['i', 'n', 'f']
  | .finite b => (b.fixed places).toList

/-- The digits of a double with one digit before the point and a power of ten, its sign aside. -/
def scientificDigits (places : Nat) (x : Float) : List Char :=
  match Decimal.Magnitude.ofBits x.toBits with
  | .nan => ['N', 'a', 'N']
  | .infinite => ['i', 'n', 'f']
  | .finite b =>
    let (digits, e) := b.scientific places
    digits.toList ++ 'e' :: powerOfTen e

/-- Does a double show a minus sign? Zero never does. -/
def showsMinus (x : Float) : Bool := Decimal.isNegative x.toBits && x != 0

/-- A double in its width; six places unless the conversion says otherwise. -/
def Spec.double (spec : Spec) (digits : Nat → Float → List Char) (x : Float) : List Char :=
  spec.number (spec.sign (showsMinus x)) (digits (spec.precision.getD 6) x)

/-- An integer in its width, its 64 bits written in another base behind a mark for the base. -/
def Spec.bits (spec : Spec) (base : Nat) (mark : List Char) (n : Int64) : List Char :=
  spec.number (if spec.alternate then mark else []) (Nat.toDigits base n.toUInt64.toNat)

/-- Characters in upper case. -/
def upperAscii (cs : List Char) : List Char := cs.map Char.toUpper

/-- The character that an argument stands for. -/
def characterOf : Value → Except FormatError Char
  | .int n =>
    let code := n.toInt.toNat
    if 0 ≤ n.toInt ∧ code.isValidChar then .ok (Char.ofNat code) else .error (.noSuchCharacter n)
  | v =>
    match v.text?.map String.toList with
    | some [c] => .ok c
    | _ => .error (.notCharacter v.typeName)

/-- The field of a conversion for an argument. -/
def convert (spec : Spec) (letter : Char) (v : Value) : Except FormatError (List Char) :=
  match letter with
  | 'd' | 'i' => do
    let n ← integerOf letter v
    return spec.number (spec.sign (n.toInt < 0)) (Nat.toDigits 10 n.toInt.natAbs)
  | 'x' => spec.bits 16 ['0', 'x'] <$> integerOf letter v
  | 'X' => do
    let n ← integerOf letter v
    return spec.number (if spec.alternate then ['0', 'X'] else [])
      (upperAscii (Nat.toDigits 16 n.toUInt64.toNat))
  | 'o' => spec.bits 8 ['0'] <$> integerOf letter v
  | 'b' => spec.bits 2 ['0', 'b'] <$> integerOf letter v
  | 'f' => spec.double fixedDigits <$> numberOf letter v
  | 'e' => spec.double scientificDigits <$> numberOf letter v
  | 'E' =>
    spec.double (fun places x => upperAscii (scientificDigits places x)) <$> numberOf letter v
  | 's' =>
    let cs := (v.shownInside v.text).toList
    .ok (spec.text (match spec.precision with
      | some n => cs.take n
      | none => cs))
  | 'c' => do
    let c ← characterOf v
    return spec.text [c]
  | _ => .error (.unknownLetter letter)

/-- The text of the pieces, which take their arguments in order. -/
def fill : List Piece → List Value → Except FormatError (List Char)
  | [], _ => .ok []
  | .literal c :: rest, args => (c :: ·) <$> fill rest args
  | .fault e :: _, _ => .error (.spec e)
  | .conversion spec letter :: rest, args =>
    if letter = '%' then ('%' :: ·) <$> fill rest args
    else if letter = 'n' then ('\n' :: ·) <$> fill rest args
    else
      match args with
      | [] => .error (.missingArgument letter)
      | v :: args => do
        let field ← convert spec letter v
        (field ++ ·) <$> fill rest args

/-- The format with its conversions filled in. -/
def format (s : String) (args : List Value) : Except FormatError String :=
  String.ofList <$> fill (pieces s.toList) args

end Stencil.Format
