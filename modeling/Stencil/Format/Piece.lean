/-!
# The pieces of a format

A format is a text with conversions: a percent sign, flags, a width, a precision after a point,
and a letter. `pieces` takes a format apart, from left to right; it ends with the first conversion
that is no conversion at all.

* `Spec`: flags, width and precision of one conversion;
* `Piece`: a character, a conversion that takes an argument, or a fault;
* `conversion?`: reads one conversion after its percent sign;
* `pieces`: the pieces of a format.
-/

namespace Stencil.Format

/-- Flags, width and precision of a conversion. -/
structure Spec where
  left : Bool := false
  zero : Bool := false
  plus : Bool := false
  space : Bool := false
  alternate : Bool := false
  width : Option Nat := none
  precision : Option Nat := none
  deriving DecidableEq

/-- What a number inside a conversion stands for. -/
inductive Field
  | width
  | precision
  deriving DecidableEq

/-- Why a conversion cannot be read. -/
inductive SpecError
  | tooLarge (field : Field)
  | incomplete
  deriving DecidableEq

/-- A piece of a format. -/
inductive Piece
  | literal (c : Char)
  | conversion (spec : Spec) (letter : Char)
  | fault (error : SpecError)
  deriving DecidableEq

/-- The characters that are flags. -/
def isFlag (c : Char) : Bool := c == '-' || c == '0' || c == '+' || c == ' ' || c == '#'

/-- The flags among the given characters. -/
def Spec.ofFlags (flags : List Char) : Spec where
  left := flags.contains '-'
  zero := flags.contains '0'
  plus := flags.contains '+'
  space := flags.contains ' '
  alternate := flags.contains '#'

/-- The largest width and the largest precision. -/
def maxField : Nat := 65535

/-- The value of the digits of a field; no digits give no value. -/
def fieldValue (field : Field) (digits : List Char) : Except SpecError (Option Nat) :=
  if digits.isEmpty then .ok none
  else
    let n := Nat.ofDigitChars 10 digits 0
    if maxField < n then .error (.tooLarge field) else .ok (some n)

/-- Reads a precision, if there is a point, and gives what follows it. -/
def precision? (cs : List Char) : Except SpecError (Option Nat × List Char) :=
  match cs with
  | '.' :: cs =>
    match fieldValue .precision (cs.takeWhile Char.isDigit) with
    | .ok n => .ok (some (n.getD 0), cs.dropWhile Char.isDigit)
    | .error e => .error e
  | cs => .ok (none, cs)

/-- Reads what follows a percent sign: the conversion, its letter, and the rest of the format. -/
def conversion? (cs : List Char) : Except SpecError (Spec × Char × List Char) :=
  match fieldValue .width ((cs.dropWhile isFlag).takeWhile Char.isDigit) with
  | .error e => .error e
  | .ok width =>
    match precision? ((cs.dropWhile isFlag).dropWhile Char.isDigit) with
    | .error e => .error e
    | .ok (_, []) => .error .incomplete
    | .ok (precision, letter :: rest) =>
      .ok ({ Spec.ofFlags (cs.takeWhile isFlag) with width, precision }, letter, rest)

theorem length_dropWhile_le (p : Char → Bool) (cs : List Char) :
    (cs.dropWhile p).length ≤ cs.length :=
  (List.dropWhile_sublist p).length_le

theorem length_le_of_precision? {cs rest : List Char} {n : Option Nat}
    (h : precision? cs = .ok (n, rest)) : rest.length ≤ cs.length := by
  unfold precision? at h
  split at h
  · rename_i cs
    have := length_dropWhile_le Char.isDigit cs
    split at h
    · simp_all; omega
    · simp_all
  · simp_all

/-- Reading a conversion uses up at least its letter. -/
theorem length_lt_of_conversion? {cs rest : List Char} {spec : Spec} {letter : Char}
    (h : conversion? cs = .ok (spec, letter, rest)) : rest.length < cs.length := by
  have h1 := length_dropWhile_le isFlag cs
  have h2 := length_dropWhile_le Char.isDigit (cs.dropWhile isFlag)
  unfold conversion? at h
  split at h
  · simp at h
  · split at h
    · simp at h
    · simp at h
    · rename_i hp
      have h3 := length_le_of_precision? hp
      simp only [Except.ok.injEq, Prod.mk.injEq] at h
      simp only [List.length_cons, h.2.2] at h3
      omega

/-- The pieces of a format. -/
def pieces : List Char → List Piece
  | [] => []
  | c :: cs =>
    if c = '%' then
      match h : conversion? cs with
      | .ok (spec, letter, rest) =>
        have : rest.length < cs.length := length_lt_of_conversion? h
        .conversion spec letter :: pieces rest
      | .error e => [.fault e]
    else .literal c :: pieces cs
termination_by cs => cs.length

end Stencil.Format
