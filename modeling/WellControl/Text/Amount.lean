import WellControl.Text.Shortest

/-!
# Written numbers

Numbers in messages have the fewest digits that read back.  They are written positionally, with
a decimal point and a digit on either side, from `0.0001` up to below ten to the sixteenth, and
with an exponent of at least two digits elsewhere.
-/

set_option autoImplicit false

namespace WellControl.Text

/-- How decimals are laid out. -/
structure AmountFormat where
  leastPositional : Int
  belowPositional : Int
  exponentWidth : Nat

def amountFormat : AmountFormat := ⟨-4, 16, 2⟩

def zeros (n : Nat) : String := String.ofList (List.replicate n '0')

/-- The digits of a decimal, positive and without zeros at its end. -/
def AmountFormat.write (f : AmountFormat) (d : Decimal) : String :=
  let digits := Nat.toDigits 10 d.digits
  let lead : Int := d.exponent + digits.length - 1
  if f.leastPositional ≤ lead && lead < f.belowPositional then
    if lead < 0 then "0." ++ zeros (-lead - 1).toNat ++ String.ofList digits
    else
      let whole := (lead + 1).toNat
      if digits.length ≤ whole then
        String.ofList digits ++ zeros (whole - digits.length) ++ ".0"
      else String.ofList (digits.take whole) ++ "." ++ String.ofList (digits.drop whole)
  else
    let mark := if lead < 0 then "e-" else "e+"
    let power := Nat.toDigits 10 lead.natAbs
    let fraction := if digits.length = 1 then "" else "." ++ String.ofList (digits.drop 1)
    String.ofList (digits.take 1) ++ fraction ++ mark ++
      zeros (f.exponentWidth - power.length) ++ String.ofList power

/-- A binary floating-point number of 64 bits. -/
def amount (x : Float) : String :=
  let bits := x.toBits.toNat
  let implicitBit := 0x10000000000000
  let negative := bits / 0x8000000000000000 = 1
  let exponent : Nat := bits / implicitBit % 2048
  let fraction : Nat := bits % implicitBit
  let sign := if negative then "-" else ""
  if exponent = 2047 then
    if fraction = 0 then sign ++ "inf" else "nan"
  else if exponent = 0 then
    if fraction = 0 then sign ++ "0.0"
    else sign ++ amountFormat.write (shortest fraction (-1074) false)
  else
    sign ++ amountFormat.write
      (shortest (implicitBit + fraction) ((exponent : Int) - 1075) (fraction = 0 && 1 < exponent))

/-- The extents of an array. -/
def extents : List Nat → String
  | [] => "()"
  | [n] => "(" ++ toString n ++ ",)"
  | shape => "(" ++ String.intercalate ", " (shape.map toString) ++ ")"

/-- Texts between brackets. -/
def bracketed (items : List String) : String := "[" ++ String.intercalate ", " items ++ "]"

end WellControl.Text
