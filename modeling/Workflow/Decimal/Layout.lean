import Workflow.Decimal.Shortest

/-!
Writing doubles: the shortest digits, laid out positionally or with an exponent as a format decides.
-/

namespace Workflow.Decimal

/-- What a format decides. Numbers whose leading digit has an exponent from `lowest` to `highest`
are written positionally and always show a point, the others with an exponent, which carries
`plusSign` when it is not negative. -/
structure Layout where
  lowest : Int
  highest : Int
  plusSign : String
  deriving DecidableEq, Repr

/-- Places the point in the digits: zeros fill the places that the digits do not reach. -/
def positional (d : Scaled) : String :=
  let digits := Nat.toDigits 10 d.digits
  let point := d.exponent + digits.length
  if 0 ≤ d.exponent then
    String.ofList (digits ++ List.replicate d.exponent.toNat '0') ++ ".0"
  else if 0 < point then
    String.ofList (digits.take point.toNat) ++ "." ++ String.ofList (digits.drop point.toNat)
  else
    "0." ++ String.ofList (List.replicate (-point).toNat '0' ++ digits)

/-- The leading digit, the other digits behind a point if there are any, and the exponent. -/
def scientific (plusSign : String) (d : Scaled) : String :=
  let mantissa :=
    match Nat.toDigits 10 d.digits with
    | [] => "0"
    | [digit] => String.singleton digit
    | digit :: others => String.singleton digit ++ "." ++ String.ofList others
  mantissa ++ "e" ++ (if 0 ≤ d.order then plusSign else "") ++ toString d.order

def Layout.text (layout : Layout) (x : Float) : String :=
  if x.isNaN then "NaN"
  else
    let b := Binary.ofFloat x
    let sign := if b.negative then "-" else ""
    let magnitude :=
      if !isFiniteBits x.toBits.toNat then "inf"
      else if b.mantissa = 0 then "0.0"
      else
        let d := shortest b
        if layout.lowest ≤ d.order && d.order ≤ layout.highest then positional d
        else scientific layout.plusSign d
    sign ++ magnitude

end Workflow.Decimal
