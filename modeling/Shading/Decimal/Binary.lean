/-!
Binary floating point formats: what the bits of a value say.
-/

namespace Shading.Decimal

structure Format where
  exponentBits : Nat
  fractionBits : Nat

def Format.single : Format := ⟨8, 23⟩

def Format.double : Format := ⟨11, 52⟩

structure Binary where
  mantissa    : Nat
  exponent    : Int
  -- Whether the next smaller magnitude is only half as far away as the next larger one.
  narrowBelow : Bool
  deriving DecidableEq

inductive Value where
  | nan
  | infinite (negative : Bool)
  | finite (negative : Bool) (magnitude : Binary)
  deriving DecidableEq

-- Reads a bit pattern. The exponent field is biased, and zero marks subnormal magnitudes.
def Format.decode (f : Format) (bits : Nat) : Value :=
  let fraction := bits % .pow 2 f.fractionBits
  let exponent := bits / .pow 2 f.fractionBits % .pow 2 f.exponentBits
  let negative := bits / .pow 2 (f.fractionBits + f.exponentBits) % 2 == 1
  let least : Int := 2 - Nat.pow 2 (f.exponentBits - 1) - f.fractionBits
  if exponent = .pow 2 f.exponentBits - 1 then
    if fraction = 0 then .infinite negative else .nan
  else if exponent = 0 then
    .finite negative ⟨fraction, least, false⟩
  else
    let mantissa := .pow 2 f.fractionBits + fraction
    .finite negative ⟨mantissa, least + (exponent - 1 : Nat), fraction == 0 && 1 < exponent⟩

end Shading.Decimal
