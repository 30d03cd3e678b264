/-!
Binary floating-point formats, by rank.

The non-negative numbers of a format are counted upwards from zero: the number with rank `r` is
the `r`-th one. Its size is `units r`, a natural number of the format's smallest positive number.
Ranks are exactly the bit patterns without the sign, so the order of the numbers is the order of
the ranks, and an even significand is an even rank.

`Format.round` takes an exact quotient to the nearest rank, a tie to the even one.
-/

set_option autoImplicit false

namespace Stencil

def roundHalfEven (num den : Nat) : Nat :=
  let q := num / den
  let r := num % den
  if 2 * r < den then q
  else if den < 2 * r then q + 1
  else q + q % 2

/-- A binary format with `fraction` stored significand bits, whose smallest positive number is
`2 ^ -unit` and whose infinity has rank `infinity`. -/
structure Format where
  fraction : Nat
  unit : Nat
  infinity : Nat
  deriving DecidableEq, Repr

namespace Format

def binary64 : Format := ⟨52,1074,0x7FF0000000000000⟩

def binary32 : Format := ⟨23,149,0x7F800000⟩

def one (f : Format) : Nat := Nat.pow 2 f.unit

/-- How many numbers there are from one power of two up to the next. -/
def binade (f : Format) : Nat := Nat.pow 2 f.fraction

def units (f : Format) (r : Nat) : Nat :=
  let e := r / f.binade
  let m := r % f.binade
  if e = 0 then m else (f.binade + m) * Nat.pow 2 (e - 1)

def excess (f : Format) (n : Nat) : Nat := n.log2 - f.fraction

/-- The rank nearest to `num / den`, infinity from halfway above the largest number on. -/
def round (f : Format) (num den : Nat) : Nat :=
  let scaled := num * f.one
  let e := f.excess (scaled / den)
  min f.infinity (e * f.binade + roundHalfEven scaled (den * Nat.pow 2 e))

end Format

end Stencil
