import SpinnerMarkup.Text.Decimal

/-! Decimal numerals as binary floating-point numbers with a 53-bit significand, and the shortest
decimals that tell those numbers apart.

A number is `m * 2 ^ q`. A decimal stands for the nearest number, of two equally near ones for that
with the even significand. A number is written with the fewest digits that stand for it, and of
those with the nearest, of two equally near ones with the larger. -/
namespace SpinnerMarkup.Text.Float

/-! ### Numerals -/

/-- A numeral: a sign and `digits * 10 ^ exponent`. -/
structure Numeral where
  negative : Bool
  digits : Nat
  exponent : Int
  deriving Repr, DecidableEq

/-- The exponent a numeral ends with: nothing, or the letter, a sign and digits. -/
def exponent? (s : Text) : Option Int :=
  match s with
  | [] => some 0
  | c :: t =>
    if c = 'e' || c = 'E' then
      let (negative, digits) := match t with
        | '-' :: u => (true, u)
        | '+' :: u => (false, u)
        | u => (false, u)
      if digits.isEmpty || !digits.all isDigit then none
      else some (if negative then -(digitsValue digits : Int) else digitsValue digits)
    else none

/-- The numeral a text writes: digits with at most one point among them, and an exponent. -/
def numeral? (s : Text) : Option Numeral :=
  let (negative, s) := match s with
    | '-' :: t => (true, t)
    | '+' :: t => (false, t)
    | t => (false, t)
  let whole := s.takeWhile isDigit
  let rest := s.dropWhile isDigit
  let (fraction, rest) := match rest with
    | '.' :: t => (t.takeWhile isDigit, t.dropWhile isDigit)
    | t => ([], t)
  if whole.isEmpty && fraction.isEmpty then none
  else
    (exponent? rest).map fun e => ⟨negative, digitsValue (whole ++ fraction), e - fraction.length⟩

/-! ### The nearest number -/

/-- The fraction `a * 2 ^ twos * 10 ^ tens`. -/
def fraction (a : Nat) (twos tens : Int) : Nat × Nat :=
  (a * Nat.pow 2 twos.toNat * Nat.pow 10 tens.toNat,
    Nat.pow 2 (-twos).toNat * Nat.pow 10 (-tens).toNat)

/-- A quotient rounded to the nearest whole number, a half to the even neighbour. -/
def roundDiv (n d : Nat) : Nat :=
  let quotient := n / d
  let twice := 2 * (n % d)
  if twice < d || (twice == d && quotient % 2 == 0) then quotient else quotient + 1

/-- The largest `l` with `2 ^ l ≤ n / d`. -/
def floorLog (n d : Nat) : Int :=
  let guess : Int := (Nat.log2 n : Int) - Nat.log2 d
  let (a, b) := fraction d guess 0
  if a ≤ n * b then guess else guess - 1

def minExponent : Int := -1074

def maxExponent : Int := 971

/-- The significand and the exponent of the number nearest to a decimal; none if it is too large. -/
def nearest? (digits : Nat) (exponent : Int) : Option (Nat × Int) :=
  let size := (Nat.toDigits 10 digits).length + exponent
  if digits = 0 || size < -400 then some (0, minExponent)
  else if 400 < size then none
  else
    let (n, d) := fraction digits 0 exponent
    let q := max (floorLog n d - 52) minExponent
    let (a, b) := fraction 1 (-q) 0
    let m := roundDiv (n * a) (d * b)
    let (m, q) := if m = Nat.pow 2 53 then (Nat.pow 2 52, q + 1) else (m, q)
    if maxExponent < q then none else some (m, q)

/-! ### The shortest decimal -/

/-- The number of digits before the point, or minus the number of zeros behind it. -/
def magnitude : (fuel : Nat) → (n d : Nat) → Int
  | 0, _, _ => 0
  | fuel + 1, n, d =>
    if n < d then
      if d ≤ 10 * n then 0 else magnitude fuel (10 * n) d - 1
    else (Nat.toDigits 10 (n / d)).length

/-- The shortest decimal for `m * 2 ^ q`, tried with one digit, then with more. -/
def shortestFrom (m : Nat) (q : Int) (size : Int) : (fuel : Nat) → (count : Nat) → Nat × Int
  | 0, count => (m, count)
  | fuel + 1, count =>
    let tens := size - count
    let (n, d) := fraction 1 (q - 2) (-tens)
    let low := if m = Nat.pow 2 52 && minExponent < q then 4 * m - 1 else 4 * m - 2
    let high := 4 * m + 2
    let stands (c : Nat) : Bool :=
      if m % 2 = 0 then low * n ≤ c * d && c * d ≤ high * n else low * n < c * d && c * d < high * n
    let below := 4 * m * n / d
    let above := below + 1
    match stands below, stands above with
    | true, true =>
      (if 2 * (4 * m * n) < (below + above) * d then below else above, tens)
    | true, false => (below, tens)
    | false, true => (above, tens)
    | false, false => shortestFrom m q size fuel (count + 1)

/-- The shortest decimal for `m * 2 ^ q`. -/
def shortest (m : Nat) (q : Int) : Nat × Int :=
  if m = 0 then (0, 0)
  else
    let (n, d) := fraction m q 0
    shortestFrom m q (magnitude 400 n d) 17 1

/-- A decimal with a point and at least one digit on either side of it. -/
def positional (digits : Nat) (exponent : Int) : Text :=
  let text := ofNat digits
  if 0 ≤ exponent then text ++ List.replicate exponent.toNat '0' ++ ['.', '0']
  else
    let places := (-exponent).toNat
    let padded := List.replicate (places + 1 - text.length) '0' ++ text
    let whole := padded.take (padded.length - places)
    let part := (padded.drop (padded.length - places)).reverse.dropWhile (· == '0')
    whole ++ ['.'] ++ if part.isEmpty then ['0'] else part.reverse

/-- The number a numeral stands for, written out; none if it is too large. -/
def render? (n : Numeral) : Option Text :=
  (nearest? n.digits n.exponent).map fun (m, q) =>
    let (digits, exponent) := shortest m q
    (if n.negative then ['-'] else []) ++ positional digits exponent

end SpinnerMarkup.Text.Float
