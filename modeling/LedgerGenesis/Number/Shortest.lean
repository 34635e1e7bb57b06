import LedgerGenesis.Number.Binary64
import LedgerGenesis.Text.CodePoint

/-! # The shortest decimal that reads back

Of the decimals that round to a double, the one with the fewest digits is written, of two such the
nearer. A `Layout` says where positional notation ends and how the values that are no numbers are named.
-/
namespace LedgerGenesis.Binary64

/-- The least `k` with `num / den < 10 ^ k`. -/
def decimalPlaces (num den : Nat) : Int :=
  if den ≤ num then (Nat.toDigits 10 (num / den)).length else -(zerosAfterPoint 400 num : Int)
where
  zerosAfterPoint : Nat → Nat → Nat
    | 0, _ => 0
    | fuel + 1, n => if den ≤ 10 * n then 0 else zerosAfterPoint fuel (10 * n) + 1

/-- The decimals that round to a double, as multiples `low`, `value`, `high` of a quarter of its unit in
the last place; the ends belong to them when the significand is even. -/
structure Interval where
  low : Nat
  value : Nat
  high : Nat
  closed : Bool
  quarter : Nat × Nat

def interval (m : Nat) (e : Int) : Interval where
  low := if m = hiddenBit ∧ leastExponent < e then 4 * m - 1 else 4 * m - 2
  value := 4 * m
  high := 4 * m + 2
  closed := m % 2 == 0
  quarter := if e < 2 then (1, Nat.pow 2 (2 - e).toNat) else (Nat.pow 2 (e - 2).toNat, 1)

/-- Whether `c * num / den` lies in the interval. -/
def Interval.holds (i : Interval) (num den c : Nat) : Bool :=
  let x := c * num * i.quarter.2
  let low := i.low * i.quarter.1 * den
  let high := i.high * i.quarter.1 * den
  if i.closed then low ≤ x && x ≤ high else low < x && x < high

/-- The point of the grid of step `10 ^ g` nearest to the value among those in the interval. -/
def Interval.onGrid? (i : Interval) (g : Int) : Option Nat :=
  let (num, den) := if g < 0 then (1, Nat.pow 10 (-g).toNat) else (Nat.pow 10 g.toNat, 1)
  let scaled := i.value * i.quarter.1 * den
  let unit := i.quarter.2 * num
  let c := scaled / unit
  let below := i.holds num den c
  let above := i.holds num den (c + 1)
  if below && (!above || 2 * (scaled % unit) < unit || (2 * (scaled % unit) == unit && c % 2 == 0)) then
    some c
  else if above then some (c + 1)
  else none

/-- Digits and exponent of the first grid that has a point in the interval. -/
def search (i : Interval) (places : Int) : Nat → Nat → Nat × Int
  | _, 0 => (0, 0)
  | n, fuel + 1 =>
    match i.onGrid? (places - n) with
    | some c => (c, places - n)
    | none => search i places (n + 1) fuel

def stripZeros : List Char → List Char
  | cs => (cs.reverse.dropWhile (· == '0')).reverse

/-- The digits of the shortest decimal and the place of its point, counted from their left. -/
def shortest (m : Nat) (e : Int) : List Char × Int :=
  let i := interval m e
  let places := decimalPlaces (i.value * i.quarter.1) i.quarter.2
  let (c, g) := search i places 1 18
  let digits := Nat.toDigits 10 c
  (stripZeros digits, digits.length + g)

structure Layout where
  /-- Places of the point at which positional notation begins and ends. -/
  leastPlace : Int
  greatestPlace : Int
  nanName : String
  infinityName : String

/-- Numbers in documents. -/
def documentLayout : Layout := ⟨-3, 16, "NaN", "Infinity"⟩

/-- Numbers in messages. -/
def messageLayout : Layout := ⟨-3, 16, "nan", "inf"⟩

/-- Digits with the point at `place`; positional notation keeps one digit after the point. -/
def layOut (l : Layout) (digits : List Char) (place : Int) : List Char :=
  if l.leastPlace ≤ place ∧ place ≤ l.greatestPlace then
    if place ≤ 0 then '0' :: '.' :: List.replicate (-place).toNat '0' ++ digits
    else if (digits.length : Int) ≤ place then
      digits ++ List.replicate (place - digits.length).toNat '0' ++ ['.', '0']
    else digits.take place.toNat ++ '.' :: digits.drop place.toNat
  else
    let exponent := place - 1
    let magnitude := Nat.toDigits 10 exponent.natAbs
    let padded := if magnitude.length < 2 then '0' :: magnitude else magnitude
    let fraction := digits.drop 1
    digits.take 1 ++ (if fraction.isEmpty then [] else '.' :: fraction) ++
      'e' :: (if exponent < 0 then '-' else '+') :: padded

def render (l : Layout) (x : Binary64) : Text :=
  let sign (negative : Bool) : List Char := if negative then ['-'] else []
  Text.ofChars <| match x with
    | nan => l.nanName.toList
    | infinite negative => sign negative ++ l.infinityName.toList
    | finite negative m e =>
      sign negative ++
        if m = 0 then ['0', '.', '0'] else let (digits, place) := shortest m e; layOut l digits place

end LedgerGenesis.Binary64
