import TestDispatch.Arithmetic
/-! Double-precision numbers, computed exactly: rounding to nearest with ties to even, and the
text of a double as the shortest decimal that rounds back to it. -/
namespace TestDispatch.Json.Binary64

open scoped TestDispatch.Arithmetic

/-- A non-negative double, or a magnitude too large for one. -/
inductive Magnitude
  | finite (mantissa : Nat) (exponent : Int)
  | infinite
deriving DecidableEq, Repr

def minExponent : Int := -1074

def maxExponent : Int := 971

def pow2 (k : Int) : Nat × Nat := if k ≥ 0 then (2 ^ k.toNat, 1) else (1, 2 ^ (-k).toNat)

def pow10 (k : Int) : Nat × Nat := if k ≥ 0 then (10 ^ k.toNat, 1) else (1, 10 ^ (-k).toNat)

/-- Integer division rounded to nearest, ties to even. -/
def roundDiv (num den : Nat) : Nat :=
  let q := num / den
  let r := num % den
  if 2 * r > den then q + 1 else if 2 * r < den then q else q + q % 2

def floorLog2 (num den : Nat) : Int :=
  let g : Int := (Nat.log2 num : Int) - Nat.log2 den
  let (pn, pd) := pow2 g
  if pn * den ≤ num * pd then g else g - 1

def ofRat (num den : Nat) : Magnitude :=
  if num = 0 ∨ den = 0 then .finite 0 minExponent
  else
    let e := max (floorLog2 num den - 52) minExponent
    let (pn, pd) := pow2 (-e)
    let m := roundDiv (num * pn) (den * pd)
    let (m, e) := if m = 2 ^ (53 : Nat) then (2 ^ (52 : Nat), e + 1) else (m, e)
    if e > maxExponent then .infinite else .finite m e

def ofNat (n : Nat) : Magnitude := ofRat n 1

def toRat (m : Nat) (e : Int) : Nat × Nat := let (pn, pd) := pow2 e; (m * pn, pd)

def mul : Magnitude → Magnitude → Magnitude
  | .finite m1 e1, .finite m2 e2 =>
    let (n, d) := toRat (m1 * m2) (e1 + e2)
    ofRat n d
  | _, _ => .infinite

def div : Magnitude → Magnitude → Magnitude
  | .finite m1 e1, .finite m2 e2 =>
    let (n1, d1) := toRat m1 e1
    let (n2, d2) := toRat m2 e2
    ofRat (n1 * d2) (d1 * n2)
  | m, _ => m

def tenTo (k : Nat) : Magnitude := ofNat (10 ^ k)

def Magnitude.isZero : Magnitude → Bool
  | .finite m _ => m = 0
  | .infinite => false

/-- Scale a double by a power of ten the way a decimal text is read: one multiplication or
division by a tabled power for exponents up to 308, repeated division by `1e308` below that,
and `none` when the result overflows. -/
def scaleByTen (f : Magnitude) : Nat → Int → Option Magnitude
  | 0, _ => some f
  | fuel + 1, k =>
    if k.natAbs ≤ 308 then
      if k ≥ 0 then
        match mul f (tenTo k.toNat) with
        | .infinite => none
        | r => some r
      else some (div f (tenTo k.natAbs))
    else if f.isZero then some f
    else if k ≥ 0 then none
    else scaleByTen (div f (tenTo 308)) fuel (k + 308)

def ofDecimal (significand : Nat) (exponent : Int) : Option Magnitude :=
  scaleByTen (ofNat significand) 8 exponent

/-- The integers `d` with `lo ≤ d * t ≤ hi`, where `t = tn / td` and the bounds count only when
`inclusive`: the least and the greatest. -/
def candidates (lo hi tn td : Nat) (inclusive : Bool) : Nat × Nat :=
  let dmin := if inclusive then (lo * td + tn - 1) / tn else lo * td / tn + 1
  let dmax := if inclusive then hi * td / tn else (hi * td + tn - 1) / tn - 1
  (dmin, dmax)

/-- The shortest decimal `d * 10 ^ k` of a positive double, searching `k` downward. -/
def shortestFrom (m : Nat) (e : Int) (fuel : Nat) (k : Int) : Nat × Int :=
  match fuel with
  | 0 => (m, e)
  | fuel + 1 =>
    let lowerClose := m = 2 ^ (52 : Nat) ∧ e > minExponent
    let v := 4 * m
    let hi := v + 2
    let lo := if lowerClose then v - 1 else v - 2
    -- The unit is `2 ^ (e - 2)`; `t` is `10 ^ k` in that unit.
    let (an, ad) := pow10 k
    let (bn, bd) := pow2 (2 - e)
    let tn := an * bn
    let td := ad * bd
    let (dmin, dmax) := candidates lo hi tn td (m % 2 = 0)
    if dmin ≤ dmax ∧ 0 < dmax then
      let nearest := roundDiv (v * td) tn
      (max (max dmin 1) (min dmax nearest), k)
    else shortestFrom m e fuel (k - 1)

def shortest (m : Nat) (e : Int) : Nat × Int :=
  let (n, d) := toRat (4 * m + 2) (e - 2)
  shortestFrom m e 800 ((Nat.toDigits 10 (n / d + 1)).length + 1)

/-- Lay out digits `ds` times `10 ^ k`: plain when the decimal point falls within sixteen
digits, scientific otherwise. -/
def layout (ds : List Char) (k : Int) : String :=
  let len : Int := ds.length
  let kk := len + k
  if 0 ≤ k ∧ kk ≤ 16 then
    String.ofList ds ++ String.ofList (List.replicate k.toNat '0') ++ ".0"
  else if 0 < kk ∧ kk ≤ 16 then
    String.ofList (ds.take kk.toNat) ++ "." ++ String.ofList (ds.drop kk.toNat)
  else if -5 < kk ∧ kk ≤ 0 then
    "0." ++ String.ofList (List.replicate (-kk).toNat '0') ++ String.ofList ds
  else if ds.length = 1 then
    String.ofList ds ++ "e" ++ toString (kk - 1)
  else
    String.ofList (ds.take 1) ++ "." ++ String.ofList (ds.drop 1) ++ "e" ++ toString (kk - 1)

def text (negative : Bool) (f : Magnitude) : String :=
  let sign := if negative then "-" else ""
  match f with
  | .infinite => sign ++ "inf"
  | .finite m e =>
    if m = 0 then sign ++ "0.0"
    else
      let (d, k) := shortest m e
      sign ++ layout (Nat.toDigits 10 d) k

end TestDispatch.Json.Binary64
