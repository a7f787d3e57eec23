import EntitySql.Number.Binary

namespace EntitySql.Shortest

/-- A positive number `digits * 10 ^ exponent`. -/
structure Decimal where
  digits : Nat
  exponent : Int
  deriving DecidableEq, Repr

/-- A positive ratio of whole numbers. -/
structure Ratio where
  num : Nat
  den : Nat

/-- The ratio `num * base ^ e / den`, for any sign of `e`. -/
def Ratio.scaled (num den base : Nat) (e : Int) : Ratio :=
  if 0 ≤ e then ⟨num * Nat.pow base e.toNat, den⟩ else ⟨num, den * Nat.pow base (-e).toNat⟩

/-- The bounds of what rounds to a finite double `m`, `k`, in quarters of its grid, and whether the
bounds belong to it. Below a power of two the grid is twice as fine. -/
structure Interval where
  low : Nat
  high : Nat
  closed : Bool

def Interval.ofDatum (m k : Nat) : Interval :=
  ⟨if m = Nat.pow 2 52 && 0 < k then 4 * m - 1 else 4 * m - 2, 4 * m + 2, m % 2 = 0⟩

/-- Whether `digits * 10 ^ exponent` lies in the interval of a double with offset `k`. -/
def Interval.contains (i : Interval) (k : Nat) (d : Decimal) : Bool :=
  -- both sides in quarters of the least positive double
  let value := Ratio.scaled (d.digits * 4 * Nat.pow 2 Binary.double.depth) 1 10 d.exponent
  let low := i.low * Nat.pow 2 k * value.den
  let high := i.high * Nat.pow 2 k * value.den
  if i.closed then low ≤ value.num && value.num ≤ high else low < value.num && value.num < high

/-- The greatest `e` with `10 ^ e ≤ num / den`, searched downwards from `top` by `fuel` steps. -/
def magnitude (num den : Nat) (top : Int) : Nat → Int
  | 0 => top
  | fuel + 1 =>
    let power := Ratio.scaled 1 1 10 top
    if power.num * den ≤ num * power.den then top else magnitude num den (top - 1) fuel

/-- The two neighbours of a number on the grid of `10 ^ e`, the nearer one first. -/
def neighbours (num den : Nat) (e : Int) : List Decimal :=
  let r := Ratio.scaled num den 10 (-e)
  let below := r.num / r.den
  let rest := 2 * (r.num % r.den)
  let up := r.den < rest || (rest = r.den && below % 2 = 1)
  if up then [⟨below + 1, e⟩, ⟨below, e⟩] else [⟨below, e⟩, ⟨below + 1, e⟩]

def Decimal.strip (d : Decimal) : Nat → Decimal
  | 0 => d
  | fuel + 1 =>
    if 0 < d.digits && d.digits % 10 = 0 then Decimal.strip ⟨d.digits / 10, d.exponent + 1⟩ fuel else d

/-- The first neighbour that reads back, on grids of `count` digits and more. -/
def search (num den : Nat) (k : Nat) (i : Interval) (top : Int) (count : Nat) : Nat → Decimal
  | 0 => ⟨0, 0⟩
  | fuel + 1 =>
    match (neighbours num den (top + 1 - count)).find? fun d => 0 < d.digits && i.contains k d with
    | some d => d.strip 20
    | none => search num den k i top (count + 1) fuel

/-- The shortest decimal that rounds to a positive finite double. -/
def ofDatum (m k : Nat) : Decimal :=
  let num := m * Nat.pow 2 k
  let den := Nat.pow 2 Binary.double.depth
  let top := magnitude num den 309 640
  search num den k (.ofDatum m k) top 1 17

def decimalDigits (n : Nat) : List Char :=
  if _h : n < 10 then [Char.ofNat (48 + n)] else decimalDigits (n / 10) ++ [Char.ofNat (48 + n % 10)]

end EntitySql.Shortest
