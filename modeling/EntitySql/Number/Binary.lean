namespace EntitySql.Binary

/-- A binary interchange format. The finite words are the sign and the multiples of a power of two. -/
structure Format where
  exponentBits : Nat
  fractionBits : Nat
  deriving DecidableEq, Repr

def single : Format := ⟨8, 23⟩

def double : Format := ⟨11, 52⟩

namespace Format

variable (f : Format)

def width : Nat := 1 + f.exponentBits + f.fractionBits

def infinity : Nat := (Nat.pow 2 f.exponentBits - 1) * Nat.pow 2 f.fractionBits

/-- The least positive number is two to minus this. -/
def depth : Nat := Nat.pow 2 (f.exponentBits - 1) - 2 + f.fractionBits

def signBit : Nat := Nat.pow 2 (f.exponentBits + f.fractionBits)

end Format

/-- What a word stands for. A finite one is the multiple `m` of two to `k - depth`. -/
inductive Datum where
  | finite (negative : Bool) (m k : Nat)
  | infinite (negative : Bool)
  | nan (negative : Bool) (payload : Nat)
  deriving DecidableEq, Repr

def Datum.ofWord (f : Format) (w : Nat) : Datum :=
  let negative := w / f.signBit % 2 = 1
  let unsigned := w % f.signBit
  let fraction := unsigned % Nat.pow 2 f.fractionBits
  if unsigned < f.infinity then
    let exponent := unsigned / Nat.pow 2 f.fractionBits
    if exponent = 0 then .finite negative fraction 0
    else .finite negative (Nat.pow 2 f.fractionBits + fraction) (exponent - 1)
  else if unsigned = f.infinity then .infinite negative
  else .nan negative fraction

def signedWord (f : Format) (negative : Bool) (unsigned : Nat) : Nat :=
  if negative then f.signBit + unsigned else unsigned

/-- The quotient of two numbers to the nearest whole one, halfway to the even one. -/
def divideEven (num den : Nat) : Nat :=
  let quotient := num / den
  let rest := num % den
  if 2 * rest < den then quotient
  else if den < 2 * rest then quotient + 1
  else quotient + quotient % 2

/-- The unsigned word nearest to the ratio `num / den`, counted in least positive numbers. -/
def nearest (f : Format) (num den : Nat) : Nat :=
  let k := (num / den).log2 - f.fractionBits
  Nat.min (k * Nat.pow 2 f.fractionBits + divideEven num (den * Nat.pow 2 k)) f.infinity

/-- The word of a NaN that keeps what fits of a payload. It is quiet. -/
def quietNan (f : Format) (negative : Bool) (payload : Nat) : Nat :=
  let quiet := Nat.pow 2 (f.fractionBits - 1)
  signedWord f negative (f.infinity + (quiet + payload % quiet))

/-- A word of one format in another, rounded if it has to be. -/
def convert (source target : Format) (w : Nat) : Nat :=
  match Datum.ofWord source w with
  | .finite negative m k =>
    signedWord target negative (nearest target (m * Nat.pow 2 (k + target.depth)) (Nat.pow 2 source.depth))
  | .infinite negative => signedWord target negative target.infinity
  | .nan negative payload =>
    quietNan target negative (payload * Nat.pow 2 target.fractionBits / Nat.pow 2 source.fractionBits)

def ofInt (f : Format) (n : Int) : Nat :=
  signedWord f (n < 0) (nearest f (n.natAbs * Nat.pow 2 f.depth) 1)

theorem divideEven_mul (n : Nat) {d : Nat} (h : 0 < d) : divideEven (n * d) d = n := by
  simp [divideEven, Nat.mul_div_cancel _ h, h]

end Binary

/-- A double-precision number by its word. -/
structure Double where
  word : BitVec 64
  deriving DecidableEq, Repr

/-- A single-precision number by its word. -/
structure Single where
  word : BitVec 32
  deriving DecidableEq, Repr

namespace Double

open Binary

def datum (x : Double) : Datum := Datum.ofWord double x.word.toNat

def ofNat (w : Nat) : Double := ⟨BitVec.ofNat 64 w⟩

def zero : Double := ⟨0⟩

def ofInt (n : Int) : Double := .ofNat (Binary.ofInt double n)

def isNan (x : Double) : Bool :=
  match x.datum with
  | .nan _ _ => true
  | _ => false

def neg (x : Double) : Double := ⟨x.word ^^^ 0x8000000000000000#64⟩

def negative (x : Double) : Bool :=
  match x.datum with
  | .finite negative _ _ | .infinite negative | .nan negative _ => negative

/-- The number nearest to the product of two finite numbers, with their signs put aside. -/
def scaleUp (x y : Double) : Double :=
  match x.datum, y.datum with
  | .finite _ m k, .finite _ n l =>
    .ofNat (nearest double (m * n * Nat.pow 2 (k + l)) (Nat.pow 2 double.depth))
  | _, _ => .ofNat double.infinity

/-- The number nearest to the quotient of two finite numbers, with their signs put aside. -/
def scaleDown (x y : Double) : Double :=
  match x.datum, y.datum with
  | .finite _ m k, .finite _ n l =>
    .ofNat (nearest double (m * Nat.pow 2 (k + double.depth)) (n * Nat.pow 2 l))
  | _, _ => .ofNat double.infinity

end Double

namespace Single

open Binary

def datum (x : Single) : Datum := Datum.ofWord single x.word.toNat

def ofNat (w : Nat) : Single := ⟨BitVec.ofNat 32 w⟩

def zero : Single := ⟨0⟩

def ofInt (n : Int) : Single := .ofNat (Binary.ofInt single n)

def ofDouble (x : Double) : Single := .ofNat (convert double single x.word.toNat)

def toDouble (x : Single) : Double := .ofNat (convert single double x.word.toNat)

def isNan (x : Single) : Bool :=
  match x.datum with
  | .nan _ _ => true
  | _ => false

end Single

end EntitySql
