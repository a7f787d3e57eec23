namespace EntitySql.Text.Utf8

/-- Why bytes are no UTF-8 text. -/
inductive Fault where
  /-- The bytes from `index` on begin no character; `length` of them could have begun one. -/
  | invalid (length index : Nat)
  /-- The text ends inside the character that begins at `index`. -/
  | incomplete (index : Nat)
  deriving DecidableEq, Repr

def Fault.message : Fault → String
  | .invalid length index => "invalid utf-8 sequence of " ++ toString length ++ " bytes from index " ++ toString index
  | .incomplete index => "incomplete utf-8 byte sequence from index " ++ toString index

def encodeChar (c : Char) : List UInt8 :=
  let n := c.toNat
  if n < 0x80 then [n.toUInt8]
  else if n < 0x800 then [(0xC0 + n / 64).toUInt8, (0x80 + n % 64).toUInt8]
  else if n < 0x10000 then
    [(0xE0 + n / 4096).toUInt8, (0x80 + n / 64 % 64).toUInt8, (0x80 + n % 64).toUInt8]
  else
    [(0xF0 + n / 262144).toUInt8, (0x80 + n / 4096 % 64).toUInt8, (0x80 + n / 64 % 64).toUInt8,
      (0x80 + n % 64).toUInt8]

def encode (cs : List Char) : List UInt8 :=
  cs.flatMap encodeChar

/-- How a character goes on after a first byte above 127: the number of bytes that follow, and the
range of the first of them, which excludes overlong forms, surrogates and points above `10FFFF`. -/
def following (first : UInt8) : Option (Nat × UInt8 × UInt8) :=
  if first < 0xC2 then none
  else if first < 0xE0 then some (1, 0x80, 0xBF)
  else if first = 0xE0 then some (2, 0xA0, 0xBF)
  else if first = 0xED then some (2, 0x80, 0x9F)
  else if first < 0xF0 then some (2, 0x80, 0xBF)
  else if first = 0xF0 then some (3, 0x90, 0xBF)
  else if first < 0xF4 then some (3, 0x80, 0xBF)
  else if first = 0xF4 then some (3, 0x80, 0x8F)
  else none

/-- The bytes that may follow the second of a character. -/
def isTail (b : UInt8) : Bool := 0x80 ≤ b && b ≤ 0xBF

/-- The low six bits of a byte that follows. -/
def tailBits (b : UInt8) : Nat := b.toNat % 64

def decodeFrom (index : Nat) : List UInt8 → Except Fault (List Char)
  | [] => .ok []
  | a :: rest =>
    if a < 0x80 then (Char.ofNat a.toNat :: ·) <$> decodeFrom (index + 1) rest
    else match following a, rest with
      | none, _ => .error (.invalid 1 index)
      | some _, [] => .error (.incomplete index)
      | some (count, low, high), b :: rest =>
        if !(low ≤ b && b ≤ high) then .error (.invalid 1 index)
        else if count = 1 then
          (Char.ofNat (a.toNat % 32 * 64 + tailBits b) :: ·) <$> decodeFrom (index + 2) rest
        else match rest with
          | [] => .error (.incomplete index)
          | c :: rest =>
            if !isTail c then .error (.invalid 2 index)
            else if count = 2 then
              (Char.ofNat (a.toNat % 16 * 4096 + tailBits b * 64 + tailBits c) :: ·) <$>
                decodeFrom (index + 3) rest
            else match rest with
              | [] => .error (.incomplete index)
              | d :: rest =>
                if !isTail d then .error (.invalid 3 index)
                else
                  (Char.ofNat
                      (a.toNat % 8 * 262144 + tailBits b * 4096 + tailBits c * 64 + tailBits d) :: ·) <$>
                    decodeFrom (index + 4) rest

def decode (bytes : List UInt8) : Except Fault (List Char) :=
  decodeFrom 0 bytes

def ofString (s : String) : List UInt8 := encode s.toList

def toString? (bytes : List UInt8) : Except Fault String :=
  String.ofList <$> decode bytes

end EntitySql.Text.Utf8
