namespace EntitySql.Text

/-- The characters with the Unicode property `White_Space`. -/
def isBlank (c : Char) : Bool :=
  (0x09 ≤ c.val && c.val ≤ 0x0D) || c.val = 0x20 || c.val = 0x85 || c.val = 0xA0 || c.val = 0x1680 ||
    (0x2000 ≤ c.val && c.val ≤ 0x200A) || c.val = 0x2028 || c.val = 0x2029 || c.val = 0x202F ||
    c.val = 0x205F || c.val = 0x3000

/-- A text without the characters of a class at its start. -/
def trimLeft (drop : Char → Bool) (cs : List Char) : List Char :=
  cs.dropWhile drop

/-- A text without the characters of a class at either end. -/
def trim (drop : Char → Bool) (cs : List Char) : List Char :=
  (trimLeft drop (trimLeft drop cs).reverse).reverse

end EntitySql.Text
