import EntitySql.Time.Instant

namespace EntitySql.Rfc3339

def isLeap (year : Nat) : Bool := year % 4 = 0 && (year % 100 ≠ 0 || year % 400 = 0)

/-- The number of days of a month; none for months that do not exist. -/
def daysIn (year month : Nat) : Nat :=
  match month with
  | 1 | 3 | 5 | 7 | 8 | 10 | 12 => 31
  | 4 | 6 | 9 | 11 => 30
  | 2 => if isLeap year then 29 else 28
  | _ => 0

/-- The days from the start of the year 0 to the start of a year. -/
def daysBeforeYear (year : Nat) : Nat :=
  365 * year + (year + 3) / 4 - (year + 99) / 100 + (year + 399) / 400

/-- The days from the start of a year to the start of a month. -/
def daysBeforeMonth (year month : Nat) : Nat :=
  ((List.range (month - 1)).map fun m => daysIn year (m + 1)).foldl (· + ·) 0

/-- The days from the start of 1970 to a date. -/
def dayNumber (year month day : Nat) : Int :=
  ((daysBeforeYear year + daysBeforeMonth year month + day : Nat) : Int) - 719529

def number : Nat → List Char → Option (Nat × List Char)
  | 0, cs => some (0, cs)
  | count + 1, c :: rest =>
    if '0' ≤ c && c ≤ '9' then
      (number count rest).map fun (n, after) => ((c.toNat - 48) * Nat.pow 10 count + n, after)
    else none
  | _ + 1, [] => none

def oneOf (set : List Char) : List Char → Option (Char × List Char)
  | c :: rest => if set.contains c then some (c, rest) else none
  | [] => none

def isDigit (c : Char) : Bool := '0' ≤ c && c ≤ '9'

def fraction : List Char → Option (Nat × List Char)
  | '.' :: rest =>
    let digits := rest.takeWhile isDigit
    if digits.isEmpty then none
    else
      let nine := digits.take 9 ++ List.replicate (9 - digits.length) '0'
      some (nine.foldl (fun n c => n * 10 + (c.toNat - 48)) 0, rest.dropWhile isDigit)
  | cs => some (0, cs)

/-- The seconds by which local time is ahead. -/
def offset (cs : List Char) : Option (Int × List Char) := do
  let (sign, cs) ← oneOf ['Z', 'z', '+', '-', Char.ofNat 0x2212] cs
  if sign = 'Z' || sign = 'z' then return (0, cs)
  let (hours, cs) ← number 2 cs
  let (_, cs) ← oneOf [':'] cs
  let (minutes, cs) ← number 2 cs
  if minutes ≥ 60 || hours ≥ 24 then none
  let ahead : Int := (hours * 3600 + minutes * 60 : Nat)
  return (if sign = '+' then ahead else -ahead, cs)

def parse? (s : String) : Option Instant := do
  let (year, cs) ← number 4 s.toList
  let (_, cs) ← oneOf ['-'] cs
  let (month, cs) ← number 2 cs
  let (_, cs) ← oneOf ['-'] cs
  let (day, cs) ← number 2 cs
  let (_, cs) ← oneOf ['T', 't', ' '] cs
  let (hour, cs) ← number 2 cs
  let (_, cs) ← oneOf [':'] cs
  let (minute, cs) ← number 2 cs
  let (_, cs) ← oneOf [':'] cs
  let (second, cs) ← number 2 cs
  let (nanos, cs) ← fraction cs
  let (ahead, cs) ← offset cs
  if !cs.isEmpty || day = 0 || daysIn year month < day then none
  if hour ≥ 24 || minute ≥ 60 || second > 60 then none
  let (second, nanos) := if second = 60 then (59, nanos + 1000000000) else (second, nanos)
  let ofDay : Int := (hour * 3600 + minute * 60 + second : Nat)
  Instant.ofParts? (dayNumber year month day * 86400 + ofDay - ahead) nanos

end EntitySql.Rfc3339
