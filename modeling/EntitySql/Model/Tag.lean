import EntitySql.Error
import EntitySql.Text.Split
import EntitySql.Text.Blank

namespace EntitySql

abbrev Tag := List (String × String)

namespace Tag

/-- The pairs with one more; a pair of that key is replaced. -/
def insert (key value : String) : Tag → Tag
  | [] => [(key, value)]
  | (k, v) :: rest => if k = key then (key, value) :: rest else (k, v) :: insert key value rest

def get? (tag : Tag) (key : String) : Option String := tag.lookup key

def ordered (tag : Tag) : List (String × String) := tag.mergeSort fun a b => a.1 ≤ b.1

/-- A key and a value, from a segment with exactly one `=`. -/
def pair? (segment : List Char) : Option (String × String) :=
  match Text.split '=' segment with
  | [key, value] =>
    let key := Text.trim Text.isBlank key
    let value := Text.trim Text.isBlank value
    if key.isEmpty || value.isEmpty then none else some (String.ofList key, String.ofList value)
  | _ => none

/-- The pairs of segments, added to those before. A segment that is no pair is reported as it is. -/
def ofSegments (tag : Tag) : List (List Char) → Except Error Tag
  | [] => .ok tag
  | segment :: rest =>
    match pair? segment with
    | some (key, value) => ofSegments (tag.insert key value) rest
    | none => .error (.invalidTag (String.ofList segment))

def parse (text : String) : Except Error Tag :=
  ofSegments [] (Text.split ',' text.toList)

theorem get?_insert (tag : Tag) (key value other : String) :
    (tag.insert key value).get? other = if other = key then some value else tag.get? other := by
  induction tag with
  | nil =>
    by_cases h : other = key
    · simp [insert, get?, h]
    · have hb : (other == key) = false := by simpa using h
      simp [insert, get?, List.lookup_cons, h, hb]
  | cons p rest ih =>
    obtain ⟨k, v⟩ := p
    unfold get? at ih
    by_cases hk : k = key
    · subst hk
      by_cases h : other = k
      · simp [insert, get?, h]
      · have hb : (other == k) = false := by simpa using h
        simp [insert, get?, List.lookup_cons, h, hb]
    · by_cases h : other = k
      · subst h; simp [insert, get?, hk]
      · have hb : (other == k) = false := by simpa using h
        simp [insert, get?, List.lookup_cons, hk, hb, ih]

end Tag

end EntitySql
