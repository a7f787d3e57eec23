import EntitySql.Proofs.Postgres.Cell

namespace EntitySql.Postgres

namespace ColumnType

/-- The bytes of a value of the type, if all have the same number. -/
def width? : ColumnType → Option Nat
  | bool | char => some 1
  | int2 => some 2
  | int4 | oid | float4 => some 4
  | int8 | float8 | timestamptz | timestamp => some 8
  | uuid => some 16
  | _ => none

/-- Whether a type of fixed width is made for the kind of a value. Integers go with all numbers. -/
def suits (t : ColumnType) : Value → Bool
  | .bool _ => t == bool
  | .int _ | .uint _ => [char, int2, int4, int8, oid, float4, float8].contains t
  | .float _ => [float4, float8].contains t
  | .timestamp _ => [timestamp, timestamptz].contains t
  | .uuid _ => t == uuid
  | .null | .text _ | .bytes _ | .json _ => false

end ColumnType

/-- What a value is as a number for a type; single precision takes floats narrowed. -/
def quantity? (t : ColumnType) : Value → Option Binary.Quantity
  | .int n => some (.rational n.val)
  | .uint n => some (.rational n.val)
  | .float x => some (if t = .float4 then (Single.ofDouble x).quantity else x.quantity)
  | _ => none

/-- Whether two values are the same number for a type, the same boolean, the same identifier, or instants
less than a microsecond apart. -/
def Agree (t : ColumnType) : Value → Value → Prop
  | .bool a, .bool b => a = b
  | .uuid u, .uuid u' => u = u'
  | .timestamp i, .timestamp i' => -1000 < nanoseconds i - nanoseconds i' ∧ nanoseconds i - nanoseconds i' < 1000
  | v, w => ∃ q, quantity? t v = some q ∧ quantity? t w = some q

def ownForm : Value → List UInt8
  | .null => []
  | .bool b => [b.toUInt8]
  | .int n => BigEndian.ofInt 8 n.val
  | .uint n => BigEndian.ofInt 8 n.val
  | .float x => Parameter.ofDouble x
  | .text s => Text.Utf8.ofString s
  | .bytes bs => bs
  | .timestamp i => BigEndian.ofInt 8 (microseconds i)
  | .uuid u => u.bytes
  | .json j => Text.Utf8.ofString j.render

variable {t : ColumnType} {v w : Value} {bs : List UInt8} {width : Nat}

private theorem length_of_decodeBytes (ht : t.width? = some width) (h : RawCell.decodeBytes t bs = some w) :
    bs.length = width := by
  have hsigned {n : Nat} (h : RawCell.int? (n + 1) bs = some w) : bs.length = n + 1 := by
    obtain ⟨a, -, ha⟩ := RawCell.int?_eq_some.mp h
    exact (BigEndian.signed?_eq_some ha).1
  have hinstant (h : RawCell.timestamp? bs = some w) : bs.length = 8 := by
    obtain ⟨n, hn, -⟩ := Option.bind_eq_some_iff.mp h
    exact (BigEndian.signed?_eq_some hn).1
  have hunsigned {n k : Nat} (h : BigEndian.unsigned? n bs = some k) : bs.length = n :=
    (BigEndian.unsigned?_eq_some h).1
  cases t with
  | bool =>
    cases ht
    match bs, h with
    | [b], _ => rfl
  | char | int2 | int4 | int8 =>
    cases ht
    exact hsigned h
  | oid =>
    cases ht
    obtain ⟨k, hk, -⟩ := Option.bind_eq_some_iff.mp h
    exact hunsigned hk
  | float4 | float8 =>
    cases ht
    obtain ⟨k, hk, -⟩ := Option.map_eq_some_iff.mp h
    exact hunsigned hk
  | timestamp | timestamptz =>
    cases ht
    exact hinstant h
  | uuid =>
    cases ht
    obtain ⟨u, hu, -⟩ := Option.map_eq_some_iff.mp h
    unfold Uuid.ofBytes? at hu
    split at hu
    · assumption
    · cases hu
  | _ => cases ht

private theorem quantity?_ofInt {n : Integer .i64} (ht : t.suits (.int n) = true)
    (hbytes : Parameter.ofInt t n.val = .ok bs) (hread : RawCell.decodeBytes t bs = some w) :
    quantity? t w = some (.rational n.val) := by
  have hsigned {i : IntegerType} {width : Nat} (hi : t.integer? = some (i, width)) :
      quantity? t w = some (.rational n.val) := by
    rw [RawCell.decodeBytes_ofInt hi hbytes] at hread
    cases hread
    rfl
  cases t with
  | char | int2 | int4 | int8 => exact hsigned rfl
  | oid =>
    obtain ⟨⟨hmin, hmax⟩, -⟩ := Parameter.fixed_eq_ok_iff.mp hbytes
    have hmax' : n.val ≤ IntegerType.u64.max := Int.le_trans hmax (by decide)
    rw [RawCell.decodeBytes_oid (n := ⟨n.val, hmin, hmax'⟩) hbytes] at hread
    cases hread
    rfl
  | float4 =>
    simp only [Parameter.ofInt] at hbytes
    split at hbytes
    · rename_i hsmall
      cases hbytes
      rw [RawCell.decodeBytes_float4] at hread
      cases hread
      simp only [quantity?, if_true]
      rw [Single.ofDouble_toDouble (Single.isNan_ofInt hsmall), Single.quantity_ofInt hsmall]
    · cases hbytes
  | float8 =>
    simp only [Parameter.ofInt] at hbytes
    split at hbytes
    · rename_i hsmall
      cases hbytes
      rw [RawCell.decodeBytes_float8] at hread
      cases hread
      exact congrArg some (Double.quantity_ofInt hsmall)
    · cases hbytes
  | _ => cases ht

private theorem agree_of_quantity {q : Binary.Quantity} (hv : quantity? t v = some q) (hw : quantity? t w = some q) :
    Agree t v w := by
  cases v with
  | int n | uint n | float x => exact ⟨q, hv, hw⟩
  | _ => cases hv

private theorem map_some_eq_ok_iff {ε α : Type} {x : Except ε α} {a : α} : some <$> x = .ok (some a) ↔ x = .ok a := by
  cases x with
  | error e => exact ⟨nofun, nofun⟩
  | ok b => exact ⟨fun h => by cases h; rfl, fun h => by cases h; rfl⟩

private theorem encode_uint {n : Integer .u64} (h : Parameter.encode t (.uint n) = .ok (some bs)) :
    ∃ m : Integer .i64, m.val = n.val ∧ Parameter.ofInt t m.val = .ok bs := by
  simp only [Parameter.encode] at h
  split at h
  · rename_i hmax
    have hmin : IntegerType.i64.min ≤ n.val := Int.le_trans (by decide) n.min_le
    exact ⟨⟨n.val, hmin, hmax⟩, rfl, map_some_eq_ok_iff.mp h⟩
  · cases h

private theorem agree_float {x : Double} (hs : t.suits (.float x) = true)
    (hbytes : Parameter.encode t (.float x) = .ok (some bs)) (hread : RawCell.decodeBytes t bs = some w) :
    Agree t (.float x) w := by
  cases t with
  | float4 =>
    cases hbytes
    rw [if_pos rfl, RawCell.decodeBytes_float4] at hread
    cases hread
    refine agree_of_quantity rfl ?_
    simp only [quantity?, if_true, Single.ofDouble_toDouble_ofDouble]
  | float8 =>
    cases hbytes
    rw [if_neg (by decide), RawCell.decodeBytes_float8] at hread
    cases hread
    exact agree_of_quantity rfl rfl
  | _ => cases hs

private theorem agree_timestamp {i : Instant}
    (hread : RawCell.timestamp? (BigEndian.ofInt 8 (microseconds i)) = some w) : Agree t (.timestamp i) w := by
  rw [RawCell.timestamp?_ofInt (fits_microseconds i)] at hread
  obtain ⟨i', hi, rfl⟩ := Option.map_eq_some_iff.mp hread
  have hexact : nanoseconds i' = 1000 * microseconds i := by
    obtain ⟨hseconds, hnanos⟩ := RawCell.instant?_eq_some hi
    unfold nanoseconds
    omega
  have hclose := microseconds_close i
  simp only [Agree]
  omega

/-- A value of the kind of a type is read as what it is. -/
theorem agree_of_suits (hs : t.suits v = true) (hbytes : Parameter.encode t v = .ok (some bs))
    (hread : RawCell.decodeBytes t bs = some w) : Agree t v w := by
  cases v with
  | int n => exact agree_of_quantity rfl (quantity?_ofInt hs (map_some_eq_ok_iff.mp hbytes) hread)
  | uint n =>
    obtain ⟨m, hm, hbytes⟩ := encode_uint hbytes
    have hn : quantity? t (.uint n) = some (.rational m.val) := by rw [hm]; rfl
    exact agree_of_quantity hn (quantity?_ofInt hs hbytes hread)
  | bool b =>
    cases t with
    | bool =>
      cases hbytes
      cases hread
      cases b with
      | false => rfl
      | true => rfl
    | _ => cases hs
  | float x => exact agree_float hs hbytes hread
  | timestamp i =>
    cases t with
    | timestamptz | timestamp =>
      cases hbytes
      exact agree_timestamp hread
    | _ => cases hs
  | uuid u =>
    cases t with
    | uuid =>
      cases hbytes
      rw [RawCell.decodeBytes, Uuid.ofBytes?_bytes] at hread
      cases hread
      rfl
    | _ => cases hs
  | null | text s | bytes b | json j => cases hs

private theorem ownForm_of_not_suits (ht : t.width? = some width) (hs : t.suits v = false)
    (hbytes : Parameter.encode t v = .ok (some bs)) : bs = ownForm v := by
  have hinteger {n : Integer .i64} (hs : t.suits (.int n) = false) (hbytes : Parameter.ofInt t n.val = .ok bs) :
      bs = BigEndian.ofInt 8 n.val := by
    have hwide : Parameter.ofInt t n.val = Parameter.fixed .i64 8 n.val := by
      cases t with
      | bool | timestamptz | timestamp | uuid => rfl
      | char | int2 | int4 | int8 | oid | float4 | float8 => cases hs
      | _ => cases ht
    rw [hwide] at hbytes
    exact (Parameter.fixed_eq_ok_iff.mp hbytes).2.symm
  cases v with
  | int n => exact hinteger hs (map_some_eq_ok_iff.mp hbytes)
  | uint n =>
    obtain ⟨m, hm, hbytes⟩ := encode_uint hbytes
    rw [ownForm, ← hm]
    exact hinteger hs hbytes
  | float x =>
    have hdouble : t ≠ .float4 := by
      rintro rfl
      cases hs
    rw [Parameter.encode, if_neg hdouble] at hbytes
    cases hbytes
    rfl
  | json j =>
    have hplain : t ≠ .jsonb := by
      rintro rfl
      cases ht
    cases hbytes
    exact if_neg hplain
  | null => cases hbytes
  | _ =>
    cases hbytes
    rfl

/-- What a parameter is read as. A value of the kind of its type is what it was. A value of any other kind
is its own form, and is read only if this has the width of the type. -/
theorem read_as_bound (ht : t.width? = some width) (hbytes : Parameter.encode t v = .ok (some bs))
    (hread : RawCell.decodeBytes t bs = some w) :
    if t.suits v then Agree t v w else bs = ownForm v ∧ (ownForm v).length = width := by
  split
  · rename_i hs
    exact agree_of_suits hs hbytes hread
  · rename_i hs
    have hform := ownForm_of_not_suits ht (Bool.eq_false_of_not_eq_true hs) hbytes
    exact ⟨hform, hform ▸ length_of_decodeBytes ht hread⟩

theorem integer_and_boolean_read_as_bound :
    let million : Value := .int ⟨1000000, by decide, by decide⟩
    Agree .float4 million (.float ⟨0x412E848000000000#64⟩) ∧
      [1] = ownForm (.bool true) ∧ (ownForm (.bool true)).length = 1 := by
  intro million
  have hwritten : Parameter.encode .float4 million = .ok (some [0x49, 0x74, 0x24, 0x00]) := by decide +kernel
  have hread : RawCell.decodeBytes .float4 [0x49, 0x74, 0x24, 0x00] = some (.float ⟨0x412E848000000000#64⟩) := by
    decide +kernel
  have hone : RawCell.decodeBytes .char [1] = some (.int ⟨1, by decide, by decide⟩) := by decide +kernel
  exact ⟨read_as_bound (t := .float4) rfl hwritten hread,
    read_as_bound (t := .char) (v := .bool true) rfl rfl hone⟩

/-- A text of eight bytes passes for an integer of eight bytes. -/
theorem text_read_as_integer :
    let digits : List UInt8 := [0x31, 0x32, 0x33, 0x34, 0x35, 0x36, 0x37, 0x38]
    let number : Value := .int ⟨0x3132333435363738, by decide, by decide⟩
    Parameter.encode .int8 (.text "12345678") = .ok (some digits) ∧
      RawCell.decodeBytes .int8 digits = some number ∧ ¬Agree .int8 (.text "12345678") number := by
  refine ⟨by decide +kernel, by decide +kernel, ?_⟩
  rintro ⟨q, hq, -⟩
  cases hq

end EntitySql.Postgres
