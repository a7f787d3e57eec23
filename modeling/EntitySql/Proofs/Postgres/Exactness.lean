import EntitySql.Proofs.Postgres.Cell

namespace EntitySql

namespace Value

def integer? : Value → Option Int
  | .int n => some n.val
  | .uint n => some n.val
  | _ => none

def quantity? : Value → Option Binary.Quantity
  | .int n => some (.rational n.val)
  | .uint n => some (.rational n.val)
  | .float x => some x.quantity
  | _ => none

end Value

namespace Postgres

/-- The least and the greatest integer that a type of numbers takes. -/
def ColumnType.bounds? : ColumnType → Option (Int × Int)
  | char => some (-128, 127)
  | int2 => some (-32768, 32767)
  | int4 => some (-2147483648, 2147483647)
  | int8 => some (-9223372036854775808, 9223372036854775807)
  | oid => some (0, 4294967295)
  | float4 => some (-2 ^ 24, 2 ^ 24)
  | float8 => some (-2 ^ 53, 2 ^ 53)
  | _ => none

variable {t : ColumnType} {v w : Value} {n lo hi : Int}

/-- Every type of numbers keeps within the signed integers of sixty-four bits. -/
theorem ColumnType.bounds?_le (h : t.bounds? = some (lo, hi)) : hi ≤ IntegerType.i64.max := by
  cases t <;> cases h <;> decide

private theorem Parameter.fixed_ok_iff {i : IntegerType} {width : Nat} :
    (∃ bs, fixed i width n = .ok bs) ↔ i.min ≤ n ∧ n ≤ i.max := by
  simp only [fixed_eq_ok_iff]
  exact ⟨fun ⟨_, h, _⟩ => h, fun h => ⟨_, h, rfl⟩⟩

/-- An integer whose absolute value is within a power of two. -/
theorem natAbs_le_iff {k : Nat} : n.natAbs ≤ Nat.pow 2 k ↔ -2 ^ k ≤ n ∧ n ≤ 2 ^ k := by
  have hpower : (2 ^ k : Int) = ((Nat.pow 2 k : Nat) : Int) := by
    rw [Nat.pow_eq]
    norm_cast
  rw [hpower]
  omega

private theorem Parameter.ofInt_ok_iff (h : t.bounds? = some (lo, hi)) :
    (∃ bs, ofInt t n = .ok bs) ↔ lo ≤ n ∧ n ≤ hi := by
  cases t with
  | char | int2 | int4 | int8 | oid =>
    cases h
    exact fixed_ok_iff
  | float4 | float8 =>
    cases h
    rw [← natAbs_le_iff, ofInt]
    split
    · rename_i hsmall
      exact ⟨fun _ => hsmall, fun _ => ⟨_, rfl⟩⟩
    · rename_i hlarge
      exact ⟨fun ⟨_, hbytes⟩ => (nomatch hbytes), fun hsmall => absurd hsmall hlarge⟩
  | _ => cases h

private theorem map_some_ok_iff {ε α : Type} {x : Except ε α} {o : Option α} :
    some <$> x = .ok o ↔ ∃ a, x = .ok a ∧ o = some a := by
  cases x with
  | error e => exact ⟨nofun, fun ⟨_, h, _⟩ => (nomatch h)⟩
  | ok a =>
    refine ⟨fun h => ⟨a, rfl, (Except.ok.inj h).symm⟩, ?_⟩
    rintro ⟨b, hb, rfl⟩
    cases hb
    rfl

/-- A value of either kind is written as its integer, if this is within the signed integers of sixty-four
bits. -/
theorem Parameter.encode_integer_iff {cell : RawCell} (hv : v.integer? = some n) :
    encode t v = .ok cell ↔ n ≤ IntegerType.i64.max ∧ ∃ bs, ofInt t n = .ok bs ∧ cell = some bs := by
  cases v with
  | int m =>
    cases hv
    rw [encode, map_some_ok_iff]
    exact ⟨fun h => ⟨m.le_max, h⟩, fun h => h.2⟩
  | uint m =>
    cases hv
    rw [encode]
    split
    · rename_i hmax
      rw [map_some_ok_iff]
      exact ⟨fun h => ⟨hmax, h⟩, fun h => h.2⟩
    · rename_i hlarge
      constructor
      · intro h
        cases h
      · intro h
        exact absurd h.1 hlarge
  | _ => cases hv

private theorem Parameter.encode_ok_iff (ht : t.bounds? = some (lo, hi)) (hv : v.integer? = some n) :
    (∃ cell, encode t v = .ok cell) ↔ lo ≤ n ∧ n ≤ hi := by
  rw [← ofInt_ok_iff ht]
  constructor
  · rintro ⟨cell, h⟩
    obtain ⟨-, bs, hbytes, -⟩ := (encode_integer_iff hv).mp h
    exact ⟨bs, hbytes⟩
  · rintro ⟨bs, hbytes⟩
    have hrange := (ofInt_ok_iff ht).mp ⟨bs, hbytes⟩
    have hmax : n ≤ IntegerType.i64.max := Int.le_trans hrange.2 (ColumnType.bounds?_le ht)
    exact ⟨some bs, (encode_integer_iff hv).mpr ⟨hmax, bs, hbytes, rfl⟩⟩

/-- The number that the bytes of an integer are read as. -/
theorem quantity?_of_ofInt {bs : List UInt8} (ht : t.bounds? = some (lo, hi))
    (hbytes : Parameter.ofInt t n = .ok bs) :
    ∃ w, RawCell.decodeBytes t bs = some w ∧ w.quantity? = some (.rational n) := by
  have hsigned {i : IntegerType} {width : Nat} (hi : t.integer? = some (i, width)) :
      ∃ w, RawCell.decodeBytes t bs = some w ∧ w.quantity? = some (.rational n) := by
    have hmax : n ≤ IntegerType.i64.max :=
      Int.le_trans ((Parameter.ofInt_ok_iff ht).mp ⟨bs, hbytes⟩).2 (ColumnType.bounds?_le ht)
    have hmin : IntegerType.i64.min ≤ n := by
      rw [ColumnType.ofInt_integer hi, Parameter.fixed_eq_ok_iff] at hbytes
      exact Int.le_trans IntegerType.min_i64_le hbytes.1.1
    exact ⟨_, RawCell.decodeBytes_ofInt hi (n := ⟨n, hmin, hmax⟩) hbytes, rfl⟩
  cases t with
  | char | int2 | int4 | int8 => exact hsigned rfl
  | oid =>
    obtain ⟨⟨hmin, hmax⟩, -⟩ := Parameter.fixed_eq_ok_iff.mp hbytes
    have hmax' : n ≤ IntegerType.u64.max := Int.le_trans hmax (by decide)
    exact ⟨_, RawCell.decodeBytes_oid (n := ⟨n, hmin, hmax'⟩) hbytes, rfl⟩
  | float4 =>
    simp only [Parameter.ofInt] at hbytes
    split at hbytes
    · rename_i hsmall
      cases hbytes
      refine ⟨_, RawCell.decodeBytes_float4 _, ?_⟩
      rw [Value.quantity?, Single.quantity_toDouble, Single.quantity_ofInt hsmall]
    · cases hbytes
  | float8 =>
    simp only [Parameter.ofInt] at hbytes
    split at hbytes
    · rename_i hsmall
      cases hbytes
      exact ⟨_, RawCell.decodeBytes_float8 _, congrArg some (Double.quantity_ofInt hsmall)⟩
    · cases hbytes
  | _ => cases ht

/-- An integer is taken for a type of numbers iff it is between the bounds of the type. What is written of it
then is read back as the same number. -/
theorem integer_exact (ht : t.bounds? = some (lo, hi)) (hv : v.integer? = some n) :
    ((∃ cell, Parameter.encode t v = .ok cell) ↔ lo ≤ n ∧ n ≤ hi) ∧
      ∀ cell, Parameter.encode t v = .ok cell →
        ∃ w, RawCell.decode t cell = some w ∧ w.quantity? = some (.rational n) := by
  refine ⟨Parameter.encode_ok_iff ht hv, fun cell h => ?_⟩
  obtain ⟨-, bs, hbytes, rfl⟩ := (Parameter.encode_integer_iff hv).mp h
  exact quantity?_of_ofInt ht hbytes

/-- The least integer of sixty-four bits and the greatest one that single precision takes are read back; an
unsigned integer that is one too great is refused. -/
theorem integer_exact_extremes :
    let least : Value := .int ⟨-9223372036854775808, by decide, by decide⟩
    let power : Value := .uint ⟨16777216, by decide, by decide⟩
    let beyond : Value := .uint ⟨9223372036854775808, by decide, by decide⟩
    (∃ cell w, Parameter.encode .int8 least = .ok cell ∧ RawCell.decode .int8 cell = some w ∧
        w.quantity? = some (.rational (-9223372036854775808 : Int))) ∧
      (∃ cell w, Parameter.encode .float4 power = .ok cell ∧ RawCell.decode .float4 cell = some w ∧
        w.quantity? = some (.rational (16777216 : Int))) ∧
      ¬∃ cell, Parameter.encode .int8 beyond = .ok cell := by
  intro least power beyond
  have hleast := integer_exact (t := .int8) (v := least) rfl rfl
  have hpower := integer_exact (t := .float4) (v := power) rfl rfl
  have hbeyond := integer_exact (t := .int8) (v := beyond) rfl rfl
  refine ⟨?_, ?_, fun h => absurd (hbeyond.1.mp h) (by decide)⟩
  · obtain ⟨cell, hcell⟩ := hleast.1.mpr (by decide)
    obtain ⟨w, hread, hw⟩ := hleast.2 cell hcell
    exact ⟨cell, w, hcell, hread, hw⟩
  · obtain ⟨cell, hcell⟩ := hpower.1.mpr (by decide)
    obtain ⟨w, hread, hw⟩ := hpower.2 cell hcell
    exact ⟨cell, w, hcell, hread, hw⟩

end Postgres

end EntitySql
