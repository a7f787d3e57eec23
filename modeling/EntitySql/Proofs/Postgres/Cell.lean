import EntitySql.Postgres.RawCell
import EntitySql.Proofs.Json.RoundTrip
import EntitySql.Proofs.Number.BigEndian
import EntitySql.Proofs.Number.Narrowing
import EntitySql.Proofs.Text.Utf8

namespace EntitySql.Postgres

namespace ColumnType

def integer? : ColumnType → Option (IntegerType × Nat)
  | char => some (.i8, 1)
  | int2 => some (.i16, 2)
  | int4 => some (.i32, 4)
  | int8 => some (.i64, 8)
  | _ => none

variable {t : ColumnType} {i : IntegerType} {width : Nat}

private theorem fits_iff (h : t.integer? = some (i, width)) (n : Int) :
    BigEndian.Fits width n ↔ i.min ≤ n ∧ n ≤ i.max := by
  unfold BigEndian.Fits
  cases t with
  | char | int2 | int4 | int8 =>
    cases h
    simp only [IntegerType.min, IntegerType.max]
    omega
  | _ => cases h

theorem ofInt_integer (h : t.integer? = some (i, width)) (n : Int) :
    Parameter.ofInt t n = Parameter.fixed i width n := by
  cases t with
  | char | int2 | int4 | int8 =>
    cases h
    rfl
  | _ => cases h

private theorem decodeBytes_integer (h : t.integer? = some (i, width)) (bs : List UInt8) :
    RawCell.decodeBytes t bs = RawCell.int? width bs := by
  cases t with
  | char | int2 | int4 | int8 =>
    cases h
    rfl
  | _ => cases h

end ColumnType

theorem Parameter.fixed_eq_ok_iff {i : IntegerType} {width : Nat} {n : Int} {bs : List UInt8} :
    fixed i width n = .ok bs ↔ (i.min ≤ n ∧ n ≤ i.max) ∧ BigEndian.ofInt width n = bs := by
  unfold fixed
  split
  · rename_i h
    simp [h]
  · rename_i h
    simp [h]

def nanoseconds (i : Instant) : Int := (i.seconds - epochSeconds) * 1000000000 + i.nanos

/-- What is dropped of an instant is less than a microsecond. -/
theorem microseconds_close (i : Instant) :
    -1000 < nanoseconds i - 1000 * microseconds i ∧ nanoseconds i - 1000 * microseconds i < 1000 := by
  have hdivide : 1000 * microseconds i + (nanoseconds i).tmod 1000 = nanoseconds i :=
    Int.mul_tdiv_add_tmod _ _
  have hlow : -1000 < (nanoseconds i).tmod 1000 := Int.lt_tmod_of_pos _ (by decide)
  have hhigh : (nanoseconds i).tmod 1000 < 1000 := Int.tmod_lt_of_pos _ (by decide)
  omega

theorem fits_microseconds (i : Instant) : BigEndian.Fits 8 (microseconds i) := by
  have hclose := microseconds_close i
  have hfirst := i.first_le
  have hlast := i.le_last
  have hnanos := i.nanos_lt
  unfold nanoseconds epochSeconds at hclose
  unfold Instant.firstSecond at hfirst
  unfold Instant.lastSecond at hlast
  unfold BigEndian.Fits
  omega

namespace RawCell

variable {t : ColumnType} {bs : List UInt8} {v : Value}

theorem int?_eq_some {width : Nat} : int? width bs = some v ↔
    ∃ n : Integer .i64, v = .int n ∧ BigEndian.signed? width bs = some n.val := by
  constructor
  · intro h
    obtain ⟨n, hn, hv⟩ := Option.bind_eq_some_iff.mp h
    obtain ⟨a, ha, rfl⟩ := Option.map_eq_some_iff.mp hv
    refine ⟨a, rfl, ?_⟩
    rw [Integer.val_of_ofInt? ha]
    exact hn
  · rintro ⟨n, rfl, hn⟩
    simp [int?, hn, Integer.ofInt?_val]

private theorem text?_ofString (s : String) : text? (Text.Utf8.ofString s) = some s := by
  rw [text?, Text.Utf8.toString?_ofString]
  rfl

theorem decodeBytes_ofInt {i : IntegerType} {width : Nat} (h : t.integer? = some (i, width)) {n : Integer .i64}
    (hbytes : Parameter.ofInt t n.val = .ok bs) : decodeBytes t bs = some (.int n) := by
  rw [ColumnType.ofInt_integer h, Parameter.fixed_eq_ok_iff] at hbytes
  obtain ⟨hrange, rfl⟩ := hbytes
  rw [ColumnType.decodeBytes_integer h, int?_eq_some]
  exact ⟨n, rfl, BigEndian.signed?_ofInt ((ColumnType.fits_iff h n.val).mpr hrange)⟩

theorem decodeBytes_oid {n : Integer .u64} (hbytes : Parameter.ofInt .oid n.val = .ok bs) :
    decodeBytes .oid bs = some (.uint n) := by
  obtain ⟨⟨hmin, hmax⟩, rfl⟩ := Parameter.fixed_eq_ok_iff.mp hbytes
  have hnat : (n.val.toNat : Int) = n.val := Int.toNat_of_nonneg hmin
  have hsmall : n.val.toNat < 256 ^ 4 := by
    simp only [IntegerType.max] at hmax
    omega
  have hread : BigEndian.unsigned? 4 (BigEndian.ofInt 4 n.val) = some n.val.toNat := by
    rw [← BigEndian.unsigned?_ofInt hsmall, hnat]
  simp only [decodeBytes, hread, Option.bind_eq_bind, Option.bind_some, hnat, Integer.ofInt?_val,
    Option.map_some]

theorem decodeBytes_float4 (x : Single) :
    decodeBytes .float4 (Parameter.ofSingle x) = some (.float x.toDouble) := by
  have hword : x.word.toNat % Nat.pow 256 4 = x.word.toNat := Nat.mod_eq_of_lt x.word.isLt
  have hback : Single.ofNat x.word.toNat = x := by
    rw [Single.ofNat, BitVec.ofNat_toNat, BitVec.setWidth_eq]
  simp only [decodeBytes, Parameter.ofSingle, BigEndian.unsigned?_bytes, hword, Option.map_some, hback]

theorem decodeBytes_float8 (x : Double) :
    decodeBytes .float8 (Parameter.ofDouble x) = some (.float x) := by
  have hword : x.word.toNat % Nat.pow 256 8 = x.word.toNat := Nat.mod_eq_of_lt x.word.isLt
  have hback : Double.ofNat x.word.toNat = x := by
    rw [Double.ofNat, BitVec.ofNat_toNat, BitVec.setWidth_eq]
  simp only [decodeBytes, Parameter.ofDouble, BigEndian.unsigned?_bytes, hword, Option.map_some, hback]

def instant? (n : Int) : Option Instant :=
  Instant.ofParts? (epochSeconds + n / 1000000) (n % 1000000 * 1000).toNat

theorem timestamp?_ofInt {n : Int} (h : BigEndian.Fits 8 n) :
    timestamp? (BigEndian.ofInt 8 n) = (instant? n).map .timestamp := by
  rw [timestamp?, BigEndian.signed?_ofInt h]
  rfl

private theorem timestamp?_eq_some (h : timestamp? bs = some v) :
    ∃ n i, v = .timestamp i ∧ instant? n = some i := by
  obtain ⟨n, -, hv⟩ := Option.bind_eq_some_iff.mp h
  obtain ⟨i, hi, rfl⟩ := Option.map_eq_some_iff.mp hv
  exact ⟨n, i, rfl, hi⟩

theorem instant?_eq_some {n : Int} {i : Instant} (h : instant? n = some i) :
    i.seconds = epochSeconds + n / 1000000 ∧ (i.nanos : Int) = n % 1000000 * 1000 := by
  unfold instant? Instant.ofParts? at h
  split at h
  · cases h
    refine ⟨rfl, ?_⟩
    dsimp only
    omega
  · cases h

private theorem microseconds_instant? {n : Int} {i : Instant} (h : instant? n = some i) : microseconds i = n := by
  obtain ⟨hseconds, hnanos⟩ := instant?_eq_some h
  have hexact : (epochSeconds + n / 1000000 - epochSeconds) * 1000000000 + n % 1000000 * 1000 = n * 1000 := by
    omega
  rw [microseconds, hseconds, hnanos, hexact]
  exact Int.mul_tdiv_cancel n (by decide)

/-- A value that can be written for a type and is read from what is written. -/
def Restorable (t : ColumnType) (v : Value) : Prop :=
  ∃ bs, Parameter.encode t v = .ok (some bs) ∧ decodeBytes t bs = some v

private theorem restorable_integer {i : IntegerType} {width : Nat} (ht : t.integer? = some (i, width + 1))
    (h : decodeBytes t bs = some v) : Restorable t v := by
  rw [ColumnType.decodeBytes_integer ht] at h
  obtain ⟨n, rfl, hn⟩ := int?_eq_some.mp h
  have hrange := (ColumnType.fits_iff ht n.val).mp (BigEndian.signed?_eq_some hn).2
  have hbytes : Parameter.ofInt t n.val = .ok (BigEndian.ofInt (width + 1) n.val) := by
    rw [ColumnType.ofInt_integer ht]
    exact Parameter.fixed_eq_ok_iff.mpr ⟨hrange, rfl⟩
  refine ⟨_, ?_, decodeBytes_ofInt ht hbytes⟩
  rw [Parameter.encode, hbytes]
  rfl

/-- The numbers of objects have half the range of signed integers, through which they are written. -/
theorem restorable_oid (h : decodeBytes .oid bs = some v) : Restorable .oid v := by
  obtain ⟨k, hk, hv⟩ := Option.bind_eq_some_iff.mp h
  obtain ⟨n, hn, rfl⟩ := Option.map_eq_some_iff.mp hv
  have hsmall := (BigEndian.unsigned?_eq_some hk).2
  have hval : n.val = k := Integer.val_of_ofInt? hn
  have hsigned : n.val ≤ IntegerType.i64.max := by
    simp only [IntegerType.max]
    omega
  have hbytes : Parameter.ofInt .oid n.val = .ok (BigEndian.ofInt 4 n.val) := by
    refine Parameter.fixed_eq_ok_iff.mpr ⟨?_, rfl⟩
    simp only [IntegerType.min, IntegerType.max]
    omega
  refine ⟨_, ?_, decodeBytes_oid hbytes⟩
  rw [Parameter.encode, if_pos hsigned, hbytes]
  rfl

private theorem restorable_float4 (h : decodeBytes .float4 bs = some v) : Restorable .float4 v := by
  obtain ⟨w, -, rfl⟩ := Option.map_eq_some_iff.mp h
  refine ⟨_, rfl, ?_⟩
  rw [if_pos rfl, decodeBytes_float4, Single.toDouble_ofDouble_toDouble]

private theorem restorable_float8 (h : decodeBytes .float8 bs = some v) : Restorable .float8 v := by
  obtain ⟨w, -, rfl⟩ := Option.map_eq_some_iff.mp h
  exact ⟨_, rfl, decodeBytes_float8 _⟩

private theorem restorable_timestamp (ht : t = .timestamp ∨ t = .timestamptz) (h : decodeBytes t bs = some v) :
    Restorable t v := by
  have hread (bs : List UInt8) : decodeBytes t bs = timestamp? bs := by
    obtain rfl | rfl := ht
    · rfl
    · rfl
  rw [hread] at h
  obtain ⟨n, i, rfl, hi⟩ := timestamp?_eq_some h
  refine ⟨_, rfl, ?_⟩
  rw [hread, timestamp?_ofInt (fits_microseconds i), microseconds_instant? hi, hi]
  rfl

private theorem restorable_uuid (h : decodeBytes .uuid bs = some v) : Restorable .uuid v := by
  obtain ⟨u, -, rfl⟩ := Option.map_eq_some_iff.mp h
  refine ⟨_, rfl, ?_⟩
  rw [decodeBytes, Uuid.ofBytes?_bytes]
  rfl

private theorem json?_eq_some (h : json? bs = some v) (hreals : ∀ j, v = .json j → ∀ x ∈ j.reals, Json.ReadsBack x) :
    ∃ j, v = .json j ∧ json? (Text.Utf8.ofString j.render) = some (.json j) := by
  obtain ⟨j, hj, rfl⟩ := Option.map_eq_some_iff.mp h
  obtain ⟨s, -, hparse⟩ := Option.bind_eq_some_iff.mp hj
  have hback : Json.parse? j.render = some j := Json.parse?_render hparse (hreals j rfl)
  refine ⟨j, rfl, ?_⟩
  simp only [json?, text?_ofString, Option.bind_eq_bind, Option.bind_some, hback, Option.map_some]

private theorem restorable_json (ht : t = .json ∨ t = .jsonb) (h : json? bs = some v)
    (hreals : ∀ j, v = .json j → ∀ x ∈ j.reals, Json.ReadsBack x) : Restorable t v := by
  obtain ⟨j, rfl, hback⟩ := json?_eq_some h hreals
  refine ⟨_, rfl, ?_⟩
  obtain rfl | rfl := ht
  · exact hback
  · exact hback

private theorem restorable_of_decodeBytes (ht : t ∈ ColumnType.supported) (h : decodeBytes t bs = some v)
    (hreals : ∀ j, v = .json j → ∀ x ∈ j.reals, Json.ReadsBack x) : Restorable t v := by
  cases t with
  | other label => simp [ColumnType.supported] at ht
  | bool =>
    rcases bs with - | ⟨b, - | ⟨c, rest⟩⟩
    · cases h
    · cases h
      cases b != 0 with
      | false => exact ⟨_, rfl, rfl⟩
      | true => exact ⟨_, rfl, rfl⟩
    · cases h
  | char | int2 | int4 | int8 => exact restorable_integer rfl h
  | oid => exact restorable_oid h
  | float4 => exact restorable_float4 h
  | float8 => exact restorable_float8 h
  | text | varchar | bpchar | name | unknown =>
    obtain ⟨s, -, rfl⟩ := Option.map_eq_some_iff.mp h
    exact ⟨_, rfl, congrArg (Option.map Value.text) (text?_ofString s)⟩
  | bytea =>
    cases h
    exact ⟨_, rfl, rfl⟩
  | timestamptz => exact restorable_timestamp (.inr rfl) h
  | timestamp => exact restorable_timestamp (.inl rfl) h
  | uuid => exact restorable_uuid h
  | json => exact restorable_json (.inl rfl) h hreals
  | jsonb =>
    cases bs with
    | nil => cases h
    | cons b rest =>
      simp only [decodeBytes] at h
      split at h
      · exact restorable_json (.inr rfl) h hreals
      · cases h

/-- What is read from a cell of a supported type can be written for the type, and is read again from what
is written. Null is null of any type. -/
theorem reads_back {cell : RawCell} (ht : cell = none ∨ t ∈ ColumnType.supported)
    (h : decode t cell = some v) (hreals : ∀ j, v = .json j → ∀ x ∈ j.reals, Json.ReadsBack x) :
    ∃ cell', Parameter.encode t v = .ok cell' ∧ decode t cell' = some v ∧
      (cell' = none ↔ cell = none) ∧ (v = .null ↔ cell = none) := by
  cases cell with
  | none =>
    cases h
    exact ⟨none, rfl, rfl, Iff.rfl, by simp⟩
  | some bs =>
    obtain ⟨bs', hbytes, hread⟩ := restorable_of_decodeBytes (ht.resolve_left nofun) h hreals
    have hnull : v ≠ .null := by
      rintro rfl
      cases hbytes
    exact ⟨some bs', hbytes, hread, by simp, by simpa using hnull⟩

theorem document_reads_back :
    let half : Double := ⟨0x3FE0000000000000#64⟩
    let j : Json := .object [("a", .array [.number (.whole (-7)), .string "é\n"]), ("b", .number (.real half))]
    let cell := some (Parameter.jsonVersion ::
      Text.Utf8.ofString "\x7b\"b\" : 5e-1, \"a\":[-7,\"é\\n\"]\x7d")
    decode .jsonb cell = some (.json j) ∧
      ∃ cell', Parameter.encode .jsonb (.json j) = .ok cell' ∧ decode .jsonb cell' = some (.json j) ∧
        (cell' = none ↔ cell = none) ∧ (Value.json j = .null ↔ cell = none) := by
  intro half j cell
  have hread : decode .jsonb cell = some (.json j) := by decide +kernel
  refine ⟨hread, reads_back (.inr (by decide)) hread ?_⟩
  intro j' hj x hx
  cases hj
  obtain rfl : x = half := List.mem_singleton.mp hx
  unfold Json.ReadsBack
  decide +kernel

end RawCell

end EntitySql.Postgres
