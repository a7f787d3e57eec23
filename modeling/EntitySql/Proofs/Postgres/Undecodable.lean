import EntitySql.Postgres.RawCell
import EntitySql.Proofs.Entity.Decoding

namespace EntitySql

namespace Postgres

open Row.Entry

/-- Why a column of a type that cannot be read was not decoded. -/
def unsupported (label : String) : String := "unsupported postgres type " ++ label

namespace ColumnType

variable {t : ColumnType} {label reason : String}

private theorem supported_or_other (t : ColumnType) : t ∈ supported ∨ ∃ label, t = .other label := by
  cases t with
  | other label => exact .inr ⟨label, rfl⟩
  | _ => exact .inl (by decide)

private theorem reason?_of_supported (h : t ∈ supported) : t.reason? = none := by
  cases t with
  | other label => simp [supported] at h
  | _ => rfl

private theorem reason?_other (label : String) : (other label).reason? = some (unsupported label) := rfl

private theorem reason?_eq_some_iff :
    t.reason? = some reason ↔ ∃ label, t = .other label ∧ reason = unsupported label := by
  rcases t.supported_or_other with h | ⟨label, rfl⟩
  · rw [reason?_of_supported h]
    refine ⟨nofun, ?_⟩
    rintro ⟨label, rfl, -⟩
    simp [supported] at h
  · rw [reason?_other]
    constructor
    · intro h
      cases h
      exact ⟨label, rfl, rfl⟩
    · rintro ⟨_, ht, rfl⟩
      cases ht
      rfl

end ColumnType

private theorem unsupported_injective {label label' : String} (h : unsupported label = unsupported label') :
    label = label' := by
  have htext (label : String) : (unsupported label).toList = "unsupported postgres type ".toList ++ label.toList :=
    String.toList_append
  have hlists := congrArg String.toList h
  rw [htext, htext] at hlists
  exact String.toList_inj.mp (List.append_cancel_left hlists)

private theorem head?_text_append {s : String} {c : Char} (h : s.toList.head? = some c) (t : String) :
    (s ++ t).toList.head? = some c := by
  rw [String.toList_append, List.head?_append, h, Option.some_or]

/-- A number begins with a digit or a sign. -/
theorem head?_text_number (n : Int) : ∃ c, (toString n).toList.head? = some c ∧ (c.isDigit = true ∨ c = '-') := by
  cases n with
  | ofNat n =>
    have htext : (toString (Int.ofNat n)).toList = Nat.toDigits 10 n := Nat.toList_repr
    rw [htext]
    cases hdigits : Nat.toDigits 10 n with
    | nil => exact absurd hdigits Nat.toDigits_ne_nil
    | cons c rest =>
      have hc : c ∈ Nat.toDigits 10 n := hdigits ▸ List.mem_cons_self
      exact ⟨c, rfl, .inl (Nat.isDigit_of_mem_toDigits (by decide) (by decide) hc)⟩
  | negSucc n => exact ⟨'-', head?_text_append rfl (n + 1).repr, .inr rfl⟩

private theorem head?_text_message (misfit : Misfit) : ∃ c, misfit.message.toList.head? = some c ∧ c ≠ 'u' := by
  cases misfit with
  | wrongKind expected got =>
    exact ⟨'e', head?_text_append (head?_text_append (head?_text_append rfl _) _) _, by decide⟩
  | outOfRange n type =>
    obtain ⟨c, hc, hnumber⟩ := head?_text_number n
    refine ⟨c, head?_text_append (head?_text_append hc _) _, ?_⟩
    rintro rfl
    revert hnumber
    decide
  | notUtf8 fault =>
    refine ⟨'i', ?_, by decide⟩
    cases fault with
    | invalid length index =>
      exact head?_text_append (head?_text_append (head?_text_append rfl _) _) _
    | incomplete index => exact head?_text_append rfl _
  | unparsable => exact ⟨'<', rfl, by decide⟩

/-- The reason is never the wording of a value that does not fit its field. -/
theorem message_ne_unsupported (misfit : Misfit) (label : String) : misfit.message ≠ unsupported label := by
  obtain ⟨c, hc, hne⟩ := head?_text_message misfit
  have hreason : (unsupported label).toList.head? = some 'u' := head?_text_append rfl label
  intro h
  rw [h, hreason] at hc
  exact hne (Option.some.inj hc).symm

/-- The value of a cell in a column, which is null for every type that cannot be read. -/
def ResultColumn.value (column : ResultColumn) (cell : RawCell) : Value := (RawCell.decode column.type cell).getD .null

def ResultColumn.entry (column : ResultColumn) (cell : RawCell) : Row.Entry :=
  ⟨column.name, column.value cell, column.type.reason?⟩

/-- What the cells of a row are handed on as, in the order of the columns. -/
def entriesOf (columns : List ResultColumn) (row : List RawCell) : List Row.Entry :=
  List.zipWith ResultColumn.entry columns row

/-- A row under columns, each cell of which can be read if the type of its column can. -/
structure Legible (columns : List ResultColumn) (row : List RawCell) : Prop where
  width : row.length = columns.length
  read : ∀ p ∈ columns.zip row, p.1.type ∈ ColumnType.supported → (RawCell.decode p.1.type p.2).isSome = true

/-- A row with the names and the reasons that are shared by all rows. -/
def rowOf (columns : List ResultColumn) (row : List RawCell) : Row :=
  ⟨columns.map (·.name), columns.map (·.type.reason?), List.zipWith ResultColumn.value columns row⟩

variable {columns : List ResultColumn} {row : List RawCell} {cells : List (List RawCell)}

private theorem decode_eq_value {column : ResultColumn} {cell : RawCell}
    (h : column.type ∈ ColumnType.supported → (RawCell.decode column.type cell).isSome = true) :
    RawCell.decode column.type cell = some (column.value cell) := by
  have hsome : (RawCell.decode column.type cell).isSome = true := by
    rcases column.type.supported_or_other with hread | ⟨label, hother⟩
    · exact h hread
    · rw [hother]
      cases cell <;> rfl
  obtain ⟨v, hv⟩ := Option.isSome_iff_exists.mp hsome
  rw [ResultColumn.value, hv, Option.getD_some]

private theorem rowFrom_of_legible
    (h : ∀ p ∈ columns.zip row, p.1.type ∈ ColumnType.supported → (RawCell.decode p.1.type p.2).isSome = true)
    (i : Nat) : rowFrom i columns row = .ok (List.zipWith ResultColumn.value columns row) := by
  induction columns generalizing row i with
  | nil => rfl
  | cons column columns ih =>
    cases row with
    | nil => rfl
    | cons cell row =>
      obtain ⟨hcell, hrow⟩ := List.forall_mem_cons.mp h
      rw [rowFrom, decode_eq_value hcell, ih hrow]
      rfl

/-- A result with a row, and with nothing that cannot be read but for its type, is converted. -/
theorem rowsOf_of_legible (hrow : cells ≠ []) (h : ∀ row ∈ cells, Legible columns row) :
    ∃ rows, rowsOf columns cells = .ok rows ∧ rows.columns = columns.map (·.name) ∧
      rows.undecodable = columns.map (·.type.reason?) ∧ rows.toList = cells.map (rowOf columns) := by
  have hvalues : cells.mapM (rowFrom 0 columns) =
      .ok (cells.map (List.zipWith ResultColumn.value columns)) :=
    mapM_eq_ok_iff.mpr (List.forall₂_map_right_iff.mpr
      (List.forall₂_same.mpr fun row hmem => rowFrom_of_legible (h row hmem).read 0))
  cases cells with
  | nil => exact absurd rfl hrow
  | cons first rest =>
    rw [rowsOf, hvalues]
    · refine ⟨_, rfl, rfl, rfl, ?_⟩
      rw [Rows.toList, List.map_map]
      rfl
    · exact nofun

/-- Every cell is handed on under its column and with the reason of its column. -/
theorem entries_rowOf (columns : List ResultColumn) (row : List RawCell) :
    (rowOf columns row).entries = entriesOf columns row := by
  refine List.ext_getElem? fun i => ?_
  rw [Row.entries, Row.pairs, rowOf, List.getElem?_map, List.getElem?_zipIdx, entriesOf, List.getElem?_zipWith,
    List.zip, List.getElem?_zipWith, List.getElem?_map, List.getElem?_zipWith]
  cases hcolumn : columns[i]? with
  | none => rfl
  | some column =>
    cases row[i]? with
    | none => rfl
    | some cell =>
      have hreason : (rowOf columns row).reason? i = column.type.reason? := by
        rw [Row.reason?, reasonAt, rowOf, List.getElem?_map, hcolumn]
        rfl
      simp only [Option.map_some, Nat.zero_add]
      rw [← rowOf, hreason]
      rfl

section Decoding

variable {m : Model} {blank : Entity} (a : Access) (he : blank.Derived) (hm : m.Fits blank)
  (ha : Model.Apart m.fields) (hentity : m.entity = blank.type)
include he hm ha hentity

/-- A row fails for a type that cannot be read at the first entry at fault, if its type is the one. -/
theorem decodeRow_eq_unsupported_iff (hrow : Legible columns row) (name label : String) :
    a.decodeRow m blank (rowOf columns row) = .error (.decode name (unsupported label)) ↔
      ∃ i : Nat, columns[i]? = some ⟨name, .other label⟩ ∧ (m.column? name).isSome = true ∧
        ∀ entry ∈ (entriesOf columns row).take i, Readable m blank entry := by
  rw [a.decodeRow_eq_decode_iff he hm ha hentity, entries_rowOf]
  constructor
  · rintro ⟨before, entry, after, hsplit, hbefore, hfault, rfl⟩
    have hget : (entriesOf columns row)[before.length]? = some entry := by simp [hsplit]
    rw [entriesOf, List.getElem?_zipWith] at hget
    split at hget
    · rename_i column cell hcolumn hcell
      cases hget
      generalize hmessage : unsupported label = message at hfault
      cases hfault with
      | undecoded hf hreason =>
        obtain ⟨label', htype, hlabel⟩ := ColumnType.reason?_eq_some_iff.mp hreason
        obtain rfl : label = label' := unsupported_injective (hmessage.trans hlabel)
        refine ⟨before.length, ?_, Option.isSome_iff_exists.mpr ⟨_, hf⟩, ?_⟩
        · rw [hcolumn, ← htype]
          rfl
        · rw [hsplit, List.take_left]
          exact hbefore
      | misfit hf hreason ht hv => exact absurd hmessage.symm (message_ne_unsupported _ label)
    · cases hget
  · rintro ⟨i, hcolumn, hfield, hbefore⟩
    obtain ⟨hi, -⟩ := List.getElem?_eq_some_iff.mp hcolumn
    obtain ⟨cell, hcell⟩ : ∃ cell, row[i]? = some cell := ⟨_, List.getElem?_eq_getElem (hrow.width ▸ hi)⟩
    have hget : (entriesOf columns row)[i]? = some (ResultColumn.entry ⟨name, .other label⟩ cell) := by
      rw [entriesOf, List.getElem?_zipWith, hcolumn, hcell]
    obtain ⟨hlength, hentry⟩ := List.getElem?_eq_some_iff.mp hget
    obtain ⟨f, hf⟩ := Option.isSome_iff_exists.mp hfield
    have hsplit : entriesOf columns row = (entriesOf columns row).take i ++
        ResultColumn.entry ⟨name, .other label⟩ cell :: (entriesOf columns row).drop (i + 1) := by
      rw [← hentry, List.getElem_cons_drop, List.take_append_drop]
    exact ⟨_, _, _, hsplit, hbefore, .undecoded hf rfl, rfl⟩

end Decoding

/-- A result with a row whose columns are of any types, and in which nothing that can be read is malformed. It is
converted, with the columns and the rows in their order, and the reason stands at the columns of types that cannot
be read, and nowhere else. Entities are read from it iff every entry with a field can be read. The error is that
of a type that cannot be read iff such a column has a field and is met before anything else that fails. One
without a field does not matter, and no field receives a value but from a column that could be decoded. -/
theorem rowsOf_undecodable (a : Access) (hsome : cells ≠ []) (hlegible : ∀ row ∈ cells, Legible columns row)
    {blank : Entity} (he : blank.Derived) {schema : Schema} (hs : schema.Upholds blank) {r : Registry}
    (hr : r.ReachableBy (·.Upholds blank)) {m : Model} (hm : r.Gives schema m) (hentity : m.entity = blank.type) :
    ∃ rows, rowsOf columns cells = .ok rows ∧ rows.columns = columns.map (·.name) ∧
      rows.toList.map Row.entries = cells.map (entriesOf columns) ∧
      (∀ i reason, rows.reason? i = some reason ↔
        ∃ name label, columns[i]? = some ⟨name, .other label⟩ ∧ reason = unsupported label) ∧
      ((∃ es, a.decodeRows m blank rows = .ok es) ↔
        ∀ row ∈ cells, ∀ entry ∈ entriesOf columns row, Readable m blank entry) ∧
      (∀ name label, a.decodeRows m blank rows = .error (.decode name (unsupported label)) ↔
        ∃ (before : List (List RawCell)) (row : List RawCell) (after : List (List RawCell)) (i : Nat),
          cells = before ++ row :: after ∧
          (∀ other ∈ before, ∀ entry ∈ entriesOf columns other, Readable m blank entry) ∧
          columns[i]? = some ⟨name, .other label⟩ ∧ (m.column? name).isSome = true ∧
          ∀ entry ∈ (entriesOf columns row).take i, Readable m blank entry) ∧
      ∀ row ∈ rows.toList,
        a.writeRow m blank row = a.writeEntries m blank (asked m row.entries) ∧
        ∃ n, blank.Received m (valueOf? (decoded (row.entries.take n)).reverse) (a.writeRow m blank row).1 ∧
          ((a.writeRow m blank row).2 = .ok () → row.entries.length ≤ n) := by
  have hfits : m.Fits blank := hm.fits hr hs
  have hapart : Model.Apart m.fields := (hm.reachable hr hs).apart
  obtain ⟨rows, hrows, hcolumns, hreasons, hlist⟩ := rowsOf_of_legible hsome hlegible
  have hread (row : List RawCell) : (∃ e, a.decodeRow m blank (rowOf columns row) = .ok e) ↔
      ∀ entry ∈ entriesOf columns row, Readable m blank entry := by
    rw [a.exists_decodeRow_iff he hfits hapart hentity, entries_rowOf]
  have hdecode : a.decodeRows m blank rows = cells.mapM fun row => a.decodeRow m blank (rowOf columns row) := by
    rw [Access.decodeRows, hlist, List.mapM_map]
    rfl
  refine ⟨rows, hrows, hcolumns, ?_, ?_, ?_, ?_, ?_⟩
  · rw [hlist, List.map_map]
    exact List.map_congr_left fun row _ => entries_rowOf columns row
  · intro i reason
    rw [Rows.reason?, reasonAt, hreasons, List.getElem?_map, Option.join_eq_some_iff, Option.map_eq_some_iff]
    simp only [ColumnType.reason?_eq_some_iff]
    constructor
    · rintro ⟨⟨name, _⟩, hcolumn, label, rfl, rfl⟩
      exact ⟨name, label, hcolumn, rfl⟩
    · rintro ⟨name, label, hcolumn, rfl⟩
      exact ⟨_, hcolumn, label, rfl, rfl⟩
  · rw [hdecode, exists_mapM_eq_ok_iff]
    simp only [hread]
  · intro name label
    rw [hdecode, mapM_eq_error_iff]
    constructor
    · rintro ⟨before, row, after, hsplit, hbefore, hfail⟩
      have hrow : Legible columns row := hlegible row (by simp [hsplit])
      obtain ⟨i, hfault⟩ := (decodeRow_eq_unsupported_iff a he hfits hapart hentity hrow name label).mp hfail
      exact ⟨before, row, after, i, hsplit, fun other hother => (hread other).mp (hbefore other hother), hfault⟩
    · rintro ⟨before, row, after, i, hsplit, hbefore, hfault⟩
      have hrow : Legible columns row := hlegible row (by simp [hsplit])
      exact ⟨before, row, after, hsplit, fun other hother => (hread other).mpr (hbefore other hother),
        (decodeRow_eq_unsupported_iff a he hfits hapart hentity hrow name label).mpr ⟨i, hfault⟩⟩
  · intro row _
    exact ⟨a.writeEntries_asked m blank row.entries, a.writeRow_decoded he hfits hapart hentity row⟩

/-- An address without a field is passed over, and the amount after it, which has one, is what fails, before the
null that no boolean field takes. -/
theorem rowsOf_undecodable_money :
    let info : StructInfo :=
      ⟨"User", .named "User", 32, none, [⟨"Id", none, 0, 1, ⟨.bool⟩⟩, ⟨"Name", none, 8, 24, ⟨.text⟩⟩]⟩
    let schema : Schema := fun name => if name = "User" then .struct info else .other
    let m : Model := ⟨"user", .named "User", [⟨"Id", "id", 0, 1, ⟨.bool⟩, 0⟩, ⟨"Name", "label", 8, 24, ⟨.text⟩, 1⟩]⟩
    let blank : Entity := ⟨.named "User", 32, [.blank "Id" true 0 1 .bool, .blank "Name" true 8 24 .text]⟩
    let columns : List ResultColumn :=
      [⟨"note", .other "inet"⟩, ⟨"id", .bool⟩, ⟨"label", .other "money"⟩, ⟨"id", .bool⟩]
    let cells : List (List RawCell) := [[some [127], some [1], some [5], none], [none, none, none, some [0]]]
    cells ≠ [] ∧ (∀ row ∈ cells, Legible columns row) ∧ blank.Derived ∧ schema.Upholds blank ∧
      Registry.empty.ReachableBy (·.Upholds blank) ∧ Registry.empty.Gives schema m ∧ m.entity = blank.type ∧
      ∃ rows, rowsOf columns cells = .ok rows ∧ rows.columns = ["note", "id", "label", "id"] ∧
        Access.byName.decodeRows m blank rows = .error (.decode "label" (unsupported "money")) := by
  intro info schema m blank columns cells
  have hsome : cells ≠ [] := by decide
  have hlegible : ∀ row ∈ cells, Legible columns row :=
    List.forall_mem_cons.mpr ⟨⟨rfl, by decide⟩, List.forall_mem_cons.mpr ⟨⟨rfl, by decide⟩, List.forall_mem_nil _⟩⟩
  have he : blank.Derived := ⟨by decide, by decide, by decide⟩
  have hs : schema.Upholds blank := Schema.upholds_single "User" ⟨rfl, rfl⟩
  have hgives : Registry.empty.Gives schema m :=
    .inr ⟨.named "User", [.column "Name" "label"], by decide +kernel⟩
  have hnote : Readable m blank ⟨"note", .null, some (unsupported "inet")⟩ := by
    intro f hf
    cases hf
  have hid : Readable m blank ⟨"id", .bool true, none⟩ := by
    intro f hf
    cases hf
    exact ⟨rfl, .bool, true, rfl, rfl⟩
  obtain ⟨rows, hrows, hcolumns, -, -, -, hfail, -⟩ :=
    rowsOf_undecodable .byName hsome hlegible he hs .empty hgives rfl
  refine ⟨hsome, hlegible, he, hs, .empty, hgives, rfl, rows, hrows, hcolumns, ?_⟩
  refine (hfail "label" "money").mpr ⟨[], _, _, 2, rfl, List.forall_mem_nil _, rfl, rfl, ?_⟩
  exact List.forall_mem_cons.mpr ⟨hnote, List.forall_mem_cons.mpr ⟨hid, List.forall_mem_nil _⟩⟩

end Postgres

end EntitySql
