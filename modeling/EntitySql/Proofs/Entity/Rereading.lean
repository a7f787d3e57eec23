import EntitySql.Proofs.Entity.RoundTrip
import EntitySql.Proofs.Entity.RowWriting
import EntitySql.Proofs.Sql.Condition

namespace EntitySql

open Row.Entry

def Entity.entries (e : Entity) (fields : List Field) : List Row.Entry :=
  fields.map fun f => ⟨f.column, e.valueOf f, none⟩

namespace Entity.Received

variable {m : Model} {value? : String → Option Value} {blank e : Entity} {fields : List Field}

/-- A field that received a value, or whose content some value is read as, is read as it is. -/
theorem reread (ha : Model.Apart m.fields) (h : blank.Received m value? e) {f : Field} (hf : f ∈ m.fields)
    (hleft : value? f.column = none →
      ∃ b v, blank.cells[f.place]? = some b ∧ b.type.ofValue v = .ok b.content) :
    ∃ b x, blank.cells[f.place]? = some b ∧ b.type.ofValue (e.valueOf f) = .ok x ∧
      e.cells[f.place]? = some { b with content := x } := by
  have hsettled : ∃ b v x, blank.cells[f.place]? = some b ∧ b.type.ofValue v = .ok x ∧
      e.cells[f.place]? = some { b with content := x } := by
    cases hv : value? f.column with
    | some v =>
      obtain ⟨b, x, hb, hx, he⟩ := h.read hf hv
      exact ⟨b, v, x, hb, hx, he⟩
    | none =>
      obtain ⟨b, v, hb, hx⟩ := hleft hv
      have hkept : e.cells[f.place]? = blank.cells[f.place]? := by
        refine h.kept fun g hg hplace => ?_
        rw [ha.eq_of_place hg hf hplace, hv]
      exact ⟨b, v, b.content, hb, hx, hkept.trans hb⟩
  obtain ⟨b, v, x, hb, hx, he⟩ := hsettled
  have hvalue : e.valueOf f = b.type.toValue x := by
    rw [Entity.valueOf, Entity.read?, he]
    rfl
  exact ⟨b, x, hb, hvalue ▸ FieldType.ofValue_toValue_of_ofValue hx, he⟩

section

variable (ha : Model.Apart m.fields) (h : blank.Received m value? e) (hfields : ∀ f ∈ fields, f ∈ m.fields)
  (hleft : ∀ f ∈ fields, value? f.column = none →
    ∃ b v, blank.cells[f.place]? = some b ∧ b.type.ofValue v = .ok b.content)

include ha h hfields hleft

private theorem readable_entries : ∀ entry ∈ e.entries fields, Readable m blank entry := by
  intro entry hentry g hg
  obtain ⟨f, hf, rfl⟩ := List.mem_map.mp hentry
  obtain ⟨b, x, hb, hx, -⟩ := h.reread ha (hfields f hf) (hleft f hf)
  cases (Model.column?_of_mem ha (hfields f hf)).symm.trans hg
  refine ⟨rfl, b.type, x, ?_, hx⟩
  rw [Entity.typeAt?, hb, Option.map_some]

/-- The fields make up the entity if no other field received a value. -/
theorem entries (hcover : ∀ f ∈ m.fields, f ∉ fields → value? f.column = none) :
    blank.Received m (valueOf? (e.entries fields).reverse) e where
  type := h.type
  size := h.size
  read {f} hf {v} hv := by
    obtain ⟨entry, hentry, hcolumn, hvalue⟩ := exists_of_valueOf? hv
    obtain ⟨g, hg, rfl⟩ := List.mem_map.mp (List.mem_reverse.mp hentry)
    obtain rfl := ha.eq_of_column (hfields g hg) hf hcolumn
    cases hvalue
    exact h.reread ha hf (hleft g hg)
  kept {place} hnone := by
    refine h.kept fun f hf hplace => ?_
    refine hcover f hf fun hmem => ?_
    have hentry : ⟨f.column, e.valueOf f, none⟩ ∈ (e.entries fields).reverse :=
      List.mem_reverse.mpr (List.mem_map_of_mem hmem)
    exact valueOf?_eq_none_iff.mp (hnone f hf hplace) _ hentry rfl

end

end Entity.Received

namespace Access

variable {m : Model} {blank e : Entity}

private theorem received_of_decodeRow (a : Access) (hblank : blank.Derived) (hm : m.Fits blank)
    (ha : Model.Apart m.fields) (hentity : m.entity = blank.type) {row : Row}
    (h : a.decodeRow m blank row = .ok e) : blank.Received m (valueOf? row.entries.reverse) e := by
  rw [decodeRow, writeRow] at h
  rcases a.writeEntries_cases hblank hm ha hentity row.entries with
    ⟨e', -, hrun, hreceived⟩ | ⟨_, _, _, _, _, -, -, -, hrun, -⟩
  · rw [hrun] at h
    cases h
    exact hreceived
  · rw [hrun] at h
    cases h

/-- An entity that is read again from the values of its fields. -/
theorem decodeRow_entries (a : Access) (hblank : blank.Derived) (hm : m.Fits blank)
    (ha : Model.Apart m.fields) (hentity : m.entity = blank.type) {fields : List Field}
    (hreadable : ∀ entry ∈ e.entries fields, Readable m blank entry)
    (h : blank.Received m (valueOf? (e.entries fields).reverse) e) :
    a.decodeRow m blank ⟨fields.map (·.column), [], fields.map e.valueOf⟩ = .ok e := by
  obtain ⟨e', hrun, hreceived⟩ := a.writeEntries_readable hblank hm ha hentity hreadable
  rw [hreceived.unique h, Entity.entries] at hrun
  rw [decodeRow, writeRow, entries_of_fields, hrun]

end Access

namespace Compiler

/-- Reading is stable under writing. What a type reads from a value, it reads again from the value that this
becomes. So an entity that was read from a row, and is inserted with all fields or with any that comprise
those the row had values for, is read again from the arguments; a field that the row had no value for has to
hold what some value is read as if it is inserted. How fields are reached does not matter on any way. -/
theorem decodeRow_inserted :
    (∀ (t : FieldType) (v : Value) (x : t.Content), t.ofValue v = .ok x → t.ofValue (t.toValue x) = .ok x) ∧
      ∀ {c : Compiler} {m : Model} {blank e : Entity} {schema : Schema} {r : Registry} {row : Row}
        {names : List String} {fields : List Field} (a a' : Access),
        blank.Derived → schema.Upholds blank → r.ReachableBy (·.Upholds blank) → r.Gives schema m →
        m.entity = blank.type → c.lookup blank.type = .ok m → a.decodeRow m blank row = .ok e →
        insertedFields m names = .ok fields →
        (∀ f ∈ m.fields, f ∉ fields → row.get? f.column = none) →
        (∀ f ∈ fields, row.get? f.column = none →
          ∃ b v, blank.cells[f.place]? = some b ∧ b.type.ofValue v = .ok b.content) →
        ∃ st, c.build (.insert ⟨blank.type, [e], names, none⟩) = .ok st ∧
          a'.decodeRow m blank ⟨fields.map (·.column), [], st.args⟩ = .ok e := by
  refine ⟨fun t v x => FieldType.ofValue_toValue_of_ofValue, ?_⟩
  intro c m blank e schema r row names fields a a' hblank hs hr hm hentity hl hrow hnames hcover hleft
  have hfits : m.Fits blank := hm.fits hr hs
  have hapart : Model.Apart m.fields := (hm.reachable hr hs).apart
  have hfields : ∀ f ∈ fields, f ∈ m.fields := mem_insertedFields hnames
  have hreceived := a.received_of_decodeRow hblank hfits hapart hentity hrow
  have hget (column : String) : valueOf? row.entries.reverse column = none ↔ row.get? column = none := by
    rw [row.get?_eq_valueOf?, valueOf?_eq_none_iff, valueOf?_eq_none_iff]
    simp only [List.mem_reverse]
  have hleft' : ∀ f ∈ fields, valueOf? row.entries.reverse f.column = none →
      ∃ b v, blank.cells[f.place]? = some b ∧ b.type.ofValue v = .ok b.content :=
    fun f hf hnone => hleft f hf ((hget f.column).mp hnone)
  have hcover' : ∀ f ∈ m.fields, f ∉ fields → valueOf? row.entries.reverse f.column = none :=
    fun f hf hmem => (hget f.column).mpr (hcover f hf hmem)
  have hread : ∀ x ∈ [e], ∀ f ∈ fields, c.access.read m x f.name = .ok (x.valueOf f) := by
    intro x hx f hf
    obtain rfl := List.mem_singleton.mp hx
    have hframe := hreceived.frame_kept
    exact c.access.read_of_mem (hblank.of_frame hframe) (hfits.of_frame hframe)
      (hentity.trans hreceived.type.symm) (hfields f hf)
  obtain ⟨values, hbuild⟩ :=
    build_insertion (i := ⟨blank.type, [e], names, none⟩) (List.cons_ne_nil e []) rfl hl hnames hread
  refine ⟨_, hbuild, ?_⟩
  rw [List.flatMap_singleton]
  exact a'.decodeRow_entries hblank hfits hapart hentity
    (hreceived.readable_entries hapart hfields hleft') (hreceived.entries hapart hfields hleft' hcover')

/-- An unsigned number, bytes that are text, and a field that the row lacks: none comes back as the value it
was, and the entity is the same. -/
theorem decodeRow_inserted_note :
    let info : StructInfo :=
      ⟨"Note", .named "Note", 40, none, [⟨"Id", none, 0, 8, ⟨.integer .i64⟩⟩,
        ⟨"Body", none, 8, 24, ⟨.optional .text⟩⟩, ⟨"Done", none, 32, 1, ⟨.bool⟩⟩]⟩
    let schema : Schema := fun name => if name = "Note" then .struct info else .other
    let m : Model := ⟨"note", .named "Note",
      [⟨"Id", "id", 0, 8, ⟨.integer .i64⟩, 0⟩, ⟨"Body", "content", 8, 24, ⟨.optional .text⟩, 1⟩,
        ⟨"Done", "done", 32, 1, ⟨.bool⟩, 2⟩]⟩
    let blank : Entity := ⟨.named "Note", 40, [.blank "Id" true 0 8 (.integer .i64),
      .blank "Body" true 8 24 (.optional .text), .blank "Done" true 32 1 .bool]⟩
    let e : Entity := ⟨.named "Note", 40, [⟨"Id", true, 0, 8, .integer .i64, ⟨7, by decide, by decide⟩⟩,
      ⟨"Body", true, 8, 24, .optional .text, some "milk"⟩, .blank "Done" true 32 1 .bool]⟩
    let c : Compiler := ⟨.postgres, .byName, fun _ => .ok m⟩
    let row : Row := ⟨["content", "id"], [], [.bytes [109, 105, 108, 107], .uint ⟨7, by decide, by decide⟩]⟩
    let arguments : List Value := [.int ⟨7, by decide, by decide⟩, .text "milk", .bool false]
    schema.Upholds blank ∧ Registry.empty.Gives schema m ∧ Access.byOffset.decodeRow m blank row = .ok e ∧
      c.build (.insert ⟨blank.type, [e], [], none⟩) =
        .ok ⟨"INSERT INTO \"note\" (\"id\", \"content\", \"done\") VALUES ($1, $2, $3);", arguments⟩ ∧
      Access.byName.decodeRow m blank ⟨["id", "content", "done"], [], arguments⟩ = .ok e := by
  intro info schema m blank e c row arguments
  have hblank : blank.Derived := ⟨by decide, by decide, by decide⟩
  have hs : schema.Upholds blank := Schema.upholds_single "Note" ⟨rfl, rfl⟩
  have hgives : Registry.empty.Gives schema m :=
    .inr ⟨.named "Note", [.column "Body" "content"], by decide +kernel⟩
  have hrow : Access.byOffset.decodeRow m blank row = .ok e := rfl
  have hleft : ∀ f ∈ m.fields, row.get? f.column = none →
      ∃ b v, blank.cells[f.place]? = some b ∧ b.type.ofValue v = .ok b.content :=
    List.forall_mem_cons.mpr ⟨nofun, List.forall_mem_cons.mpr ⟨nofun,
      List.forall_mem_cons.mpr ⟨fun _ => ⟨.blank "Done" true 32 1 .bool, .bool false, rfl, rfl⟩, nofun⟩⟩⟩
  have hbuild : c.build (.insert ⟨blank.type, [e], [], none⟩) =
      .ok ⟨"INSERT INTO \"note\" (\"id\", \"content\", \"done\") VALUES ($1, $2, $3);", arguments⟩ := by
    decide +kernel
  have hfields : insertedFields m [] = .ok m.fields := rfl
  obtain ⟨st, hst, hread⟩ := decodeRow_inserted.2 (c := c) .byOffset .byName hblank hs .empty hgives
    rfl rfl hrow hfields (fun f hf hnot => absurd hf hnot) hleft
  rw [hbuild] at hst
  cases hst
  exact ⟨hs, hgives, hrow, hbuild, hread⟩

end Compiler

end EntitySql
