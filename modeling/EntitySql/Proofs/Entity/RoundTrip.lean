import EntitySql.Proofs.Entity.Access
import EntitySql.Proofs.Sql.Insertion
import EntitySql.Proofs.Value.RoundTrip

namespace EntitySql

def groups {α : Type} (n : Nat) : (count : Nat) → List α → List (List α)
  | 0, _ => []
  | count + 1, xs => xs.take n :: groups n count (xs.drop n)

private theorem groups_flatten {α : Type} {n : Nat} {gs : List (List α)} (h : ∀ g ∈ gs, g.length = n) :
    groups n gs.length gs.flatten = gs := by
  induction gs with
  | nil => rfl
  | cons g rest ih =>
    have hg : g.length = n := h g List.mem_cons_self
    have hrest : groups n rest.length rest.flatten = rest := ih fun x hx => h x (List.mem_cons_of_mem g hx)
    rw [List.length_cons, List.flatten_cons, groups, List.take_left' hg, List.drop_left' hg, hrest]

/-- Rows of which each takes as many arguments as there are columns, one after another. -/
def Rows.ofArguments (columns : List String) (args : List Value) : Rows :=
  ⟨columns, [], groups columns.length (args.length / columns.length) args⟩

private theorem Rows.toList_ofArguments {columns : List String} {values : List (List Value)}
    (hc : columns ≠ []) (h : ∀ vs ∈ values, vs.length = columns.length) :
    (ofArguments columns values.flatten).toList = values.map fun vs => ⟨columns, [], vs⟩ := by
  have hlength : values.flatten.length = values.length * columns.length := by
    rw [List.length_flatten, List.map_congr_left h, List.map_const', List.sum_replicate_nat]
  have hcount : values.flatten.length / columns.length = values.length := by
    rw [hlength]
    exact Nat.mul_div_cancel _ (List.length_pos_iff.mpr hc)
  rw [toList, ofArguments, hcount, groups_flatten h]

/-- A value is written over a field of the same kind that it was read from. -/
theorem Cell.write_value {c d : Cell} (h : d.frame = c.frame) (hc : c.type.Restorable c.content) :
    d.write c.value = .ok c := by
  obtain ⟨name, named, offset, size, type, content⟩ := c
  obtain ⟨name', named', offset', size', type', content'⟩ := d
  cases h
  have hvalue := FieldType.ofValue_toValue hc
  rw [Cell.write, Cell.value, hvalue]

namespace Entity

variable {blank e : Entity}

/-- The entity with the contents of another one in the fields of given names. -/
def restore (blank e : Entity) (names : List String) : Entity :=
  { blank with
    cells := blank.cells.mapIdx fun i b => if b.name ∈ names then (e.cells[i]?).getD b else b }

/-- The value of a field, null where the entity has none. -/
def valueOf (e : Entity) (f : Field) : Value := (e.read? f.place).getD .null

/-- An entity whose fields all have contents that come back. -/
def Restorable (e : Entity) : Prop := ∀ c ∈ e.cells, c.type.Restorable c.content

private theorem cells_restore (e : Entity) (names : List String) {i : Nat} {b : Cell} (hb : blank.cells[i]? = some b) :
    (blank.restore e names).cells[i]? =
      some (if b.name ∈ names then (e.cells[i]?).getD b else b) := by
  rw [restore, List.getElem?_mapIdx, hb]
  rfl

private theorem restore_nil : blank.restore e [] = blank := by
  have hcells : blank.cells.mapIdx (fun i b => if b.name ∈ [] then (e.cells[i]?).getD b else b) =
      blank.cells := by
    simp [List.mapIdx_eq_zipIdx_map]
  rw [restore, hcells]

private theorem frame_restore (h : e.frame = blank.frame) (names : List String) :
    (blank.restore e names).frame = blank.frame := by
  have hcells : (blank.restore e names).cells.map Cell.frame = blank.cells.map Cell.frame := by
    refine List.ext_getElem? fun i => ?_
    rw [List.getElem?_map, List.getElem?_map]
    cases hb : blank.cells[i]? with
    | none => simp [restore, hb]
    | some b =>
      obtain ⟨c, hc, hframe⟩ := cell_of_frame h hb
      rw [cells_restore e names hb, hc]
      by_cases hn : b.name ∈ names
      · simp [hn, hframe]
      · simp [hn]
  rw [frame, hcells]
  rfl

private theorem restore_all (h : e.frame = blank.frame) {names : List String}
    (hall : ∀ n ∈ blank.names, n ∈ names) : blank.restore e names = e := by
  have hcells : (blank.restore e names).cells = e.cells := by
    refine List.ext_getElem? fun i => ?_
    cases hb : blank.cells[i]? with
    | none =>
      have he : e.cells[i]? = none := by
        cases hc : e.cells[i]? with
        | none => rfl
        | some c =>
          obtain ⟨b, hsome, -⟩ := cell_of_frame h.symm hc
          rw [hb] at hsome
          cases hsome
      simp [restore, hb, he]
    | some b =>
      obtain ⟨c, hc, -⟩ := cell_of_frame h hb
      have hn : b.name ∈ names := hall b.name (List.mem_map_of_mem (List.mem_of_getElem? hb))
      rw [cells_restore e names hb, if_pos hn, hc]
      rfl
  have htype : blank.type = e.type := (type_of_frame h).symm
  have hsize : blank.size = e.size := (size_of_frame h).symm
  obtain ⟨type, size, cells⟩ := e
  simp only [restore] at hcells ⊢
  rw [hcells, htype, hsize]

private theorem restore_set (hblank : blank.Derived) (names : List String) {place : Nat} {b c : Cell}
    (hb : blank.cells[place]? = some b) (hc : e.cells[place]? = some c) :
    { blank with cells := (blank.restore e names).cells.set place c } =
      blank.restore e (names ++ [b.name]) := by
  have hcells : (blank.restore e names).cells.set place c = (blank.restore e (names ++ [b.name])).cells := by
    refine List.ext_getElem? fun i => ?_
    by_cases hi : place = i
    · subst hi
      obtain ⟨hplace, -⟩ := List.getElem?_eq_some_iff.mp (cells_restore e names hb)
      rw [List.getElem?_set_self hplace, cells_restore e _ hb, hc]
      simp
    · rw [List.getElem?_set_ne hi]
      cases hd : blank.cells[i]? with
      | none => simp [restore, hd]
      | some d =>
        -- Another place has another name.
        have hne : d.name ≠ b.name := by
          intro heq
          have hplace := hblank.placeOf?_name hd
          rw [heq, hblank.placeOf?_name hb] at hplace
          exact hi (Option.some.inj hplace)
        rw [cells_restore e _ hd, cells_restore e _ hd]
        simp [hne]
  rw [hcells]
  rfl

end Entity

namespace Access

variable {m : Model} {blank e : Entity}

/-- A field of the model is read, whichever way it is reached. -/
theorem read_of_mem (a : Access) (he : e.Derived) (hm : m.Fits e) (hentity : m.entity = e.type) {f : Field}
    (hf : f ∈ m.fields) : a.read m e f.name = .ok (e.valueOf f) := by
  obtain ⟨c, hc, hslot⟩ := hm.cell hentity hf
  obtain ⟨g, hg⟩ := Model.exists_field? hf
  obtain ⟨d, hd, hdslot, hread⟩ := a.read_field he hm hentity hg
  -- The field that the name leads to is in the same place.
  have hname : d.name = c.name :=
    calc d.name = g.name := congrArg Slot.name hdslot
      _ = f.name := Model.name_of_field? hg
      _ = c.name := (congrArg Slot.name hslot).symm
  have hsame : some g.place = some f.place := by
    rw [← he.placeOf?_name hd, ← he.placeOf?_name hc, hname]
  rw [Option.some.inj hsame, hc] at hd
  cases hd
  rw [hread, Entity.valueOf, Entity.read?, hc]
  rfl

theorem entries_of_fields (fields : List Field) (value : Field → Value) :
    (⟨fields.map (·.column), [], fields.map value⟩ : Row).entries =
      fields.map fun f => ⟨f.column, value f, none⟩ := by
  let pairs : List (String × Value) := fields.map fun f => (f.column, value f)
  let entry : String × Value → Row.Entry := fun p => ⟨p.1, p.2, none⟩
  have hpairs : (⟨fields.map (·.column), [], fields.map value⟩ : Row).pairs = pairs := List.zip_map'
  calc (⟨fields.map (·.column), [], fields.map value⟩ : Row).entries
      = pairs.zipIdx.map (entry ∘ Prod.fst) := by
        rw [Row.entries, hpairs]
        exact List.map_congr_left fun _ _ => rfl
    _ = pairs.map entry := by rw [← List.map_map, List.zipIdx_map_fst]
    _ = fields.map fun f => ⟨f.column, value f, none⟩ := List.map_map

section

variable (hblank : blank.Derived) (hm : m.Fits blank) (hentity : m.entity = blank.type)
  (ha : Model.Apart m.fields) {fields : List Field} (hf : ∀ f ∈ fields, f ∈ m.fields)

include hblank hm hentity ha

/-- The value of a field, written to the column of the field. -/
theorem writeColumn_restore (a : Access) (h : e.frame = blank.frame) (hr : e.Restorable) {f : Field}
    (hf : f ∈ m.fields) (names : List String) :
    a.writeColumn m (blank.restore e names) f.column (e.valueOf f) =
      .ok (blank.restore e (names ++ [f.name])) := by
  have hframe : (blank.restore e names).frame = blank.frame := Entity.frame_restore h names
  obtain ⟨b, hb, hslot⟩ := hm.cell hentity hf
  obtain ⟨c, hc, -⟩ := Entity.cell_of_frame h hb
  obtain ⟨d, hd, -, hwrite⟩ := a.writeColumn_field (hblank.of_frame hframe) (hm.of_frame hframe) hentity
    (Model.column?_of_mem ha hf) (e.valueOf f)
  obtain ⟨d', hd', hdc⟩ := Entity.cell_of_frame (hframe.trans h.symm) hc
  cases hd.symm.trans hd'
  have hvalue : e.valueOf f = c.value := by simp [Entity.valueOf, Entity.read?, hc]
  have hcell : d.write c.value = .ok c := Cell.write_value hdc (hr c (List.mem_of_getElem? hc))
  have hname : b.name = f.name := congrArg Slot.name hslot
  have hset := Entity.restore_set hblank names hb hc
  rw [hwrite, hvalue, hcell, ← hname, ← hset]
  rfl

include hf

/-- Fields whose columns are written one after another come back one after another. -/
theorem writeEntries_restore (a : Access) (h : e.frame = blank.frame) (hr : e.Restorable) (names : List String) :
    a.writeEntries m (blank.restore e names) (fields.map fun f => ⟨f.column, e.valueOf f, none⟩) =
      (blank.restore e (names ++ fields.map (·.name)), .ok ()) := by
  induction fields generalizing names with
  | nil => simp [writeEntries]
  | cons f rest ih =>
    have hwrite := writeColumn_restore hblank hm hentity ha a h hr (hf f List.mem_cons_self) names
    have hrest := ih (fun g hg => hf g (List.mem_cons_of_mem f hg)) (names ++ [f.name])
    rw [List.map_cons, writeEntries, hwrite]
    simpa using hrest

private theorem decodeRow_restore (a : Access) (h : e.frame = blank.frame) (hr : e.Restorable) :
    a.decodeRow m blank ⟨fields.map (·.column), [], fields.map e.valueOf⟩ =
      .ok (blank.restore e (fields.map (·.name))) := by
  have hwrite := writeEntries_restore hblank hm hentity ha hf a h hr []
  rw [Entity.restore_nil, List.nil_append] at hwrite
  rw [decodeRow, writeRow, entries_of_fields, hwrite]

private theorem decodeRows_restore (a : Access) (hne : fields ≠ []) {rows : List Entity}
    (hrows : ∀ e ∈ rows, e.frame = blank.frame ∧ e.Restorable) :
    a.decodeRows m blank
        (Rows.ofArguments (fields.map (·.column)) (rows.flatMap fun e => fields.map e.valueOf)) =
      .ok (rows.map fun e => blank.restore e (fields.map (·.name))) := by
  have hcolumns : fields.map (·.column) ≠ [] := by simpa using hne
  have hlength : ∀ vs ∈ rows.map (fun e => fields.map e.valueOf),
      vs.length = (fields.map (·.column)).length := by
    intro vs hvs
    obtain ⟨e, -, rfl⟩ := List.mem_map.mp hvs
    simp
  rw [decodeRows, List.flatMap_def, Rows.toList_ofArguments hcolumns hlength, List.map_map]
  clear hlength
  induction rows with
  | nil => rfl
  | cons e rest ih =>
    obtain ⟨hframe, hr⟩ := hrows e List.mem_cons_self
    have hfirst := decodeRow_restore hblank hm hentity ha hf a hframe hr
    have hrest := ih fun x hx => hrows x (List.mem_cons_of_mem e hx)
    rw [List.map_cons, List.mapM_cons, hrest, Function.comp_apply, hfirst]
    rfl

end

end Access

namespace Model

/-- Names of fields lead to fields of these names, in their order. -/
theorem mapM_requireField {m : Model} {names : List String} (h : ∀ n ∈ names, n ∈ m.fields.map (·.name)) :
    ∃ fields, names.mapM m.requireField = .ok fields ∧ fields.map (·.name) = names ∧
      ∀ f ∈ fields, f ∈ m.fields := by
  induction names with
  | nil => exact ⟨[], rfl, rfl, nofun⟩
  | cons n rest ih =>
    obtain ⟨fields, hfields, hnames, hmem⟩ := ih fun x hx => h x (List.mem_cons_of_mem n hx)
    obtain ⟨f, hf, hn⟩ := List.mem_map.mp (h n List.mem_cons_self)
    obtain ⟨g, hg⟩ := exists_field? hf
    rw [hn] at hg
    have hrequire : m.requireField n = .ok g := by rw [requireField, hg]
    refine ⟨g :: fields, ?_, ?_, ?_⟩
    · rw [List.mapM_cons, hrequire, hfields]
      rfl
    · rw [List.map_cons, hnames, name_of_field? hg]
    · intro f hf
      rcases List.mem_cons.mp hf with rfl | hf
      · exact mem_of_field? hg
      · exact hmem f hf

end Model

namespace Compiler

variable {c : Compiler} {m : Model} {blank : Entity}

/-- The fields of an insertion: all of them if none are listed, else those that are. -/
theorem insertedFields_ok (hm : m.Fits blank) (hentity : m.entity = blank.type) (hcells : blank.cells ≠ [])
    {names : List String} (hnames : ∀ n ∈ names, n ∈ blank.names) :
    ∃ fields, insertedFields m names = .ok fields ∧ fields ≠ [] ∧ (∀ f ∈ fields, f ∈ m.fields) ∧
      fields.map (·.name) = if names = [] then blank.names else names := by
  have hall : m.fields.map (·.name) = blank.names := hm.names hentity
  cases names with
  | nil =>
    refine ⟨m.fields, rfl, ?_, fun f hf => hf, hall⟩
    intro hnone
    rw [hnone, List.map_nil] at hall
    exact hcells (List.map_eq_nil_iff.mp hall.symm)
  | cons n rest =>
    have hlisted : ∀ x ∈ n :: rest, x ∈ m.fields.map (·.name) := fun x hx => hall ▸ hnames x hx
    obtain ⟨fields, hfields, hsame, hmem⟩ := Model.mapM_requireField hlisted
    refine ⟨fields, hfields, ?_, hmem, hsame⟩
    intro hnone
    rw [hnone] at hsame
    cases hsame

/-- Entities that are inserted and read back. The insertion of rows that can come back is built, its
arguments are cut into rows under the columns that it lists, and these rows are read as the entities that were
inserted: as they were if no field was listed, else with the listed fields as they were and the
others as in a new entity. How fields are reached on either way does not matter. -/
theorem decodeRows_build (hblank : blank.Derived) (hcells : blank.cells ≠ []) {schema : Schema}
    (hs : schema.Upholds blank) {r : Registry} (hr : r.ReachableBy (·.Upholds blank))
    (hm : r.Gives schema m) (hentity : m.entity = blank.type) (hl : c.lookup blank.type = .ok m)
    {rows : List Entity} (hne : rows ≠ []) (hrows : ∀ e ∈ rows, e.frame = blank.frame ∧ e.Restorable)
    {names : List String} (hnames : ∀ n ∈ names, n ∈ blank.names) (a : Access) :
    ∃ fields st values,
      insertedFields m names = .ok fields ∧
      c.build (.insert ⟨blank.type, rows, names, none⟩) = .ok st ∧
      st.args.length = rows.length * fields.length ∧
      st.sql = "INSERT INTO " ++ c.dialect.spelling.name m.table ++ " (" ++
        ", ".intercalate (fields.map fun f => c.dialect.spelling.name f.column) ++ ") VALUES " ++ values ∧
      (names = [] →
        a.decodeRows m blank (Rows.ofArguments (fields.map (·.column)) st.args) = .ok rows) ∧
      (names ≠ [] →
        a.decodeRows m blank (Rows.ofArguments (fields.map (·.column)) st.args) =
          .ok (rows.map fun e => blank.restore e names)) := by
  have hfits : m.Fits blank := hm.fits hr hs
  have hapart : Model.Apart m.fields := (hm.reachable hr hs).apart
  obtain ⟨fields, hfields, hsome, hmem, hlisted⟩ := insertedFields_ok hfits hentity hcells hnames
  have hread : ∀ e ∈ rows, ∀ f ∈ fields, c.access.read m e f.name = .ok (e.valueOf f) := by
    intro e he f hf
    obtain ⟨hframe, -⟩ := hrows e he
    have htype : m.entity = e.type := hentity.trans (Entity.type_of_frame hframe).symm
    exact c.access.read_of_mem (hblank.of_frame hframe) (hfits.of_frame hframe) htype (hmem f hf)
  obtain ⟨values, hbuild⟩ := build_insertion (i := ⟨blank.type, rows, names, none⟩) hne rfl hl hfields hread
  have hdecode := Access.decodeRows_restore hblank hfits hentity hapart hmem a hsome hrows
  have hlength : (rows.flatMap fun e => fields.map e.valueOf).length = rows.length * fields.length := by
    simp only [List.length_flatMap, List.length_map, List.map_const', List.sum_replicate_nat]
  refine ⟨fields, _, values, hfields, hbuild, hlength, rfl, fun hnone => ?_, fun hlist => ?_⟩
  · have hrestored : rows.map (fun e => blank.restore e (fields.map (·.name))) = rows := by
      refine (List.map_congr_left fun e he => ?_).trans (List.map_id _)
      rw [hlisted, if_pos hnone]
      exact Entity.restore_all (hrows e he).1 fun n hn => hn
    rw [hrestored] at hdecode
    exact hdecode
  · rw [hlisted, if_neg hlist] at hdecode
    exact hdecode

/-- One field of two entities: the others have their defaults afterwards. -/
theorem decodeRows_build_note :
    let info : StructInfo :=
      ⟨"Note", .named "Note", 40, none, [⟨"Id", none, 0, 8, ⟨.integer .i64⟩⟩,
        ⟨"Body", none, 8, 24, ⟨.optional .text⟩⟩, ⟨"Done", none, 32, 1, ⟨.bool⟩⟩]⟩
    let schema : Schema := fun name => if name = "Note" then .struct info else .other
    let m : Model := ⟨"note", .named "Note",
      [⟨"Id", "id", 0, 8, ⟨.integer .i64⟩, 0⟩, ⟨"Body", "content", 8, 24, ⟨.optional .text⟩, 1⟩,
        ⟨"Done", "done", 32, 1, ⟨.bool⟩, 2⟩]⟩
    let blank : Entity := ⟨.named "Note", 40, [.blank "Id" true 0 8 (.integer .i64),
      .blank "Body" true 8 24 (.optional .text), .blank "Done" true 32 1 .bool]⟩
    let e : Entity := ⟨.named "Note", 40, [⟨"Id", true, 0, 8, .integer .i64, ⟨7, by decide, by decide⟩⟩,
      ⟨"Body", true, 8, 24, .optional .text, some "milk"⟩, ⟨"Done", true, 32, 1, .bool, true⟩]⟩
    let c : Compiler := ⟨.postgres, .byName, fun _ => .ok m⟩
    let i : Insertion := ⟨.named "Note", [e, blank], ["Body"], none⟩
    let arguments : List Value := [.text "milk", .null]
    schema.Upholds blank ∧ Registry.empty.Gives schema m ∧ (∀ e ∈ i.rows, e.frame = blank.frame ∧ e.Restorable) ∧
      c.build (.insert i) =
        .ok ⟨"INSERT INTO \"note\" (\"content\") VALUES ($1), ($2);", arguments⟩ ∧
      Access.byOffset.decodeRows m blank (Rows.ofArguments ["content"] arguments) =
        .ok [blank.restore e ["Body"], blank.restore blank ["Body"]] ∧
      (blank.restore e ["Body"]).cells.map Cell.value = [.int (.zero .i64), .text "milk", .bool false] := by
  intro info schema m blank e c i arguments
  have hblank : blank.Derived := ⟨by decide, by decide, by decide⟩
  have hs : schema.Upholds blank := Schema.upholds_single "Note" ⟨rfl, rfl⟩
  have hgives : Registry.empty.Gives schema m :=
    .inr ⟨.named "Note", [.column "Body" "content"], by decide +kernel⟩
  have he : e.Restorable :=
    List.forall_mem_cons.mpr ⟨trivial, List.forall_mem_cons.mpr ⟨⟨nofun, trivial⟩,
      List.forall_mem_cons.mpr ⟨trivial, nofun⟩⟩⟩
  have hdefault : blank.Restorable :=
    List.forall_mem_cons.mpr ⟨trivial, List.forall_mem_cons.mpr ⟨trivial,
      List.forall_mem_cons.mpr ⟨trivial, nofun⟩⟩⟩
  have hrows : ∀ e ∈ i.rows, e.frame = blank.frame ∧ e.Restorable :=
    List.forall_mem_cons.mpr ⟨⟨rfl, he⟩, List.forall_mem_cons.mpr ⟨⟨rfl, hdefault⟩, nofun⟩⟩
  have hbuild : c.build (.insert i) =
      .ok ⟨"INSERT INTO \"note\" (\"content\") VALUES ($1), ($2);", arguments⟩ := by
    decide +kernel
  have hlisted : ∀ n ∈ ["Body"], n ∈ blank.names := by decide
  have hsome : i.rows ≠ [] := List.cons_ne_nil e [blank]
  obtain ⟨fields, st, values, hfields, hst, -, -, -, hread⟩ :=
    decodeRows_build (c := c) hblank nofun hs .empty hgives rfl rfl hsome hrows hlisted .byOffset
  have hdecode := hread (by decide)
  rw [hbuild] at hst
  cases hst
  cases hfields
  exact ⟨hs, hgives, hrows, hbuild, hdecode, by decide⟩

end Compiler

end EntitySql
