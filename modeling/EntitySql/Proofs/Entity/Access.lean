import EntitySql.Proofs.Entity.Shape
import Mathlib.Control.Monad.Basic

namespace EntitySql

theorem Model.check_eq_ok_iff {m : Model} {t : TypeId} : m.check t = .ok () ↔ m.entity = t := by
  by_cases h : m.entity = t <;> simp [check, h]

namespace Access

variable {m : Model} {e : Entity} {f : Field} {c : Cell}

/-- A field of the model is reached in its place, through its name as through its offset. -/
private theorem read?_of_mem (a : Access) (he : e.Derived) (hc : e.cells[f.place]? = some c)
    (hslot : c.slot = f.slot) : a.read? e f = some c.value := by
  have hread : e.read? f.place = some c.value := by rw [Entity.read?, hc, Option.map_some]
  cases a with
  | byOffset =>
    have hoffset : c.offset = f.offset := congrArg Slot.offset hslot
    have htype : c.type = f.raw.type := congrArg Slot.type hslot
    have hraw := RawAccess.read?_slot he hc
    rw [hoffset, htype, hread] at hraw
    exact hraw
  | byName =>
    have hname : c.name = f.name := congrArg Slot.name hslot
    have hplace := he.placeOf?_name hc
    rw [hname] at hplace
    rw [read?, Entity.readNamed?, hplace]
    exact hread

private theorem write?_of_mem (a : Access) (he : e.Derived) (hc : e.cells[f.place]? = some c)
    (hslot : c.slot = f.slot) (v : Value) :
    a.write? e f v = some ((c.write v).map fun c => { e with cells := e.cells.set f.place c }) := by
  have hwrite : e.write? f.place v = some ((c.write v).map fun c => { e with cells := e.cells.set f.place c }) := by
    rw [Entity.write?, hc, Option.map_some]
  cases a with
  | byOffset =>
    have hoffset : c.offset = f.offset := congrArg Slot.offset hslot
    have htype : c.type = f.raw.type := congrArg Slot.type hslot
    have hraw := RawAccess.write?_slot he hc v
    rw [hoffset, htype, hwrite] at hraw
    exact hraw
  | byName =>
    have hname : c.name = f.name := congrArg Slot.name hslot
    have hplace := he.placeOf?_name hc
    rw [hname] at hplace
    rw [write?, Entity.writeNamed?, hplace]
    exact hwrite

section

variable (a : Access) (he : e.Derived) (hm : m.Fits e) (hentity : m.entity = e.type)
include he hm hentity

/-- What is read of a field of the model is what it holds. -/
theorem read_field {field : String} (hf : m.field? field = some f) :
    ∃ c, e.cells[f.place]? = some c ∧ c.slot = f.slot ∧ a.read m e field = .ok c.value := by
  obtain ⟨c, hc, hslot⟩ := hm.cell hentity (Model.mem_of_field? hf)
  have hread := a.read?_of_mem he hc hslot
  refine ⟨c, hc, hslot, ?_⟩
  rw [read, Model.check_eq_ok_iff.mpr hentity, Model.requireField, hf]
  simp only [hread]

/-- What is written to the column of a field is written to the field. -/
theorem writeColumn_field {column : String} (hf : m.column? column = some f) (v : Value) :
    ∃ c, e.cells[f.place]? = some c ∧ c.slot = f.slot ∧
      a.writeColumn m e column v =
        match c.write v with
        | .ok c' => .ok { e with cells := e.cells.set f.place c' }
        | .error misfit => .error (.ofMisfit column misfit) := by
  obtain ⟨c, hc, hslot⟩ := hm.cell hentity (List.mem_of_find?_eq_some hf)
  have hwrite := a.write?_of_mem he hc hslot v
  refine ⟨c, hc, hslot, ?_⟩
  rw [writeColumn, Model.check_eq_ok_iff.mpr hentity, hf]
  simp only [hwrite]
  cases c.write v <;> rfl

end

private theorem read_of_ne (a : Access) (hentity : m.entity ≠ e.type) (field : String) :
    a.read m e field = .error .invalidModelType := by
  rw [read, Model.check, if_neg hentity]

theorem writeColumn_of_ne (a : Access) (hentity : m.entity ≠ e.type) (column : String) (v : Value) :
    a.writeColumn m e column v = .error .invalidModelType := by
  rw [writeColumn, Model.check, if_neg hentity]

private theorem read_eq (a b : Access) (he : e.Derived) (hm : m.Fits e) (field : String) :
    a.read m e field = b.read m e field := by
  by_cases hentity : m.entity = e.type
  · cases hf : m.field? field with
    | none => simp only [read, Model.requireField, hf]
    | some f =>
      obtain ⟨c, hc, -, hread⟩ := a.read_field he hm hentity hf
      obtain ⟨d, hd, -, hread'⟩ := b.read_field he hm hentity hf
      cases hc.symm.trans hd
      rw [hread, hread']
  · rw [a.read_of_ne hentity, b.read_of_ne hentity]

private theorem writeColumn_eq (a b : Access) (he : e.Derived) (hm : m.Fits e) (column : String) (v : Value) :
    a.writeColumn m e column v = b.writeColumn m e column v := by
  by_cases hentity : m.entity = e.type
  · cases hf : m.column? column with
    | none => simp only [writeColumn, hf]
    | some f =>
      obtain ⟨c, hc, -, hwrite⟩ := a.writeColumn_field he hm hentity hf v
      obtain ⟨d, hd, -, hwrite'⟩ := b.writeColumn_field he hm hentity hf v
      cases hc.symm.trans hd
      rw [hwrite, hwrite']
  · rw [a.writeColumn_of_ne hentity, b.writeColumn_of_ne hentity]

/-- A write leaves the shape of the entity. -/
theorem frame_writeColumn {a : Access} (he : e.Derived) (hm : m.Fits e) {column : String} {v : Value}
    {e' : Entity} (h : a.writeColumn m e column v = .ok e') : e'.frame = e.frame := by
  by_cases hentity : m.entity = e.type
  · cases hf : m.column? column with
    | none =>
      simp only [writeColumn, Model.check_eq_ok_iff.mpr hentity, hf] at h
      cases h
      rfl
    | some f =>
      obtain ⟨c, hc, -, hwrite⟩ := a.writeColumn_field he hm hentity hf v
      rw [hwrite] at h
      have hplace : e.write? f.place v = some (.ok e') := by
        rw [Entity.write?, hc, Option.map_some]
        cases hcell : c.write v with
        | error misfit => simp [hcell] at h
        | ok c' => simpa [hcell, Except.map] using h
      exact Entity.frame_write? hplace
  · rw [a.writeColumn_of_ne hentity] at h
    cases h

/-- The entity and the outcome are the same after every column, so they are after the first failure. -/
private theorem writeEntries_eq (a b : Access) (he : e.Derived) (hm : m.Fits e) (entries : List Row.Entry) :
    a.writeEntries m e entries = b.writeEntries m e entries := by
  induction entries generalizing e with
  | nil => rfl
  | cons entry rest ih =>
    obtain ⟨column, v, reason⟩ := entry
    cases reason with
    | some reason =>
      rw [writeEntries, writeEntries, ih he hm]
    | none =>
      have hwrite := a.writeColumn_eq b he hm column v
      rw [writeEntries, writeEntries, hwrite]
      cases hnext : b.writeColumn m e column v with
      | error err => rfl
      | ok e' =>
        have hframe := frame_writeColumn he hm hnext
        exact ih (he.of_frame hframe) (hm.of_frame hframe)

/-- What can go wrong between the fields of an entity and values. -/
inductive Failure (a : Access) : Error → Prop where
  | foreignModel : Failure a .invalidModelType
  | noField (field : String) : Failure a (.invalidField field)
  | missed (f : Field) : Failure a (a.missed f)
  | unreadable (column message : String) : Failure a (.decode column message)

section

variable {a : Access} {err : Error}

private theorem failure_check {t : TypeId} (h : m.check t = .error err) : a.Failure err := by
  unfold Model.check at h
  split at h
  · cases h
  · cases h
    exact .foreignModel

private theorem failure_read {field : String} (h : a.read m e field = .error err) : a.Failure err := by
  unfold read Model.requireField at h
  cases hcheck : m.check e.type with
  | error err' =>
    simp only [hcheck, Except.error.injEq] at h
    exact h ▸ failure_check hcheck
  | ok _ =>
    cases hf : m.field? field with
    | none =>
      simp only [hcheck, hf, Except.error.injEq] at h
      exact h ▸ .noField field
    | some f =>
      cases hread : a.read? e f with
      | none =>
        simp only [hcheck, hf, hread, Except.error.injEq] at h
        exact h ▸ .missed f
      | some v => simp [hcheck, hf, hread] at h

private theorem failure_writeColumn {column : String} {v : Value} (h : a.writeColumn m e column v = .error err) :
    a.Failure err := by
  unfold writeColumn at h
  cases hcheck : m.check e.type with
  | error err' =>
    simp only [hcheck, Except.error.injEq] at h
    exact h ▸ failure_check hcheck
  | ok _ =>
    cases hf : m.column? column with
    | none => simp [hcheck, hf] at h
    | some f =>
      cases hwrite : a.write? e f v with
      | none =>
        simp only [hcheck, hf, hwrite, Except.error.injEq] at h
        exact h ▸ .missed f
      | some written =>
        cases written with
        | ok e' => simp [hcheck, hf, hwrite] at h
        | error misfit =>
          simp only [hcheck, hf, hwrite, Except.error.injEq] at h
          exact h ▸ .unreadable column misfit.message

theorem failure_writeEntries {entries : List Row.Entry} (h : (a.writeEntries m e entries).2 = .error err) :
    a.Failure err := by
  induction entries generalizing e with
  | nil => cases h
  | cons entry rest ih =>
    obtain ⟨column, v, reason⟩ := entry
    cases reason with
    | some reason =>
      rw [writeEntries] at h
      cases hf : m.column? column with
      | none =>
        rw [hf] at h
        exact ih h
      | some f =>
        rw [hf] at h
        cases h
        exact .unreadable column reason
    | none =>
      rw [writeEntries] at h
      cases hwrite : a.writeColumn m e column v with
      | ok e' =>
        rw [hwrite] at h
        exact ih h
      | error err' =>
        rw [hwrite] at h
        cases h
        exact failure_writeColumn hwrite

private theorem Failure.ne_stray (h : byName.Failure err) : err ≠ .stray := by
  intro hstray
  cases h <;> cases hstray

end

/-- On every model that a registry gives out, the two ways read and write alike: the values, the errors
and the entity left behind are the same for every field, column and row. No raw access strays. -/
theorem byName_eq_byOffset (he : e.Derived) {schema : Schema} (hs : schema.Upholds e) {r : Registry}
    (hr : r.ReachableBy (·.Upholds e)) (hm : r.Gives schema m) :
    (∀ field, byName.read m e field = byOffset.read m e field ∧ byOffset.read m e field ≠ .error .stray) ∧
      (∀ column v, byName.writeColumn m e column v = byOffset.writeColumn m e column v ∧
        byOffset.writeColumn m e column v ≠ .error .stray) ∧
      ∀ row, byName.writeRow m e row = byOffset.writeRow m e row ∧
        (byOffset.writeRow m e row).2 ≠ .error .stray := by
  have hfits : m.Fits e := hm.fits hr hs
  refine ⟨?_, ?_, ?_⟩
  · intro field
    have hsame := byName.read_eq byOffset he hfits field
    refine ⟨hsame, fun hstray => ?_⟩
    exact (failure_read (hsame.trans hstray)).ne_stray rfl
  · intro column v
    have hsame := byName.writeColumn_eq byOffset he hfits column v
    refine ⟨hsame, fun hstray => ?_⟩
    exact (failure_writeColumn (hsame.trans hstray)).ne_stray rfl
  · intro row
    have hsame : byName.writeRow m e row = byOffset.writeRow m e row :=
      byName.writeEntries_eq byOffset he hfits row.entries
    refine ⟨hsame, fun hstray => ?_⟩
    exact (failure_writeEntries ((congrArg Prod.snd hsame).trans hstray)).ne_stray rfl

/-- A renamed column, a column without a field, one that is repeated, and one that could not be decoded:
the row fails at the last, after the others were written. -/
theorem byName_eq_byOffset_renamed :
    let info : StructInfo :=
      ⟨"User", .named "User", 32, none, [⟨"Id", none, 24, 1, ⟨.bool⟩⟩, ⟨"Name", none, 0, 24, ⟨.text⟩⟩]⟩
    let schema : Schema := fun name => if name = "User" then .struct info else .other
    let m : Model :=
      ⟨"user", .named "User", [⟨"Id", "id", 24, 1, ⟨.bool⟩, 0⟩, ⟨"Name", "label", 0, 24, ⟨.text⟩, 1⟩]⟩
    let e : Entity := ⟨.named "User", 32, [.blank "Id" true 24 1 .bool, .blank "Name" true 0 24 .text]⟩
    let row : Row := ⟨["label", "other", "id", "label", "id"],
      [none, some "truncated", none, none, some "truncated"],
      [.text "a", .null, .bool true, .text "b", .null]⟩
    e.Derived ∧ schema.Upholds e ∧ Registry.empty.ReachableBy (·.Upholds e) ∧
      Registry.empty.Gives schema m ∧
      byName.writeRow m e row = byOffset.writeRow m e row ∧
      (byOffset.writeRow m e row).1.cells.map Cell.value = [.bool true, .text "b"] ∧
      (byOffset.writeRow m e row).2 = .error (.decode "id" "truncated") := by
  intro info schema m e row
  have he : e.Derived := ⟨by decide, by decide, by decide⟩
  have hs : schema.Upholds e := Schema.upholds_single "User" ⟨rfl, rfl⟩
  have hgives : Registry.empty.Gives schema m :=
    .inr ⟨.named "User", [.column "Name" "label"], by decide +kernel⟩
  obtain ⟨-, -, hrow⟩ := byName_eq_byOffset he hs .empty hgives
  exact ⟨he, hs, .empty, hgives, (hrow row).1, by decide, by decide⟩

-- What the contract rules out: with the offset of another field, or accessors made for another type, the
-- value is still found by its name, but the raw access strays.
example :
    let e : Entity := ⟨.named "User", 16, [.blank "Id" true 0 8 (.integer .i64), .blank "Done" true 8 1 .bool]⟩
    let m (offset : Nat) (type : FieldType) : Model :=
      ⟨"user", .named "User", [⟨"Done", "done", offset, 1, ⟨type⟩, 0⟩]⟩
    byName.read (m 0 .bool) e "Done" = .ok (.bool false) ∧
      byOffset.read (m 0 .bool) e "Done" = .error .stray ∧
      byOffset.read (m 8 .text) e "Done" = .error .stray ∧
      byOffset.read (m 8 .bool) e "Done" = .ok (.bool false) := by
  decide

end Access

end EntitySql
