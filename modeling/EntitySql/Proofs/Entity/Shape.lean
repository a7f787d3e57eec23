import EntitySql.Entity.Access
import EntitySql.Proofs.Model.Reachable

namespace EntitySql

/-- A field as the compiler lays it out: its name, the bytes that it takes up, and its type. -/
structure Slot where
  name : String
  offset : Nat
  size : Nat
  type : FieldType
  deriving DecidableEq, Repr

def Cell.slot (c : Cell) : Slot := ⟨c.name, c.offset, c.size, c.type⟩

/-- A field without its content. -/
def Cell.frame (c : Cell) : Slot × Bool := (c.slot, c.named)

/-- The slot that metadata tells of, with the type that the accessors were made for. -/
def FieldInfo.slot (info : FieldInfo) : Slot := ⟨info.name, info.offset, info.size, info.raw.type⟩

def Field.slot (f : Field) : Slot := ⟨f.name, f.offset, f.size, f.raw.type⟩

private theorem Cell.frame_write {c c' : Cell} {v : Value} (h : c.write v = .ok c') : c'.frame = c.frame := by
  unfold Cell.write at h
  split at h
  · cases h
    rfl
  · cases h

namespace Entity

def slots (e : Entity) : List Slot := e.cells.map Cell.slot

def names (e : Entity) : List String := e.cells.map (·.name)

/-- An entity without the contents of its fields. -/
def frame (e : Entity) : TypeId × Nat × List (Slot × Bool) := (e.type, e.size, e.cells.map Cell.frame)

/-- The accessors know every field, each under a name of its own, and no two fields begin at one byte. -/
structure Derived (e : Entity) : Prop where
  named : ∀ c ∈ e.cells, c.named = true
  distinct : e.names.Nodup
  apart : (e.cells.map (·.offset)).Nodup

variable {e e' : Entity}

theorem type_of_frame (h : e'.frame = e.frame) : e'.type = e.type := congrArg Prod.fst h

theorem size_of_frame (h : e'.frame = e.frame) : e'.size = e.size := congrArg (·.2.1) h

private theorem map_frame_cells (h : e'.frame = e.frame) : e'.cells.map Cell.frame = e.cells.map Cell.frame :=
  congrArg (·.2.2) h

theorem slots_of_frame (h : e'.frame = e.frame) : e'.slots = e.slots := by
  have hslots (e : Entity) : e.slots = (e.cells.map Cell.frame).map Prod.fst := by
    rw [List.map_map]
    rfl
  rw [hslots, map_frame_cells h, hslots]

private theorem names_eq_slots (e : Entity) : e.names = e.slots.map (·.name) := by
  rw [slots, List.map_map]
  rfl

private theorem names_of_frame (h : e'.frame = e.frame) : e'.names = e.names := by
  rw [names_eq_slots, names_eq_slots, slots_of_frame h]

private theorem offsets_of_frame (h : e'.frame = e.frame) : e'.cells.map (·.offset) = e.cells.map (·.offset) := by
  have hoffsets (e : Entity) : e.cells.map (·.offset) = e.slots.map (·.offset) := by
    rw [slots, List.map_map]
    rfl
  rw [hoffsets, hoffsets, slots_of_frame h]

theorem Derived.of_frame (he : e.Derived) (h : e'.frame = e.frame) : e'.Derived := by
  refine ⟨?_, ?_, ?_⟩
  · intro c hc
    have hframe : c.frame ∈ e.cells.map Cell.frame := map_frame_cells h ▸ List.mem_map_of_mem hc
    obtain ⟨d, hd, hdc⟩ := List.mem_map.mp hframe
    have hnamed : d.named = c.named := congrArg Prod.snd hdc
    rw [← hnamed]
    exact he.named d hd
  · rw [names_of_frame h]
    exact he.distinct
  · rw [offsets_of_frame h]
    exact he.apart

/-- Entities of one shape have fields of one kind in every place. -/
theorem cell_of_frame (h : e'.frame = e.frame) {i : Nat} {c : Cell} (hc : e.cells[i]? = some c) :
    ∃ d, e'.cells[i]? = some d ∧ d.frame = c.frame := by
  have hi : (e'.cells[i]?).map Cell.frame = some c.frame := by
    rw [← List.getElem?_map, map_frame_cells h, List.getElem?_map, hc]
    rfl
  exact Option.map_eq_some_iff.mp hi

theorem frame_write? {place : Nat} {v : Value} (h : e.write? place v = some (.ok e')) :
    e'.frame = e.frame := by
  unfold write? at h
  cases hc : e.cells[place]? with
  | none => simp [hc] at h
  | some c =>
    cases hw : c.write v with
    | error misfit => simp [hc, hw, Except.map] at h
    | ok c' =>
      simp only [hc, hw, Option.map_some, Except.map, Option.some.injEq, Except.ok.injEq] at h
      obtain ⟨hplace, hget⟩ := List.getElem?_eq_some_iff.mp hc
      have hsame : (e.cells.map Cell.frame).set place c'.frame = e.cells.map Cell.frame := by
        rw [Cell.frame_write hw, ← hget, ← List.getElem_map Cell.frame (h := by simpa using hplace)]
        exact List.set_getElem_self _
      rw [← h, frame, List.map_set, hsame, frame]

/-- Where no two elements have one key, what holds just of elements with the key of another is first found there. -/
private theorem findIdx?_of_key {α κ : Type} {xs : List α} (key : α → κ) (hkeys : (xs.map key).Nodup) {p : α → Bool}
    {place : Nat} {x : α} (hx : xs[place]? = some x) (hp : p x = true)
    (honly : ∀ y ∈ xs, p y = true → key y = key x) : xs.findIdx? p = some place := by
  obtain ⟨hplace, rfl⟩ := List.getElem?_eq_some_iff.mp hx
  apply List.findIdx?_eq_some_iff_getElem.mpr
  refine ⟨hplace, hp, ?_⟩
  intro j hj hpj
  have hlength : j < xs.length := Nat.lt_trans hj hplace
  have hne := List.pairwise_iff_getElem.mp hkeys j place (by simpa using hlength) (by simpa using hplace) hj
  simp only [List.getElem_map] at hne
  exact hne (honly _ (List.getElem_mem hlength) hpj)

/-- A name leads to the place of its field. -/
theorem Derived.placeOf?_name (he : e.Derived) {place : Nat} {c : Cell}
    (hc : e.cells[place]? = some c) : e.placeOf? c.name = some place := by
  have hnamed : c.named = true := he.named c (List.mem_of_getElem? hc)
  apply findIdx?_of_key Cell.name he.distinct hc
  · simp [hnamed]
  · intro d _ hd
    simp only [Bool.and_eq_true, beq_iff_eq] at hd
    exact hd.2

/-- So does an offset, with the type of the field. -/
theorem Derived.placeAt?_offset (he : e.Derived) {place : Nat} {c : Cell}
    (hc : e.cells[place]? = some c) : e.placeAt? c.offset c.type = some place := by
  apply findIdx?_of_key Cell.offset he.apart hc
  · simp
  · intro d _ hd
    simp only [Bool.and_eq_true, beq_iff_eq] at hd
    exact hd.1

end Entity

namespace RawAccess

variable {e : Entity} {place : Nat} {c : Cell}

theorem read?_slot (he : e.Derived) (hc : e.cells[place]? = some c) :
    (RawAccess.mk c.type).read? e c.offset = e.read? place := by
  rw [read?, he.placeAt?_offset hc]
  rfl

theorem write?_slot (he : e.Derived) (hc : e.cells[place]? = some c) (v : Value) :
    (RawAccess.mk c.type).write? e c.offset v = e.write? place v := by
  rw [write?, he.placeAt?_offset hc, Entity.write?, hc]
  cases hv : c.type.ofValue v with
  | error m => simp [Cell.write, hv, Except.map]
  | ok content => simp [Cell.write, hv, Except.map, hc]

end RawAccess

def Field.spot (f : Field) : Slot × Nat := (f.slot, f.place)

/-- Metadata tells the truth of an entity wherever it bears the identity of the type: the size, and of each
field in order the name, the bytes and the type. -/
def TypeInfo.Upholds (e : Entity) : TypeInfo → Prop
  | .struct info => info.id = e.type → info.size = e.size ∧ info.fields.map FieldInfo.slot = e.slots
  | .pointer target => target.Upholds e
  | .other => True

def Schema.Upholds (schema : Schema) (e : Entity) : Prop := ∀ name, (schema name).Upholds e

private theorem Schema.Upholds.report {schema : Schema} {e : Entity} (h : schema.Upholds e) :
    ∀ t, (schema.report t).Upholds e
  | .named name => h name
  | .boxed inside => Upholds.report h inside

/-- Metadata of a single struct, which tells the truth of the entity. -/
theorem Schema.upholds_single {info : StructInfo} {e : Entity} (name : String)
    (h : info.size = e.size ∧ info.fields.map FieldInfo.slot = e.slots) :
    Schema.Upholds (fun other => if other = name then .struct info else .other) e := by
  intro other
  by_cases hname : other = name
  · simp only [hname, if_true]
    exact fun _ => h
  · simp only [hname, if_false]
    trivial

namespace Model

/-- A model of the type of an entity has its fields, each in its place and at its bytes. -/
def Fits (m : Model) (e : Entity) : Prop :=
  m.entity = e.type → m.fields.map Field.spot = e.slots.zipIdx

variable {m m' : Model} {e e' : Entity}

theorem Fits.of_frame (hm : m.Fits e) (h : e'.frame = e.frame) : m.Fits e' := by
  intro hentity
  rw [Entity.slots_of_frame h]
  exact hm (hentity.trans (Entity.type_of_frame h))

private theorem spot_mapFields {size : Nat} : ∀ {infos : List FieldInfo} {before fields : List Field},
    mapFields size before infos = .ok fields →
      fields.map Field.spot = before.map Field.spot ++ (infos.map FieldInfo.slot).zipIdx before.length
  | [], before, fields, h => by
    cases h
    simp
  | info :: rest, before, fields, h => by
    rw [mapFields] at h
    split at h
    · cases h
    split at h
    · cases h
    split at h
    · cases h
    have hrest := spot_mapFields h
    rw [hrest]
    simp [Field.spot, Field.slot, FieldInfo.slot, List.zipIdx_cons]

private theorem fits_ofStruct {info : StructInfo}
    (hinfo : info.id = e.type → info.size = e.size ∧ info.fields.map FieldInfo.slot = e.slots)
    (h : ofStruct info = .ok m) : m.Fits e := by
  unfold ofStruct at h
  split at h
  · cases h
  rename_i hfields
  cases h
  intro hentity
  have hspots := spot_mapFields hfields
  rw [(hinfo hentity).2] at hspots
  exact hspots

theorem fits_parse {schema : Schema} {t : TypeId} (hs : schema.Upholds e) (h : schema.parse t = .ok m) :
    m.Fits e := by
  have ht := hs.report t
  unfold Schema.parse at h
  split at h
  · rename_i hinfo
    rw [hinfo] at ht
    split at h
    · exact fits_ofStruct ht h
    · cases h
  · unfold Model.parse at h
    split at h
    · rename_i hinfo
      rw [hinfo] at ht
      exact fits_ofStruct ht h
    · rename_i hinfo
      rw [hinfo] at ht
      exact fits_ofStruct ht h
    · cases h

/-- Options change neither the slots of the fields nor their places. -/
theorem Fits.apply {option : ModelOption} (hm : m.Fits e) (h : m.apply option = .ok m') : m'.Fits e := by
  rcases apply_cases h with ⟨name, rfl⟩ | ⟨place, column, rfl, -⟩
  · exact hm
  · intro hentity
    have hspot : (m.setColumn place column).fields.map Field.spot = m.fields.map Field.spot := by
      rw [setColumn, List.map_map]
      refine List.map_congr_left fun f _ => ?_
      rw [Function.comp_apply]
      split <;> rfl
    rw [hspot]
    exact hm hentity

theorem Fits.names (hm : m.Fits e) (hentity : m.entity = e.type) : m.fields.map (·.name) = e.names := by
  have hspots := congrArg (List.map (·.1.name)) (hm hentity)
  have hslots : e.slots.zipIdx.map (·.1.name) = e.names := by
    rw [Entity.names_eq_slots]
    conv => rhs; rw [← List.zipIdx_map_fst 0 e.slots, List.map_map]
    rfl
  rw [List.map_map, hslots] at hspots
  exact hspots

/-- A field of the model is the field of the entity in its place. -/
theorem Fits.cell (hm : m.Fits e) (hentity : m.entity = e.type) {f : Field} (hf : f ∈ m.fields) :
    ∃ c, e.cells[f.place]? = some c ∧ c.slot = f.slot := by
  have hspot : f.spot ∈ e.slots.zipIdx := hm hentity ▸ List.mem_map_of_mem hf
  have hslot : e.slots[f.place]? = some f.slot := List.mem_zipIdx_iff_getElem?.mp hspot
  simpa [Entity.slots] using hslot

end Model

theorem Registry.Gives.fits {r : Registry} {schema : Schema} {m : Model} {e : Entity}
    (hr : r.ReachableBy (·.Upholds e)) (hs : schema.Upholds e) (h : r.Gives schema m) : m.Fits e :=
  h.holds Model.fits_parse Model.Fits.apply hr hs

end EntitySql
