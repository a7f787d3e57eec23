import EntitySql.Proofs.Entity.Access
import Mathlib.Data.List.Nodup

namespace EntitySql

namespace Row

namespace Entry

def valueOf? (entries : List Entry) (column : String) : Option Value :=
  (entries.find? (·.column == column)).map (·.value)

variable {entries entries' : List Entry} {column : String}

private theorem valueOf?_append (entries entries' : List Entry) (column : String) :
    valueOf? (entries ++ entries') column = (valueOf? entries column).or (valueOf? entries' column) := by
  rw [valueOf?, List.find?_append, Option.map_or]
  rfl

theorem valueOf?_cons (entry : Entry) (rest : List Entry) (column : String) :
    valueOf? (entry :: rest) column = if entry.column = column then some entry.value else valueOf? rest column := by
  rw [valueOf?, valueOf?, List.find?_cons]
  by_cases hcolumn : entry.column = column
  · rw [if_pos hcolumn, beq_iff_eq.mpr hcolumn, Option.map_some]
  · rw [if_neg hcolumn, beq_eq_false_iff_ne.mpr hcolumn]

theorem valueOf?_eq_none_iff : valueOf? entries column = none ↔ ∀ entry ∈ entries, entry.column ≠ column := by
  simp [valueOf?]

theorem exists_of_valueOf? {v : Value} (h : valueOf? entries column = some v) :
    ∃ entry ∈ entries, entry.column = column ∧ entry.value = v := by
  obtain ⟨entry, hfind, hv⟩ := Option.map_eq_some_iff.mp h
  have hcolumn := List.find?_some hfind
  exact ⟨entry, List.mem_of_find?_eq_some hfind, by simpa using hcolumn, hv⟩

/-- Where no two entries have one column, it does not matter which of them is the first. -/
theorem valueOf?_eq_some_iff (hdistinct : (entries.map (·.column)).Nodup) {v : Value} :
    valueOf? entries column = some v ↔ ∃ entry ∈ entries, entry.column = column ∧ entry.value = v := by
  refine ⟨exists_of_valueOf?, ?_⟩
  rintro ⟨entry, hmem, rfl, rfl⟩
  cases hvalue : valueOf? entries entry.column with
  | none => exact absurd rfl (valueOf?_eq_none_iff.mp hvalue entry hmem)
  | some v =>
    obtain ⟨first, hfirst, hcolumn, rfl⟩ := exists_of_valueOf? hvalue
    rw [List.inj_on_of_nodup_map hdistinct hfirst hmem hcolumn]

private theorem valueOf?_perm (hperm : entries'.Perm entries) (hdistinct : (entries.map (·.column)).Nodup) :
    valueOf? entries' = valueOf? entries := by
  have hdistinct' : (entries'.map (·.column)).Nodup := (hperm.map _).nodup_iff.mpr hdistinct
  funext column
  refine Option.ext fun v => ?_
  rw [valueOf?_eq_some_iff hdistinct, valueOf?_eq_some_iff hdistinct']
  simp only [hperm.mem_iff]

/-- Nor does it for a column that occurs only once. -/
theorem valueOf?_reverse_of_count (h : (entries.map (·.column)).count column ≤ 1) :
    valueOf? entries.reverse column = valueOf? entries column := by
  induction entries with
  | nil => rfl
  | cons entry rest ih =>
    rw [List.map_cons, List.count_cons] at h
    have hlast : valueOf? [entry] column = if entry.column = column then some entry.value else none :=
      valueOf?_cons entry [] column
    rw [List.reverse_cons, valueOf?_append, ih (Nat.le_of_add_right_le h), hlast, valueOf?_cons]
    by_cases hcolumn : entry.column = column
    · have hnone : valueOf? rest column = none := by
        refine valueOf?_eq_none_iff.mpr fun other hother heq => ?_
        have hcount : 0 < (rest.map (·.column)).count column :=
          List.count_pos_iff.mpr (List.mem_map.mpr ⟨other, hother, heq⟩)
        rw [if_pos (beq_iff_eq.mpr hcolumn)] at h
        omega
      rw [hnone, Option.none_or, if_pos hcolumn]
    · rw [if_neg hcolumn, if_neg hcolumn, Option.or_none]

end Entry

open Entry

/-- The columns of the entries are those that have a value. -/
theorem map_column_entries (r : Row) :
    r.entries.map (·.column) = r.columns.take (min r.columns.length r.values.length) := by
  have hcolumns : r.entries.map (·.column) = (r.pairs.zipIdx.map Prod.fst).map Prod.fst := by
    rw [entries, List.map_map, List.map_map]
    rfl
  rw [hcolumns, List.zipIdx_map_fst, pairs, List.zip_eq_zip_take_min, List.map_fst_zip (by simp)]

private theorem nodup_entries {r : Row} (h : r.columns.Nodup) : (r.entries.map (·.column)).Nodup := by
  rw [map_column_entries]
  exact h.sublist (List.take_sublist _ _)

private theorem count_entries_le (r : Row) (column : String) :
    (r.entries.map (·.column)).count column ≤ r.columns.count column := by
  rw [map_column_entries]
  exact (List.take_sublist _ _).count_le column

private theorem valueOf?_entries (r : Row) (column : String) :
    valueOf? r.entries column = (r.pairs.find? (·.1 == column)).map (·.2) := by
  have hpairs : r.pairs.find? (·.1 == column) =
      (r.pairs.zipIdx.find? fun p => p.1.1 == column).map Prod.fst := by
    conv => lhs; rw [← List.zipIdx_map_fst 0 r.pairs, List.find?_map]
    rfl
  rw [valueOf?, entries, List.find?_map, hpairs, Option.map_map, Option.map_map]
  rfl

/-- The value of a column by its name is that of the first entry under the name. -/
theorem get?_eq_valueOf? (r : Row) (column : String) : r.get? column = valueOf? r.entries column := by
  rw [valueOf?_entries]
  obtain ⟨columns, undecodable, values⟩ := r
  simp only [get?, pairs]
  induction columns generalizing values with
  | nil => simp
  | cons name columns ih =>
    cases values with
    | nil => cases List.findIdx? (· == column) (name :: columns) <;> simp
    | cons v values =>
      rw [List.findIdx?_cons, List.zip_cons_cons, List.find?_cons]
      cases hname : name == column with
      | true => rfl
      | false =>
        rw [← ih values]
        cases columns.findIdx? (· == column) <;> simp

end Row

/-- An entity whose fields have received the values of their columns: a field whose column has a value holds
what the value is read as, and every other one what it held. -/
structure Entity.Received (m : Model) (value? : String → Option Value) (e e' : Entity) : Prop where
  type : e'.type = e.type
  size : e'.size = e.size
  read {f : Field} (hf : f ∈ m.fields) {v : Value} (hv : value? f.column = some v) :
    ∃ c x, e.cells[f.place]? = some c ∧ c.type.ofValue v = .ok x ∧
      e'.cells[f.place]? = some { c with content := x }
  kept {place : Nat} (h : ∀ f ∈ m.fields, f.place = place → value? f.column = none) :
    e'.cells[place]? = e.cells[place]?

namespace Entity.Received

variable {m : Model} {first? second? : String → Option Value} {e e₁ e₂ : Entity}

private theorem refl (h : ∀ f ∈ m.fields, first? f.column = none) : e.Received m first? e where
  type := rfl
  size := rfl
  read {f} hf {v} hv := by
    rw [h f hf] at hv
    cases hv
  kept _ := rfl

private theorem kept_or_read (m : Model) (value? : String → Option Value) (place : Nat) :
    (∀ f ∈ m.fields, f.place = place → value? f.column = none) ∨
      ∃ f ∈ m.fields, f.place = place ∧ ∃ v, value? f.column = some v := by
  by_cases h : ∃ f ∈ m.fields, f.place = place ∧ (value? f.column).isSome = true
  · obtain ⟨f, hf, hplace, hsome⟩ := h
    exact .inr ⟨f, hf, hplace, Option.isSome_iff_exists.mp hsome⟩
  · refine .inl fun f hf hplace => ?_
    simpa using fun hsome => h ⟨f, hf, hplace, hsome⟩

theorem unique (h₁ : e.Received m first? e₁) (h₂ : e.Received m first? e₂) : e₁ = e₂ := by
  have hcells : e₁.cells = e₂.cells := by
    refine List.ext_getElem? fun place => ?_
    rcases kept_or_read m first? place with hkept | ⟨f, hf, rfl, v, hv⟩
    · rw [h₁.kept hkept, h₂.kept hkept]
    · obtain ⟨c, x, hc, hx, hc₁⟩ := h₁.read hf hv
      obtain ⟨d, y, hd, hy, hd₂⟩ := h₂.read hf hv
      cases hc.symm.trans hd
      cases hx.symm.trans hy
      rw [hc₁, hd₂]
  have htype : e₁.type = e₂.type := h₁.type.trans h₂.type.symm
  have hsize : e₁.size = e₂.size := h₁.size.trans h₂.size.symm
  obtain ⟨type, size, cells⟩ := e₁
  cases htype
  cases hsize
  cases hcells
  rfl

/-- The field in a place is what it was but for its content. -/
theorem cell (h : e.Received m first? e₁) {place : Nat} {d : Cell} (hd : e₁.cells[place]? = some d) :
    ∃ c x, e.cells[place]? = some c ∧ d = { c with content := x } := by
  rcases kept_or_read m first? place with hkept | ⟨f, hf, rfl, v, hv⟩
  · rw [h.kept hkept] at hd
    exact ⟨d, d.content, hd, rfl⟩
  · obtain ⟨c, x, hc, -, hc₁⟩ := h.read hf hv
    exact ⟨c, x, hc, Option.some.inj (hd.symm.trans hc₁)⟩

theorem frame_kept (h : e.Received m first? e₁) : e₁.frame = e.frame := by
  have hcells : e₁.cells.map Cell.frame = e.cells.map Cell.frame := by
    refine List.ext_getElem? fun place => ?_
    rw [List.getElem?_map, List.getElem?_map]
    rcases kept_or_read m first? place with hkept | ⟨f, hf, rfl, v, hv⟩
    · rw [h.kept hkept]
    · obtain ⟨c, x, hc, -, hc₁⟩ := h.read hf hv
      rw [hc, hc₁]
      rfl
  rw [Entity.frame, h.type, h.size, hcells]
  rfl

private theorem trans (ha : Model.Apart m.fields) (h₁ : e.Received m first? e₁) (h₂ : e₁.Received m second? e₂) :
    e.Received m (fun column => (second? column).or (first? column)) e₂ where
  type := h₂.type.trans h₁.type
  size := h₂.size.trans h₁.size
  read {f} hf {v} hv := by
    cases hsecond : second? f.column with
    | some w =>
      rw [hsecond] at hv
      cases hv
      obtain ⟨d, x, hd, hx, hd₂⟩ := h₂.read hf hsecond
      obtain ⟨c, y, hc, rfl⟩ := h₁.cell hd
      exact ⟨c, x, hc, hx, hd₂⟩
    | none =>
      rw [hsecond] at hv
      obtain ⟨c, x, hc, hx, hc₁⟩ := h₁.read hf hv
      refine ⟨c, x, hc, hx, ?_⟩
      rw [h₂.kept, hc₁]
      intro g hg hplace
      rw [ha.eq_of_place hg hf hplace, hsecond]
  kept {place} h := by
    have hnone : ∀ f ∈ m.fields, f.place = place → second? f.column = none ∧ first? f.column = none :=
      fun f hf hplace => Option.or_eq_none_iff.mp (h f hf hplace)
    rw [h₂.kept fun f hf hplace => (hnone f hf hplace).1, h₁.kept fun f hf hplace => (hnone f hf hplace).2]

end Entity.Received

def Entity.typeAt? (e : Entity) (place : Nat) : Option FieldType := (e.cells[place]?).map (·.type)

private theorem Entity.typeAt?_of_frame {e e' : Entity} (h : e'.frame = e.frame) (place : Nat) :
    e'.typeAt? place = e.typeAt? place := by
  have hslots (e : Entity) : e.typeAt? place = (e.slots[place]?).map (·.type) := by
    rw [typeAt?, slots, List.getElem?_map, Option.map_map]
    rfl
  rw [hslots, hslots, slots_of_frame h]

namespace Row.Entry

variable {m : Model} {e e' : Entity} {entry : Entry} {message : String}

/-- An entry that nothing is wrong with: if its column has a field, it was decoded and fits the field. -/
def Readable (m : Model) (e : Entity) (entry : Entry) : Prop :=
  ∀ f, m.column? entry.column = some f →
    entry.reason = none ∧ ∃ t x, e.typeAt? f.place = some t ∧ t.ofValue entry.value = .ok x

/-- What is wrong with an entry whose column has a field. -/
inductive Fault (m : Model) (e : Entity) (entry : Entry) : String → Prop where
  | undecoded {f : Field} {reason : String} (hf : m.column? entry.column = some f)
    (h : entry.reason = some reason) : Fault m e entry reason
  | misfit {f : Field} {t : FieldType} {misfit : Misfit} (hf : m.column? entry.column = some f)
    (h : entry.reason = none) (ht : e.typeAt? f.place = some t)
    (hv : t.ofValue entry.value = .error misfit) : Fault m e entry misfit.message

theorem Fault.not_readable (h : Fault m e entry message) : ¬ Readable m e entry := by
  intro hreadable
  cases h with
  | undecoded hf h => cases (hreadable _ hf).1.symm.trans h
  | misfit hf h ht hv =>
    obtain ⟨-, t, x, ht', hx⟩ := hreadable _ hf
    cases ht.symm.trans ht'
    cases hv.symm.trans hx

private theorem Readable.of_frame (h : Readable m e entry) (hframe : e'.frame = e.frame) : Readable m e' entry := by
  intro f hf
  rw [Entity.typeAt?_of_frame hframe]
  exact h f hf

private theorem Fault.of_frame (h : Fault m e entry message) (hframe : e'.frame = e.frame) :
    Fault m e' entry message := by
  cases h with
  | undecoded hf h => exact .undecoded hf h
  | misfit hf h ht hv => exact .misfit hf h ((Entity.typeAt?_of_frame hframe _).trans ht) hv

private theorem readable_or_fault (hm : m.Fits e) (hentity : m.entity = e.type) (entry : Entry) :
    Readable m e entry ∨ ∃ message, Fault m e entry message := by
  cases hf : m.column? entry.column with
  | none => exact .inl fun f hf' => nomatch hf.symm.trans hf'
  | some f =>
    cases hreason : entry.reason with
    | some reason => exact .inr ⟨reason, .undecoded hf hreason⟩
    | none =>
      obtain ⟨c, hc, -⟩ := hm.cell hentity (List.mem_of_find?_eq_some hf)
      have ht : e.typeAt? f.place = some c.type := by rw [Entity.typeAt?, hc, Option.map_some]
      cases hv : c.type.ofValue entry.value with
      | ok x =>
        refine .inl fun g hg => ?_
        cases hf.symm.trans hg
        exact ⟨hreason, c.type, x, ht, hv⟩
      | error misfit => exact .inr ⟨misfit.message, .misfit hf hreason ht hv⟩

/-- Either nothing is wrong with any entry, or something is with a first one. -/
theorem readable_or_first_fault (hm : m.Fits e) (hentity : m.entity = e.type) (entries : List Entry) :
    (∀ entry ∈ entries, Readable m e entry) ∨
      ∃ before entry after message, entries = before ++ entry :: after ∧
        (∀ entry ∈ before, Readable m e entry) ∧ Fault m e entry message := by
  induction entries with
  | nil => exact .inl (List.forall_mem_nil _)
  | cons entry rest ih =>
    rcases readable_or_fault hm hentity entry with hentry | ⟨message, hfault⟩
    · rcases ih with hrest | ⟨before, bad, after, message, rfl, hbefore, hfault⟩
      · exact .inl (List.forall_mem_cons.mpr ⟨hentry, hrest⟩)
      · have hbefore' := List.forall_mem_cons.mpr ⟨hentry, hbefore⟩
        exact .inr ⟨entry :: before, bad, after, message, rfl, hbefore', hfault⟩
    · exact .inr ⟨[], entry, rest, message, rfl, List.forall_mem_nil _, hfault⟩

end Row.Entry

namespace Access

open Row.Entry

variable {m : Model} {e : Entity}

def writeEntry (a : Access) (m : Model) (e : Entity) (entry : Row.Entry) : Except Error Entity :=
  match entry.reason with
  | some reason => if (m.column? entry.column).isSome then .error (.decode entry.column reason) else .ok e
  | none => a.writeColumn m e entry.column entry.value

theorem writeEntries_cons (a : Access) (m : Model) (e : Entity) (entry : Row.Entry) (rest : List Row.Entry) :
    a.writeEntries m e (entry :: rest) =
      match a.writeEntry m e entry with
      | .ok e' => a.writeEntries m e' rest
      | .error err => (e, .error err) := by
  obtain ⟨column, v, reason⟩ := entry
  cases reason with
  | some reason =>
    rw [writeEntries, writeEntry]
    cases m.column? column <;> rfl
  | none =>
    rw [writeEntries, writeEntry]
    cases a.writeColumn m e column v <;> rfl

private theorem writeEntry_fault (a : Access) (he : e.Derived) (hm : m.Fits e) (hentity : m.entity = e.type)
    {entry : Row.Entry} {message : String} (h : Fault m e entry message) :
    a.writeEntry m e entry = .error (.decode entry.column message) := by
  cases h with
  | undecoded hf h => simp [writeEntry, h, hf]
  | misfit hf h ht hv =>
    obtain ⟨c, hc, rfl⟩ := Option.map_eq_some_iff.mp ht
    obtain ⟨d, hd, -, hwrite⟩ := a.writeColumn_field he hm hentity hf entry.value
    cases hc.symm.trans hd
    simp [writeEntry, h, hwrite, Cell.write, hv, Error.ofMisfit]

private theorem writeEntry_readable (a : Access) (he : e.Derived) (hm : m.Fits e) (hentity : m.entity = e.type)
    (ha : Model.Apart m.fields) {entry : Row.Entry} (h : Readable m e entry) :
    ∃ e', a.writeEntry m e entry = .ok e' ∧ e.Received m (valueOf? [entry]) e' := by
  cases hf : m.column? entry.column with
  | none =>
    have hkept : a.writeEntry m e entry = .ok e := by
      cases hreason : entry.reason with
      | some reason => simp [writeEntry, hreason, hf]
      | none => simp [writeEntry, hreason, writeColumn, Model.check, hentity, hf]
    have hfree : ∀ f ∈ m.fields, f.column ≠ entry.column := by simpa [Model.column?] using hf
    exact ⟨e, hkept, .refl fun f hf => valueOf?_eq_none_iff.mpr (by simpa using (hfree f hf).symm)⟩
  | some f =>
    obtain ⟨hreason, t, x, ht, hx⟩ := h f hf
    obtain ⟨c, hc, rfl⟩ := Option.map_eq_some_iff.mp ht
    have hmem : f ∈ m.fields := List.mem_of_find?_eq_some hf
    have hcolumn : f.column = entry.column := by simpa using List.find?_some hf
    let e' : Entity := { e with cells := e.cells.set f.place { c with content := x } }
    refine ⟨e', ?_, rfl, rfl, ?_, ?_⟩
    · obtain ⟨d, hd, -, hwrite⟩ := a.writeColumn_field he hm hentity hf entry.value
      cases hc.symm.trans hd
      simp [writeEntry, hreason, hwrite, Cell.write, hx, e']
    · -- A field whose column has a value has the column of the entry, so it is the one that was written.
      intro g hg v hv
      obtain ⟨_, hmem', hcolumn', hvalue⟩ := exists_of_valueOf? hv
      obtain rfl := List.mem_singleton.mp hmem'
      obtain rfl := ha.eq_of_column hg hmem (hcolumn'.symm.trans hcolumn.symm)
      obtain ⟨hplace, -⟩ := List.getElem?_eq_some_iff.mp hc
      exact ⟨c, x, hc, hvalue ▸ hx, List.getElem?_set_self hplace⟩
    · intro place hnone
      have hne : f.place ≠ place := by
        intro hplace
        exact valueOf?_eq_none_iff.mp (hnone f hmem hplace) entry List.mem_cons_self hcolumn.symm
      exact List.getElem?_set_ne hne

/-- Entries that nothing is wrong with are all written, whatever follows. A field whose column is repeated holds
what its last value is read as. -/
private theorem writeEntries_append (a : Access) (he : e.Derived) (hm : m.Fits e) (ha : Model.Apart m.fields)
    (hentity : m.entity = e.type) {before : List Row.Entry} (h : ∀ entry ∈ before, Readable m e entry)
    (after : List Row.Entry) :
    ∃ e', a.writeEntries m e (before ++ after) = a.writeEntries m e' after ∧
      e.Received m (valueOf? before.reverse) e' := by
  induction before generalizing e with
  | nil => exact ⟨e, rfl, .refl fun _ _ => rfl⟩
  | cons entry rest ih =>
    obtain ⟨hentry, hrest⟩ := List.forall_mem_cons.mp h
    obtain ⟨e₁, hwrite, hreceived₁⟩ := a.writeEntry_readable he hm hentity ha hentry
    have hframe : e₁.frame = e.frame := hreceived₁.frame_kept
    obtain ⟨e₂, hrun, hreceived₂⟩ := ih (he.of_frame hframe) (hm.of_frame hframe)
      (hentity.trans hreceived₁.type.symm) fun other hother => (hrest other hother).of_frame hframe
    refine ⟨e₂, ?_, ?_⟩
    · rw [List.cons_append, writeEntries_cons, hwrite]
      exact hrun
    · have hvalues : valueOf? (entry :: rest).reverse =
          fun column => (valueOf? rest.reverse column).or (valueOf? [entry] column) := by
        funext column
        rw [List.reverse_cons, valueOf?_append]
      rw [hvalues]
      exact hreceived₁.trans ha hreceived₂

theorem writeEntries_readable (a : Access) (he : e.Derived) (hm : m.Fits e) (ha : Model.Apart m.fields)
    (hentity : m.entity = e.type) {entries : List Row.Entry} (h : ∀ entry ∈ entries, Readable m e entry) :
    ∃ e', a.writeEntries m e entries = (e', .ok ()) ∧ e.Received m (valueOf? entries.reverse) e' := by
  obtain ⟨e', hrun, hreceived⟩ := a.writeEntries_append he hm ha hentity h []
  rw [List.append_nil] at hrun
  exact ⟨e', hrun, hreceived⟩

theorem writeEntries_fault (a : Access) (he : e.Derived) (hm : m.Fits e) (ha : Model.Apart m.fields)
    (hentity : m.entity = e.type) {before : List Row.Entry} (h : ∀ entry ∈ before, Readable m e entry)
    {entry : Row.Entry} {message : String} (hfault : Fault m e entry message) (after : List Row.Entry) :
    ∃ e', a.writeEntries m e (before ++ entry :: after) = (e', .error (.decode entry.column message)) ∧
      e.Received m (valueOf? before.reverse) e' := by
  obtain ⟨e', hrun, hreceived⟩ := a.writeEntries_append he hm ha hentity h (entry :: after)
  have hentity' : m.entity = e'.type := hentity.trans hreceived.type.symm
  have hframe : e'.frame = e.frame := hreceived.frame_kept
  have hfault' := a.writeEntry_fault (he.of_frame hframe) (hm.of_frame hframe) hentity' (hfault.of_frame hframe)
  rw [writeEntries_cons, hfault'] at hrun
  exact ⟨e', hrun, hreceived⟩

/-- Either all entries are written, or those before the first one that something is wrong with. -/
theorem writeEntries_cases (a : Access) (he : e.Derived) (hm : m.Fits e) (ha : Model.Apart m.fields)
    (hentity : m.entity = e.type) (entries : List Row.Entry) :
    (∃ e', (∀ entry ∈ entries, Readable m e entry) ∧ a.writeEntries m e entries = (e', .ok ()) ∧
        e.Received m (valueOf? entries.reverse) e') ∨
      ∃ before entry after message e', entries = before ++ entry :: after ∧
        (∀ entry ∈ before, Readable m e entry) ∧ Fault m e entry message ∧
        a.writeEntries m e entries = (e', .error (.decode entry.column message)) ∧
        e.Received m (valueOf? before.reverse) e' := by
  rcases readable_or_first_fault hm hentity entries with
    hall | ⟨before, entry, after, message, rfl, hbefore, hfault⟩
  · obtain ⟨e', hrun, hreceived⟩ := a.writeEntries_readable he hm ha hentity hall
    exact .inl ⟨e', hall, hrun, hreceived⟩
  · obtain ⟨e', hrun, hreceived⟩ := a.writeEntries_fault he hm ha hentity hbefore hfault after
    exact .inr ⟨before, entry, after, message, e', rfl, hbefore, hfault, hrun, hreceived⟩

/-- Rows in which no column is repeated. They are written iff nothing is wrong with any entry whose column has
a field. Then such a field holds what the value of its column is read as, every other one what it held, and
neither the order of the columns nor the way to the fields matters. Else the error names the first column at
fault, and the fields of the columns before it, and only these, have been written. -/
theorem writeRow_exact (a : Access) (he : e.Derived) {schema : Schema} (hs : schema.Upholds e) {r : Registry}
    (hr : r.ReachableBy (·.Upholds e)) (hm : r.Gives schema m) (hentity : m.entity = e.type) {row : Row}
    (hdistinct : row.columns.Nodup) :
    ((a.writeRow m e row).2 = .ok () ↔ ∀ entry ∈ row.entries, Readable m e entry) ∧
      ((a.writeRow m e row).2 = .ok () →
        e.Received m row.get? (a.writeRow m e row).1 ∧
          ∀ (a' : Access) (row' : Row), row'.entries.Perm row.entries →
            a'.writeRow m e row' = a.writeRow m e row) ∧
      ∀ err, (a.writeRow m e row).2 = .error err →
        ∃ before entry after message, row.entries = before ++ entry :: after ∧
          (∀ entry ∈ before, Readable m e entry) ∧ Fault m e entry message ∧
          err = .decode entry.column message ∧ e.Received m (valueOf? before) (a.writeRow m e row).1 := by
  have hfits : m.Fits e := hm.fits hr hs
  have hapart : Model.Apart m.fields := (hm.reachable hr hs).apart
  have hnodup : (row.entries.map (·.column)).Nodup := Row.nodup_entries hdistinct
  rcases a.writeEntries_cases he hfits hapart hentity row.entries with
    ⟨e', hall, hrun, hreceived⟩ | ⟨before, entry, after, message, e', hsplit, hbefore, hfault, hrun, hreceived⟩
  · rw [writeRow, hrun]
    refine ⟨⟨fun _ => hall, fun _ => rfl⟩, fun _ => ⟨?_, fun a' row' hperm => ?_⟩, nofun⟩
    · rw [funext row.get?_eq_valueOf?, ← valueOf?_perm (List.reverse_perm row.entries) hnodup]
      exact hreceived
    · have hall' : ∀ entry ∈ row'.entries, Readable m e entry :=
        fun entry hmem => hall entry (hperm.mem_iff.mp hmem)
      have hvalues : valueOf? row'.entries.reverse = valueOf? row.entries.reverse := by
        have hback := List.reverse_perm row.entries
        rw [valueOf?_perm ((List.reverse_perm row'.entries).trans hperm) hnodup, valueOf?_perm hback hnodup]
      obtain ⟨e₁, hrun', hreceived'⟩ := a'.writeEntries_readable he hfits hapart hentity hall'
      rw [hvalues] at hreceived'
      rw [writeRow, hrun', hreceived'.unique hreceived]
  · rw [writeRow, hrun]
    have hbad : ¬ ∀ entry ∈ row.entries, Readable m e entry :=
      fun hall => hfault.not_readable (hall entry (by simp [hsplit]))
    refine ⟨⟨nofun, fun hall => absurd hall hbad⟩, nofun, fun err herr => ?_⟩
    cases herr
    have hnodup' : (before.map (·.column)).Nodup := by
      rw [hsplit, List.map_append] at hnodup
      exact (List.nodup_append.mp hnodup).1
    rw [valueOf?_perm (List.reverse_perm before) hnodup'] at hreceived
    exact ⟨before, entry, after, message, hsplit, hbefore, hfault, rfl, hreceived⟩

/-- A renamed column, one without a field that could not be decoded, and one without a value: the row is
written in either order. Where a value does not fit, the column before it has been written. -/
theorem writeRow_exact_renamed :
    let info : StructInfo :=
      ⟨"User", .named "User", 32, none, [⟨"Id", none, 0, 1, ⟨.bool⟩⟩, ⟨"Name", none, 8, 24, ⟨.text⟩⟩]⟩
    let schema : Schema := fun name => if name = "User" then .struct info else .other
    let m : Model := ⟨"user", .named "User", [⟨"Id", "id", 0, 1, ⟨.bool⟩, 0⟩, ⟨"Name", "label", 8, 24, ⟨.text⟩, 1⟩]⟩
    let e : Entity := ⟨.named "User", 32, [.blank "Id" true 0 1 .bool, .blank "Name" true 8 24 .text]⟩
    let row : Row := ⟨["label", "other", "id", "age"], [none, some "truncated"], [.text "a", .null, .bool true]⟩
    let turned : Row :=
      ⟨["id", "label", "other"], [none, none, some "truncated"], [.bool true, .text "a", .null]⟩
    let unfit : Row := ⟨["label", "id"], [], [.text "a", .text "b"]⟩
    e.Derived ∧ schema.Upholds e ∧ Registry.empty.ReachableBy (·.Upholds e) ∧ Registry.empty.Gives schema m ∧
      m.entity = e.type ∧ row.columns.Nodup ∧
      byName.writeRow m e turned = byOffset.writeRow m e row ∧
      (byOffset.writeRow m e row).1.cells.map Cell.value = [.bool true, .text "a"] ∧
      (byName.writeRow m e unfit).1.cells.map Cell.value = [.bool false, .text "a"] ∧
      (byName.writeRow m e unfit).2 = .error (.decode "id" "expected bool, got text") := by
  intro info schema m e row turned unfit
  have he : e.Derived := ⟨by decide, by decide, by decide⟩
  have hs : schema.Upholds e := Schema.upholds_single "User" ⟨rfl, rfl⟩
  have hgives : Registry.empty.Gives schema m :=
    .inr ⟨.named "User", [.column "Name" "label"], by decide +kernel⟩
  have hdistinct : row.columns.Nodup := by decide
  have hperm : turned.entries.Perm row.entries := by decide
  obtain ⟨-, hwritten, -⟩ := byOffset.writeRow_exact he hs .empty hgives rfl hdistinct
  obtain ⟨-, hturned⟩ := hwritten (by decide)
  exact ⟨he, hs, .empty, hgives, rfl, hdistinct, hturned byName turned hperm, by decide, by decide, by decide⟩

/-- Without the type of the entity, a model writes no column that has a field. -/
theorem entity_of_written (a : Access) {entries : List Row.Entry} {e' : Entity}
    (h : a.writeEntries m e entries = (e', .ok ())) {entry : Row.Entry} (hmem : entry ∈ entries) {f : Field}
    (hf : m.column? entry.column = some f) : m.entity = e.type := by
  induction entries generalizing e with
  | nil => cases hmem
  | cons first rest ih =>
    rw [writeEntries_cons] at h
    cases hwrite : a.writeEntry m e first with
    | error err => simp [hwrite] at h
    | ok e₁ =>
      rw [hwrite] at h
      rw [writeEntry] at hwrite
      cases hreason : first.reason with
      | some reason =>
        cases hfirst : m.column? first.column with
        | some g => simp [hreason, hfirst] at hwrite
        | none =>
          simp only [hreason, hfirst, Option.isSome_none, Bool.false_eq_true, if_false] at hwrite
          cases hwrite
          rcases List.mem_cons.mp hmem with rfl | hrest
          · cases hfirst.symm.trans hf
          · exact ih h hrest
      | none =>
        rw [hreason] at hwrite
        by_contra hne
        rw [a.writeColumn_of_ne hne] at hwrite
        cases hwrite

/-- Rows in which columns may be repeated. The value that a column has by its name is that of its first
occurrence. A field holds what the last value of its column is read as, so both agree where the column
occurs once. -/
theorem writeRow_last (a : Access) (he : e.Derived) {schema : Schema} (hs : schema.Upholds e) {r : Registry}
    (hr : r.ReachableBy (·.Upholds e)) (hm : r.Gives schema m) {row : Row} {e' : Entity}
    (hok : a.writeRow m e row = (e', .ok ())) {column : String} {f : Field} (hf : m.column? column = some f)
    {v : Value} (hv : row.get? column = some v) :
    ∃ c w x, e.cells[f.place]? = some c ∧ valueOf? row.entries.reverse column = some w ∧
      c.type.ofValue w = .ok x ∧ e'.cells[f.place]? = some { c with content := x } ∧
      (row.columns.count column = 1 → w = v) := by
  have hfits : m.Fits e := hm.fits hr hs
  have hapart : Model.Apart m.fields := (hm.reachable hr hs).apart
  have hfirst : valueOf? row.entries column = some v := (row.get?_eq_valueOf? column).symm.trans hv
  obtain ⟨entry, hmem, hcolumn, -⟩ := exists_of_valueOf? hfirst
  have hentity : m.entity = e.type := a.entity_of_written hok hmem (hcolumn ▸ hf)
  have hfield : f.column = column := by simpa using List.find?_some hf
  have hlast : ∃ w, valueOf? row.entries.reverse column = some w := by
    refine Option.ne_none_iff_exists'.mp fun hnone => ?_
    exact valueOf?_eq_none_iff.mp hnone entry (List.mem_reverse.mpr hmem) hcolumn
  obtain ⟨w, hw⟩ := hlast
  rcases a.writeEntries_cases he hfits hapart hentity row.entries with
    ⟨e₁, -, hrun, hreceived⟩ | ⟨_, _, _, _, _, -, -, -, hrun, -⟩
  · cases hrun.symm.trans hok
    obtain ⟨c, x, hc, hx, hwritten⟩ := hreceived.read (List.mem_of_find?_eq_some hf) (hfield ▸ hw)
    refine ⟨c, w, x, hc, hw, hx, hwritten, fun hcount => ?_⟩
    have hsame := valueOf?_reverse_of_count (hcount ▸ row.count_entries_le column)
    rw [hw, hfirst] at hsame
    exact Option.some.inj hsame
  · cases hrun.symm.trans hok

/-- A renamed column that occurs once, next to one that is repeated. -/
theorem writeRow_last_once :
    let info : StructInfo :=
      ⟨"User", .named "User", 32, none, [⟨"Id", none, 0, 1, ⟨.bool⟩⟩, ⟨"Name", none, 8, 24, ⟨.text⟩⟩]⟩
    let schema : Schema := fun name => if name = "User" then .struct info else .other
    let f : Field := ⟨"Name", "label", 8, 24, ⟨.text⟩, 1⟩
    let m : Model := ⟨"user", .named "User", [⟨"Id", "id", 0, 1, ⟨.bool⟩, 0⟩, f]⟩
    let e : Entity := ⟨.named "User", 32, [.blank "Id" true 0 1 .bool, .blank "Name" true 8 24 .text]⟩
    let row : Row := ⟨["id", "label", "id"], [], [.bool true, .text "a", .bool false]⟩
    e.Derived ∧ schema.Upholds e ∧ Registry.empty.ReachableBy (·.Upholds e) ∧ Registry.empty.Gives schema m ∧
      m.column? "label" = some f ∧ row.get? "label" = some (.text "a") ∧
      (byName.writeRow m e row).2 = .ok () ∧ (byName.writeRow m e row).1.read? f.place = some (.text "a") := by
  intro info schema f m e row
  have he : e.Derived := ⟨by decide, by decide, by decide⟩
  have hs : schema.Upholds e := Schema.upholds_single "User" ⟨rfl, rfl⟩
  have hgives : Registry.empty.Gives schema m :=
    .inr ⟨.named "User", [.column "Name" "label"], by decide +kernel⟩
  have hf : m.column? "label" = some f := by decide
  have hv : row.get? "label" = some (.text "a") := by decide
  have hok : byName.writeRow m e row = ((byName.writeRow m e row).1, .ok ()) := Prod.ext rfl (by decide)
  obtain ⟨c, w, x, hc, -, hx, hwritten, honce⟩ := byName.writeRow_last he hs .empty hgives hok hf hv
  cases hc
  cases honce (by decide)
  cases hx
  have hread : (byName.writeRow m e row).1.read? f.place = some (.text "a") := by
    rw [Entity.read?, hwritten]
    rfl
  exact ⟨he, hs, .empty, hgives, hf, hv, by decide, hread⟩

/-- The column of both sides of a join, which names its value on the left: the field holds the one on the
right, whichever way it is reached. -/
theorem written_right_read_left :
    let info : StructInfo := ⟨"User", .named "User", 8, none, [⟨"Id", none, 0, 8, ⟨.integer .i64⟩⟩]⟩
    let schema : Schema := fun name => if name = "User" then .struct info else .other
    let m : Model := ⟨"user", .named "User", [⟨"Id", "id", 0, 8, ⟨.integer .i64⟩, 0⟩]⟩
    let e : Entity := ⟨.named "User", 8, [.blank "Id" true 0 8 (.integer .i64)]⟩
    let left : Value := .int ⟨1, by decide, by decide⟩
    let right : Value := .int ⟨2, by decide, by decide⟩
    let row : Row := ⟨["id", "id"], [], [left, right]⟩
    e.Derived ∧ schema.Upholds e ∧ Registry.empty.Gives schema m ∧ m.entity = e.type ∧
      (m.column? "id").map (·.place) = some 0 ∧ row.get? "id" = some left ∧
      ∀ a : Access, (a.writeRow m e row).2 = .ok () ∧ (a.writeRow m e row).1.read? 0 = some right ∧
        right ≠ left := by
  intro info schema m e left right row
  have he : e.Derived := ⟨by decide, by decide, by decide⟩
  have hs : schema.Upholds e := Schema.upholds_single "User" ⟨rfl, rfl⟩
  have hgives : Registry.empty.Gives schema m := .inr ⟨.named "User", [], by decide +kernel⟩
  refine ⟨he, hs, hgives, rfl, by decide, by decide, fun a => ?_⟩
  cases a <;> exact ⟨by decide, by decide, by decide⟩

end Access

end EntitySql
