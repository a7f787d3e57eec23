import EntitySql.Proofs.Entity.RowWriting
import Mathlib.Data.List.Forall2

namespace EntitySql

section Steps

variable {ε α β : Type} {f : α → Except ε β}

/-- A list is mapped if every element is, each to the result in its place. -/
theorem mapM_eq_ok_iff {xs : List α} {ys : List β} :
    xs.mapM f = .ok ys ↔ List.Forall₂ (fun x y => f x = .ok y) xs ys := by
  induction xs generalizing ys with
  | nil =>
    rw [List.mapM_nil, List.forall₂_nil_left_iff]
    exact ⟨fun h => by cases h; rfl, fun h => by rw [h]; rfl⟩
  | cons x rest ih =>
    rw [List.mapM_cons, List.forall₂_cons_left_iff]
    cases hx : f x with
    | error e => exact ⟨nofun, fun ⟨_, _, hy, _⟩ => (nomatch hy)⟩
    | ok y =>
      cases hrest : rest.mapM f with
      | error e =>
        refine ⟨nofun, fun ⟨_, ys, _, hys, _⟩ => ?_⟩
        cases hrest.symm.trans (ih.mpr hys)
      | ok ys' =>
        constructor
        · intro h
          cases h
          exact ⟨y, ys', rfl, ih.mp hrest, rfl⟩
        · rintro ⟨_, ys, hy, hys, rfl⟩
          cases hy
          cases hrest.symm.trans (ih.mpr hys)
          rfl

theorem exists_mapM_eq_ok_iff {xs : List α} : (∃ ys, xs.mapM f = .ok ys) ↔ ∀ x ∈ xs, ∃ y, f x = .ok y := by
  simp only [mapM_eq_ok_iff]
  induction xs with
  | nil => exact ⟨fun _ => List.forall_mem_nil _, fun _ => ⟨[], .nil⟩⟩
  | cons x rest ih =>
    rw [List.forall_mem_cons, ← ih]
    simp only [List.forall₂_cons_left_iff]
    constructor
    · rintro ⟨_, y, ys, hy, hys, rfl⟩
      exact ⟨⟨y, hy⟩, ys, hys⟩
    · rintro ⟨⟨y, hy⟩, ys, hys⟩
      exact ⟨y :: ys, y, ys, hy, hys, rfl⟩

/-- A list fails to be mapped with the error of the first element that fails. -/
theorem mapM_eq_error_iff {xs : List α} {e : ε} :
    xs.mapM f = .error e ↔
      ∃ before x after, xs = before ++ x :: after ∧ (∀ b ∈ before, ∃ y, f b = .ok y) ∧ f x = .error e := by
  induction xs with
  | nil => exact ⟨nofun, fun ⟨_, _, _, h, _⟩ => by simp at h⟩
  | cons first rest ih =>
    rw [List.mapM_cons]
    cases hfirst : f first with
    | error e' =>
      constructor
      · intro h
        cases h
        exact ⟨[], first, rest, rfl, List.forall_mem_nil _, hfirst⟩
      · rintro ⟨before, x, after, hsplit, hbefore, hx⟩
        cases before with
        | nil =>
          cases hsplit
          cases hfirst.symm.trans hx
          rfl
        | cons b before =>
          cases hsplit
          obtain ⟨y, hy⟩ := hbefore first List.mem_cons_self
          cases hfirst.symm.trans hy
    | ok y =>
      have hstep : (do let ys ← rest.mapM f; pure (y :: ys) : Except ε (List β)) = .error e ↔
          rest.mapM f = .error e := by
        cases rest.mapM f with
        | error e' => exact ⟨fun h => by cases h; rfl, fun h => by cases h; rfl⟩
        | ok ys => exact ⟨nofun, nofun⟩
      refine hstep.trans (ih.trans ⟨?_, ?_⟩)
      · rintro ⟨before, x, after, rfl, hbefore, hx⟩
        exact ⟨first :: before, x, after, rfl, List.forall_mem_cons.mpr ⟨⟨y, hfirst⟩, hbefore⟩, hx⟩
      · rintro ⟨before, x, after, hsplit, hbefore, hx⟩
        cases before with
        | nil =>
          cases hsplit
          cases hfirst.symm.trans hx
        | cons b before =>
          cases hsplit
          exact ⟨before, x, after, rfl, (List.forall_mem_cons.mp hbefore).2, hx⟩

end Steps

namespace Row.Entry

variable {entries : List Entry} {column : String}

/-- Entries under other columns may be left out. -/
theorem valueOf?_filter {p : Entry → Bool} (h : ∀ entry ∈ entries, entry.column = column → p entry = true) :
    valueOf? (entries.filter p) column = valueOf? entries column := by
  induction entries with
  | nil => rfl
  | cons entry rest ih =>
    obtain ⟨hentry, hrest⟩ := List.forall_mem_cons.mp h
    by_cases hcolumn : entry.column = column
    · rw [List.filter_cons_of_pos (hentry hcolumn), valueOf?_cons, valueOf?_cons, if_pos hcolumn, if_pos hcolumn]
    · rw [valueOf?_cons, if_neg hcolumn, ← ih hrest]
      cases hp : p entry with
      | true => rw [List.filter_cons_of_pos hp, valueOf?_cons, if_neg hcolumn]
      | false => rw [List.filter_cons_of_neg (by simp [hp])]

def decoded (entries : List Entry) : List Entry := entries.filter (·.reason.isNone)

/-- The entries that a model asks to be read: those that could be decoded, and those with a field. -/
def asked (m : Model) (entries : List Entry) : List Entry :=
  entries.filter fun entry => entry.reason.isNone || (m.column? entry.column).isSome

end Row.Entry

private theorem Entity.Received.congr {m : Model} {value? value?' : String → Option Value} {e e' : Entity}
    (h : e.Received m value? e') (hsame : ∀ f ∈ m.fields, value?' f.column = value? f.column) :
    e.Received m value?' e' where
  type := h.type
  size := h.size
  read hf _ hv := h.read hf ((hsame _ hf).symm.trans hv)
  kept hnone := h.kept fun f hf hplace => (hsame f hf).symm.trans (hnone f hf hplace)

namespace Access

variable (a : Access) (m : Model)

def decodeFirst (blank : Entity) (rows : Rows) : Except Error Entity :=
  match rows.toList with
  | [] => .error .noEligibleRow
  | row :: _ => a.decodeRow m blank row

variable {a m}

private theorem decodeRow_eq_error_iff {blank : Entity} {row : Row} {err : Error} :
    a.decodeRow m blank row = .error err ↔ (a.writeRow m blank row).2 = .error err := by
  rw [decodeRow]
  rcases a.writeRow m blank row with ⟨e, err' | _⟩ <;> simp

private theorem decodeRow_eq_ok_iff {blank e : Entity} {row : Row} :
    a.decodeRow m blank row = .ok e ↔ a.writeRow m blank row = (e, .ok ()) := by
  rw [decodeRow]
  rcases a.writeRow m blank row with ⟨e, err' | _⟩ <;> simp

/-- A row that is there is never taken for one that is missing. -/
theorem decodeRow_ne_noEligibleRow (blank : Entity) (row : Row) :
    a.decodeRow m blank row ≠ .error .noEligibleRow := by
  intro h
  have hfailure : a.Failure .noEligibleRow := failure_writeEntries (decodeRow_eq_error_iff.mp h)
  generalize herr : Error.noEligibleRow = err at hfailure
  cases hfailure with
  | missed f => cases a <;> cases herr
  | _ => cases herr

section Faults

open Row.Entry

variable {blank : Entity} (a : Access) (he : blank.Derived) (hm : m.Fits blank) (ha : Model.Apart m.fields)
  (hentity : m.entity = blank.type)
include he hm ha hentity

theorem exists_decodeRow_iff (row : Row) :
    (∃ e, a.decodeRow m blank row = .ok e) ↔ ∀ entry ∈ row.entries, Readable m blank entry := by
  simp only [decodeRow_eq_ok_iff, writeRow]
  rcases a.writeEntries_cases he hm ha hentity row.entries with
    ⟨e, hall, hrun, -⟩ | ⟨before, entry, after, message, e, hsplit, -, hfault, hrun, -⟩
  · exact ⟨fun _ => hall, fun _ => ⟨e, hrun⟩⟩
  · constructor
    · rintro ⟨_, h⟩
      cases hrun.symm.trans h
    · intro hall
      exact absurd (hall entry (by simp [hsplit])) hfault.not_readable

/-- The error of a row is that of the first column at fault. -/
theorem decodeRow_eq_decode_iff (row : Row) (column message : String) :
    a.decodeRow m blank row = .error (.decode column message) ↔
      ∃ before entry after, row.entries = before ++ entry :: after ∧
        (∀ other ∈ before, Readable m blank other) ∧ Fault m blank entry message ∧ entry.column = column := by
  rw [decodeRow_eq_error_iff, writeRow]
  constructor
  · intro h
    rcases a.writeEntries_cases he hm ha hentity row.entries with
      ⟨e, -, hrun, -⟩ | ⟨before, entry, after, message, e, hsplit, hbefore, hfault, hrun, -⟩
    · rw [hrun] at h
      cases h
    · rw [hrun] at h
      cases h
      exact ⟨before, entry, after, hsplit, hbefore, hfault, rfl⟩
  · rintro ⟨before, entry, after, hsplit, hbefore, hfault, rfl⟩
    obtain ⟨e, hrun, -⟩ := a.writeEntries_fault he hm ha hentity hbefore hfault after
    rw [hsplit, hrun]

end Faults

section Undecoded

open Row.Entry

variable {e : Entity}

/-- A column without a field that could not be decoded does not matter. -/
theorem writeEntries_asked (a : Access) (m : Model) (e : Entity) (entries : List Row.Entry) :
    a.writeEntries m e entries = a.writeEntries m e (asked m entries) := by
  induction entries generalizing e with
  | nil => rfl
  | cons entry rest ih =>
    by_cases hasked : entry.reason.isNone || (m.column? entry.column).isSome
    · have hkept : asked m (entry :: rest) = entry :: asked m rest := List.filter_cons_of_pos hasked
      rw [hkept, writeEntries_cons, writeEntries_cons]
      cases a.writeEntry m e entry with
      | error err => rfl
      | ok e' => exact ih e'
    · have hdropped : asked m (entry :: rest) = asked m rest := List.filter_cons_of_neg hasked
      rw [Bool.not_eq_true, Bool.or_eq_false_iff] at hasked
      obtain ⟨reason, hreason⟩ := Option.isSome_iff_exists.mp (Option.isNone_eq_false_iff.mp hasked.1)
      have hpassed : a.writeEntry m e entry = .ok e := by
        simp only [writeEntry, hreason, hasked.2, Bool.false_eq_true, if_false]
      rw [hdropped, writeEntries_cons, hpassed]
      exact ih e

/-- Readable entries whose column has a field could be decoded. -/
theorem received_decoded (ha : Model.Apart m.fields) {entries : List Row.Entry} {e' : Entity}
    (hall : ∀ entry ∈ entries, Readable m e entry) (h : e.Received m (valueOf? entries.reverse) e') :
    e.Received m (valueOf? (decoded entries).reverse) e' := by
  refine h.congr fun f hf => ?_
  rw [decoded, ← List.filter_reverse]
  refine valueOf?_filter fun entry hmem hcolumn => ?_
  have hfield : m.column? entry.column = some f := hcolumn ▸ Model.column?_of_mem ha hf
  rw [(hall entry (List.mem_reverse.mp hmem) f hfield).1]
  rfl

/-- As far as a row is written, the fields receive values that could be decoded, and nothing else. -/
theorem writeRow_decoded (a : Access) (he : e.Derived) (hm : m.Fits e) (ha : Model.Apart m.fields)
    (hentity : m.entity = e.type) (row : Row) :
    ∃ n, e.Received m (valueOf? (decoded (row.entries.take n)).reverse) (a.writeRow m e row).1 ∧
      ((a.writeRow m e row).2 = .ok () → row.entries.length ≤ n) := by
  unfold writeRow
  rcases a.writeEntries_cases he hm ha hentity row.entries with
    ⟨e', hall, hrun, hreceived⟩ | ⟨before, entry, after, message, e', hsplit, hbefore, -, hrun, hreceived⟩
  · refine ⟨row.entries.length, ?_, fun _ => Nat.le_refl _⟩
    rw [List.take_length, hrun]
    exact received_decoded ha hall hreceived
  · refine ⟨before.length, ?_, fun hok => ?_⟩
    · rw [hrun, hsplit, List.take_left]
      exact received_decoded ha hbefore hreceived
    · rw [hrun] at hok
      cases hok

end Undecoded

/-- What all rows of a result are read as, and what the first one is. -/
structure Readings (a : Access) (m : Model) (blank : Entity) (rows : List Row)
    (all : Except Error (List Entity)) (first : Except Error Entity) : Prop where
  /-- Every row is read by itself, and the entities are in the order of the rows. -/
  read (es : List Entity) : all = .ok es ↔ List.Forall₂ (fun row e => a.decodeRow m blank row = .ok e) rows es
  /-- The error is that of the first row that fails. -/
  failed (err : Error) : all = .error err ↔ ∃ before row after, rows = before ++ row :: after ∧
    (∀ other ∈ before, ∃ e, a.decodeRow m blank other = .ok e) ∧ a.decodeRow m blank row = .error err
  /-- That no row came is said only if none did. -/
  missing : first = .error .noEligibleRow ↔ rows = []
  alone {row : Row} {rest : List Row} : rows = row :: rest → first = a.decodeRow m blank row
  head {e : Entity} {es : List Entity} : all = .ok (e :: es) → first = .ok e

theorem readings (a : Access) (m : Model) (blank : Entity) (rows : Rows) :
    a.Readings m blank rows.toList (a.decodeRows m blank rows) (a.decodeFirst m blank rows) := by
  unfold decodeRows decodeFirst
  refine ⟨fun es => mapM_eq_ok_iff, fun err => mapM_eq_error_iff, ?_, fun h => by rw [h], fun h => ?_⟩
  · cases rows.toList with
    | nil => exact ⟨fun _ => rfl, fun _ => rfl⟩
    | cons row rest => exact ⟨fun h => absurd h (decodeRow_ne_noEligibleRow blank row), nofun⟩
  · obtain ⟨row, rest, hrow, -, hrows⟩ := List.forall₂_cons_right_iff.mp (mapM_eq_ok_iff.mp h)
    rw [hrows]
    exact hrow

end Access

end EntitySql
