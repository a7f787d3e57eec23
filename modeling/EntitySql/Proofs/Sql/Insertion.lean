import EntitySql.Proofs.Sql.Composition

namespace EntitySql

namespace Emission

variable {α : Type} {e e' : Emission Unit} {ps qs : List Piece}

/-- A walk that does not fail and leaves given pieces. -/
structure Writes (e : Emission Unit) (ps : List Piece) : Prop where
  pieces : e.pieces = ps
  outcome : e.outcome = .ok ()

namespace Writes

theorem piece (p : Piece) : Writes (write p) [p] := ⟨rfl, rfl⟩

theorem done : Writes (pure ()) [] := ⟨rfl, rfl⟩

theorem next (he : Writes e ps) (hn : Writes e' qs) : Writes (e >>= fun _ => e') (ps ++ qs) := by
  rw [bind_def, andThen_ok he.outcome, he.pieces, hn.pieces]
  exact ⟨rfl, hn.outcome⟩

theorem afterText (s : String) (hn : Writes e qs) :
    Writes (text s >>= fun _ => e) (.text s :: qs) := (piece (.text s)).next hn

theorem afterName (s : String) (hn : Writes e qs) :
    Writes (name s >>= fun _ => e) (.name s :: qs) := (piece (.name s)).next hn

/-- A step that writes nothing and gives the next one what it needs. -/
theorem after {first : Emission α} {f : α → Emission Unit} {a : α} (hp : first.pieces = [])
    (ho : first.outcome = .ok a) (hn : Writes (f a) qs) : Writes (first >>= f) qs := by
  rw [bind_def, andThen_ok ho, hp]
  exact ⟨hn.pieces, hn.outcome⟩

theorem bracketed (he : Writes e ps) : Writes e.bracketed (.text "(" :: (ps ++ [.text ")"])) :=
  afterText "(" (he.next (piece (.text ")")))

private theorem separated {each : α → Emission Unit} {out : α → List Piece} :
    ∀ {items : List α}, (∀ a ∈ items, Writes (each a) (out a)) →
      Writes (Emission.separated each items) (List.intercalate [.text ", "] (items.map out))
  | [], _ => done
  | [a], h => by
    have ha := h a (List.mem_singleton_self a)
    rw [Emission.separated, List.map_singleton, List.intercalate_singleton]
    exact ha
  | a :: second :: rest, h => by
    have ha := h a List.mem_cons_self
    have hrest := separated fun b (hb : b ∈ second :: rest) => h b (List.mem_cons_of_mem a hb)
    rw [Emission.separated, List.map_cons, List.map_cons, List.intercalate_cons_cons, ← List.map_cons,
      List.append_assoc]
    exact ha.next (afterText ", " hrest)

end Writes

end Emission

private theorem argsOf_intercalate {α : Type} (out : α → List Piece) : ∀ items : List α,
    argsOf (List.intercalate [.text ", "] (items.map out)) = items.flatMap fun a => argsOf (out a)
  | [] => rfl
  | [a] => by simp [List.intercalate_singleton]
  | a :: second :: rest => by
    have hrest := argsOf_intercalate out (second :: rest)
    rw [List.map_cons, List.map_cons, List.intercalate_cons_cons, ← List.map_cons, argsOf_append,
      argsOf_append, hrest]
    simp [argsOf, Piece.args]

/-- Names with commas between them are spelled one by one. -/
theorem Spelling.text_names {α : Type} (s : Spelling) (name : α → String) : ∀ items : List α,
    s.text 0 (List.intercalate [.text ", "] (items.map fun a => [.name (name a)])) =
      ", ".intercalate (items.map fun a => s.name (name a))
  | [] => rfl
  | [a] => by
    rw [List.map_singleton, List.map_singleton, List.intercalate_singleton]
    exact String.append_empty
  | a :: second :: rest => by
    have hrest := Spelling.text_names s name (second :: rest)
    rw [List.map_cons, List.map_cons] at hrest ⊢
    rw [List.map_cons, List.map_cons, List.intercalate_cons_cons, String.intercalate_cons_cons, ← hrest]
    simp [Spelling.text, String.append_assoc]

namespace Compiler

open Emission

variable {c : Compiler} {m : Model} {fields : List Field} {value : Entity → Field → Value}

def columnPieces (fields : List Field) : List Piece :=
  List.intercalate [.text ", "] (fields.map fun f => [.name f.column])

def rowPieces (fields : List Field) (value : Field → Value) : List Piece :=
  .text "(" :: (List.intercalate [.text ", "] (fields.map fun f => [.bound (value f)]) ++ [.text ")"])

def valuePieces (fields : List Field) (value : Entity → Field → Value) (rows : List Entity) : List Piece :=
  List.intercalate [.text ", "] (rows.map fun e => rowPieces fields (value e))

private theorem argsOf_columnPieces (fields : List Field) : argsOf (columnPieces fields) = [] := by
  rw [columnPieces, argsOf_intercalate]
  exact List.flatMap_eq_nil_iff.mpr fun f _ => rfl

private theorem argsOf_rowPieces (fields : List Field) (value : Field → Value) :
    argsOf (rowPieces fields value) = fields.map value := by
  have hopen : argsOf (rowPieces fields value) =
      argsOf (List.intercalate [.text ", "] (fields.map fun f => [.bound (value f)])) := by
    simp [rowPieces, argsOf, Piece.args]
  rw [hopen, argsOf_intercalate]
  exact List.map_eq_flatMap.symm

private theorem argsOf_valuePieces (fields : List Field) (value : Entity → Field → Value) (rows : List Entity) :
    argsOf (valuePieces fields value rows) = rows.flatMap fun e => fields.map (value e) := by
  rw [valuePieces, argsOf_intercalate]
  simp only [argsOf_rowPieces]

private theorem writes_row {e : Entity} (hv : ∀ f ∈ fields, c.access.read m e f.name = .ok (value e f)) :
    Writes (c.emitRow m fields e) (rowPieces fields (value e)) := by
  have hfield (f : Field) (hf : f ∈ fields) :
      Writes (c.bindField m e f.name) [.bound (value e f)] := by
    have hread := hv f hf
    exact .after rfl hread (.piece _)
  exact (Writes.separated hfield).bracketed

private theorem writes_insertion {i : Insertion} (hrows : i.rows ≠ []) (hu : i.onConflict = none)
    (hm : c.lookup i.entity = .ok m) (hf : insertedFields m i.fields = .ok fields)
    (hv : ∀ e ∈ i.rows, ∀ f ∈ fields, c.access.read m e f.name = .ok (value e f)) :
    Writes (c.emitInsertion i)
      (.text "INSERT INTO " :: .name m.table :: .text " (" ::
        (columnPieces fields ++ .text ") VALUES " :: valuePieces fields value i.rows)) := by
  have hempty : i.rows.isEmpty = false := by simpa using hrows
  have hcolumns : Writes (separated (fun f : Field => name f.column) fields) (columnPieces fields) :=
    .separated fun f _ => .piece (.name f.column)
  have hvalues : Writes (separated (c.emitRow m fields) i.rows) (valuePieces fields value i.rows) :=
    .separated fun e he => writes_row (hv e he)
  have hlast := hvalues.next .done
  rw [List.append_nil] at hlast
  rw [emitInsertion, hempty, hu]
  exact .after rfl hm (.after rfl hf
    (.afterText _ (.afterName _ (.afterText _ (hcolumns.next (.afterText _ hlast))))))

/-- An insertion whose fields all can be read is built. Its column list names the fields in order, and its
arguments are the values of these fields, row by row. -/
theorem build_insertion {i : Insertion} (hrows : i.rows ≠ []) (hu : i.onConflict = none)
    (hm : c.lookup i.entity = .ok m) (hf : insertedFields m i.fields = .ok fields)
    (hv : ∀ e ∈ i.rows, ∀ f ∈ fields, c.access.read m e f.name = .ok (value e f)) :
    ∃ values, c.build (.insert i) = .ok
      ⟨"INSERT INTO " ++ c.dialect.spelling.name m.table ++ " (" ++
          ", ".intercalate (fields.map fun f => c.dialect.spelling.name f.column) ++ ") VALUES " ++ values,
        i.rows.flatMap fun e => fields.map (value e)⟩ := by
  have hwrites := writes_insertion hrows hu hm hf hv
  have hcolumns : c.dialect.spelling.text 0 (columnPieces fields) =
      ", ".intercalate (fields.map fun f => c.dialect.spelling.name f.column) :=
    c.dialect.spelling.text_names Field.column fields
  have hargs : argsOf (columnPieces fields ++ .text ") VALUES " :: valuePieces fields value i.rows) =
      i.rows.flatMap fun e => fields.map (value e) := by
    rw [argsOf_append, argsOf_columnPieces]
    exact argsOf_valuePieces fields value i.rows
  have hkind : (Command.insert i).kind ≠ .raw := nofun
  have hbuild : c.build (.insert i) = .ok (c.dialect.spelling.statement (c.emitInsertion i).pieces) :=
    build_of_outcome hkind hwrites.outcome
  refine ⟨c.dialect.spelling.text 0 (valuePieces fields value i.rows) ++ ";", ?_⟩
  rw [hbuild, hwrites.pieces, Spelling.statement, ← hargs]
  simp only [Spelling.text, Spelling.text_append, hcolumns, argsOf_columnPieces, List.length_nil,
    String.append_assoc]
  rfl

end Compiler

end EntitySql
