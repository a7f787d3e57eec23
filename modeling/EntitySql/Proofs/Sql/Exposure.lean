import EntitySql.Proofs.Sql.Insertion
import EntitySql.Proofs.Sql.Leftmost

namespace EntitySql

open Resolution

/-- A column reference as it is rendered: its qualifier, if it has one, a point and its name. -/
def Resolution.pieces : Resolved → List Piece
  | (some qualifier, column) => [.name qualifier, .text ".", .name column]
  | (none, column) => [.name column]

def aliasPieces : Option String → List Piece
  | some aliasName => [.text " AS ", .name aliasName]
  | none => []

namespace Query

variable (lookup : TypeId → Except Error Model) (q : Query)

def itemPieces (item : Selectable) : List Piece := (Sql.emitSelectable lookup (some q.source) item).pieces

def listPieces : List Piece :=
  if q.columns.isEmpty then [.text "*"]
  else List.intercalate [.text ", "] (q.columns.map (q.itemPieces lookup))

/-- An item of the query is rendered, as given pieces. -/
structure Renders (item : Selectable) (ps : List Piece) : Prop where
  mem : item ∈ q.columns
  writes : (Sql.emitSelectable lookup (some q.source) item).Writes ps

end Query

/-- The columns of the output of a leaf. A table has those of its model. A subquery has the aliases that its
items are rendered with and the columns that are rendered without one; if it has no items, it has those of
the leaves of its source. -/
inductive Offers (lookup : TypeId → Except Error Model) : Leaf → String → Prop where
  | table {t : Table} {m : Model} {f : Field} (hm : lookup t.entity = .ok m) (hf : f ∈ m.fields) :
    Offers lookup (.table t) f.column
  | all {s : SubQuery} {leaf : Leaf} {n : String} (hs : s.query.columns = [])
    (hleaf : leaf ∈ s.query.source.leaves) (h : Offers lookup leaf n) : Offers lookup (.subquery s) n
  | aliased {s : SubQuery} {item : Selectable} {body : List Piece} {n : String}
    (h : s.query.Renders lookup item (body ++ aliasPieces (some n))) : Offers lookup (.subquery s) n
  | column {s : SubQuery} {c : Column} {qualifier : Option String} {n : String} (hc : c.aliasName = none)
    (h : s.query.Renders lookup (.column c) (Resolution.pieces (qualifier, n))) : Offers lookup (.subquery s) n

/-- How a leaf comes to have a column for a field. A table has the one of its model. A subquery without items has
that of the leaf of its source which decides on the field. One with items has the field itself, as the alias of an
item; or else, no alias being the field, what is rendered for a column of that field which no alias renames. -/
inductive Exposes (lookup : TypeId → Except Error Model) (field : String) : Leaf → String → Prop where
  | table {t : Table} {m : Model} {f : Field} (hm : lookup t.entity = .ok m) (hf : m.field? field = some f) :
    Exposes lookup field (.table t) f.column
  | all {s : SubQuery} {leaf : Leaf} {n : String} (hs : s.query.columns = [])
    (hleaf : s.query.source.leaves.find? (·.decides lookup field) = some leaf) (h : Exposes lookup field leaf n) :
    Exposes lookup field (.subquery s) n
  | aliased {s : SubQuery} {item : Selectable} {body : List Piece} (hitem : item.aliasName = some field)
    (h : s.query.Renders lookup item (body ++ aliasPieces (some field))) : Exposes lookup field (.subquery s) field
  | column {s : SubQuery} {c : Column} {qualifier : Option String} {n : String}
    (hnone : ∀ item ∈ s.query.columns, item.aliasName ≠ some field) (hf : c.field = field) (hc : c.aliasName = none)
    (h : s.query.Renders lookup (.column c) (Resolution.pieces (qualifier, n))) : Exposes lookup field (.subquery s) n

private theorem Exposes.offers {lookup : TypeId → Except Error Model} {field : String} {leaf : Leaf} {n : String}
    (h : Exposes lookup field leaf n) : Offers lookup leaf n := by
  induction h with
  | table hm hf => exact .table hm (Model.mem_of_field? hf)
  | all hs hleaf _ ih => exact .all hs (List.mem_of_find?_eq_some hleaf) ih
  | aliased _ h => exact .aliased h
  | column _ _ hc h => exact .column hc h

namespace Emission

variable {α β : Type} {e : Emission Unit}

/-- A walk in two parts that succeeds: both do, and their pieces follow one another. -/
theorem parts_of_ok {first : Emission α} {next : α → Emission β} {b : β}
    (h : (first >>= next).outcome = .ok b) :
    ∃ a, first.outcome = .ok a ∧ (next a).outcome = .ok b ∧
      (first >>= next).pieces = first.pieces ++ (next a).pieces := by
  cases ho : first.outcome with
  | error err =>
    rw [bind_def, andThen_error ho] at h
    cases h
  | ok a =>
    rw [bind_def, andThen_ok ho] at h ⊢
    exact ⟨a, rfl, h, rfl⟩

private theorem Writes.of_ok (h : e.outcome = .ok ()) : e.Writes e.pieces := ⟨rfl, h⟩

end Emission

namespace Sql

open Emission

variable {lookup : TypeId → Except Error Model} {scope : Option TableRef}

private theorem writes_resolved : ∀ resolved, (writeResolved resolved).Writes (Resolution.pieces resolved)
  | (some qualifier, column) => .afterName qualifier (.afterText "." (.piece (.name column)))
  | (none, column) => .piece (.name column)

private theorem writes_alias : ∀ aliasName, (writeAlias aliasName).Writes (aliasPieces aliasName)
  | some aliasName => .afterText " AS " (.piece (.name aliasName))
  | none => .done

private theorem writes_column {c : Column} {resolved : Resolved}
    (h : (ofColumn lookup scope c).outcome = .ok resolved) :
    (emitColumn lookup scope c).Writes (Resolution.pieces resolved) :=
  .after (quiet_ofColumn scope c).pieces h (writes_resolved resolved)

/-- An item with an alias is rendered with it at its end. -/
theorem writes_aliasedItem {item : Selectable} {aliasName : String} (hitem : item.aliasName = some aliasName)
    (h : (emitSelectable lookup scope item).outcome = .ok ()) :
    ∃ body, (emitSelectable lookup scope item).Writes (body ++ aliasPieces (some aliasName)) := by
  have hjoined {e : Emission Unit} (he : (e >>= fun _ => writeAlias (some aliasName)).outcome = .ok ()) :
      ∃ body, (e >>= fun _ => writeAlias (some aliasName)).Writes (body ++ aliasPieces (some aliasName)) := by
    obtain ⟨⟨⟩, hfirst, -, -⟩ := parts_of_ok he
    exact ⟨e.pieces, (Writes.of_ok hfirst).next (writes_alias _)⟩
  cases item with
  | column c =>
    simp only [Selectable.aliasName] at hitem
    rw [emitSelectable, hitem] at h ⊢
    exact hjoined h
  | aggregate a =>
    simp only [Selectable.aliasName] at hitem
    rw [emitSelectable, hitem] at h ⊢
    exact hjoined h
  | raw r => cases hitem
  | subquery s =>
    obtain ⟨query, _⟩ := s
    cases hitem
    rw [emitSelectable] at h ⊢
    exact hjoined h

/-- A column item without an alias is rendered as a reference to the column. -/
theorem writes_plainItem {c : Column} (hc : c.aliasName = none) {resolved : Resolved}
    (h : (ofColumn lookup scope c).outcome = .ok resolved) :
    (emitSelectable lookup scope (.column c)).Writes (Resolution.pieces resolved) := by
  have hwrites := (writes_column h).next (writes_alias none)
  rw [emitSelectable, hc]
  rwa [aliasPieces, List.append_nil] at hwrites

private theorem writes_selectList : ∀ {items : List Selectable}, items ≠ [] →
    (emitSelectList lookup scope items).outcome = .ok () →
      (∀ item ∈ items, (emitSelectable lookup scope item).outcome = .ok ()) ∧
        (emitSelectList lookup scope items).Writes
          (List.intercalate [.text ", "] (items.map fun item => (emitSelectable lookup scope item).pieces))
  | [], hne, _ => absurd rfl hne
  | [item], _, h => by
    rw [emitSelectList] at h ⊢
    rw [List.map_singleton, List.intercalate_singleton]
    exact ⟨fun i hi => List.mem_singleton.mp hi ▸ h, .of_ok h⟩
  | item :: next :: rest, _, h => by
    rw [emitSelectList] at h ⊢
    obtain ⟨⟨⟩, hitem, hmore, -⟩ := parts_of_ok h
    obtain ⟨⟨⟩, -, hmore, -⟩ := parts_of_ok hmore
    obtain ⟨hrest, hwrites⟩ := writes_selectList (List.cons_ne_nil next rest) hmore
    refine ⟨fun i hi => ?_, ?_⟩
    · rcases List.mem_cons.mp hi with rfl | hi
      · exact hitem
      · exact hrest i hi
    · rw [List.map_cons] at hwrites
      rw [List.map_cons, List.map_cons, List.intercalate_cons_cons, List.append_assoc]
      exact (Writes.of_ok hitem).next (.afterText ", " hwrites)

/-- A query that is rendered: its items are, and so is its source behind them. -/
theorem rendered_query {q : Query} (h : (emitQuery lookup q).outcome = .ok ()) :
    (∀ item ∈ q.columns, (emitSelectable lookup (some q.source) item).outcome = .ok ()) ∧
      (emitSource lookup (some q.source) q.source).outcome = .ok () ∧
      ∃ rest, (emitQuery lookup q).pieces =
        .text (if q.distinct then "SELECT DISTINCT " else "SELECT ") :: (q.listPieces lookup ++
          .text " FROM " :: ((emitSource lookup (some q.source) q.source).pieces ++ rest)) := by
  obtain ⟨source, columns, distinct, conditions, groupBy, having, orderBy, limit, offset⟩ := q
  rw [emitQuery] at h ⊢
  split at h
  · cases h
  rename_i hgroups
  rw [if_neg hgroups]
  obtain ⟨⟨⟩, -, h, hselect⟩ := parts_of_ok h
  obtain ⟨⟨⟩, hlist, h, hcolumns⟩ := parts_of_ok h
  obtain ⟨⟨⟩, -, h, hfrom⟩ := parts_of_ok h
  obtain ⟨⟨⟩, hsource, h, hrest⟩ := parts_of_ok h
  have hlisted : (∀ item ∈ columns, (emitSelectable lookup (some source) item).outcome = .ok ()) ∧
      (emitSelectList lookup (some source) columns).pieces =
        Query.listPieces lookup ⟨source, columns, distinct, conditions, groupBy, having, orderBy, limit, offset⟩ := by
    cases columns with
    | nil => exact ⟨fun _ hmem => absurd hmem List.not_mem_nil, rfl⟩
    | cons item rest =>
      obtain ⟨hitems, hwrites⟩ := writes_selectList (List.cons_ne_nil item rest) hlist
      exact ⟨hitems, hwrites.pieces⟩
  rw [hcolumns, hfrom, hrest, hlisted.2] at hselect
  exact ⟨hlisted.1, hsource, _, hselect⟩

private theorem rendered_sides {kind : JoinKind} {left right : TableRef} {condition : JoinCondition}
    (h : (emitSource lookup scope (.join kind left right condition)).outcome = .ok ()) :
    (emitSource lookup scope left).outcome = .ok () ∧ (emitSource lookup scope right).outcome = .ok () := by
  have hparts {next : Unit → Emission Unit}
      (h : (emitSource lookup scope left >>= fun _ => text (" " ++ kind.sql ++ " ") >>= fun _ =>
        emitSource lookup scope right >>= next).outcome = .ok ()) :
      (emitSource lookup scope left).outcome = .ok () ∧ (emitSource lookup scope right).outcome = .ok () := by
    obtain ⟨⟨⟩, hleft, h, -⟩ := parts_of_ok h
    obtain ⟨⟨⟩, -, h, -⟩ := parts_of_ok h
    obtain ⟨⟨⟩, hright, -, -⟩ := parts_of_ok h
    exact ⟨hleft, hright⟩
  match condition, h with
  | .on conditions, h =>
    rw [emitSource] at h
    exact hparts h
  | .using fields, h =>
    rw [emitSource] at h
    exact hparts h

/-- A subquery as a source is its query between parentheses, and its alias. -/
theorem writes_subquerySource {s : SubQuery} (h : (emitQuery lookup s.query).outcome = .ok ()) :
    (emitSource lookup scope (.subquery s)).Writes
      (.text "(" :: ((emitQuery lookup s.query).pieces ++ [.text ")"]) ++ aliasPieces s.aliasName) := by
  obtain ⟨query, aliasName⟩ := s
  rw [emitSource]
  exact (Writes.of_ok h).bracketed.next (writes_alias aliasName)

private theorem query_of_rendered {s : SubQuery} (h : (emitSource lookup scope (.subquery s)).outcome = .ok ()) :
    (emitQuery lookup s.query).outcome = .ok () := by
  obtain ⟨query, aliasName⟩ := s
  rw [emitSource] at h
  obtain ⟨⟨⟩, h, -, -⟩ := parts_of_ok h
  obtain ⟨⟨⟩, -, h, -⟩ := parts_of_ok h
  obtain ⟨⟨⟩, h, -, -⟩ := parts_of_ok h
  exact h

private theorem resolved_of_map {e : Emission Resolved} {n : String} (h : ((·.2) <$> e).outcome = .ok n) :
    ∃ qualifier, e.outcome = .ok (qualifier, n) := by
  rw [map_eq_pure_bind] at h
  obtain ⟨⟨qualifier, column⟩, ho, hn, -⟩ := parts_of_ok h
  cases hn
  exact ⟨qualifier, ho⟩

/-- The column that an item without an alias exposes is the one that the item is resolved to. -/
theorem exposedItem_cases {field n : String} {source : TableRef} : ∀ {columns : List Selectable},
    (exposedItem lookup field (fun _ => (·.2) <$> resolve lookup field source) columns).outcome = .ok n →
      ∃ c, .column c ∈ columns ∧ c.field = field ∧ c.aliasName = none ∧
        ∃ qualifier, (ofColumn lookup (some source) c).outcome = .ok (qualifier, n)
  | [], h => by cases h
  | item :: rest, h => by
    have hlater (h : (exposedItem lookup field (fun _ => (·.2) <$> resolve lookup field source) rest).outcome = .ok n) :
        ∃ c, .column c ∈ item :: rest ∧ c.field = field ∧ c.aliasName = none ∧
          ∃ qualifier, (ofColumn lookup (some source) c).outcome = .ok (qualifier, n) := by
      obtain ⟨c, hmem, hc⟩ := exposedItem_cases h
      exact ⟨c, List.mem_cons_of_mem item hmem, hc⟩
    match item, hlater, h with
    | .column ⟨none, f, none⟩, hlater, h =>
      rw [exposedItem] at h
      split at h
      · rename_i hf
        subst hf
        exact ⟨_, List.mem_cons_self, rfl, rfl, resolved_of_map h⟩
      · exact hlater h
    | .column ⟨some own, f, none⟩, hlater, h =>
      rw [exposedItem] at h
      split at h
      · rename_i hf
        subst hf
        exact ⟨_, List.mem_cons_self, rfl, rfl, resolved_of_map h⟩
      · exact hlater h
    | .column ⟨none, _, some _⟩, hlater, h => exact hlater h
    | .column ⟨some _, _, some _⟩, hlater, h => exact hlater h
    | .aggregate _, hlater, h => exact hlater h
    | .raw _, hlater, h => exact hlater h
    | .subquery _, hlater, h => exact hlater h

/-- How a query comes to expose a name for a field: as a column of its source if it has no items, as the alias
of an item, or, where no alias is the field, as the column of an item that has none. -/
theorem exposed_cases {field n : String} {q : Query} (h : (exposed lookup field q).outcome = .ok n) :
    (q.columns = [] ∧ ∃ qualifier, (resolve lookup field q.source).outcome = .ok (qualifier, n)) ∨
      (n = field ∧ ∃ item ∈ q.columns, item.aliasName = some field) ∨
        ((∀ item ∈ q.columns, item.aliasName ≠ some field) ∧
          ∃ c, .column c ∈ q.columns ∧ c.field = field ∧ c.aliasName = none ∧
            ∃ qualifier, (ofColumn lookup (some q.source) c).outcome = .ok (qualifier, n)) := by
  obtain ⟨source, columns, _, _, _, _, _, _, _⟩ := q
  rw [exposed] at h
  split at h
  · rename_i hempty
    exact .inl ⟨List.isEmpty_iff.mp hempty, resolved_of_map h⟩
  split at h
  · rename_i halias
    obtain ⟨item, hmem, hitem⟩ := List.any_eq_true.mp halias
    cases h
    exact .inr (.inl ⟨rfl, item, hmem, eq_of_beq hitem⟩)
  · rename_i halias
    refine .inr (.inr ⟨fun item hmem hitem => halias ?_, exposedItem_cases h⟩)
    exact List.any_eq_true.mpr ⟨item, hmem, beq_iff_eq.mpr hitem⟩

mutual

/-- What a leaf of a rendered source answers for a field, it has for that field. -/
theorem exposes_leaves (hl : Faithful lookup) {field : String} : ∀ (source : TableRef) (scope : Option TableRef),
    (emitSource lookup scope source).outcome = .ok () → ∀ leaf ∈ source.leaves, ∀ resolved,
      leaf.answer lookup field = .ok resolved → Exposes lookup field leaf resolved.2
  | .table t, _, _, leaf, hleaf, resolved, h => by
    obtain rfl := List.mem_singleton.mp hleaf
    obtain ⟨m, f, hm, hf, rfl⟩ := Leaf.answer_table h
    exact .table hm hf
  | .join _ left right _, scope, hs, leaf, hleaf, resolved, h => by
    obtain ⟨hleft, hright⟩ := rendered_sides hs
    rcases List.mem_append.mp hleaf with hmem | hmem
    · exact exposes_leaves hl left scope hleft leaf hmem resolved h
    · exact exposes_leaves hl right scope hright leaf hmem resolved h
  | .subquery s, scope, hs, leaf, hleaf, resolved, h => by
    obtain rfl := List.mem_singleton.mp hleaf
    obtain ⟨column, hcolumn, rfl⟩ := Leaf.answer_subquery h
    exact exposes_subquery hl s (query_of_rendered hs) hcolumn
termination_by structural x => x

private theorem exposes_subquery (hl : Faithful lookup) {field n : String} : ∀ s : SubQuery,
    (emitQuery lookup s.query).outcome = .ok () → (exposed lookup field s.query).outcome = .ok n →
      Exposes lookup field (.subquery s) n
  | ⟨⟨source, columns, _, _, _, _, _, _, _⟩, aliasName⟩, hq, h => by
    obtain ⟨hitems, hsource, -⟩ := rendered_query hq
    rcases exposed_cases h with
      ⟨hempty, qualifier, hr⟩ | ⟨rfl, item, hmem, hitem⟩ | ⟨hnone, c, hmem, hf, hc, qualifier, hr⟩
    · -- A star stands for the source, and there the leaf that decides on the field has it.
      rw [Leaf.outcome_resolve hl] at hr
      split at hr
      · rename_i leaf hfind
        exact .all hempty hfind (exposes_leaves hl source _ hsource leaf (List.mem_of_find?_eq_some hfind) _ hr)
      · cases hr
    · obtain ⟨body, hbody⟩ := writes_aliasedItem hitem (hitems item hmem)
      exact .aliased hitem ⟨hmem, hbody⟩
    · exact .column hnone hf hc ⟨hmem, writes_plainItem hc hr⟩
termination_by structural x => x

end

/-- A field that is found in a subquery which can be rendered, be it as the source of a column, below FROM or
on the side of a join, is referred to by a name that the subquery shows. The name is a column of its output, and
the one that its select list has for the field: a column that an alias renames is not meant by its own name. The
qualifier of the reference is the alias under which the subquery is rendered. -/
theorem subquery_reference (schema : Schema) (r : Registry) {field n : String} {qualifier : Option String}
    {source : TableRef} {s : SubQuery} (hquery : (emitQuery (r.view schema) s.query).outcome = .ok ())
    (hfirst : source.leaves.find? (·.decides (r.view schema) field) = some (.subquery s))
    (hfound : (resolve (r.view schema) field source).outcome = .ok (qualifier, n)) :
    let lookup := r.view schema
    Offers lookup (.subquery s) n ∧ Exposes lookup field (.subquery s) n ∧
      (∃ rest, ∀ scope, (emitSource lookup scope (.subquery s)).Writes
        (.text "(" :: (.text (if s.query.distinct then "SELECT DISTINCT " else "SELECT ") ::
          (s.query.listPieces lookup ++ .text " FROM " ::
            ((emitSource lookup (some s.query.source) s.query.source).pieces ++ rest)) ++ [.text ")"]) ++
          aliasPieces qualifier)) ∧
      ∀ (c : Column) (scope : Option TableRef), c.field = field →
        (c.source.or scope = some source ∨ c.source = some (.subquery s)) →
        (emitColumn lookup scope c).Writes (Resolution.pieces (qualifier, n)) := by
  intro lookup
  have hl : Faithful lookup := r.faithful_view schema
  have hanswer : (Leaf.subquery s).answer lookup field = .ok (qualifier, n) := by
    rw [Leaf.outcome_resolve hl, hfirst] at hfound
    exact hfound
  have halone : (resolve lookup field (.subquery s)).outcome = .ok (qualifier, n) :=
    (Leaf.answer_eq (.subquery s)).symm.trans hanswer
  obtain ⟨column, hcolumn, hresolved⟩ := Leaf.answer_subquery hanswer
  cases hresolved
  have hexposes : Exposes lookup field (.subquery s) n := exposes_subquery hl s hquery hcolumn
  obtain ⟨-, -, rest, hpieces⟩ := rendered_query hquery
  refine ⟨hexposes.offers, hexposes, ⟨rest, fun scope => ?_⟩, fun c scope hf hsource => writes_column ?_⟩
  · rw [← hpieces]
    exact writes_subquerySource hquery
  · obtain ⟨own, f, aliasName⟩ := c
    cases hf
    rcases hsource with hsource | rfl
    · cases own <;> cases hsource <;> exact hfound
    · exact halone

/-- A join of a table with a subquery, of which the select list renames a column and brings out another as it
is, inside of a subquery for all of it. -/
theorem subquery_reference_nested :
    let note : Model := ⟨"notes", .named "Note", [⟨"id", "id", 0, 8, ⟨.integer .i64⟩, 0⟩]⟩
    let author : Model := ⟨"authors", .named "Author",
      [⟨"id", "id", 0, 8, ⟨.integer .i64⟩, 0⟩, ⟨"name", "full_name", 8, 24, ⟨.text⟩, 0⟩]⟩
    let r : Registry := (Registry.empty.insert (.named "Note") note).insert (.named "Author") author
    let lookup := r.view fun _ => .other
    let notes : TableRef := .table ⟨.named "Note", none⟩
    let authors : TableRef := .table ⟨.named "Author", some "x"⟩
    let items : List Selectable := [.column ⟨none, "id", some "author"⟩, .column (authors.column "name")]
    let chosen : SubQuery := ⟨{ Query.all authors with columns := items }, some "c"⟩
    let whole : SubQuery := ⟨Query.all (.join .inner notes (.subquery chosen) (.on [])), some "w"⟩
    Offers lookup (.subquery whole) "full_name" ∧ Offers lookup (.subquery whole) "author" ∧
      (Sql.emitColumn lookup none ((TableRef.subquery whole).column "name")).Writes
        [.name "w", .text ".", .name "full_name"] ∧
      (Sql.emitColumn lookup (some (.subquery whole)) (.named "author")).Writes
        [.name "w", .text ".", .name "author"] := by
  intro note author r lookup notes authors items chosen whole
  have hquery : (Sql.emitQuery lookup whole.query).outcome = .ok () := rfl
  have hname : (resolve lookup "name" (.subquery whole)).outcome = .ok (some "w", "full_name") := rfl
  have hauthor : (resolve lookup "author" (.subquery whole)).outcome = .ok (some "w", "author") := rfl
  obtain ⟨hoffered, -, -, hreferred⟩ := subquery_reference (fun _ => .other) r hquery rfl hname
  obtain ⟨hoffered', -, -, hreferred'⟩ := subquery_reference (fun _ => .other) r hquery rfl hauthor
  exact ⟨hoffered, hoffered', hreferred _ none rfl (.inr rfl), hreferred' _ (some _) rfl (.inl rfl)⟩

end Sql

end EntitySql
