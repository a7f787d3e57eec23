import EntitySql.Proofs.Sql.Frame
import EntitySql.Proofs.Sql.Placeholder

namespace EntitySql

/-- A part of a statement that dialects spell each in their way. -/
inductive Lexeme where
  | text (s : String)
  | segment (cs : List Char)
  /-- The placeholder of the argument with a number, counted from one. -/
  | placeholder (n : Nat)
  deriving DecidableEq, Repr

namespace Lexeme

/-- The lexeme when `k` more arguments stand before it. -/
def renumbered (k : Nat) : Lexeme → Lexeme
  | text s => .text s
  | segment cs => .segment cs
  | placeholder n => .placeholder (n + k)

def number? : Lexeme → Option Nat
  | placeholder n => some n
  | _ => none

def ofName (n : String) : List Lexeme :=
  ((Text.split '.' n.toList).map segment).intersperse (.text ".")

/-- The lexemes of pieces that follow `bound` arguments. A fragment is one text. -/
def ofPieces (bound : Nat) : List Piece → List Lexeme
  | [] => []
  | .text t :: rest => .text t :: ofPieces bound rest
  | .name n :: rest => ofName n ++ ofPieces bound rest
  | .bound _ :: rest => .placeholder (bound + 1) :: ofPieces (bound + 1) rest
  | .raw sql args :: rest => .text sql :: ofPieces (bound + args.length) rest

end Lexeme

namespace Spelling

variable (s : Spelling)

def lexeme : Lexeme → String
  | .text t => t
  | .segment cs => String.ofList (s.segment cs)
  | .placeholder n => s.placeholder n

def spell : List Lexeme → String
  | [] => ""
  | x :: rest => s.lexeme x ++ spell rest

variable {s}

private theorem spell_append (xs ys : List Lexeme) : s.spell (xs ++ ys) = s.spell xs ++ s.spell ys := by
  induction xs with
  | nil => simp [spell]
  | cons x rest ih => rw [List.cons_append, spell, spell, ih, String.append_assoc]

private theorem spell_segments : ∀ parts : List (List Char),
    s.spell ((parts.map Lexeme.segment).intersperse (.text ".")) =
      String.ofList (Text.join ['.'] (parts.map s.segment))
  | [] => rfl
  | [part] => by simp [spell, lexeme, Text.join]
  | part :: next :: rest => by
    have ih := spell_segments (next :: rest)
    have hpoint : "." = String.ofList ['.'] := rfl
    have hjoin : Text.join ['.'] ((part :: next :: rest).map s.segment) =
        s.segment part ++ ['.'] ++ Text.join ['.'] ((next :: rest).map s.segment) := rfl
    rw [List.map_cons, List.map_cons, List.intersperse_cons_cons, ← List.map_cons, spell, spell, ih,
      lexeme, lexeme, hpoint, hjoin, String.ofList_append, String.ofList_append, String.append_assoc]

private theorem spell_ofName (n : String) : s.spell (Lexeme.ofName n) = s.name n := spell_segments _

/-- A dialect spells pieces by spelling their lexemes. -/
theorem spell_ofPieces (k : Nat) (ps : List Piece) : s.spell (Lexeme.ofPieces k ps) = s.text k ps := by
  induction ps generalizing k with
  | nil => rfl
  | cons p rest ih =>
    cases p with
    | text t => rw [Lexeme.ofPieces, spell, ih, text, lexeme]
    | name n => rw [Lexeme.ofPieces, spell_append, spell_ofName, ih, text]
    | bound v => rw [Lexeme.ofPieces, spell, ih, text, lexeme]
    | raw sql args => rw [Lexeme.ofPieces, spell, ih, text, lexeme]

/-- Where all placeholders look alike, their numbers do not show. -/
theorem spell_renumbered (hs : ∀ i j, s.placeholder i = s.placeholder j) (k : Nat) (xs : List Lexeme) :
    s.spell (xs.map (Lexeme.renumbered k)) = s.spell xs := by
  induction xs with
  | nil => rfl
  | cons x rest ih =>
    have hx : s.lexeme (x.renumbered k) = s.lexeme x := by
      cases x with
      | placeholder n => exact hs (n + k) n
      | _ => rfl
    rw [List.map_cons, spell, spell, ih, hx]

end Spelling

namespace Lexeme

private theorem mem_ofName {n : String} {x : Lexeme} (hx : x ∈ ofName n) :
    x = .text "." ∨ ∃ cs, x = .segment cs := by
  unfold ofName at hx
  generalize Text.split '.' n.toList = parts at hx
  induction parts with
  | nil => cases hx
  | cons part parts ih =>
    cases parts with
    | nil => exact .inr ⟨part, List.mem_singleton.mp hx⟩
    | cons next parts =>
      rcases List.mem_cons.mp hx with h | hx
      · exact .inr ⟨part, h⟩
      rcases List.mem_cons.mp hx with h | hx
      · exact .inl h
      · exact ih hx

private theorem renumbered_ofName (k : Nat) (n : String) : (ofName n).map (renumbered k) = ofName n := by
  refine (List.map_congr_left fun x hx => ?_).trans (List.map_id _)
  rcases mem_ofName hx with rfl | ⟨cs, rfl⟩ <;> rfl

private theorem number?_ofName (n : String) : (ofName n).filterMap number? = [] := by
  refine List.filterMap_eq_nil_iff.mpr fun x hx => ?_
  rcases mem_ofName hx with rfl | ⟨cs, rfl⟩ <;> rfl

theorem ofPieces_add (k j : Nat) (ps : List Piece) :
    ofPieces (j + k) ps = (ofPieces j ps).map (renumbered k) := by
  induction ps generalizing j with
  | nil => rfl
  | cons p rest ih =>
    cases p with
    | text t => simp [ofPieces, renumbered, ih]
    | name n => simp [ofPieces, renumbered_ofName, ih]
    | bound v =>
      have hnext : j + k + 1 = j + 1 + k := by omega
      simp [ofPieces, renumbered, hnext, ih]
    | raw sql args =>
      have hnext : j + k + args.length = j + args.length + k := by omega
      simp [ofPieces, renumbered, hnext, ih]

/-- Placeholders with rising numbers above `low` and up to `high`. -/
structure Rising (low high : Nat) (xs : List Lexeme) : Prop where
  order : (xs.filterMap number?).Pairwise (· < ·)
  bounds : ∀ n ∈ xs.filterMap number?, low < n ∧ n ≤ high

private theorem rising_ofPieces (k : Nat) (ps : List Piece) :
    Rising k (k + (argsOf ps).length) (ofPieces k ps) := by
  induction ps generalizing k with
  | nil => exact ⟨.nil, nofun⟩
  | cons p rest ih =>
    have hargs : (argsOf (p :: rest)).length = p.args.length + (argsOf rest).length := by simp [argsOf]
    rw [hargs, ← Nat.add_assoc]
    obtain ⟨horder, hbounds⟩ := ih (k + p.args.length)
    cases p with
    | text t => exact ⟨horder, hbounds⟩
    | name n =>
      have hname : (ofPieces k (.name n :: rest)).filterMap number? = (ofPieces k rest).filterMap number? := by
        rw [ofPieces, List.filterMap_append, number?_ofName, List.nil_append]
      exact ⟨hname ▸ horder, hname ▸ hbounds⟩
    | bound v =>
      refine ⟨List.pairwise_cons.mpr ⟨fun n hn => (hbounds n hn).1, horder⟩, fun n hn => ?_⟩
      rcases List.mem_cons.mp hn with rfl | hn
      · exact ⟨Nat.lt_succ_self k, Nat.le_add_right _ _⟩
      · exact ⟨Nat.lt_of_succ_lt (hbounds n hn).1, (hbounds n hn).2⟩
    | raw sql args =>
      refine ⟨horder, fun n hn => ?_⟩
      exact ⟨Nat.lt_of_le_of_lt (Nat.le_add_right k args.length) (hbounds n hn).1, (hbounds n hn).2⟩

/-- A text among the lexemes is wording of the walk or a fragment of the caller. -/
theorem wording_of_mem {ps : List Piece} (hps : Laid ps) {t : String} (k : Nat)
    (ht : .text t ∈ ofPieces k ps) : Wording t ∨ ∃ args, .raw t args ∈ ps := by
  induction ps generalizing k with
  | nil => cases ht
  | cons p rest ih =>
    have hrest : Laid rest := ⟨fun u hu => hps.wording u (by simp [hu]), hps.apart.of_cons⟩
    have hlater (j : Nat) (h : .text t ∈ ofPieces j rest) : Wording t ∨ ∃ args, .raw t args ∈ p :: rest :=
      (ih hrest j h).imp_right fun ⟨args, hargs⟩ => ⟨args, List.mem_cons_of_mem p hargs⟩
    cases p with
    | text u =>
      rcases List.mem_cons.mp ht with h | h
      · cases h
        exact .inl (hps.wording t (by simp))
      · exact hlater _ h
    | name n =>
      rcases List.mem_append.mp ht with h | h
      · rcases mem_ofName h with h | ⟨cs, h⟩
        · cases h
          exact .inl (by decide)
        · cases h
      · exact hlater _ h
    | bound v =>
      rcases List.mem_cons.mp ht with h | h
      · cases h
      · exact hlater _ h
    | raw sql args =>
      rcases List.mem_cons.mp ht with h | h
      · cases h
        exact .inr ⟨args, by simp⟩
      · exact hlater _ h

end Lexeme

namespace Compiler

variable (c : Compiler) {cmd : Command}

def under (d : Dialect) : Compiler := { c with dialect := d }

/-- Only an upsert is walked over in the way of a dialect. -/
theorem emit_under (hu : cmd.onConflict? = none) (d : Dialect) : (c.under d).emit cmd = c.emit cmd := by
  cases cmd with
  | insert i =>
    obtain ⟨entity, rows, fields, oc⟩ := i
    cases oc with
    | none => rfl
    | some oc => cases hu
  | _ => rfl

/-- The dialects agree on a command without an upsert: each refuses it for the same reason, or each
spells the same lexemes in its own way and binds the same arguments. -/
theorem build_under (hk : cmd.kind ≠ .raw) (hu : cmd.onConflict? = none) :
    (∃ err, ∀ d, (c.under d).build cmd = .error err) ∨
      ∃ xs args, (∀ d : Dialect, (c.under d).build cmd = .ok ⟨d.spelling.spell xs, args⟩) ∧
        Lexeme.Rising 0 args.length xs ∧
        (∀ t, Lexeme.text t ∈ xs → t = ";" ∨ Wording t ∨ ∃ vs, Piece.raw t vs ∈ (c.emit cmd).pieces) ∧
        Dialect.given.map Dialect.spelling =
          [⟨'"', fun _ => "?"⟩, ⟨'\x60', fun _ => "?"⟩, ⟨'"', fun n => "$" ++ toString n⟩] := by
  cases ho : (c.emit cmd).outcome with
  | error err =>
    refine .inl ⟨err, fun d => build_eq_error_iff.mpr ?_⟩
    rw [emit_under c hu d, ho]
  | ok u =>
    refine .inr ⟨Lexeme.ofPieces 0 (c.emit cmd).pieces ++ [Lexeme.text ";"], argsOf (c.emit cmd).pieces,
      fun d => ?_, ?_, fun t ht => ?_, rfl⟩
    · have hbuild := build_of_outcome (c := c.under d) hk (emit_under c hu d ▸ ho)
      rw [hbuild, emit_under c hu d, Spelling.statement, Spelling.spell_append, Spelling.spell_ofPieces]
      rfl
    · have hrising := Lexeme.rising_ofPieces 0 (c.emit cmd).pieces
      rw [Nat.zero_add] at hrising
      have hend : (Lexeme.ofPieces 0 (c.emit cmd).pieces ++ [Lexeme.text ";"]).filterMap Lexeme.number? =
          (Lexeme.ofPieces 0 (c.emit cmd).pieces).filterMap Lexeme.number? := by
        rw [List.filterMap_append]
        exact List.append_nil _
      exact ⟨hend ▸ hrising.order, hend ▸ hrising.bounds⟩
    · have hlaid : Laid (c.emit cmd).pieces :=
        composed_emit (Emission.composed_laid c.lookup) (fun _ _ => trivial) cmd
          (fun h => absurd h (by simp [hu])) fun _ _ _ _ => trivial
      rcases List.mem_append.mp ht with ht | ht
      · exact .inr (Lexeme.wording_of_mem hlaid 0 ht)
      · cases List.mem_singleton.mp ht
        exact .inl rfl

/-- A name of two segments and two placeholders in three dialects. -/
theorem build_under_select :
    let m : Model := ⟨"app.users", .named "User", [⟨"name", "name", 0, 24, ⟨.text⟩, 0⟩]⟩
    let c : Compiler := ⟨.standard, .byOffset, fun _ => .ok m⟩
    let cmd : Command := .select (((Selection.all (.named "User")).filterBy
      [(Column.named "name").compare .eq (.value .null)]).limit (.zero .u64))
    cmd.kind ≠ .raw ∧ cmd.onConflict? = none ∧
      (∃ xs args, ∀ d : Dialect, (c.under d).build cmd = .ok ⟨d.spelling.spell xs, args⟩) ∧
      (c.under .mysql).build cmd = .ok
        ⟨"SELECT * FROM `app`.`users` WHERE `name` = ? LIMIT ?;", [.null, .uint (.zero .u64)]⟩ ∧
      (c.under .postgres).build cmd = .ok
        ⟨"SELECT * FROM \"app\".\"users\" WHERE \"name\" = $1 LIMIT $2;", [.null, .uint (.zero .u64)]⟩ := by
  intro m c cmd
  have hk : cmd.kind ≠ .raw := by decide
  have hu : cmd.onConflict? = none := rfl
  have hpieces (d : Dialect) : (c.under d).build cmd = .ok (d.spelling.statement
      [.text "SELECT ", .text "*", .text " FROM ", .name "app.users", .text " WHERE ", .name "name",
        .text " = ", .bound .null, .text " LIMIT ", .bound (.uint (.zero .u64))]) := rfl
  refine ⟨hk, hu, ?_, ?_, ?_⟩
  · rcases build_under c hk hu with ⟨err, herr⟩ | ⟨xs, args, hall, -⟩
    · have hrefused := herr .standard
      rw [hpieces] at hrefused
      cases hrefused
    · exact ⟨xs, args, hall⟩
  · rw [hpieces]
    exact congrArg Except.ok (by decide)
  · rw [hpieces]
    exact congrArg Except.ok (by decide)

end Compiler

namespace Emission

/-- The parenthesis behind a walk, unless the walk has failed. -/
def closing : Except Error Unit → List Piece
  | .ok () => [.text ")"]
  | .error _ => []

theorem bracketed_eq (e : Emission Unit) :
    e.bracketed = ⟨.text "(" :: (e.pieces ++ closing e.outcome), e.consulted, e.outcome⟩ := by
  obtain ⟨pieces, consulted, outcome⟩ := e
  cases outcome with
  | error err => simp [bracketed, bind_def, andThen, text, write, closing]
  | ok u => simp [bracketed, bind_def, andThen, text, write, closing]

end Emission

namespace Builder

variable (schema : Schema)

private theorem run_query (registry : Registry) (dialect : Dialect) (q : Query) :
    (writeQuery schema q).run (.empty registry dialect) =
      (Builder.empty registry dialect).put schema (Sql.emitQuery (registry.view schema) q) :=
  writes_query none q (.empty registry dialect) rfl rfl

private theorem run_operand (b : Builder) (q : Query) (aliasName : Option String) :
    (writeOperand schema (.subquery ⟨q, aliasName⟩)).run b =
      b.put schema (Sql.emitQuery (b.registry.view schema) q).bracketed :=
  writes_operand b.scope (.subquery ⟨q, aliasName⟩) b rfl rfl

private theorem put_empty (registry : Registry) (dialect : Dialect) (e : Emission Unit) :
    ((Builder.empty registry dialect).put schema e).2.args = argsOf e.pieces ∧
      ((Builder.empty registry dialect).put schema e).2.sql =
        dialect.spelling.spell (Lexeme.ofPieces 0 e.pieces) := by
  refine ⟨List.nil_append _, ?_⟩
  rw [Spelling.spell_ofPieces]
  exact String.empty_append

/-- Behind other arguments, in parentheses: the lexemes are the same, with those arguments counted. -/
private theorem put_bracketed (b : Builder) {e : Emission Unit} (he : e.outcome = .ok ()) :
    (b.put schema e.bracketed).2.args = b.args ++ argsOf e.pieces ∧
      (b.put schema e.bracketed).2.sql =
        b.sql ++ ("(" ++
          b.dialect.spelling.spell ((Lexeme.ofPieces 0 e.pieces).map (.renumbered b.argCount)) ++ ")") := by
  have hcounted : b.dialect.spelling.spell ((Lexeme.ofPieces 0 e.pieces).map (.renumbered b.argCount)) =
      b.dialect.spelling.text b.argCount e.pieces := by
    rw [← Lexeme.ofPieces_add, Spelling.spell_ofPieces, Nat.zero_add]
  rw [hcounted, Emission.bracketed_eq, he]
  constructor
  · simp [put, argsOf, Piece.args, Emission.closing]
  · simp [put, Emission.closing, Spelling.text, Spelling.text_append, String.append_assoc]

/-- A query inside a statement against the same query in a builder of its own: it fails for the same reason
or not at all, it binds the same arguments, and its text is the text that it has alone, in parentheses and
with the arguments before it counted. Neither the scope nor the dialect has a say in its lexemes. -/
theorem operand_of_alone (b : Builder) (q : Query) (aliasName : Option String) :
    let alone := (writeQuery schema q).run (.empty b.registry b.dialect)
    let inside := (writeOperand schema (.subquery ⟨q, aliasName⟩)).run b
    let xs := Lexeme.ofPieces 0 (Sql.emitQuery (b.registry.view schema) q).pieces
    inside.1 = alone.1 ∧ inside.2.registry = alone.2.registry ∧ inside.2.scope = b.scope ∧
      (∀ scope, (writeOperand schema (.subquery ⟨q, aliasName⟩)).run { b with scope } =
        (inside.1, { inside.2 with scope })) ∧
      (alone.1 = .ok () →
        inside.2.args = b.args ++ alone.2.args ∧
        alone.2.sql = b.dialect.spelling.spell xs ∧
        inside.2.sql =
          b.sql ++ ("(" ++ b.dialect.spelling.spell (xs.map (.renumbered b.argCount)) ++ ")") ∧
        (∀ n, Dialect.postgres.spelling.lexeme (.renumbered b.argCount (.placeholder n)) =
          "$" ++ toString (n + b.argCount)) ∧
        (b.dialect ∈ [Dialect.standard, .mysql] → inside.2.sql = b.sql ++ ("(" ++ alone.2.sql ++ ")"))) := by
  intro alone inside xs
  let e := Sql.emitQuery (b.registry.view schema) q
  have halone : alone = (Builder.empty b.registry b.dialect).put schema e := run_query schema b.registry b.dialect q
  have hinside : inside = b.put schema e.bracketed := run_operand schema b q aliasName
  obtain ⟨hargs, htext⟩ := put_empty schema b.registry b.dialect e
  rw [← halone] at hargs htext
  refine ⟨?_, ?_, ?_, ?_, ?_⟩
  · rw [halone, hinside, Emission.bracketed_eq]
    rfl
  · rw [halone, hinside, Emission.bracketed_eq]
    rfl
  · rw [hinside]
    rfl
  · intro scope
    rw [run_operand, hinside]
    rfl
  · intro hok
    have houtcome : e.outcome = .ok () := by
      rw [halone] at hok
      exact hok
    obtain ⟨hargs', hsql⟩ := put_bracketed schema b houtcome
    rw [← hinside] at hargs' hsql
    refine ⟨?_, htext, hsql, fun _ => rfl, ?_⟩
    · rw [hargs', hargs]
    · intro hd
      have halike : ∀ i j, b.dialect.spelling.placeholder i = b.dialect.spelling.placeholder j := by
        rcases List.mem_pair.mp hd with hd | hd <;> rw [hd] <;> exact fun _ _ => rfl
      rw [hsql, Spelling.spell_renumbered halike, htext]

/-- A query behind one argument: its bound value gets the next number, its fragment stands as it is. -/
theorem operand_of_alone_fragment :
    let m : Model := ⟨"notes", .named "Note", [⟨"score", "score", 0, 8, ⟨.integer .i64⟩, 0⟩]⟩
    let r : Registry := Registry.empty.insert (.named "Note") m
    let schema : Schema := fun _ => .other
    let b : Builder := ⟨.postgres, r, "id = $1 AND id IN ", [.null], some (.table ⟨.named "User", none⟩)⟩
    let q : Query := ((Selection.all (.named "Note")).filterBy
      [.raw ⟨"a < $1", [.bool true]⟩, (Column.named "score").compare .eq (.value .null)]).query
    let alone := (writeQuery schema q).run (.empty r .postgres)
    let inside := (writeOperand schema (.subquery ⟨q, none⟩)).run b
    alone.1 = .ok () ∧ inside.1 = .ok () ∧ inside.2.args = [.null, .bool true, .null] ∧
      alone.2.sql = "SELECT * FROM \"notes\" WHERE (a < $1) AND (\"score\" = $2)" ∧
      inside.2.sql = "id = $1 AND id IN (SELECT * FROM \"notes\" WHERE (a < $1) AND (\"score\" = $3))" := by
  intro m r schema b q alone inside
  have hok : alone.1 = .ok () := rfl
  obtain ⟨houtcome, -, -, -, hinside⟩ := operand_of_alone schema b q none
  obtain ⟨hargs, htext, hsql, -, -⟩ := hinside hok
  have hpieces : (Sql.emitQuery (r.view schema) q).pieces =
      [.text "SELECT ", .text "*", .text " FROM ", .name "notes", .text " WHERE ",
        .text "(", .raw "a < $1" [.bool true], .text ")", .text " AND ", .text "(", .name "score", .text " = ",
        .bound .null, .text ")"] := by decide
  refine ⟨hok, houtcome.trans hok, hargs, ?_, ?_⟩
  · rw [htext, hpieces]
    decide
  · rw [hsql, hpieces]
    decide

end Builder

end EntitySql
