import EntitySql.Proofs.Session.Transparency
import EntitySql.Proofs.Sql.Placeholder

namespace EntitySql

namespace Text

variable {part : List Char} {c : Char}

private theorem infix_cons_of_not_mem (hc : c ∉ part) (cs : List Char) : part <:+: c :: cs ↔ part <:+: cs := by
  constructor
  · intro h
    rcases List.infix_cons_iff.mp h with h | h
    · rcases List.prefix_cons_iff.mp h with rfl | ⟨rest, rfl, -⟩
      · exact List.nil_infix
      · exact absurd List.mem_cons_self hc
    · exact h
  · exact fun h => h.trans (List.suffix_cons c cs).isInfix

/-- A text without a separator lies on one side of it. -/
theorem infix_around (hc : c ∉ part) (before after : List Char) :
    part <:+: before ++ c :: after ↔ part <:+: before ∨ part <:+: after := by
  rw [List.infix_append_iff, infix_cons_of_not_mem hc]
  constructor
  · rintro (h | h | ⟨left, right, rfl, hleft, hright⟩)
    · exact .inl h
    · exact .inr h
    · rcases List.prefix_cons_iff.mp hright with rfl | ⟨rest, rfl, -⟩
      · exact .inl (by simpa using hleft.isInfix)
      · exact absurd (List.mem_append_right left List.mem_cons_self) hc
  · rintro (h | h)
    · exact .inl h
    · exact .inr (.inl h)

private theorem infix_concat_of_not_mem (hc : c ∉ part) (cs : List Char) : part <:+: cs ++ [c] ↔ part <:+: cs := by
  rw [infix_around hc, or_iff_left_iff_imp]
  exact fun h => List.infix_nil.mp h ▸ List.nil_infix

/-- A text between two separators of its own. -/
theorem infix_between (hc : c ∉ part) {cs : List Char} (hfirst : ∃ rest, cs = c :: rest)
    (hlast : ∃ init, cs = init ++ [c]) (before after : List Char) :
    part <:+: before ++ cs ++ after ↔ part <:+: before ∨ part <:+: cs ∨ part <:+: after := by
  obtain ⟨rest, hrest⟩ := hfirst
  obtain ⟨init, hinit⟩ := hlast
  have hback : before ++ cs ++ after = (before ++ init) ++ c :: after := by simp [hinit]
  have hfront : (before ++ init) ++ [c] = before ++ c :: rest := by rw [List.append_assoc, ← hinit, hrest]
  rw [hback, infix_around hc, ← infix_concat_of_not_mem hc (before ++ init), hfront, infix_around hc,
    ← infix_cons_of_not_mem hc rest, ← hrest, or_assoc]

private theorem infix_join (hc : c ∉ part) : ∀ {parts : List (List Char)}, parts ≠ [] →
    (part <:+: join [c] parts ↔ ∃ p ∈ parts, part <:+: p)
  | [p], _ => by simp [join]
  | p :: next :: parts, _ => by
    have ih := infix_join hc (List.cons_ne_nil next parts)
    rw [join, List.append_assoc, List.singleton_append, infix_around hc, ih]
    simp

end Text

namespace Spelling

variable {s : Spelling} {part : List Char}

private theorem infix_segment (hq : s.quote ∉ part) (cs : List Char) : part <:+: s.segment cs ↔ part <:+: cs := by
  rw [segment, Text.infix_concat_of_not_mem hq, Text.infix_cons_of_not_mem hq]

/-- A text without quotes and points is in the spelling of a name if it is in the name. -/
theorem infix_name (hq : s.quote ∉ part) (hpoint : '.' ∉ part) (n : String) :
    part <:+: (s.name n).toList ↔ part <:+: n.toList := by
  have hsplit := Text.split_ne_nil '.' n.toList
  have hsegments : (Text.split '.' n.toList).map s.segment ≠ [] := by simpa using hsplit
  have hname := Text.infix_join hpoint hsegments
  have hjoin := Text.infix_join hpoint hsplit
  rw [Text.join_split] at hjoin
  rw [name, String.toList_ofList, hname, hjoin]
  constructor
  · rintro ⟨p, hp, h⟩
    obtain ⟨cs, hcs, rfl⟩ := List.mem_map.mp hp
    exact ⟨cs, hcs, (infix_segment hq cs).mp h⟩
  · rintro ⟨cs, hcs, h⟩
    exact ⟨s.segment cs, List.mem_map_of_mem hcs, (infix_segment hq cs).mpr h⟩

/-- A text that was written is in the statement. -/
theorem infix_statement {t : String} {pieces : List Piece} (h : .text t ∈ pieces) :
    t.toList <:+: (s.statement pieces).sql.toList := by
  obtain ⟨before, after, rfl⟩ := List.append_of_mem h
  simp only [statement, text_append, text, String.toList_append, List.append_assoc]
  exact List.infix_append' _ _ _

end Spelling

private theorem mem_conditions (lookup : TypeId → Except Error Model) (scope : Option TableRef) {ps : List Predicate}
    (h : ps ≠ []) :
    ∃ opening, .text (" WHERE " ++ opening) ∈ (Sql.emitConditions lookup scope "WHERE" ps).pieces := by
  match ps with
  | [p] => exact ⟨"", List.mem_append_left _ (List.mem_singleton_self _)⟩
  | p :: next :: rest =>
    exact ⟨String.ofList (List.replicate rest.length '('), List.mem_append_left _ (List.mem_singleton_self _)⟩

namespace Compiler

variable {c : Compiler} {d : Deletion} {statement : Statement}

/-- Whether a deletion passes for one with a condition. -/
theorem infix_deletion (hd : c.dialect ∈ Dialect.given) (h : c.build (.delete d) = .ok statement) :
    ∃ m, c.lookup d.entity = .ok m ∧
      (Guard.whereClause <:+: statement.sql.toList ↔
        d.conditions ≠ [] ∨ Guard.whereClause <:+: m.table.toList) := by
  have hkind : (Command.delete d).kind ≠ .raw := by simp [Command.kind]
  obtain ⟨hok, rfl⟩ := build_eq_ok hkind h
  have hquote : c.dialect.spelling.quote ∉ Guard.whereClause := by
    rcases Dialect.eq_of_given hd with hd | hd | hd <;> rw [hd] <;> decide
  obtain ⟨m, hm⟩ : ∃ m, c.lookup d.entity = .ok m := by
    cases hm : c.lookup d.entity with
    | error e => simp [emit, emitDeletion, Emission.model, hm, Bind.bind, Emission.andThen] at hok
    | ok m => exact ⟨m, rfl⟩
  have hpieces : (c.emit (.delete d)).pieces = [.text "DELETE FROM ", .name m.table] ++
      (Sql.emitConditions c.lookup (scopeOf d.entity) "WHERE" d.conditions).pieces := by
    simp [emit, emitDeletion, Emission.model, hm, Bind.bind, Emission.andThen, Emission.text, Emission.name,
      Emission.write]
  refine ⟨m, hm, ?_⟩
  rw [hpieces]
  by_cases hconditions : d.conditions = []
  · have htext : (c.dialect.spelling.statement ([.text "DELETE FROM ", .name m.table] ++
        (Sql.emitConditions c.lookup (scopeOf d.entity) "WHERE" d.conditions).pieces)).sql.toList =
        "DELETE FROM ".toList ++ (c.dialect.spelling.name m.table).toList ++ [';'] := by
      rw [hconditions]
      simp [Spelling.statement, Spelling.text, Sql.emitConditions, pure]
    have hverb : ¬ Guard.whereClause <:+: "DELETE FROM ".toList := by
      rw [← Text.occurs_iff]
      decide
    have hend : ¬ Guard.whereClause <:+: [';'] := by
      rw [← Text.occurs_iff]
      decide
    rw [htext, Text.infix_between hquote (Spelling.toList_name m.table) (Spelling.name_ends m.table),
      Spelling.infix_name hquote (by decide)]
    simp only [hconditions, hverb, hend, ne_eq, not_true_eq_false, false_or, or_false]
  · obtain ⟨opening, hopening⟩ := mem_conditions c.lookup (scopeOf d.entity) hconditions
    have hword := c.dialect.spelling.infix_statement (List.mem_append_right [.text "DELETE FROM ", .name m.table] hopening)
    simp only [hconditions, ne_eq, not_false_eq_true, true_or, iff_true]
    refine List.IsInfix.trans ?_ hword
    rw [String.toList_append]
    exact (List.prefix_append _ _).isInfix

end Compiler

variable {σ τ α : Type}

private theorem Guard.refuses_iff (g : Guard α) (ctx : Context) :
    g.refuses ctx = true ↔ g.isSafeDelete = true ∧ ctx.kind = .delete ∧
      ¬ Guard.whereClause <:+: ctx.statement.sql.toList := by
  simp [Guard.refuses, Guard.isUnsafe, ← Text.occurs_iff]

private theorem refusal?_eq_none_iff {gs : List (Guard α)} (hsafe : ∃ g ∈ gs, g.isSafeDelete = true) (ctx : Context)
    (hkind : ctx.kind = .delete) :
    refusal? gs ctx = none ↔ Guard.whereClause <:+: ctx.statement.sql.toList := by
  obtain ⟨safe, hmem, hsafe⟩ := hsafe
  rw [refusal?, List.findIdx?_eq_none_iff]
  constructor
  · intro h
    have hpass := h safe hmem
    by_contra hword
    exact absurd ((safe.refuses_iff ctx).mpr ⟨hsafe, hkind, hword⟩) (by simp [hpass])
  · intro hword g hg
    rw [Bool.eq_false_iff, ne_eq, g.refuses_iff]
    exact fun h => h.2.2 hword

private theorem Driver.send_execute (d : Driver σ τ α) (tx : Option τ) (statement : Statement) (state : σ) :
    let reply := d.execute tx statement state
    (d.send tx .execute statement state).state = reply.state ∧
      (d.send tx .execute statement state).result = reply.result.map (Except.map .exec) := by
  rcases hreply : d.execute tx statement state with ⟨state', events, elapsed, _ | _ | _⟩ <;>
    simp [Driver.send, Bind.bind, Call.bind, hreply, Pure.pure, Call.pure, Except.map]

namespace Database

variable (db : Database σ τ α)

/-- A deletion through a chain that looks for unsafe ones. If its statement is not built, nobody sees it. It
is turned away, and the driver not called, just if it has no conditions and the name of the table does not hold
the word for them; else it is one call on the driver, and the caller gets the report of that. -/
theorem perform_deletion (hd : db.dialect ∈ Dialect.given) {gs : List (Guard α)}
    (hsafe : ∃ g ∈ gs, g.isSafeDelete = true) (d : Deletion) (tx : Option τ) (s : Session (Watched σ τ) α) :
    let run := (db.watched gs).perform tx (.delete d) .exec s
    (db.guarded gs).perform tx (.delete d) .exec s.unwatched = (run.1, run.2.unwatched) ∧
      match (db.compiler s.unwatched).build (.delete d) with
      | .error e => run.1 = some (.error e) ∧ run.2.driver = s.driver
      | .ok statement => ∃ m, (db.compiler s.unwatched).lookup d.entity = .ok m ∧
        (d.conditions = [] ∧ ¬ Guard.whereClause <:+: m.table.toList →
          run.1 = some (.error .unsafeDelete) ∧ ∃ place, run.2.driver =
            ⟨s.driver.state, s.driver.sightings ++ seenFrom 0 place statement⟩) ∧
        (d.conditions ≠ [] ∨ Guard.whereClause <:+: m.table.toList →
          let reply := db.driver.execute tx statement s.driver.state
          run.1 = reply.result.map (Except.map .report) ∧ run.2.driver =
            ⟨reply.state, s.driver.sightings ++ seenFrom 0 gs.length statement ++
              [.driver (.statement tx .execute statement)]⟩) := by
  refine ⟨db.watches_perform gs tx (.delete d) .exec s, ?_⟩
  split
  · rename_i e hbuild
    exact perform_of_unprepared tx (by rw [Request.prepare, hbuild]; rfl)
  · rename_i statement hbuild
    obtain ⟨m, hm, hword⟩ := Compiler.infix_deletion hd hbuild
    let p : Prepared := ⟨⟨.delete, .execute, statement, some m.table, []⟩, fun outcome => do
      let result ← outcome.intoExec
      pure (.report result)⟩
    have hprepare : Request.exec.prepare (db.compiler s.unwatched) (.delete d) = .ok p := by
      rw [Request.prepare, hbuild]
      simp only [Command.entity?, Request.table?, hm]
      rfl
    have hrefusal := refusal?_eq_none_iff hsafe p.context rfl
    refine ⟨m, hm, fun hunsafe => ?_, fun hsent => ?_⟩
    · obtain ⟨hnone, htable⟩ := hunsafe
      have hplain : ¬ Guard.whereClause <:+: statement.sql.toList := fun h =>
        (hword.mp h).elim (fun hsome => hsome hnone) htable
      obtain ⟨i, hi⟩ := Option.ne_none_iff_exists'.mp (fun h => hplain (hrefusal.mp h))
      obtain ⟨hresult, hdriver⟩ := perform_of_refused tx hprepare hi
      exact ⟨hresult, i + 1, hdriver⟩
    · obtain ⟨hresult, hdriver⟩ := perform_of_sent tx hprepare (hrefusal.mpr (hword.mpr hsent))
      obtain ⟨hstate, houtcome⟩ := db.driver.send_execute tx statement s.driver.state
      rw [hstate] at hdriver
      refine ⟨hresult.trans ?_, hdriver⟩
      rw [houtcome, Option.map_map]
      congr 1
      funext x
      cases x <;> rfl

/-- Notes behind a driver that reports seven rows. -/
def ofNotes (dialect : Dialect) : Database Unit Unit Unit where
  schema name :=
    if name = "Note" then .struct ⟨"Note", .named "Note", 8, none, [⟨"id", none, 0, 8, ⟨.integer .i64⟩⟩]⟩ else .other
  dialect := dialect
  access := .byOffset
  chain := []
  driver :=
    ⟨fun _ _ => pure .empty, fun _ _ => pure (.ofCounts ⟨7, by decide, by decide⟩ none), pure (), fun _ => pure (),
      fun _ => pure (), fun _ _ => ()⟩

/-- A watched session in which notes are in a table of a given name. -/
def inTable (db : Database Unit Unit Unit) (table : String) : Session (Watched Unit Unit) Unit :=
  { Session.start ⟨(), []⟩ with registry := Registry.empty.register db.schema (.named "Note") [.table table] }

/-- All notes are to be deleted, with statistics kept outside of the interceptor that turns this away. -/
theorem perform_deletion_refused :
    let db := ofNotes .mysql
    let s := db.inTable "logs"
    let gs : List (Guard Unit) := [.stats, .safeDelete, .statementLog .info none]
    let run := (db.watched gs).perform none (.delete (Deletion.all (.named "Note"))) .exec s
    db.dialect ∈ Dialect.given ∧ (∃ g ∈ gs, g.isSafeDelete = true) ∧ run.1 = some (.error .unsafeDelete) ∧
      ∃ place, run.2.driver =
        ⟨s.driver.state, s.driver.sightings ++ seenFrom 0 place ⟨"DELETE FROM `logs`;", []⟩⟩ := by
  intro db s gs
  have hd : db.dialect ∈ Dialect.given := by simp [db, ofNotes, Dialect.given]
  have hsafe : ∃ g ∈ gs, g.isSafeDelete = true := ⟨.safeDelete, by simp [gs], rfl⟩
  have hbuild : (db.compiler s.unwatched).build (.delete (Deletion.all (.named "Note"))) =
      .ok ⟨"DELETE FROM `logs`;", []⟩ := by decide
  obtain ⟨-, hrun⟩ := db.perform_deletion hd hsafe (Deletion.all (.named "Note")) none s
  rw [hbuild] at hrun
  obtain ⟨m, hm, hrefused, -⟩ := hrun
  have htable : m.table = "logs" := by
    have hlookup : (db.compiler s.unwatched).lookup (.named "Note") =
        .ok ⟨"logs", .named "Note", [⟨"id", "id", 0, 8, ⟨.integer .i64⟩, 0⟩]⟩ := by decide
    cases hlookup.symm.trans hm
    rfl
  have hplain : ¬ Guard.whereClause <:+: m.table.toList := by
    rw [htable, ← Text.occurs_iff]
    decide
  dsimp only
  exact ⟨hd, hsafe, hrefused ⟨rfl, hplain⟩⟩

/-- A table whose name holds the word for conditions: the deletion of all its rows reaches the driver. -/
theorem perform_deletion_passed :
    let db := ofNotes .standard
    let run := (db.watched [.safeDelete]).perform none (.delete (Deletion.all (.named "Note"))) .exec
      (db.inTable "logs WHERE old")
    let statement : Statement := ⟨"DELETE FROM \"logs WHERE old\";", []⟩
    run.1.map Except.isOk = some true ∧
      run.2.driver.sightings = [.interceptor 0 statement, .driver (.statement none .execute statement)] := by
  decide

end Database

end EntitySql
