import EntitySql.Proofs.Session.Transparency

namespace EntitySql

variable {σ τ α : Type}

/-- What a chain returns is the refusal of the first interceptor that turns the statement away, or else what the
driver returns. -/
theorem through_result (d : Driver σ τ α) (tx : Option τ) (gs : List (Guard α)) (ctx : Context) (s : Session σ α) :
    ((Handler.ofDriver d tx).through (gs.map Guard.intercept) ctx s).1 =
      if (refusal? gs ctx).isSome then some (.error .unsafeDelete)
      else (d.send tx ctx.mode ctx.statement s.driver).result := by
  induction gs generalizing ctx s with
  | nil =>
    rw [List.map_nil, Handler.through, ofDriver_eq_call]
    rfl
  | cons g gs ih =>
    cases hg : g.refuses ctx with
    | true =>
      rw [refusal?_of_refuses hg, List.map_cons, Handler.through, Guard.intercept_of_refuses hg]
      rfl
    | false =>
      obtain ⟨s', spans, hdriver, hpass⟩ := Guard.intercept_of_not_refuses hg s
      have hrest := ih { ctx with spans } s'
      rw [refusal?_spans, hdriver] at hrest
      rw [refusal?_of_not_refuses hg, Option.isSome_map]
      exact (hpass _).1.trans hrest

/-- The text of a statement within a limit: all of it if it fits, else the longest part in front of a boundary between
characters that fits, and `...`. The search for the boundary ends at one, whatever the text and the limit, and at most
three bytes in front of the limit; so the interceptors that show a statement return what comes of it. -/
theorem Database.statement_shown (sql : String) (limit : Nat) :
    Text.truncate? none sql = some sql ∧
      (∃ kept, Text.LongestWithin limit sql kept ∧
        Text.boundaryFrom (Text.Utf8.ofString sql) limit = kept.utf8ByteSize ∧
        Text.isBoundary (Text.Utf8.ofString sql) kept.utf8ByteSize = true ∧
        Text.before? sql kept.utf8ByteSize = some kept ∧
        (sql.utf8ByteSize ≤ limit ∨ limit ≤ kept.utf8ByteSize + 3) ∧
        Text.truncate? (some limit) sql = some (if sql.utf8ByteSize ≤ limit then sql else kept ++ "...")) ∧
      ∀ (db : Database σ τ α) (gs : List (Guard α)) (tx : Option τ) (ctx : Context) (s : Session σ α),
        ((db.guarded gs).dispatch tx ctx s).1 =
          if (refusal? gs ctx).isSome then some (.error .unsafeDelete)
          else (db.driver.send tx ctx.mode ctx.statement s.driver).result := by
  obtain ⟨kept, hlongest, hstop, hkept⟩ := Text.exists_longestWithin limit sql
  have hboundary := Text.isBoundary_boundaryFrom (Text.Utf8.ofString sql) limit
  have htext : Text.truncate? (some limit) sql = some (if sql.utf8ByteSize ≤ limit then sql else kept ++ "...") := by
    split
    · rename_i hle
      exact Text.truncate?_of_le hle
    · rename_i hlt
      exact Text.truncate?_of_lt (Nat.lt_of_not_le hlt) hkept
  have hclose : sql.utf8ByteSize ≤ limit ∨ limit ≤ kept.utf8ByteSize + 3 :=
    (Nat.lt_or_ge limit sql.utf8ByteSize).symm.imp_right fun hlt => Nat.le_of_lt_succ (hlongest.lt_add_four hlt)
  rw [hstop] at hboundary hkept
  exact ⟨rfl, ⟨kept, hlongest, hstop, hboundary, hkept, hclose, htext⟩,
    fun db gs tx ctx s => through_result db.driver tx gs ctx s⟩

/-- A limit inside of a character of two bytes. -/
example : Text.truncate? (some 9) "SELECT 'é'" = some "SELECT '..." := by decide +kernel

end EntitySql
