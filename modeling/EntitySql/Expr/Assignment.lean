import EntitySql.Expr.Basic

namespace EntitySql

inductive Assignable where
  | assign (field : String) (value : Expr)
  /-- A field gets its value from the entity at hand or, in an upsert, from the incoming row. -/
  | copy (field : String)

/-- What to do with a row that is already there. Without assignments the new row is dropped. -/
structure OnConflict where
  targets : List String
  assigns : List Assignable

def OnConflict.empty : OnConflict := ⟨[], []⟩

end EntitySql
