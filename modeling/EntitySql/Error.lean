import EntitySql.Value.FieldType
import EntitySql.Text.Quoted

namespace EntitySql

inductive Error where
  /-- A type that is neither a struct nor a single pointer to one, or that misreports itself. -/
  | invalidModelType
  /-- A field that the model in scope does not have. -/
  | invalidField (field : String)
  | invalidColumn (column : String)
  /-- A malformed pair of a tag, or a column with two fields. -/
  | invalidTag (detail : String)
  | invalidModelOption (detail : String)
  /-- An expression of a kind that has no place there. -/
  | unsupportedExpression (detail : String)
  | emptyInsertRow
  | emptyUpdateAssignment
  | invalidAssignment (detail : String)
  | havingWithoutGroupBy
  | unsupportedOnConflict (detail : String)
  | noEligibleRow
  | unsafeDelete
  /-- A column of a row that cannot be read into its field. -/
  | decode (column message : String)
  | driver (message : String)
  | rollback (source failure : Error)
  | query (message : String)
  | other (message : String)
  /-- No failure that the program reports: a raw access met no content of its type. What the program does
  then is not defined. -/
  | stray
  deriving DecidableEq, Repr

namespace Error

def message : Error → String
  | invalidModelType =>
    "invalid model type: only structs or single-level pointers to structs are supported"
  | invalidField field => "invalid field: " ++ field
  | invalidColumn column => "invalid column: " ++ column
  | invalidTag detail => "invalid tag pair: " ++ Text.quoted detail
  | invalidModelOption detail => "invalid model option: " ++ detail
  | unsupportedExpression detail => "unsupported expression: " ++ detail
  | emptyInsertRow => "insert requires at least one row"
  | emptyUpdateAssignment => "update requires at least one assignment"
  | invalidAssignment detail => "invalid assignment: " ++ detail
  | havingWithoutGroupBy => "HAVING clause requires GROUP BY"
  | unsupportedOnConflict detail => "on conflict not supported: " ++ detail
  | noEligibleRow => "no eligible row"
  | unsafeDelete => "unsafe delete: DELETE without WHERE clause"
  | decode column message => "Decode error on column '" ++ column ++ "': " ++ message
  | driver message => "Driver error: " ++ message
  | rollback source failure => source.message ++ "; rollback failed: " ++ failure.message
  | query message => "Query error: " ++ message
  | other message => message
  | stray => "<stray>"

def kind : Error → String
  | invalidModelType => "InvalidModelType"
  | invalidField _ => "InvalidField"
  | invalidColumn _ => "InvalidColumn"
  | invalidTag _ => "InvalidTag"
  | invalidModelOption _ => "InvalidModelOption"
  | unsupportedExpression _ => "UnsupportedExpression"
  | emptyInsertRow => "EmptyInsertRow"
  | emptyUpdateAssignment => "EmptyUpdateAssignment"
  | invalidAssignment _ => "InvalidAssignment"
  | havingWithoutGroupBy => "HavingWithoutGroupBy"
  | unsupportedOnConflict _ => "UnsupportedOnConflict"
  | noEligibleRow => "NoEligibleRow"
  | unsafeDelete => "UnsafeDelete"
  | decode _ _ => "Decode"
  | driver _ => "Driver"
  | rollback _ _ => "Rollback"
  | query _ => "Query"
  | other _ => "Other"
  | stray => "<stray>"

def isNoEligibleRow : Error → Bool
  | noEligibleRow => true
  | _ => false

def isUnsafeDelete : Error → Bool
  | unsafeDelete => true
  | _ => false

def isRollback : Error → Bool
  | rollback _ _ => true
  | _ => false

/-- A value that does not fit the field of a column. -/
def ofMisfit (column : String) (misfit : Misfit) : Error :=
  decode column misfit.message

end Error

/-- The content of a field that the value of a column is read as. -/
def FieldType.decode (t : FieldType) (column : String) (v : Value) : Except Error t.Content :=
  match t.ofValue v with
  | .ok x => .ok x
  | .error misfit => .error (.ofMisfit column misfit)

/-- What goes on after a value goes on from one. -/
theorem exists_ok_of_bind {ε β γ : Type} {x : Except ε β} {next : β → Except ε γ} {c : γ} (h : x >>= next = .ok c) :
    ∃ b, x = .ok b ∧ next b = .ok c := by
  cases x with
  | error e => cases h
  | ok b => exact ⟨b, rfl, h⟩

end EntitySql
