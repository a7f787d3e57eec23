import EntitySql.Error
import EntitySql.Model.Metadata

namespace EntitySql

/-- A field of an entity with its content, and where that lies in the memory of the entity. -/
structure Cell where
  name : String
  named : Bool
  offset : Nat
  size : Nat
  type : FieldType
  content : type.Content

namespace Cell

def blank (name : String) (named : Bool) (offset size : Nat) (type : FieldType) : Cell :=
  ⟨name, named, offset, size, type, type.blank⟩

def value (c : Cell) : Value := c.type.toValue c.content

/-- The field with the content that a value is read as. -/
def write (c : Cell) (v : Value) : Except Misfit Cell :=
  match c.type.ofValue v with
  | .ok content => .ok { c with content }
  | .error m => .error m

end Cell

structure Entity where
  type : TypeId
  size : Nat
  cells : List Cell

namespace Entity

/-- The place of the first field that the accessors know by a name. -/
def placeOf? (e : Entity) (name : String) : Option Nat :=
  e.cells.findIdx? fun c => c.named && c.name == name

/-- The place of the field with a content of a type that begins at an offset. -/
def placeAt? (e : Entity) (offset : Nat) (type : FieldType) : Option Nat :=
  e.cells.findIdx? fun c => c.offset == offset && c.type == type

def read? (e : Entity) (place : Nat) : Option Value := (e.cells[place]?).map Cell.value

/-- The entity after a value is written to the field in a place. -/
def write? (e : Entity) (place : Nat) (v : Value) : Option (Except Misfit Entity) :=
  (e.cells[place]?).map fun c => (c.write v).map fun c => { e with cells := e.cells.set place c }

def readNamed? (e : Entity) (name : String) : Option Value := e.placeOf? name >>= e.read?

/-- The entity after a value is written to the field of a name. -/
def writeNamed? (e : Entity) (name : String) (v : Value) : Option (Except Misfit Entity) :=
  e.placeOf? name >>= fun place => e.write? place v

end Entity

namespace RawAccess

/-- The value at an offset of an entity, if a content of the type begins there. -/
def read? (raw : RawAccess) (e : Entity) (offset : Nat) : Option Value :=
  e.placeAt? offset raw.type >>= e.read?

/-- The entity after a value was read as a content of the type, and the content laid down at an offset. -/
def write? (raw : RawAccess) (e : Entity) (offset : Nat) (v : Value) : Option (Except Misfit Entity) :=
  match raw.type.ofValue v with
  | .error m => some (.error m)
  | .ok content => do
    let place ← e.placeAt? offset raw.type
    let c ← e.cells[place]?
    some (.ok { e with cells := e.cells.set place { c with type := raw.type, content } })

end RawAccess

end EntitySql
