import EntitySql.Rehearsal.Observation

namespace EntitySql.Rehearsal

open Postgres (ColumnType ResultColumn RawCell)

/-- What is to become of a statement. -/
structure ServerReply where
  params : List ColumnType
  columns : List ResultColumn
  rows : List (List RawCell)
  tag : String
  prepareFails : Bool
  runFails : Bool
  deriving Repr

def ServerReply.default : ServerReply := ⟨[], [], [], "OK", false, false⟩

structure ScriptedServer where
  replies : List ServerReply
  failing : List String
  deriving Repr

namespace ScriptedServer

def fresh : ScriptedServer := ⟨[], []⟩

def prepare (s : ScriptedServer) : Option ServerReply × ScriptedServer :=
  match s.replies with
  | [] => (some .default, s)
  | r :: rest => (if r.prepareFails then none else some r, { s with replies := rest })

def server : Postgres.Server ScriptedServer ServerReply where
  prepare _ s := s.prepare
  params r := r.params
  columns r := r.columns
  run r _ s := (if r.runFails then none else some ⟨r.rows, r.tag⟩, s)
  simple sql s :=
    if s.failing.contains sql then (false, { s with failing := s.failing.erase sql }) else (true, s)

def driver : Driver (Postgres.Client ScriptedServer) Postgres.Lease Observation :=
  Postgres.Client.driver server .sent

end ScriptedServer

end EntitySql.Rehearsal
