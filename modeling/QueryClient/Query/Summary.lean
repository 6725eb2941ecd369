/-
  Queries and statements as JSON, for reports.
-/
import QueryClient.Query.Basic
import QueryClient.Statement.Piece
import QueryClient.Value.Tagged

namespace QueryClient

/-- Columns with their values. -/
def assignmentsJson (pairs : List (String × Value)) : Json :=
  .arr (pairs.map fun (column, v) => .arr [.str column, v.tagged])

namespace Operation

/-- What belongs to an operation. -/
def parts : Operation → List (String × Json)
  | .select columns => [("columns", .str columns)]
  | .insert payload => [("payload", payload.exact)]
  | .upsert payload onConflict ignoreDuplicates =>
    [("payload", payload.exact), ("on_conflict", .arr (onConflict.map .str)),
      ("ignore_duplicates", .bool ignoreDuplicates)]
  | .update pairs => [("set", assignmentsJson pairs)]
  | .delete => []
  | .rpc function args =>
    [("function", .str function), ("args", .arr (args.map Value.tagged))]

def toJson (o : Operation) : Json :=
  .object ([("name", .str o.name), ("mutation", .bool o.isMutation), ("query", .bool o.isQuery)] ++
    o.parts)

end Operation

/-- A term of an order in words. -/
def OrderTerm.text (t : OrderTerm) : String := t.column.name ++ " " ++ t.order.text

namespace Query

/-- Something that can be absent. -/
def orNull {α : Type} (f : α → Json) : Option α → Json
  | some a => f a
  | none => .null

/-- The parts of a query; of a filter only the number of its values is told. -/
def toJson (q : Query) : Json :=
  .object [
    ("table", .str q.table), ("schema", .str q.schema), ("operation", q.operation.toJson),
    ("filters", .arr (q.filters.map fun f => .int f.valueCount)),
    ("order", .arr (q.order.map fun t => .str t.text)),
    ("limit", orNull (fun n => .int n) q.limit), ("offset", orNull (fun n => .int n) q.offset),
    ("shape", .str q.shape.name), ("returning", orNull .str q.returning),
    ("count", orNull (fun m => .str m.name) q.count),
    ("error", orNull (fun e => .str e.message) q.error)]

end Query

/-- The text of a statement and the values that it binds. -/
def Statement.toJson (s : Statement) : Json :=
  .object [("text", .str s.text), ("values", .arr (s.values.map Value.tagged))]

end QueryClient
