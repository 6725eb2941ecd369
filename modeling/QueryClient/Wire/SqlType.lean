/-
  The types of columns and parameters.

  A scalar is a type whose binary form the client knows.  Every other type has a name and a
  number; of those the client knows enumerations, domains over a type and arrays of a type.
-/

namespace QueryClient.Wire

/-- A type whose binary form is known. -/
inductive Scalar where
  | bool | char | int2 | int4 | int8 | oid | float4 | float8 | numeric
  | json | jsonb | uuid | timestamp | timestamptz | date | time | bytea
  | text | varchar | bpchar | name | unknown
  deriving DecidableEq, Repr

namespace Scalar

def typeName : Scalar → String
  | .bool => "bool"
  | .char => "char"
  | .int2 => "int2"
  | .int4 => "int4"
  | .int8 => "int8"
  | .oid => "oid"
  | .float4 => "float4"
  | .float8 => "float8"
  | .numeric => "numeric"
  | .json => "json"
  | .jsonb => "jsonb"
  | .uuid => "uuid"
  | .timestamp => "timestamp"
  | .timestamptz => "timestamptz"
  | .date => "date"
  | .time => "time"
  | .bytea => "bytea"
  | .text => "text"
  | .varchar => "varchar"
  | .bpchar => "bpchar"
  | .name => "name"
  | .unknown => "unknown"

/-- The number of a type. -/
def number : Scalar → Nat
  | .bool => 16
  | .char => 18
  | .int2 => 21
  | .int4 => 23
  | .int8 => 20
  | .oid => 26
  | .float4 => 700
  | .float8 => 701
  | .numeric => 1700
  | .json => 114
  | .jsonb => 3802
  | .uuid => 2950
  | .timestamp => 1114
  | .timestamptz => 1184
  | .date => 1082
  | .time => 1083
  | .bytea => 17
  | .text => 25
  | .varchar => 1043
  | .bpchar => 1042
  | .name => 19
  | .unknown => 705

def all : List Scalar :=
  [.bool, .char, .int2, .int4, .int8, .oid, .float4, .float8, .numeric, .json, .jsonb, .uuid,
    .timestamp, .timestamptz, .date, .time, .bytea, .text, .varchar, .bpchar, .name, .unknown]

/-- Whether the binary form is the text itself. -/
def isText : Scalar → Bool
  | .text | .varchar | .bpchar | .name | .unknown => true
  | _ => false

end Scalar

/-- How a type other than a known scalar is called. -/
structure TypeName where
  schema : String
  name : String
  number : Nat
  deriving DecidableEq, Repr, Inhabited

/-- The type of a column or a parameter. -/
inductive SqlType where
  | scalar (s : Scalar)
  | enumeration (name : TypeName)
  | domain (name : TypeName) (base : SqlType)
  | array (name : TypeName) (element : SqlType)
  /-- A type of which only the name is known. -/
  | other (name : TypeName)
  deriving Repr, Inhabited

namespace SqlType

def typeName : SqlType → String
  | .scalar s => s.typeName
  | .enumeration n | .domain n _ | .array n _ | .other n => n.name

def schema : SqlType → String
  | .scalar _ => "pg_catalog"
  | .enumeration n | .domain n _ | .array n _ | .other n => n.schema

def number : SqlType → Nat
  | .scalar s => s.number
  | .enumeration n | .domain n _ | .array n _ | .other n => n.number

/-- The name as it is shown: with the schema, unless that is one of the usual two. -/
def display (t : SqlType) : String :=
  if t.schema = "public" ∨ t.schema = "pg_catalog" then t.typeName
  else t.schema ++ "." ++ t.typeName

/-- Whether every value of the type is bound as text. -/
def isTextLike : SqlType → Bool
  | .scalar s => s.isText
  | .enumeration _ => true
  | t => t.typeName = "citext"

/-- Whether the values of the type are read as text. -/
def readsAsText : SqlType → Bool
  | .scalar s => s.isText
  | .enumeration _ => true
  | t => t.typeName ∈ ["citext", "ltree", "lquery", "ltxtquery"]

end SqlType

end QueryClient.Wire
