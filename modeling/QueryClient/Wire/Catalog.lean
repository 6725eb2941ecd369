/-
  The types that every server has, by name and by number.
-/
import QueryClient.Wire.SqlType

namespace QueryClient.Wire.Catalog

/-- Names and numbers of the types whose binary form is not known, arrays apart. -/
def opaqueTypes : List (String × Nat) := [
  ("regproc", 24), ("tid", 27), ("xid", 28), ("cid", 29), ("pg_ddl_command", 32), ("xml", 142),
  ("pg_node_tree", 194), ("table_am_handler", 269), ("index_am_handler", 325), ("point", 600),
  ("lseg", 601), ("path", 602), ("box", 603), ("polygon", 604), ("line", 628), ("cidr", 650),
  ("circle", 718), ("macaddr8", 774), ("money", 790), ("macaddr", 829), ("inet", 869),
  ("aclitem", 1033), ("interval", 1186), ("timetz", 1266), ("bit", 1560), ("varbit", 1562),
  ("refcursor", 1790), ("regprocedure", 2202), ("regoper", 2203), ("regoperator", 2204),
  ("regclass", 2205), ("regtype", 2206), ("record", 2249), ("cstring", 2275), ("any", 2276),
  ("anyarray", 2277), ("void", 2278), ("trigger", 2279), ("language_handler", 2280),
  ("internal", 2281), ("anyelement", 2283), ("_record", 2287), ("anynonarray", 2776),
  ("txid_snapshot", 2970), ("fdw_handler", 3115), ("pg_lsn", 3220), ("tsm_handler", 3310),
  ("pg_ndistinct", 3361), ("pg_dependencies", 3402), ("anyenum", 3500), ("tsvector", 3614),
  ("tsquery", 3615), ("gtsvector", 3642), ("regconfig", 3734), ("regdictionary", 3769),
  ("anyrange", 3831), ("event_trigger", 3838), ("int4range", 3904), ("numrange", 3906),
  ("tsrange", 3908), ("tstzrange", 3910), ("daterange", 3912), ("int8range", 3926),
  ("jsonpath", 4072), ("regnamespace", 4089), ("regrole", 4096), ("regcollation", 4191),
  ("int4multirange", 4451), ("nummultirange", 4532), ("tsmultirange", 4533),
  ("tstzmultirange", 4534), ("datemultirange", 4535), ("int8multirange", 4536),
  ("anymultirange", 4537), ("anycompatiblemultirange", 4538), ("pg_brin_bloom_summary", 4600),
  ("pg_brin_minmax_multi_summary", 4601), ("pg_mcv_list", 5017), ("pg_snapshot", 5038),
  ("xid8", 5069), ("anycompatible", 5077), ("anycompatiblearray", 5078),
  ("anycompatiblenonarray", 5079), ("anycompatiblerange", 5080)]

/-- Names and numbers of the arrays, with the names of their elements.  Two vectors are arrays
as well. -/
def arrayTypes : List (String × Nat × String) := [
  ("int2vector", 22, "int2"), ("oidvector", 30, "oid"), ("_xml", 143, "xml"),
  ("_json", 199, "json"), ("_xid8", 271, "xid8"), ("_line", 629, "line"),
  ("_cidr", 651, "cidr"), ("_circle", 719, "circle"), ("_macaddr8", 775, "macaddr8"),
  ("_money", 791, "money"), ("_bool", 1000, "bool"), ("_bytea", 1001, "bytea"),
  ("_char", 1002, "char"), ("_name", 1003, "name"), ("_int2", 1005, "int2"),
  ("_int2vector", 1006, "int2vector"), ("_int4", 1007, "int4"), ("_regproc", 1008, "regproc"),
  ("_text", 1009, "text"), ("_tid", 1010, "tid"), ("_xid", 1011, "xid"), ("_cid", 1012, "cid"),
  ("_oidvector", 1013, "oidvector"), ("_bpchar", 1014, "bpchar"),
  ("_varchar", 1015, "varchar"), ("_int8", 1016, "int8"), ("_point", 1017, "point"),
  ("_lseg", 1018, "lseg"), ("_path", 1019, "path"), ("_box", 1020, "box"),
  ("_float4", 1021, "float4"), ("_float8", 1022, "float8"), ("_polygon", 1027, "polygon"),
  ("_oid", 1028, "oid"), ("_aclitem", 1034, "aclitem"), ("_macaddr", 1040, "macaddr"),
  ("_inet", 1041, "inet"), ("_timestamp", 1115, "timestamp"), ("_date", 1182, "date"),
  ("_time", 1183, "time"), ("_timestamptz", 1185, "timestamptz"),
  ("_interval", 1187, "interval"), ("_numeric", 1231, "numeric"),
  ("_cstring", 1263, "cstring"), ("_timetz", 1270, "timetz"), ("_bit", 1561, "bit"),
  ("_varbit", 1563, "varbit"), ("_refcursor", 2201, "refcursor"),
  ("_regprocedure", 2207, "regprocedure"), ("_regoper", 2208, "regoper"),
  ("_regoperator", 2209, "regoperator"), ("_regclass", 2210, "regclass"),
  ("_regtype", 2211, "regtype"), ("_txid_snapshot", 2949, "txid_snapshot"),
  ("_uuid", 2951, "uuid"), ("_pg_lsn", 3221, "pg_lsn"), ("_tsvector", 3643, "tsvector"),
  ("_gtsvector", 3644, "gtsvector"), ("_tsquery", 3645, "tsquery"),
  ("_regconfig", 3735, "regconfig"), ("_regdictionary", 3770, "regdictionary"),
  ("_jsonb", 3807, "jsonb"), ("_int4range", 3905, "int4range"),
  ("_numrange", 3907, "numrange"), ("_tsrange", 3909, "tsrange"),
  ("_tstzrange", 3911, "tstzrange"), ("_daterange", 3913, "daterange"),
  ("_int8range", 3927, "int8range"), ("_jsonpath", 4073, "jsonpath"),
  ("_regnamespace", 4090, "regnamespace"), ("_regrole", 4097, "regrole"),
  ("_regcollation", 4192, "regcollation"), ("_pg_snapshot", 5039, "pg_snapshot"),
  ("_int4multirange", 6150, "int4multirange"), ("_nummultirange", 6151, "nummultirange"),
  ("_tsmultirange", 6152, "tsmultirange"), ("_tstzmultirange", 6153, "tstzmultirange"),
  ("_datemultirange", 6155, "datemultirange"), ("_int8multirange", 6157, "int8multirange")]

/-- The schema of the types that every server has. -/
def schema : String := "pg_catalog"

/-- The type with a name, arrays apart. -/
def plain? (name : String) : Option SqlType :=
  match Scalar.all.find? (·.typeName = name) with
  | some s => some (.scalar s)
  | none =>
    (opaqueTypes.find? (·.1 = name)).map fun (name, number) => .other ⟨schema, name, number⟩

/-- The type with a name; an array has elements of a plain type or of a vector. -/
def find? (name : String) : Option SqlType :=
  let array (element : String → Option SqlType) : Option SqlType := do
    let (name, number, elementName) ← arrayTypes.find? (·.1 = name)
    pure (.array ⟨schema, name, number⟩ (← element elementName))
  let vector? (name : String) : Option SqlType := do
    let (name, number, elementName) ← arrayTypes.find? (·.1 = name)
    pure (.array ⟨schema, name, number⟩ (← plain? elementName))
  plain? name <|> array fun element => plain? element <|> vector? element

end QueryClient.Wire.Catalog
