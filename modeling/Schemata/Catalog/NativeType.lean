import Schemata.Dialect

/-!
# Catalogs — types

The scalar that a database's own type stands for, and whether it is an array.  Case does not
matter, and a type that is not listed is taken as text.
-/

namespace Schemata

/-- The types of Postgres. -/
def postgresTypes : List (String × Scalar) :=
  [("int2", .int), ("int4", .int), ("int8", .int), ("smallint", .int), ("integer", .int),
   ("bigint", .int), ("varchar", .string), ("character varying", .string),
   ("bpchar", .string), ("character", .string), ("text", .string), ("uuid", .string),
   ("bool", .boolean), ("boolean", .boolean), ("real", .float), ("float4", .float),
   ("float8", .float), ("double precision", .float), ("numeric", .float), ("json", .json),
   ("jsonb", .json), ("timestamp", .datetime), ("timestamptz", .datetime),
   ("timestamp without time zone", .datetime), ("timestamp with time zone", .datetime),
   ("date", .date)]

/-- The types of MySQL. -/
def mysqlTypes : List (String × Scalar) :=
  [("tinyint", .int), ("smallint", .int), ("mediumint", .int), ("int", .int),
   ("integer", .int), ("bigint", .int), ("varchar", .string), ("char", .string),
   ("text", .string), ("tinytext", .string), ("mediumtext", .string), ("longtext", .string),
   ("enum", .string), ("float", .float), ("double", .float), ("decimal", .float),
   ("json", .json), ("datetime", .datetime), ("timestamp", .datetime), ("date", .date)]

/-- The scalar of a listed type, or text. -/
def lookupType (types : List (String × Scalar)) (name : String) : Scalar :=
  (types.lookup (Text.lower name)).getD .string

/-- The scalar of a Postgres type.  The elements of an array have a type of their own, whose name
follows an underscore. -/
def postgresScalar (dataType elementType : String) : Scalar × Bool :=
  if Text.upper dataType == "ARRAY" then
    match elementType.toList with
    | '_' :: element => (lookupType postgresTypes (String.ofList element), true)
    | _ => (lookupType postgresTypes dataType, false)
  else (lookupType postgresTypes dataType, false)

/-- The scalar of a MySQL type.  An integer of one digit is a truth value. -/
def mysqlScalar (dataType fullType : String) : Scalar × Bool :=
  if "tinyint(1)".toList.isPrefixOf (Text.lower fullType).toList then (.boolean, false)
  else (lookupType mysqlTypes dataType, false)

end Schemata
