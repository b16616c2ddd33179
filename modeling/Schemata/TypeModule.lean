import Schemata.Journal
import Schemata.Schema
import Schemata.Text.Case
import Schemata.Text.Letter
import Schemata.Text.Split

/-!
# Type modules

A schema as a module of Python type declarations.  Every model is one block, and so is every
shape of a `json` field, at any depth; a shape's block stands before the block that names it
(`Schema.typeBlocks`).  A block has one entry for each field or key, in their order.

An entry of a model may be missing unless its column holds no null, an entry of a shape only if
it is optional.  A block is a class if all its keys can be written as names of the language, and
otherwise a call with the keys as strings (`TypeBlock.text`); there the types are strings too,
since a class that is named may come later.
-/

namespace Schemata

/-- The type of an entry. -/
inductive EntryType where
  | named (name : String)
  | listOf (element : EntryType)
  | orNone (value : EntryType)
  | notRequired (value : EntryType)
  deriving DecidableEq, Repr

def EntryType.text : EntryType → String
  | .named name => name
  | .listOf element => "list[" ++ element.text ++ "]"
  | .orNone value => value.text ++ " | None"
  | .notRequired value => "NotRequired[" ++ value.text ++ "]"

/-- A declaration: its name, and its entries. -/
structure TypeBlock where
  name : String
  entries : List (String × EntryType)
  deriving DecidableEq, Repr

/-- The name of a class: the words of a name, each with a capital letter at its front, without
the underscores and hyphens between them. -/
def className (name : String) : String :=
  let words := Text.splitOn '_' (name.toList.map fun c => if c = '-' then '_' else c)
  String.join (words.map fun w => Text.capitalize (String.ofList w))

/-- The words that cannot be names. -/
def reservedWords : List String :=
  ["False", "None", "True", "and", "as", "assert", "async", "await", "break", "class",
   "continue", "def", "del", "elif", "else", "except", "finally", "for", "from", "global",
   "if", "import", "in", "is", "lambda", "nonlocal", "not", "or", "pass", "raise", "return",
   "try", "while", "with", "yield"]

/-- A key that can be written as a name. -/
def isPlainKey (key : String) : Bool := Text.isIdentifier key && !reservedWords.contains key

/-- The types of scalars other than `json`. -/
def scalarTypes : List (String × String) :=
  [("int", "int"), ("float", "float"), ("string", "str"), ("boolean", "bool"),
   ("date", "str"), ("datetime", "str")]

/-- The types that a shape may name. -/
def leafTypes : List (String × String) :=
  [("string", "str"), ("number", "float"), ("int", "int"), ("integer", "int"),
   ("float", "float"), ("boolean", "bool"), ("bool", "bool"), ("date", "str"),
   ("datetime", "str")]

/-! ### Shapes -/

/-- The class of a key with a shape of its own. -/
def nestedName (owner key : String) : String := owner ++ className key

/-- A type, or the list of it. -/
def EntryType.listIf (isArray : Bool) (t : EntryType) : EntryType :=
  if isArray then .listOf t else t

/-- The type of a key of a shape. -/
def ShapeEntry.entryType (owner : String) (e : ShapeEntry) : EntryType :=
  let base : EntryType :=
    if e.shape.isSome then .named (nestedName owner e.name)
    else .named ((leafTypes.lookup (Text.lower e.typeName)).getD "Any")
  let type := base.listIf e.isArray
  if e.isOptional then .notRequired (.orNone type) else type

/-- The block of a shape's own keys. -/
def Shape.block (name : String) (s : Shape) : TypeBlock :=
  ⟨name, s.entries.map fun e => (e.name, e.entryType name)⟩

mutual

/-- The blocks of a shape: those of the shapes inside it, then its own. -/
def Shape.blocks (name : String) (s : Shape) : List TypeBlock :=
  match s with
  | ⟨raw, isArray, entries, position⟩ =>
    entryListBlocks name entries ++ [Shape.block name ⟨raw, isArray, entries, position⟩]

/-- The blocks of the shapes inside keys. -/
def entryListBlocks (owner : String) : List ShapeEntry → List TypeBlock
  | [] => []
  | e :: es => entryBlocks owner e ++ entryListBlocks owner es

/-- The blocks of the shape inside a key. -/
def entryBlocks (owner : String) : ShapeEntry → List TypeBlock
  | ⟨key, _, _, _, shape⟩ => optionBlocks (nestedName owner key) shape

/-- The blocks of a shape that may not be there. -/
def optionBlocks (name : String) : Option Shape → List TypeBlock
  | none => []
  | some s => Shape.blocks name s

end

/-! ### Models -/

/-- The class of a field's shape. -/
def shapeName (owner field : String) : String := owner ++ className field ++ "Shape"

namespace Schema

/-- The class that a type of a field names: that of a scalar or of a model, if there is one. -/
def typeClass? (s : Schema) (typeName : String) : Option String :=
  match scalarTypes.lookup typeName with
  | some name => some name
  | none => if s.modelNames.contains typeName then some (className typeName) else none

end Schema

namespace Field

/-- The type of a field that holds a value. -/
def valueType (s : Schema) (owner : String) (f : Field) : EntryType :=
  if f.typeName = Scalar.json.name then
    match f.shape with
    | some shape => (EntryType.named (shapeName owner f.name)).listIf (shape.isArray || f.isArray)
    | none => (EntryType.named "dict[str, Any]").listIf f.isArray
  else (EntryType.named ((s.typeClass? f.typeName).getD "Any")).listIf f.isArray

/-- The type of a field's entry. -/
def entryType (s : Schema) (owner : String) (f : Field) : EntryType :=
  let type := f.valueType s owner
  if f.isNotNull then type else .notRequired type

/-- The blocks of a field's shape. -/
def shapeBlocks (owner : String) (f : Field) : List TypeBlock :=
  if f.typeName = Scalar.json.name then optionBlocks (shapeName owner f.name) f.shape else []

/-- The remark that the type of a field is not known. -/
def unknownType? (s : Schema) (f : Field) : Option Entry :=
  if f.typeName = Scalar.json.name || (s.typeClass? f.typeName).isSome then none
  else some ⟨.debug, s!"Unknown type '{f.typeName}' for field '{f.name}'; using Any"⟩

end Field

/-- The blocks of a model: those of its shapes, then its own. -/
def Model.typeBlocks (s : Schema) (m : Model) : List TypeBlock :=
  let owner := className m.name
  m.fields.flatMap (Field.shapeBlocks owner) ++
    [⟨owner, m.fields.map fun f => (f.name, f.entryType s owner)⟩]

/-- The blocks of a schema. -/
def Schema.typeBlocks (s : Schema) : List TypeBlock := s.models.flatMap (Model.typeBlocks s)

/-! ### Text -/

/-- A text between double quotes, as it is. -/
def inQuotes (s : String) : String := "\"" ++ s ++ "\""

/-- A type as a string, with the mark of a key that may be missing left outside. -/
def forwardReference (type : String) : String :=
  let mark := "NotRequired[".toList
  let cs := type.toList
  if mark.isPrefixOf cs && cs.getLast? == some ']' then
    let inside := (cs.drop mark.length).dropLast
    "NotRequired[" ++ inQuotes (String.ofList inside) ++ "]"
  else inQuotes type

/-- A block as text. -/
def TypeBlock.text (b : TypeBlock) : String :=
  if b.entries.all fun e => isPlainKey e.1 then
    let body :=
      if b.entries.isEmpty then ["    pass"]
      else b.entries.map fun (key, type) => "    " ++ key ++ ": " ++ type.text
    "\n".intercalate (("class " ++ b.name ++ "(TypedDict):") :: body)
  else
    let body := b.entries.map fun (key, type) =>
      inQuotes key ++ ": " ++ forwardReference type.text
    b.name ++ " = TypedDict(" ++ inQuotes b.name ++ ", \x7b" ++ ", ".intercalate body ++ "\x7d)"

/-- What a module begins with. -/
def moduleHeader : List String :=
  ["# AUTO-GENERATED FILE. DO NOT EDIT.",
   "\"\"\"Type declarations generated from the database schema.\"\"\"",
   "",
   "from __future__ import annotations",
   "",
   "from typing import Any, Literal, NotRequired, TypedDict",
   ""]

/-- What a module ends with: the names of the models, and the class of each. -/
def moduleIndex (s : Schema) : List String :=
  let names :=
    if s.models.isEmpty then "ModelName = str"
    else "ModelName = Literal[" ++ ", ".intercalate (s.modelNames.map inQuotes) ++ "]"
  ["", names, "", "MODELS: dict[str, type] = \x7b"] ++
    s.modelNames.map (fun n => "    " ++ inQuotes n ++ ": " ++ className n ++ ",") ++ ["\x7d"]

/-- The text of a schema's module. -/
def Schema.typeModuleText (s : Schema) : String :=
  let blocks := s.typeBlocks.flatMap fun b => ["", b.text, ""]
  "\n".intercalate (moduleHeader ++ blocks ++ moduleIndex s) ++ "\n"

/-- The module of a schema, with a remark on each type that is not known. -/
def Schema.typeModule {ε : Type} (s : Schema) : Journal ε String :=
  ⟨s.models.flatMap fun m => m.fields.filterMap (Field.unknownType? s), .ok s.typeModuleText⟩

end Schemata
