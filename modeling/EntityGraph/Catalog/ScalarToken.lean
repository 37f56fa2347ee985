import EntityGraph.Catalog.FieldType

/-!
The scalar type tokens of schema texts, and the tables that give them field types.
-/
namespace EntityGraph

/-- A token that names a scalar type. -/
inductive ScalarToken where
  | id | string | boolean | int | float | decimal | date | dateTime | json | password | email
  | uuid | text | longText | url | time | year | secret | token | phone | username | slug
  | file | image | ipAddress | char | smallInt | tinyInt | unsignedInt | unsignedSmallInt
  | unsignedTinyInt | bigInt | unsignedBigInt | bigIncrements | foreignId | double
  | mediumText | binary | timestamp | enum
  deriving DecidableEq, Repr

namespace ScalarToken

/-- The spelling of a member in documents. -/
def label : ScalarToken → String
  | id => "ID"
  | string => "String"
  | boolean => "Boolean"
  | int => "Int"
  | float => "Float"
  | decimal => "Decimal"
  | date => "Date"
  | dateTime => "DateTime"
  | json => "JSON"
  | password => "Password"
  | email => "Email"
  | uuid => "UUID"
  | text => "Text"
  | longText => "LongText"
  | url => "URL"
  | time => "Time"
  | year => "Year"
  | secret => "Secret"
  | token => "Token"
  | phone => "Phone"
  | username => "Username"
  | slug => "Slug"
  | file => "File"
  | image => "Image"
  | ipAddress => "IpAddress"
  | char => "Char"
  | smallInt => "SmallInt"
  | tinyInt => "TinyInt"
  | unsignedInt => "UnsignedInt"
  | unsignedSmallInt => "UnsignedSmallInt"
  | unsignedTinyInt => "UnsignedTinyInt"
  | bigInt => "BigInt"
  | unsignedBigInt => "UnsignedBigInt"
  | bigIncrements => "BigIncrements"
  | foreignId => "ForeignId"
  | double => "Double"
  | mediumText => "MediumText"
  | binary => "Binary"
  | timestamp => "Timestamp"
  | enum => "Enum"

/-- The name of the constant that stands for a member. -/
def constantName : ScalarToken → String
  | id => "ID"
  | string => "STRING"
  | boolean => "BOOLEAN"
  | int => "INTEGER"
  | float => "FLOAT"
  | decimal => "DECIMAL"
  | date => "DATE"
  | dateTime => "DATETIME"
  | json => "JSON"
  | password => "PASSWORD"
  | email => "EMAIL"
  | uuid => "UUID"
  | text => "TEXT"
  | longText => "LONG_TEXT"
  | url => "URL"
  | time => "TIME"
  | year => "YEAR"
  | secret => "SECRET"
  | token => "TOKEN"
  | phone => "PHONE"
  | username => "USERNAME"
  | slug => "SLUG"
  | file => "FILE"
  | image => "IMAGE"
  | ipAddress => "IP_ADDRESS"
  | char => "CHAR"
  | smallInt => "SMALL_INTEGER"
  | tinyInt => "TINY_INTEGER"
  | unsignedInt => "UNSIGNED_INTEGER"
  | unsignedSmallInt => "UNSIGNED_SMALL_INTEGER"
  | unsignedTinyInt => "UNSIGNED_TINY_INTEGER"
  | bigInt => "BIG_INTEGER"
  | unsignedBigInt => "UNSIGNED_BIG_INTEGER"
  | bigIncrements => "BIG_INCREMENTS"
  | foreignId => "FOREIGN_ID"
  | double => "DOUBLE"
  | mediumText => "MEDIUM_TEXT"
  | binary => "BINARY"
  | timestamp => "TIMESTAMP"
  | enum => "ENUM"

/-- All members, in the order of the catalogue. -/
def all : List ScalarToken := [
  id, string, boolean, int, float, decimal, date, dateTime, json, password, email, uuid, text,
  longText, url, time, year, secret, token, phone, username, slug, file, image, ipAddress, char,
  smallInt, tinyInt, unsignedInt, unsignedSmallInt, unsignedTinyInt, bigInt, unsignedBigInt,
  bigIncrements, foreignId, double, mediumText, binary, timestamp, enum]

/-- The member with a spelling. -/
def ofLabel? (s : String) : Option ScalarToken :=
  all.find? fun t => t.label == s

theorem mem_all (t : ScalarToken) : t ∈ all := by
  cases t <;> decide

theorem ofLabel?_label (t : ScalarToken) : ofLabel? t.label = some t := by
  cases t <;> decide +kernel

/-- The field type of a token in the standard table. -/
def fieldType : ScalarToken → FieldType
  | id => .id
  | string => .string
  | boolean => .boolean
  | int => .integer
  | float => .float
  | decimal => .decimal
  | date => .date
  | dateTime => .dateTime
  | json => .json
  | password => .password
  | email => .email
  | uuid => .uuid
  | text => .text
  | longText => .longText
  | url => .url
  | time => .time
  | year => .year
  | secret => .secret
  | token => .token
  | phone => .phone
  | username => .username
  | slug => .slug
  | file => .file
  | image => .image
  | ipAddress => .ipAddress
  | char => .char
  | smallInt => .smallInteger
  | tinyInt => .tinyInteger
  | unsignedInt => .unsignedInteger
  | unsignedSmallInt => .unsignedSmallInteger
  | unsignedTinyInt => .unsignedTinyInteger
  | bigInt => .bigInteger
  | unsignedBigInt => .unsignedBigInteger
  | bigIncrements => .bigIncrements
  | foreignId => .foreignId
  | double => .double
  | mediumText => .mediumText
  | binary => .binary
  | timestamp => .timestamp
  | enum => .enum

end ScalarToken

/-- A partial table from tokens to field types. -/
abbrev ScalarTable := List (ScalarToken × FieldType)

namespace ScalarTable

/-- The field type that a table has for a token. -/
def find? (table : ScalarTable) (t : ScalarToken) : Option FieldType :=
  table.lookup t

/-- A token that a table leaves out. -/
structure Unlisted where
  token : ScalarToken
  deriving DecidableEq, Repr

/-- The field type of a token that a table must have. -/
def typeOf (table : ScalarTable) (t : ScalarToken) : Except Unlisted FieldType :=
  match table.find? t with
  | some type => .ok type
  | none => .error ⟨t⟩

/-- The standard table, which has every token. -/
def standard : ScalarTable :=
  ScalarToken.all.map fun t => (t, t.fieldType)

/-- The table of a list of entries: the last entry of a token counts, in the place of its first. -/
def ofEntries (entries : List (ScalarToken × FieldType)) : ScalarTable :=
  let put (table : ScalarTable) (e : ScalarToken × FieldType) : ScalarTable :=
    if table.any (·.1 == e.1) then table.map fun old => if old.1 = e.1 then e else old
    else table ++ [e]
  entries.foldl put []

/-- The display of a table. -/
def display (table : ScalarTable) : String :=
  "<TypeNormalizer " ++ toString table.length ++ " scalars>"

theorem standard_find? (t : ScalarToken) : standard.find? t = some t.fieldType := by
  cases t <;> rfl

end ScalarTable

end EntityGraph
