import EntityGraph.Catalog.RelationType

/-!
The types of fields: how a value is stored, or which relation a field stands for.
-/
namespace EntityGraph

/-- The type of a field. -/
inductive FieldType where
  | id | uuid | bigIncrements | foreignId | string | text | mediumText | longText | char
  | email | password | url | secret | token | phone | username | slug | ipAddress | boolean
  | integer | smallInteger | tinyInteger | bigInteger | unsignedInteger | unsignedSmallInteger
  | unsignedTinyInteger | unsignedBigInteger | float | double | decimal | date | dateTime
  | time | timestamp | year | json | jsonb | binary | file | image | enum | belongsTo | hasOne
  | hasMany | belongsToMany
  deriving DecidableEq, Repr

namespace FieldType

/-- The spelling of a member in documents. -/
def label : FieldType → String
  | id => "id"
  | uuid => "uuid"
  | bigIncrements => "bigIncrements"
  | foreignId => "foreignId"
  | string => "string"
  | text => "text"
  | mediumText => "mediumText"
  | longText => "longText"
  | char => "char"
  | email => "email"
  | password => "password"
  | url => "url"
  | secret => "secret"
  | token => "token"
  | phone => "phone"
  | username => "username"
  | slug => "slug"
  | ipAddress => "ipAddress"
  | boolean => "boolean"
  | integer => "integer"
  | smallInteger => "smallInteger"
  | tinyInteger => "tinyInteger"
  | bigInteger => "bigInteger"
  | unsignedInteger => "unsignedInteger"
  | unsignedSmallInteger => "unsignedSmallInteger"
  | unsignedTinyInteger => "unsignedTinyInteger"
  | unsignedBigInteger => "unsignedBigInteger"
  | float => "float"
  | double => "double"
  | decimal => "decimal"
  | date => "date"
  | dateTime => "dateTime"
  | time => "time"
  | timestamp => "timestamp"
  | year => "year"
  | json => "json"
  | jsonb => "jsonb"
  | binary => "binary"
  | file => "file"
  | image => "image"
  | enum => "enum"
  | belongsTo => "belongsTo"
  | hasOne => "hasOne"
  | hasMany => "hasMany"
  | belongsToMany => "belongsToMany"

/-- The name of the constant that stands for a member. -/
def constantName : FieldType → String
  | id => "ID"
  | uuid => "UUID"
  | bigIncrements => "BIG_INCREMENTS"
  | foreignId => "FOREIGN_ID"
  | string => "STRING"
  | text => "TEXT"
  | mediumText => "MEDIUM_TEXT"
  | longText => "LONG_TEXT"
  | char => "CHAR"
  | email => "EMAIL"
  | password => "PASSWORD"
  | url => "URL"
  | secret => "SECRET"
  | token => "TOKEN"
  | phone => "PHONE"
  | username => "USERNAME"
  | slug => "SLUG"
  | ipAddress => "IP_ADDRESS"
  | boolean => "BOOLEAN"
  | integer => "INTEGER"
  | smallInteger => "SMALL_INTEGER"
  | tinyInteger => "TINY_INTEGER"
  | bigInteger => "BIG_INTEGER"
  | unsignedInteger => "UNSIGNED_INTEGER"
  | unsignedSmallInteger => "UNSIGNED_SMALL_INTEGER"
  | unsignedTinyInteger => "UNSIGNED_TINY_INTEGER"
  | unsignedBigInteger => "UNSIGNED_BIG_INTEGER"
  | float => "FLOAT"
  | double => "DOUBLE"
  | decimal => "DECIMAL"
  | date => "DATE"
  | dateTime => "DATETIME"
  | time => "TIME"
  | timestamp => "TIMESTAMP"
  | year => "YEAR"
  | json => "JSON"
  | jsonb => "JSONB"
  | binary => "BINARY"
  | file => "FILE"
  | image => "IMAGE"
  | enum => "ENUM"
  | belongsTo => "BELONGS_TO"
  | hasOne => "HAS_ONE"
  | hasMany => "HAS_MANY"
  | belongsToMany => "BELONGS_TO_MANY"

/-- All members, in the order of the catalogue. -/
def all : List FieldType := [
  id, uuid, bigIncrements, foreignId, string, text, mediumText, longText, char, email, password,
  url, secret, token, phone, username, slug, ipAddress, boolean, integer, smallInteger,
  tinyInteger, bigInteger, unsignedInteger, unsignedSmallInteger, unsignedTinyInteger,
  unsignedBigInteger, float, double, decimal, date, dateTime, time, timestamp, year, json, jsonb,
  binary, file, image, enum, belongsTo, hasOne, hasMany, belongsToMany]

/-- The member with a spelling. -/
def ofLabel? (s : String) : Option FieldType :=
  all.find? fun t => t.label == s

theorem mem_all (t : FieldType) : t ∈ all := by
  cases t <;> decide

theorem ofLabel?_label (t : FieldType) : ofLabel? t.label = some t := by
  cases t <;> decide +kernel

/-- The kind of relation that a type stands for. -/
def relationType? : FieldType → Option RelationType
  | belongsTo => some .belongsTo
  | hasOne => some .hasOne
  | hasMany => some .hasMany
  | belongsToMany => some .belongsToMany
  | _ => none

/-- A type that stands for a relation. -/
def isRelation (t : FieldType) : Bool :=
  t.relationType?.isSome

/-- A type whose values are points or periods of time. -/
def isTemporal : FieldType → Bool
  | date | dateTime | time | timestamp | year => true
  | _ => false

end FieldType

end EntityGraph
