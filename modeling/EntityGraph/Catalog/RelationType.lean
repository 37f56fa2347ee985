/-!
The kinds of relations between two entities.
-/
namespace EntityGraph

/-- The kind of a relation. -/
inductive RelationType where
  | belongsTo | hasOne | hasMany | belongsToMany | morphOne | morphMany | morphTo
  | morphToMany | morphedByMany
  deriving DecidableEq, Repr

namespace RelationType

/-- The spelling of a member in documents. -/
def label : RelationType → String
  | belongsTo => "belongsTo"
  | hasOne => "hasOne"
  | hasMany => "hasMany"
  | belongsToMany => "belongsToMany"
  | morphOne => "morphOne"
  | morphMany => "morphMany"
  | morphTo => "morphTo"
  | morphToMany => "morphToMany"
  | morphedByMany => "morphedByMany"

/-- The name of the constant that stands for a member. -/
def constantName : RelationType → String
  | belongsTo => "BELONGS_TO"
  | hasOne => "HAS_ONE"
  | hasMany => "HAS_MANY"
  | belongsToMany => "BELONGS_TO_MANY"
  | morphOne => "MORPH_ONE"
  | morphMany => "MORPH_MANY"
  | morphTo => "MORPH_TO"
  | morphToMany => "MORPH_TO_MANY"
  | morphedByMany => "MORPHED_BY_MANY"

/-- All members, in the order of the catalogue. -/
def all : List RelationType := [
  belongsTo, hasOne, hasMany, belongsToMany, morphOne, morphMany, morphTo, morphToMany,
  morphedByMany]

/-- The member with a spelling. -/
def ofLabel? (s : String) : Option RelationType :=
  all.find? fun t => t.label == s

theorem mem_all (t : RelationType) : t ∈ all := by
  cases t <;> decide

theorem ofLabel?_label (t : RelationType) : ofLabel? t.label = some t := by
  cases t <;> decide +kernel

/-- Kinds whose owner or target is named by a discriminator column. -/
def isPolymorphic : RelationType → Bool
  | morphOne | morphMany | morphTo | morphToMany | morphedByMany => true
  | belongsTo | hasOne | hasMany | belongsToMany => false

/-- Kinds that keep their pairs in a junction table. -/
def requiresPivot : RelationType → Bool
  | belongsToMany | morphToMany | morphedByMany => true
  | _ => false

/-- Kinds with one target entity; the target of the others depends on the row. -/
def requiresTarget : RelationType → Bool
  | morphTo => false
  | _ => true

/-- Kinds with any number of targets. -/
def isToMany : RelationType → Bool
  | hasMany | belongsToMany | morphMany | morphToMany | morphedByMany => true
  | _ => false

/-- Kinds whose targets are listed under the owner's path. -/
def hasRoute : RelationType → Bool
  | hasMany | belongsToMany | morphMany => true
  | _ => false

end RelationType

end EntityGraph
