import EntityGraph.Schema.Block

/-!
Warnings: what a reader of schema texts passes over, and what it takes on trust.
-/
namespace EntityGraph.Schema

/-- What is worth a warning. -/
inductive Warning where
  /-- A block whose body never ends. -/
  | unclosed (kind : BlockKind) (name : String) (line : Nat)
  /-- A header without a body. -/
  | headless (kind : BlockKind) (name : String) (line : Nat)
  /-- A relation to an entity that the text does not declare. -/
  | unknownTarget (entity relation : String) (line : Int) (target : String)
  deriving DecidableEq, Repr

namespace Warning

/-- The message about a block that is passed over. -/
def skipMessage (kind : BlockKind) (name : String) (line : Nat) (why : String) : String :=
  "Skipping " ++ kind.keyword ++ " block '" ++ name ++ "' at line " ++ toString line ++ ": " ++
    why ++ "."

/-- The message of a warning. -/
def message : Warning → String
  | unclosed kind name line => skipMessage kind name line "unbalanced braces"
  | headless kind name line => skipMessage kind name line "no opening brace"
  | unknownTarget entity relation line target =>
    "Relation '" ++ entity ++ "." ++ relation ++ "' (line " ++ toString line ++
      ") targets unknown entity '" ++ target ++ "'."

end Warning

/-- The warning about a piece whose body never ends. -/
def Piece.unclosed? : Piece → Option Warning
  | .unclosed kind name line => some (.unclosed kind name line)
  | _ => none

/-- The warning about a piece without a body. -/
def Piece.headless? : Piece → Option Warning
  | .headless kind name line => some (.headless kind name line)
  | _ => none

/-- The warnings about the pieces of a text: first those about bodies that never end. -/
def pieceWarnings (ps : List Piece) : List Warning :=
  ps.filterMap Piece.unclosed? ++ ps.filterMap Piece.headless?

end EntityGraph.Schema
