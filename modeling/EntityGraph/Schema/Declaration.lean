import EntityGraph.Schema.Directive
import EntityGraph.Text.Quoted

/-!
Declarations: the lines `name: Type @directive(argument) …` of a block.
-/
namespace EntityGraph.Schema

/-- A line of a block body that declares something. -/
structure Declaration where
  name : String
  rawType : String
  directives : Directives
  line : Int
  deriving DecidableEq, Repr

/-- The values that the directives of a declaration have: true for one without parentheses. -/
def Declaration.hints (d : Declaration) :
    Except Decimal.DigitExcess (List (String × Value)) :=
  d.directives.mapM fun (name, arg) =>
    match arg with
    | none => .ok (name, .bool true)
    | some a => (literal a).map (name, ·)

/-- A line that declares nothing. -/
structure DeclarationFault where
  line : Int
  block : String
  text : String
  deriving DecidableEq, Repr

/-- The message about a line that declares nothing. -/
def DeclarationFault.message (f : DeclarationFault) : String :=
  "Cannot parse field line " ++ toString f.line ++ " in '" ++ f.block ++ "': " ++
    Text.quoted f.text

/-- The type token and the directives behind the colon. Directives stand on one line; a text in
    which they do not has neither. -/
def typeAndDirectives (cs : List Char) : List Char × List Char :=
  let cs := Text.trimChars cs
  let inToken (c : Char) := !Text.isBlank c && c != '@'
  let token := cs.takeWhile inToken
  let after := (cs.dropWhile inToken).dropWhile Text.isBlank
  if after.contains '\n' then ([], []) else (token, after)

/-- Reads a line of a block: a name that is not blank, a colon, a type and directives. -/
def Declaration.ofLine (line : String) (number : Int) (block : String) :
    Except DeclarationFault Declaration :=
  let cs := line.toList
  let name := Text.trimChars (cs.takeWhile (· != ':'))
  match cs.dropWhile (· != ':') with
  | _ :: rest =>
    if name.isEmpty then .error ⟨number, block, line⟩
    else
      let (token, directives) := typeAndDirectives rest
      .ok ⟨String.ofList name, String.ofList token, directivesOf directives, number⟩
  | [] => .error ⟨number, block, line⟩

end EntityGraph.Schema
