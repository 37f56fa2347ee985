import EntityGraph.Schema.Literal
import EntityGraph.Text.Word

/-!
Directives: the marks `@name` and `@name(argument)` behind a field or a block header. An argument is
kept as it is written; `arg` takes the quotation marks off.
-/
namespace EntityGraph.Schema

/-- Directives with their arguments, if they have parentheses. Every name stands once. -/
abbrev Directives := List (String × Option String)

namespace Directives

/-- Adds a directive; one that is there already keeps its place and gets the new argument. -/
def put (ds : Directives) (name : String) (arg : Option String) : Directives :=
  match ds with
  | [] => [(name, arg)]
  | (n, a) :: rest => if n = name then (n, arg) :: rest else (n, a) :: put rest name arg

/-- Whether a directive is there. -/
def has (ds : Directives) (name : String) : Bool :=
  ds.any (·.1 == name)

/-- The argument of a directive as it is written. -/
def raw? (ds : Directives) (name : String) : Option String :=
  (ds.lookup name).join

/-- The argument of a directive without quotation marks, unless that is empty. -/
def arg? (ds : Directives) (name : String) : Option String :=
  (ds.raw? name).bind fun a =>
    let a := unquote a
    if a.isEmpty then none else some a

end Directives

/-- The argument that follows a directive's name, and the text behind it: a parenthesis that is
    closed. -/
def argument? (cs : List Char) : Option (List Char × List Char) :=
  match cs with
  | '(' :: inner =>
    match inner.dropWhile (· != ')') with
    | _ :: rest => some (inner.takeWhile (· != ')'), rest)
    | [] => none
  | _ => none

theorem length_of_argument? {cs inner rest : List Char} (h : argument? cs = some (inner, rest)) :
    rest.length < cs.length := by
  unfold argument? at h
  split at h
  · rename_i inner'
    split at h
    · rename_i heq
      have := (List.dropWhile_sublist (l := inner') (· != ')')).length_le
      rw [heq] at this
      simp only [Option.some.injEq, Prod.mk.injEq] at h
      obtain ⟨_, rfl⟩ := h
      simp only [List.length_cons] at this ⊢
      omega
    · simp at h
  · simp at h

/-- The directives of a text one by one, in order. -/
def directiveOccurrences (cs : List Char) : List (String × Option String) :=
  match cs with
  | [] => []
  | c :: rest =>
    if c = '@' then
      let name := rest.takeWhile Text.isWordChar
      let after := rest.dropWhile Text.isWordChar
      if name.isEmpty then directiveOccurrences rest
      else
        match _found : argument? after with
        | some (arg, behind) =>
          (String.ofList name, some (String.ofList arg)) :: directiveOccurrences behind
        | none => (String.ofList name, none) :: directiveOccurrences after
    else directiveOccurrences rest
termination_by cs.length
decreasing_by
  · simp
  · have h1 := length_of_argument? _found
    have h2 : after.length ≤ rest.length := (List.dropWhile_sublist Text.isWordChar).length_le
    simp only [List.length_cons]; omega
  · have h2 := (List.dropWhile_sublist (l := rest) Text.isWordChar).length_le
    simp only [List.length_cons]; omega
  · simp

/-- The directives of a text. -/
def directivesOf (cs : List Char) : Directives :=
  (directiveOccurrences cs).foldl (fun ds d => Directives.put ds d.1 d.2) []

end EntityGraph.Schema
