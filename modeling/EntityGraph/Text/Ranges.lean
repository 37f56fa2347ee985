/-!
Sets of code points given by their bounds: an ascending list of the points where membership
changes, beginning outside the set.
-/
namespace EntityGraph.Text

/-- Whether an odd number of the bounds lies at or below a code point. -/
def within (bounds : List Nat) (n : Nat) : Bool :=
  bounds.foldl (fun inside b => if b ≤ n then !inside else inside) false

end EntityGraph.Text
