/-!
Timers: how long the steps of a run take.
-/
namespace EntityGraph

/-- A timer, with the time that it has measured in ten-thousandths of a second. -/
structure Timer where
  label : String := "operation"
  elapsed : Nat := 0

/-- The display of a timer. -/
def Timer.display (t : Timer) : String :=
  let fraction := (toString (t.elapsed % 10000)).toList.leftpad 4 '0'
  "<Timer " ++ t.label ++ ": " ++ toString (t.elapsed / 10000) ++ "." ++ String.ofList fraction ++
    "s>"

end EntityGraph
