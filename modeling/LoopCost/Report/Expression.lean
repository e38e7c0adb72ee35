/-! Big-O expressions for nesting depths. Depths of zero and below contribute no factor. -/

namespace LoopCost

def linearFactor (depth : Int) : List String :=
  if depth ≤ 0 then [] else if depth = 1 then ["N"] else ["N^" ++ toString depth]

def logFactor (depth : Int) : List String :=
  if depth ≤ 0 then [] else if depth = 1 then ["log N"] else ["log^" ++ toString depth ++ " N"]

def expression (linear log : Int) : String :=
  match linearFactor linear ++ logFactor log with
  | [] => "O(1)"
  | factors => "O(" ++ String.intercalate " × " factors ++ ")"

/-- The expression of a program that sorts and has no loop. -/
def sortExpression : String := "O(N × log N)"

end LoopCost
