import LoopCost.Report.Basic

/-! The account of an analysis, line by line: loops in the order in which they end, then the totals, then the
estimate. -/

namespace LoopCost

/-- The line for a note on a text of the given size. Offsets count characters from the start of the text. -/
def Note.line (size : Nat) : Note → String
  | headless keyword after =>
    "'" ++ keyword.spelling ++ "' at offset " ++ toString (size - after.length) ++ " has no balanced header"
  | loop keyword header growth =>
    keyword.spelling ++ " (" ++ String.ofList (Unicode.trim header) ++ ") -> " ++ growth.label

def Metrics.line (size : Nat) (metrics : Metrics) : String :=
  "Scanned " ++ toString size ++ " chars: " ++ toString metrics.loops ++ " loop(s), linear depth " ++
    toString metrics.linear ++ ", log depth " ++ toString metrics.log

namespace Analysis

def estimateLine (analysis : Analysis) : String :=
  "Estimated " ++ analysis.expression ++ " (" ++ toString analysis.outcome.metrics.loops ++ " loops, " ++
    toString analysis.sorts ++ " sort calls)"

def log (analysis : Analysis) : List String :=
  analysis.outcome.notes.map (Note.line analysis.size) ++
    [analysis.outcome.metrics.line analysis.size, analysis.estimateLine]

end Analysis

end LoopCost
