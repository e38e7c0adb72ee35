import LoopCost.Cost.Assessment
import LoopCost.Report.Json

/-! What a command prints, before it is laid out: tables, panels and lines of text with markup. -/

namespace LoopCost

inductive Event
  /-- Lines without markup. -/
  | stdout (content : String)
  | text (content : String)
  /-- Columns have a header and a style. -/
  | table (title : String) (columns : List (String × String)) (rows : List (List String))
  | panel (content title style : String)
  | source (content : String)
  | log (message : String)

namespace Event

def fault (message : String) : Event := text ("[red]Error:[/red] " ++ message)

/-- A table of names and values. -/
def properties (title : String) (rows : List (List String)) : Event :=
  table title [("Metric", "cyan"), ("Value", "green")] rows

end Event

def Verdict.style : Verdict → String
  | safe => "green"
  | borderline => "yellow"
  | exceeded => "red"

end LoopCost
