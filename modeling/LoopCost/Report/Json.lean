import LoopCost.Report.Basic
import LoopCost.Text.Quoted

/-! A report as a JSON object, one member on a line. Characters beyond ASCII are written as they are. -/

namespace LoopCost

def jsonEscaped (c : Char) : List Char :=
  if c = '"' ∨ c = '\\' then ['\\', c]
  else if c = '\n' then ['\\', 'n']
  else if c = '\r' then ['\\', 'r']
  else if c = '\t' then ['\\', 't']
  else if c.toNat = 8 then ['\\', 'b']
  else if c.toNat = 12 then ['\\', 'f']
  else if c.toNat < 0x20 then '\\' :: 'u' :: hexDigits 4 c.toNat
  else [c]

def jsonString (text : String) : String := String.ofList ('"' :: text.toList.flatMap jsonEscaped ++ ['"'])

namespace Report

def members (report : Report) : List (String × String) :=
  [("expression", jsonString report.expression), ("loopCount", toString report.loops),
    ("maxLinearDepth", toString report.linear), ("maxLogDepth", toString report.log),
    ("sortCallCount", toString report.sorts), ("note", jsonString report.note)]

def json (report : Report) : String :=
  let lines := report.members.map fun (name, value) => "  " ++ jsonString name ++ ": " ++ value
  "\x7b\n" ++ String.intercalate ",\n" lines ++ "\n\x7d"

end Report

end LoopCost
