import LoopCost.CommandLine.Event

/-! Events laid out as plain lines: markup is dropped and columns are aligned. -/

namespace LoopCost

/-- The length of a style tag after its opening bracket, the closing one included. -/
def tagLength? (text : List Char) : Option Nat :=
  let style := text.takeWhile fun c => c.isLower || c == ' ' || c == '/'
  if !style.isEmpty && (text.drop style.length).head? == some ']' then some (style.length + 1) else none

/-- Copies on behind what is copied already, which is kept in reverse, after `skip` characters of a tag. -/
def withoutMarkupFrom (copied : List Char) (skip : Nat) : List Char → List Char
  | [] => copied.reverse
  | c :: rest =>
    match skip with
    | more + 1 => withoutMarkupFrom copied more rest
    | 0 =>
      match if c = '[' then tagLength? rest else none with
      | some length => withoutMarkupFrom copied length rest
      | none => withoutMarkupFrom (c :: copied) 0 rest

def withoutMarkup (markup : String) : String := String.ofList (withoutMarkupFrom [] 0 markup.toList)

def padded (width : Nat) (cell : String) : String :=
  String.ofList (cell.toList ++ List.replicate (width - cell.length) ' ')

/-- Rows of cells, each column as wide as its widest cell. -/
def alignedRows : List (List String) → List String
  | rows =>
    let width (column : Nat) : Nat := (rows.map fun row => ((row[column]?).getD "").length).foldl max 0
    rows.map fun row => String.intercalate "  " (row.mapIdx fun column cell => padded (width column) cell)

/-- Numbers the lines of a source from one on. -/
def numberedLines (source : String) : List String :=
  alignedRows ((source.splitOn "\n").mapIdx fun index line => [toString (index + 1), line])

def Event.lines : Event → List String
  | stdout content => [content]
  | text content => [withoutMarkup content]
  | table title columns rows =>
    withoutMarkup title :: alignedRows (columns.map Prod.fst :: rows.map (List.map withoutMarkup))
  | panel content title _ => withoutMarkup title :: (content.splitOn "\n").map withoutMarkup
  | source content => numberedLines content
  | log message => ["DEBUG " ++ message]

end LoopCost
