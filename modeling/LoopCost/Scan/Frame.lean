import LoopCost.Scan.Statement

/-! An open construct and what has been found inside it. A `while` loop also watches the simple statements of
its own body for one that rescales a name of its condition; statements inside a nested loop belong to that
loop. Blocks and branches pass on the watch of the loop around them. -/

namespace LoopCost

structure Watch where
  names : List Name
  rescaled : Bool := false

def Watch.observe (watch : Watch) (statement : List Char) : Watch :=
  if watch.rescaled then watch else { watch with rescaled := rescales statement watch.names }

structure Frame where
  construct : Construct
  /-- No statement inside has ended yet. -/
  fresh : Bool := true
  linear : Nat := 0
  log : Nat := 0
  /-- The watch that statements directly inside report to. -/
  watch : Option Watch := none

/-- Whether statements go on inside, or end. -/
inductive Move
  | start (frame : Frame) (place : Place)
  | finish (place : Place)

namespace Construct

def isLoop : Construct → Bool
  | forLoop _ | whileLoop _ | doLoop => true
  | _ => false

/-- The watch inside a construct, given the one around it. -/
def watch (construct : Construct) (around : Option Watch) : Option Watch :=
  match construct with
  | whileLoop condition => some { names := freeNames condition }
  | forLoop _ | doLoop => none
  | _ => around

end Construct

namespace Place

/-- After the `while (...);` of a `do` loop, as far as it is there. -/
def afterDo (place : Place) : Place :=
  let (word, rest) := place.skipBlanks.readWord
  match Keyword.ofWord? word with
  | some .whileWord =>
    match rest.readHeader? with
    | some (_, after) =>
      match skipBlanks after with
      | ⟨';', _⟩ :: next => next
      | next => next
    | none => rest
  | _ => place

/-- After an `else`, if one comes next. -/
def afterElse? (place : Place) : Option Place :=
  let (word, rest) := place.skipBlanks.readWord
  match Keyword.ofWord? word with
  | some .elseWord => some rest
  | _ => none

theorem length_afterDo_le (place : Place) : place.afterDo.length ≤ place.length := by
  have bound := length_skipBlanks_le place
  have word := length_readWord_le place.skipBlanks
  unfold afterDo
  dsimp only
  split
  · split
    · next header after found =>
      have shorter := length_readHeader?_lt found
      have blank := length_skipBlanks_le after
      split
      · next here => rw [here] at blank; simp only [List.length_cons] at blank; omega
      · omega
    · omega
  · exact Nat.le_refl _

theorem length_afterElse?_lt {place after : Place} (found : place.afterElse? = some after) :
    after.length < place.length := by
  have bound := length_skipBlanks_le place
  unfold afterElse? at found
  dsimp only at found
  split at found
  · next keyword =>
    cases found
    cases here : place.skipBlanks with
    | nil => rw [here] at keyword; simp [readWord, plain, Keyword.ofWord?, Keyword.spelling] at keyword
    | cons first rest =>
      rw [here] at keyword bound
      by_cases starts : isWordChar first.char = true
      · exact Nat.lt_of_lt_of_le (length_readWord_lt starts) bound
      · simp [readWord, plain, starts, Keyword.ofWord?, Keyword.spelling] at keyword
  · simp at found

end Place

namespace Frame

def enter (construct : Construct) (around : Option Watch) : Frame :=
  { construct, watch := construct.watch around }

def observe (frame : Frame) (statement : Option (List Char)) : Frame :=
  match statement with
  | some text => { frame with watch := frame.watch.map (·.observe text) }
  | none => frame

/-- Takes in a statement that has ended, with the deepest nesting inside it. -/
def absorb (frame : Frame) (linear log : Nat) : Frame :=
  { frame with fresh := false, linear := max frame.linear linear, log := max frame.log log }

/-- What a frame does where the statement before has ended. -/
def resume (frame : Frame) (place : Place) : Move :=
  match frame.construct with
  | .program =>
    match place.skipClosers with
    | [] => .finish []
    | here => .start frame here
  | .block =>
    match place.skipBlanks with
    | [] => .finish []
    | glyph :: rest => if glyph.char = '}' then .finish rest else .start frame (glyph :: rest)
  | .doLoop => if frame.fresh then .start frame place else .finish place.afterDo
  | .conditional =>
    if frame.fresh then .start frame place
    else match place.afterElse? with
      | some body => .start { frame with construct := .branch, fresh := true } body
      | none => .finish place
  | .forLoop _ | .whileLoop _ | .branch => if frame.fresh then .start frame place else .finish place

/-- The growth of a loop whose body has ended. -/
def growth? (frame : Frame) : Option Growth :=
  match frame.construct with
  | .forLoop header => some (.ofFor header)
  | .whileLoop condition => some (.ofWhile condition [] (frame.watch.any Watch.rescaled))
  | .doLoop => some .linear
  | _ => none

/-- What is told of a loop of that growth; nothing of a loop over a range or of a `do` loop. -/
def note? (frame : Frame) (growth : Growth) : Option Note :=
  match frame.construct with
  | .forLoop header => if (headerParts header).length < 3 then none else some (.loop .forWord header growth)
  | .whileLoop condition => some (.loop .whileWord condition growth)
  | _ => none

/-- Counts the construct itself, if it is a loop, on top of the nesting inside it. -/
def deepen (frame : Frame) (growth : Option Growth) : Frame :=
  match growth with
  | some .linear => { frame with linear := frame.linear + 1 }
  | some .logarithmic => { frame with log := frame.log + 1 }
  | _ => frame

/-- Takes in a construct that has ended, with what its statements showed to a watch that the two share. -/
def absorbFrame (frame inner : Frame) : Frame :=
  let outer := frame.absorb inner.linear inner.log
  if inner.construct.isLoop then outer else { outer with watch := inner.watch }

end Frame

end LoopCost
