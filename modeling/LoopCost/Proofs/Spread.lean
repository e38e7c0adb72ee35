import LoopCost.Text.Lexeme
import LoopCost.Proofs.Balance

/-! Lists that differ only in how long the runs of gaps are. What looks for anything but gaps finds the same in both,
and what skips gaps comes to places that are alike again. -/

namespace LoopCost

/-- In the second list some gaps of the first one are repeated. -/
inductive Spread {α : Type} (gap : α) : List α → List α → Prop
  | nil : Spread gap [] []
  | keep (a : α) {list other : List α} (rest : Spread gap list other) : Spread gap (a :: list) (a :: other)
  | more {list other : List α} (rest : Spread gap list (gap :: other)) : Spread gap list (gap :: gap :: other)

namespace Spread

variable {α β : Type} {gap : α} {list other : List α}

theorem refl (list : List α) : Spread gap list list := by
  induction list with
  | nil => exact .nil
  | cons a list ih => exact ih.keep a

theorem append {list' other' : List α} (spread : Spread gap list other) (spread' : Spread gap list' other') :
    Spread gap (list ++ list') (other ++ other') := by
  induction spread with
  | nil => exact spread'
  | keep a _ ih => exact ih.keep a
  | more _ ih => exact ih.more

/-- A single gap may be any number of gaps. -/
theorem replicate (extra : Nat) : Spread gap [gap] (List.replicate (extra + 1) gap) := by
  induction extra with
  | zero => exact .refl _
  | succ extra ih => exact ih.more

theorem head?_eq (spread : Spread gap list other) : list.head? = other.head? := by
  induction spread with
  | nil | keep => rfl
  | more _ ih => exact ih

theorem nil_left (spread : Spread gap [] other) : other = [] := by
  have same := spread.head?_eq
  exact List.head?_eq_none_iff.mp same.symm

theorem cons_left {a : α} (solid : a ≠ gap) (spread : Spread gap (a :: list) other) :
    ∃ rest, other = a :: rest ∧ Spread gap list rest := by
  cases spread with
  | keep a rest => exact ⟨_, rfl, rest⟩
  | more rest => exact absurd (Option.some.inj rest.head?_eq) solid

theorem cons_right {a : α} (solid : a ≠ gap) (spread : Spread gap list (a :: other)) :
    ∃ rest, list = a :: rest ∧ Spread gap rest other := by
  cases spread with
  | keep a rest => exact ⟨_, rfl, rest⟩
  | more => exact absurd rfl solid

/-- Where the second list starts with a gap, the first one does. -/
theorem exists_gap (spread : Spread gap list (gap :: other)) : ∃ rest, list = gap :: rest :=
  List.head?_eq_some_iff.mp spread.head?_eq

theorem dropWhile (spread : Spread gap list other) (skipped : α → Bool) :
    Spread gap (list.dropWhile skipped) (other.dropWhile skipped) := by
  induction spread with
  | nil => exact .nil
  | keep a rest ih =>
    rw [List.dropWhile_cons, List.dropWhile_cons]
    split
    · exact ih
    · exact rest.keep a
  | more rest ih =>
    by_cases skips : skipped gap = true
    · rwa [List.dropWhile_cons, if_pos skips]
    · obtain ⟨tail, rfl⟩ := rest.exists_gap
      rw [List.dropWhile_cons, if_neg skips, List.dropWhile_cons, if_neg skips]
      exact rest.more

theorem takeWhile (spread : Spread gap list other) (taken : α → Bool) :
    Spread gap (list.takeWhile taken) (other.takeWhile taken) := by
  induction spread with
  | nil => exact .nil
  | keep a rest ih =>
    rw [List.takeWhile_cons, List.takeWhile_cons]
    split
    · exact ih.keep a
    · exact .nil
  | more rest ih =>
    by_cases takes : taken gap = true
    · rw [List.takeWhile_cons, if_pos takes] at ih
      rw [List.takeWhile_cons, if_pos takes, List.takeWhile_cons, if_pos takes]
      exact ih.more
    · obtain ⟨tail, rfl⟩ := rest.exists_gap
      rw [List.takeWhile_cons, if_neg takes, List.takeWhile_cons, if_neg takes]
      exact .nil

/-- Lists without gaps are the same. -/
theorem eq_of_not_mem (spread : Spread gap list other) (without : gap ∉ list) : list = other := by
  induction spread with
  | nil => rfl
  | keep a rest ih => rw [ih fun member => without (List.mem_cons_of_mem a member)]
  | more rest =>
    obtain ⟨tail, rfl⟩ := rest.exists_gap
    exact absurd List.mem_cons_self without

theorem takeWhile_eq (spread : Spread gap list other) {taken : α → Bool} (stops : taken gap = false) :
    list.takeWhile taken = other.takeWhile taken := by
  apply (spread.takeWhile taken).eq_of_not_mem
  intro member
  have takes := List.all_eq_true.mp List.all_takeWhile gap member
  rw [stops] at takes
  cases takes

theorem filterMap_eq (spread : Spread gap list other) {shown : α → Option β} (hidden : shown gap = none) :
    list.filterMap shown = other.filterMap shown := by
  induction spread with
  | nil => rfl
  | keep a rest ih => rw [List.filterMap_cons, List.filterMap_cons, ih]
  | more rest ih => rw [ih, List.filterMap_cons_none hidden, List.filterMap_cons_none hidden, List.filterMap_cons_none hidden]

theorem any_eq (spread : Spread gap list other) (pattern : α → Bool) : list.any pattern = other.any pattern := by
  induction spread with
  | nil => rfl
  | keep a rest ih => rw [List.any_cons, List.any_cons, ih]
  | more rest ih => rw [ih, List.any_cons, List.any_cons, List.any_cons, ← Bool.or_assoc, Bool.or_self]

/-- What stands on either side of something else is spread by itself. -/
theorem split_left {front back : List α} {stop : α} (solid : stop ≠ gap) (spread : Spread gap (front ++ stop :: back) other) :
    ∃ front' back', other = front' ++ stop :: back' ∧ Spread gap front front' ∧ Spread gap back back' := by
  generalize whole : front ++ stop :: back = list at spread
  induction spread generalizing front with
  | nil => simp at whole
  | keep a rest ih =>
    cases front with
    | nil =>
      obtain ⟨rfl, rfl⟩ := List.cons.inj whole
      exact ⟨[], _, rfl, .nil, rest⟩
    | cons b front =>
      obtain ⟨rfl, later⟩ := List.cons.inj whole
      obtain ⟨front', back', rfl, before, behind⟩ := ih later
      exact ⟨b :: front', back', rfl, before.keep b, behind⟩
  | more rest ih =>
    obtain ⟨front', back', same, before, behind⟩ := ih whole
    cases front' with
    | nil => exact absurd (List.cons.inj same).1.symm solid
    | cons b front' =>
      obtain ⟨rfl, -⟩ := List.cons.inj same
      exact ⟨gap :: gap :: front', back', congrArg (gap :: ·) same, before.more, behind⟩

theorem split_right {front back : List α} {stop : α} (solid : stop ≠ gap) (spread : Spread gap list (front ++ stop :: back)) :
    ∃ front' back', list = front' ++ stop :: back' ∧ Spread gap front' front ∧ Spread gap back' back := by
  generalize whole : front ++ stop :: back = other at spread
  induction spread generalizing front with
  | nil => simp at whole
  | keep a rest ih =>
    cases front with
    | nil =>
      obtain ⟨rfl, rfl⟩ := List.cons.inj whole
      exact ⟨[], _, rfl, .nil, rest⟩
    | cons b front =>
      obtain ⟨rfl, later⟩ := List.cons.inj whole
      obtain ⟨front', back', rfl, before, behind⟩ := ih later
      exact ⟨b :: front', back', rfl, before.keep b, behind⟩
  | more rest ih =>
    cases front with
    | nil => exact absurd (List.cons.inj whole).1 solid
    | cons b front =>
      obtain ⟨rfl, later⟩ := List.cons.inj whole
      obtain ⟨front', back', rfl, before, behind⟩ := ih later
      cases front with
      | nil => exact absurd (List.cons.inj later).1 solid
      | cons b front =>
        obtain ⟨rfl, -⟩ := List.cons.inj later
        exact ⟨front', back', rfl, before.more, behind⟩

theorem suffix_left {place : List α} (spread : Spread gap list other) (within : place <:+ list) :
    ∃ place', place' <:+ other ∧ Spread gap place place' := by
  induction spread with
  | nil =>
    obtain rfl := List.suffix_nil.mp within
    exact ⟨[], List.suffix_refl _, .nil⟩
  | keep a rest ih =>
    rcases List.suffix_cons_iff.mp within with rfl | later
    · exact ⟨_, List.suffix_refl _, rest.keep a⟩
    · obtain ⟨place', within', spread⟩ := ih later
      exact ⟨place', within'.trans (List.suffix_cons _ _), spread⟩
  | more rest ih =>
    obtain ⟨place', within', spread⟩ := ih within
    exact ⟨place', within'.trans (List.suffix_cons _ _), spread⟩

theorem suffix_right {place : List α} (spread : Spread gap list other) (within : place <:+ other) :
    ∃ place', place' <:+ list ∧ Spread gap place' place := by
  induction spread with
  | nil =>
    obtain rfl := List.suffix_nil.mp within
    exact ⟨[], List.suffix_refl _, .nil⟩
  | keep a rest ih =>
    rcases List.suffix_cons_iff.mp within with rfl | later
    · exact ⟨_, List.suffix_refl _, rest.keep a⟩
    · obtain ⟨place', within', spread⟩ := ih later
      exact ⟨place', within'.trans (List.suffix_cons _ _), spread⟩
  | more rest ih =>
    rcases List.suffix_cons_iff.mp within with rfl | later
    · exact ⟨_, List.suffix_refl _, rest.more⟩
    · exact ih later

/-- A beginning without gaps stands in front of both lists. -/
theorem append_left {front back : List α} (without : gap ∉ front) (spread : Spread gap (front ++ back) other) :
    ∃ back', other = front ++ back' ∧ Spread gap back back' := by
  induction front generalizing other with
  | nil => exact ⟨other, rfl, spread⟩
  | cons a front ih =>
    rw [List.mem_cons, not_or] at without
    obtain ⟨rest, rfl, tails⟩ := spread.cons_left (Ne.symm without.1)
    obtain ⟨back', rfl, backs⟩ := ih without.2 tails
    exact ⟨back', rfl, backs⟩

theorem append_right {front back : List α} (without : gap ∉ front) (spread : Spread gap list (front ++ back)) :
    ∃ back', list = front ++ back' ∧ Spread gap back' back := by
  induction front generalizing list with
  | nil => exact ⟨list, rfl, spread⟩
  | cons a front ih =>
    rw [List.mem_cons, not_or] at without
    obtain ⟨rest, rfl, tails⟩ := spread.cons_right (Ne.symm without.1)
    obtain ⟨back', rfl, backs⟩ := ih without.2 tails
    exact ⟨back', rfl, backs⟩

theorem prefix_iff {sign : List α} (without : gap ∉ sign) (spread : Spread gap list other) :
    sign <+: list ↔ sign <+: other := by
  constructor
  · intro ⟨tail, whole⟩
    obtain ⟨rest, rfl, -⟩ := append_left without (whole ▸ spread)
    exact List.prefix_append _ _
  · intro ⟨tail, whole⟩
    obtain ⟨rest, rfl, -⟩ := append_right without (whole ▸ spread)
    exact List.prefix_append _ _

theorem mem_iff (spread : Spread gap list other) (a : α) : a ∈ list ↔ a ∈ other := by
  induction spread with
  | nil => rfl
  | keep b _ ih => rw [List.mem_cons, List.mem_cons, ih]
  | more _ ih => rw [ih, List.mem_cons, List.mem_cons, List.mem_cons, ← or_assoc, or_self]

end Spread

def Respaced {α : Type} (gap : α) (list other : List α) : Prop := Spread gap list other ∨ Spread gap other list

namespace Respaced

variable {α β : Type} {gap : α} {list other : List α} (alike : Respaced gap list other)
include alike

theorem symm : Respaced gap other list := Or.symm alike

theorem head?_eq : list.head? = other.head? := by
  rcases alike with spread | spread
  · exact spread.head?_eq
  · exact spread.head?_eq.symm

theorem dropWhile (skipped : α → Bool) : Respaced gap (list.dropWhile skipped) (other.dropWhile skipped) :=
  alike.imp (·.dropWhile skipped) (·.dropWhile skipped)

theorem takeWhile (taken : α → Bool) : Respaced gap (list.takeWhile taken) (other.takeWhile taken) :=
  alike.imp (·.takeWhile taken) (·.takeWhile taken)

theorem filterMap_eq {shown : α → Option β} (hidden : shown gap = none) : list.filterMap shown = other.filterMap shown := by
  rcases alike with spread | spread
  · exact spread.filterMap_eq hidden
  · exact (spread.filterMap_eq hidden).symm

theorem any_eq (pattern : α → Bool) : list.any pattern = other.any pattern := by
  rcases alike with spread | spread
  · exact spread.any_eq pattern
  · exact (spread.any_eq pattern).symm

theorem prefix_of_prefix {sign : List α} (without : gap ∉ sign) (leads : sign <+: list) : sign <+: other := by
  rcases alike with spread | spread
  · exact (spread.prefix_iff without).mp leads
  · exact (spread.prefix_iff without).mpr leads

theorem exists_suffix {place : List α} (within : place <:+ list) : ∃ place', place' <:+ other ∧ Respaced gap place place' := by
  rcases alike with spread | spread
  · obtain ⟨place', within', spread'⟩ := spread.suffix_left within
    exact ⟨place', within', .inl spread'⟩
  · obtain ⟨place', within', spread'⟩ := spread.suffix_right within
    exact ⟨place', within', .inr spread'⟩

omit alike in
theorem cons {a : α} (solid : a ≠ gap) (alike : Respaced gap (a :: list) other) :
    ∃ rest, other = a :: rest ∧ Respaced gap list rest := by
  rcases alike with spread | spread
  · obtain ⟨rest, same, spread'⟩ := spread.cons_left solid
    exact ⟨rest, same, .inl spread'⟩
  · obtain ⟨rest, same, spread'⟩ := spread.cons_right solid
    exact ⟨rest, same, .inr spread'⟩

end Respaced

end LoopCost
