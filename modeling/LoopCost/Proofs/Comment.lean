import LoopCost.Proofs.Calls
import LoopCost.Proofs.Masking
import LoopCost.Proofs.Stretching
import LoopCost.Report.Basic

/-! A block comment is worth one space. Masking makes a row of blanks of it, and no part of the report depends on how
long the row is. The one thing that could tell a comment from a space is a list of routines with an empty name behind a
name that starts with a parenthesis. -/

namespace LoopCost

open Piece

def Mode.behind (mode : Mode) : List Char → Mode
  | [] => mode
  | c :: rest => behind (mode.next c rest.head?) rest

/-- Where code goes on, only a slash waits for the character after it, or a quote for a letter or a digit. -/
theorem Mode.next_some {mode : Mode} {run : Run} {c next : Char} (normal : mode.next c none = .code run) (other : c ≠ '/')
    (plain : Unicode.isAlphanumeric next = false) : mode.next c (some next) = mode.next c none := by
  cases mode with
  | code run => simp [Mode.next, Mode.afterCode, other, isSeparator, plain]
  | blockComment => simp [Mode.next] at normal
  | lineComment | blockOpening | blockClosing | literal => rfl

theorem maskFrom_behind_code {mode : Mode} {run : Run} {front : List Char} (normal : mode.behind front = .code run)
    (last : front.getLast? ≠ some '/') {next : Char} (plain : Unicode.isAlphanumeric next = false) (rest : List Char) :
    maskFrom mode [] (front ++ next :: rest) = maskFrom mode [] front ++ maskFrom (.code run) [] (next :: rest) := by
  induction front generalizing mode with
  | nil =>
    obtain rfl : mode = .code run := normal
    rfl
  | cons c front ih =>
    rw [List.cons_append, maskFrom_cons, maskFrom_cons]
    cases front with
    | nil =>
      have other : c ≠ '/' := fun same => last (congrArg some same)
      have same := Mode.next_some (normal : mode.next c none = .code run) other plain
      have shown : mode.shows c (some next) = mode.shows c none := by unfold Mode.shows; rw [same]
      have later : maskFrom (mode.next c none) [] (next :: rest) = maskFrom (.code run) [] (next :: rest) :=
        congrArg (maskFrom · [] (next :: rest)) normal
      rw [List.nil_append, List.head?_cons, List.head?_nil, shown, same, later]
      rfl
    | cons d front =>
      have later : maskFrom (mode.next c (some d)) [] (d :: front ++ next :: rest) = _ :=
        ih normal (by rwa [List.getLast?_cons_cons] at last)
      simp only [List.cons_append, List.head?_cons] at later ⊢
      rw [later]
      rfl

/-- A space ends the run before it. -/
theorem maskFrom_space (run : Run) (rest : List Char) :
    maskFrom (.code run) [] (' ' :: rest) = ' ' :: maskFrom (.code .none) [] rest := by
  have plain : isTokenChar ' ' = false := by decide +kernel
  have stays : (Mode.code run).next ' ' rest.head? = .code .none := by simp [Mode.next, Mode.afterCode, Run.next, plain]
  have shown : (Mode.code run).shows ' ' rest.head? = true := by
    unfold Mode.shows
    rw [stays]
  rw [maskFrom_cons, stays, shown, if_pos rfl]

theorem extends_comment {inside : List Char} (single : ¬ ['*', '/'] <:+: inside) (rest : List Char) :
    Extends EndsComment (inside ++ ['*', '/']) rest := by
  refine ⟨?_, .inl (List.suffix_append _ _)⟩
  intro front leads ends
  have whole : inside ++ ['*', '/'] = (inside ++ ['*']) ++ ['/'] := by simp
  rw [whole, List.prefix_concat_iff, List.prefix_concat_iff] at leads
  rcases leads with same | same | earlier
  · rw [whole, same]
  · rw [same] at ends
    obtain ⟨before, same⟩ := ends
    have last := congrArg List.getLast? same
    simp at last
  · exact absurd (ends.isInfix.trans earlier.isInfix) single

/-- Of a comment in one line a row of spaces is left. -/
theorem maskFrom_comment (run : Run) {inside : List Char} (line : '\n' ∉ inside) (single : ¬ ['*', '/'] <:+: inside)
    (rest : List Char) :
    maskFrom (.code run) [] ('/' :: '*' :: (inside ++ ['*', '/'] ++ rest)) =
      List.replicate (inside.length + 4) ' ' ++ maskFrom (.code .none) [] rest := by
  have opens : (Mode.code run).next '/' (some '*') = .blockOpening := by simp [Mode.next, Mode.afterCode]
  have blank : (inside ++ ['*', '/']).map blanked = List.replicate (inside.length + 2) ' ' := by
    rw [List.eq_replicate_iff]
    refine ⟨by simp, ?_⟩
    intro c member
    obtain ⟨d, listed, rfl⟩ := List.mem_map.mp member
    have other : d ≠ '\n' := by
      rintro rfl
      rcases List.mem_append.mp listed with listed | listed
      · exact line listed
      · simp at listed
    exact if_neg other
  have inner := maskFrom_blockComment (extends_comment single rest)
  rw [blank] at inner
  rw [maskFrom_leaving opens (by simp), maskFrom_hidden (by simp)]
  exact congrArg (' ' :: ' ' :: ·) inner

/-- The report tells nothing but the loops, the depths and the calls. -/
theorem Analysis.report_congr {analysis other : Analysis} (metrics : analysis.outcome.metrics = other.outcome.metrics)
    (sorts : analysis.sorts = other.sorts) : analysis.report = other.report := by
  simp only [report, expression, metrics, sorts]

theorem forall_visible_iff (names : List Name) :
    (∀ name ∈ names, ∀ c ∈ name, Unicode.isBlank c = false) ↔
      names.all (·.all fun c => !Unicode.isBlank c) = true := by
  simp only [List.all_eq_true, Bool.not_eq_true']

/-- A block comment in one line, where the source would go on as code, is worth one space. -/
theorem report_of_comment {front inside : List Char} {run : Run} (normal : Mode.behind (.code .none) front = .code run)
    (last : front.getLast? ≠ some '/') (line : '\n' ∉ inside) (single : ¬ ['*', '/'] <:+: inside)
    {names : List Name} (visible : ∀ name ∈ names, ∀ c ∈ name, Unicode.isBlank c = false)
    (ordered : ∀ earlier later, names = earlier ++ [] :: later → ∀ name ∈ earlier, name.head? ≠ some '(')
    (back : List Char) :
    (Analysis.ofSource names (front ++ "/*".toList ++ inside ++ "*/".toList ++ back)).report =
      (Analysis.ofSource names (front ++ ' ' :: back)).report := by
  have source : front ++ "/*".toList ++ inside ++ "*/".toList ++ back =
      front ++ '/' :: '*' :: (inside ++ ['*', '/'] ++ back) := by simp
  have commented : mask (front ++ '/' :: '*' :: (inside ++ ['*', '/'] ++ back)) =
      mask front ++ (List.replicate (inside.length + 4) ' ' ++ maskFrom (.code .none) [] back) := by
    rw [mask, maskFrom_behind_code normal last (by decide +kernel), maskFrom_comment run line single, mask]
  have spaced : mask (front ++ ' ' :: back) = mask front ++ ([' '] ++ maskFrom (.code .none) [] back) := by
    rw [mask, maskFrom_behind_code normal last (by decide +kernel), maskFrom_space, mask]
    rfl
  have spread : Spread ' ' (mask (front ++ ' ' :: back)) (mask (front ++ '/' :: '*' :: (inside ++ ['*', '/'] ++ back))) := by
    rw [commented, spaced]
    exact (Spread.refl _).append ((Spread.replicate _).append (.refl _))
  rw [source]
  exact (Analysis.report_congr (metrics_scan_spread spread) (callCountFrom_spread visible ordered spread 0 false)).symm

/-- The comment stands between parts of a header and holds what would end it elsewhere. -/
theorem report_of_comment_in_header :
    Mode.behind (.code .none) "for(i=1'0;i<n".toList = .code .word ∧ "for(i=1'0;i<n".toList.getLast? ≠ some '/' ∧
      '\n' ∉ ";)\"* /*".toList ∧ ¬ ['*', '/'] <:+: ";)\"* /*".toList ∧
      (∀ name ∈ [[], "(".toList, "sort".toList], ∀ c ∈ name, Unicode.isBlank c = false) ∧
      (Analysis.ofSource [[], "(".toList, "sort".toList]
          ("for(i=1'0;i<n".toList ++ "/*".toList ++ ";)\"* /*".toList ++ "*/".toList ++ ";i/=2)sort  (a);".toList)).report =
        (Analysis.ofSource [[], "(".toList, "sort".toList]
          ("for(i=1'0;i<n".toList ++ ' ' :: ";i/=2)sort  (a);".toList)).report := by
  have normal : Mode.behind (.code .none) "for(i=1'0;i<n".toList = .code .word := by decide +kernel
  have last : "for(i=1'0;i<n".toList.getLast? ≠ some '/' := by decide
  have line : '\n' ∉ ";)\"* /*".toList := by decide
  have single : ¬ ['*', '/'] <:+: ";)\"* /*".toList := by decide +kernel
  have visible : ∀ name ∈ [[], "(".toList, "sort".toList], ∀ c ∈ name, Unicode.isBlank c = false :=
    (forall_visible_iff _).mpr (by decide +kernel)
  have ordered : ∀ earlier later, [[], "(".toList, "sort".toList] = earlier ++ [] :: later →
      ∀ name ∈ earlier, name.head? ≠ some '(' := by
    intro earlier later whole name member
    cases earlier with
    | nil => cases member
    | cons first earlier =>
      have listed : [] ∈ ["(".toList, "sort".toList] := by
        rw [(List.cons.inj whole).2]
        exact List.mem_append_right _ List.mem_cons_self
      exact absurd listed (by decide)
  exact ⟨normal, last, line, single, visible, report_of_comment normal last line single visible ordered _⟩

/-- A name that starts with a parenthesis takes a call away from the empty name behind it, but only where no comment
stands in front of the parenthesis. -/
theorem comment_before_empty_name :
    (∀ name ∈ [['('], []], ∀ c ∈ name, Unicode.isBlank c = false) ∧
      Mode.behind (.code .none) ['f'] = .code .word ∧ ['f'].getLast? ≠ some '/' ∧ '\n' ∉ [] ∧ ¬ ['*', '/'] <:+: [] ∧
      (Analysis.ofSource [['('], []] (['f'] ++ "/*".toList ++ [] ++ "*/".toList ++ "((".toList)).report ≠
        (Analysis.ofSource [['('], []] (['f'] ++ ' ' :: "((".toList)).report := by
  refine ⟨(forall_visible_iff _).mpr (by decide), by decide +kernel, by decide, by decide, by decide, ?_⟩
  intro same
  exact absurd (congrArg Report.sorts same) (by decide +kernel)

end LoopCost
