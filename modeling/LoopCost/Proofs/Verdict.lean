import LoopCost.Cost.Assessment
import LoopCost.Proofs.Double

/-! Whether an infinite count is refused. A count that is out of range, negative or no number is taken for infinite, so
that no budget allows it. But the budget is a product of entered numbers and may leave the range as well, and of two
infinities neither is greater. -/

namespace LoopCost

theorem bind_eq_ok {ε α β : Type} {first : Except ε α} {next : α → Except ε β} {result : β} :
    first >>= next = .ok result ↔ ∃ value, first = .ok value ∧ next value = .ok result := by
  cases first <;> simp [bind, Except.bind]

theorem Verdict.ofCount_infinity (budget : Float) :
    Verdict.ofCount infinity budget = if budget = infinity then .safe else .exceeded := by
  have tenth : unpack 0.1 = .finite .positive 7205759403792794 (-56) (by decide) := rfl
  have first : infinity ≤ budget * 0.1 ↔ budget = infinity := infinity_le_mul tenth (by decide)
  unfold ofCount
  simp only [first, infinity_le_iff]
  split <;> rfl

namespace Assessment

/-- A count that is kept is finite, and the verdict is that of the count and the budget that are shown beside it. -/
theorem verdict_of_judge {label : String} {count : Float} {timeLimit : Entry} {speed : Speed} {assessment : Assessment}
    (judged : judge label count timeLimit speed = .ok assessment) :
    (assessment.count = infinity ∨ assessment.count.isFinite = true) ∧
      assessment.verdict = .ofCount assessment.count assessment.budget := by
  simp only [judge, bind_eq_ok] at judged
  obtain ⟨seconds, -, perSecond, -, judged⟩ := judged
  cases judged
  refine ⟨?_, rfl⟩
  dsimp only
  split
  · next usable => exact .inr (Bool.and_eq_true_iff.mp usable).1
  · exact .inl rfl

variable {math : Elementary} {timeLimit : Entry} {speed : Speed} {assessment : Assessment}

theorem judged_of_ofPreset {id : String} {entries : Named Entry}
    (returned : ofPreset math id entries timeLimit speed = .ok assessment) :
    ∃ label count, judge label count timeLimit speed = .ok assessment := by
  simp only [ofPreset, bind_eq_ok] at returned
  obtain ⟨preset, -, sizes, -, count, -, judged⟩ := returned
  exact ⟨_, _, judged⟩

theorem judged_of_ofReport {report : Report} {n : Entry}
    (returned : ofReport math report n timeLimit speed = .ok assessment) :
    ∃ label count, judge label count timeLimit speed = .ok assessment := by
  simp only [ofReport, bind_eq_ok] at returned
  obtain ⟨count, -, judged⟩ := returned
  exact ⟨_, _, judged⟩

end Assessment

/-- An infinite count is refused, unless the budget is infinite as well; then it even counts as safe. -/
theorem verdict_of_infinite_count {math : Elementary} {timeLimit : Entry} {speed : Speed} {assessment : Assessment}
    (returned : (∃ id entries, Assessment.ofPreset math id entries timeLimit speed = .ok assessment) ∨
      ∃ report n, Assessment.ofReport math report n timeLimit speed = .ok assessment)
    (infinite : assessment.count.isInf = true) :
    assessment.count = infinity ∧ assessment.verdict = if assessment.budget = infinity then .safe else .exceeded := by
  have judged : ∃ label count, Assessment.judge label count timeLimit speed = .ok assessment := by
    rcases returned with ⟨id, entries, returned⟩ | ⟨report, n, returned⟩
    · exact Assessment.judged_of_ofPreset returned
    · exact Assessment.judged_of_ofReport returned
  obtain ⟨label, count, judged⟩ := judged
  obtain ⟨kept, verdict⟩ := Assessment.verdict_of_judge judged
  have count : assessment.count = infinity := by
    rcases kept with same | finite
    · exact same
    · cases finite.symm.trans (isFinite_of_isInf infinite)
  refine ⟨count, ?_⟩
  rw [verdict, count]
  exact Verdict.ofCount_infinity assessment.budget

private theorem exists_ok {returned : Except Fault Assessment} {infinite : Bool} {verdict : Verdict}
    (judged : returned.toOption.map (fun assessment => (assessment.count.isInf, assessment.verdict)) = some (infinite, verdict)) :
    ∃ assessment, returned = .ok assessment ∧ assessment.count.isInf = infinite ∧ assessment.verdict = verdict := by
  cases returned with
  | error fault => cases judged
  | ok assessment =>
    cases judged
    exact ⟨assessment, rfl, rfl, rfl⟩

theorem verdict_of_infinite_factorial :
    ∃ assessment, Assessment.ofPreset .native "O_N_FACT" [("N", .integer 171)] Assessment.defaultTimeLimit
        Assessment.defaultSpeed = .ok assessment ∧
      assessment.count.isInf = true ∧ assessment.count = infinity ∧ assessment.verdict = .exceeded ∧
      assessment.verdict = if assessment.budget = infinity then .safe else .exceeded := by
  have returned : ∃ assessment, Assessment.ofPreset .native "O_N_FACT" [("N", .integer 171)] Assessment.defaultTimeLimit
        Assessment.defaultSpeed = .ok assessment ∧
      assessment.count.isInf = true ∧ assessment.verdict = .exceeded :=
    exists_ok (by decide +kernel)
  obtain ⟨assessment, returned, infinite, verdict⟩ := returned
  obtain ⟨count, judged⟩ := verdict_of_infinite_count (.inl ⟨_, _, returned⟩) infinite
  exact ⟨assessment, returned, infinite, count, verdict, judged⟩

/-- Both factors of this budget are in range, and their product is not. -/
theorem infinite_budget_allows_factorial :
    ∃ assessment, Assessment.ofPreset .native "O_N_FACT" [("N", .integer 171)] (.double 1e308) (.double 1e308) =
        .ok assessment ∧
      assessment.count.isInf = true ∧ assessment.verdict = .safe :=
  exists_ok (by decide +kernel)

end LoopCost
