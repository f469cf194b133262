import OpeningTimes.Proofs.Expression.CrossProduct
import OpeningTimes.Proofs.Expression.Terminals
import OpeningTimes.Proofs.Rule.RoundTrip

/-!
The rules that a text is read as come from its expressions.

Their years are those of the expressions, which four digits can write.
-/

namespace OpeningTimes

/-- A year of four digits is at most 9999. -/
theorem Token.Formed.year_le {token : Token} {year : UInt16} (formed : token.Formed)
    (isYear : token.kind = .year) (read : token.readYear.value? = some year) :
    year.toNat ≤ 9999 := by
  -- Four digits denote a number below ten thousand, and that number is kept.
  obtain ⟨number, small, digits⟩ := formed.exists_number 3 (by rw [isYear]; rfl)
  have size : Nat.pow 10 (3 + 1) = 10000 := rfl
  rw [toNat_of_readYear read, (readDecimal?_eq_some_iff.mp digits).2]
  omega

/-- Years that are read from formed tokens are printable. -/
theorem printable_of_readYears {tokens rest : List Token} {years : Years}
    (formed : ∀ token ∈ tokens, token.Formed)
    (read : (readYears tokens).value? = some (some years, rest)) : years.Printable := by
  unfold readYears at read
  split at read
  · -- A year and a plus.
    simp only [Reading.value?_bind_eq_some_iff, Reading.value?_pure_eq_some_iff,
      Prod.mk.injEq, Option.some.injEq] at read
    obtain ⟨first, firstRead, rfl, -⟩ := read
    exact ⟨(formed _ List.mem_cons_self).year_le rfl firstRead, nofun⟩
  · -- A range of years.
    simp only [Reading.value?_bind_eq_some_iff] at read
    obtain ⟨first, firstRead, last, lastRead, read⟩ := read
    split at read
    · simp at read
    · rename_i ordered
      simp only [Reading.value?_pure_eq_some_iff, Prod.mk.injEq, Option.some.injEq] at read
      obtain ⟨rfl, -⟩ := read
      simp only [List.forall_mem_cons] at formed
      refine ⟨formed.1.year_le rfl firstRead, ?_⟩
      rintro _ ⟨⟩
      exact ⟨UInt16.not_lt.mp ordered, formed.2.2.1.year_le rfl lastRead⟩
  · -- A year alone.
    simp only [Reading.value?_bind_eq_some_iff, Reading.value?_pure_eq_some_iff,
      Prod.mk.injEq, Option.some.injEq] at read
    obtain ⟨only, onlyRead, rfl, -⟩ := read
    have bounded := (formed _ List.mem_cons_self).year_le rfl onlyRead
    refine ⟨bounded, ?_⟩
    rintro _ ⟨⟩
    exact ⟨UInt16.le_refl only, bounded⟩
  · cases read

/-- The years of an expression that is read from formed tokens are printable. -/
theorem printable_of_readExpression {run : TokenRun} {expression : Expression} {years : Years}
    (formed : ∀ token ∈ run.tokens, token.Formed)
    (read : run.readExpression.value? = some expression)
    (limited : expression.years = some years) : years.Printable := by
  unfold TokenRun.readExpression at read
  simp only [Reading.value?_bind_eq_some_iff] at read
  obtain ⟨⟨range, behind⟩, yearsRead, _, -, _, -, read⟩ := read
  -- The expression is given back unless a part is missing or something follows.
  split at read
  · simp at read
  · split at read
    · cases Reading.value?_pure_eq_some_iff.mp read
      cases limited
      exact printable_of_readYears formed yearsRead
    · simp at read

/-- Every expression that runs are read as is the expression of one of them. -/
theorem exists_run_of_readExpressions {runs : List TokenRun} {expressions : List Expression}
    (read : (readExpressions runs).value? = some expressions) :
    ∀ expression ∈ expressions, ∃ run ∈ runs, run.readExpression.value? = some expression := by
  induction runs generalizing expressions with
  | nil =>
    cases Reading.value?_pure_eq_some_iff.mp read
    exact nofun
  | cons run rest ih =>
    simp only [readExpressions, Reading.value?_bind_eq_some_iff,
      Reading.value?_pure_eq_some_iff] at read
    obtain ⟨first, firstRead, others, othersRead, rfl⟩ := read
    intro expression listed
    rcases List.mem_cons.mp listed with rfl | later
    · exact ⟨run, List.mem_cons_self, firstRead⟩
    · obtain ⟨other, member, found⟩ := ih othersRead expression later
      exact ⟨other, List.mem_cons_of_mem _ member, found⟩

/-- The weekly rules of an expression have its years. -/
theorem Expression.years_of_mem_items {expression : Expression} {rule : WeeklyRule}
    (listed : .rule (.weekly rule) ∈ expression.items) : rule.years = expression.years := by
  -- Only hours on a weekday bring about a weekly rule, and they have the years of the expression.
  obtain ⟨season, -, group, -, brings⟩ := mem_items.mp listed
  cases brings
  rfl

namespace Schedule

/-- The rules that expressions leave are items of theirs. -/
theorem exists_mem_items_of_mem_rules {expressions : List Expression} {rule : Rule}
    (listed : rule ∈ (ofExpressions expressions).rules) :
    ∃ expression ∈ expressions, .rule rule ∈ expression.items := by
  induction expressions with
  | nil => cases listed
  | cons first rest ih =>
    rw [← List.singleton_append, rules_ofExpressions_append, List.mem_append] at listed
    rcases listed with kept | later
    · -- What the later expressions leave of the first one is an item of it.
      obtain ⟨item, inside, leaves⟩ := List.mem_filterMap.mp (List.mem_filter.mp kept).1
      cases item with
      | rule same =>
        cases leaves
        exact ⟨first, List.mem_cons_self, inside⟩
      | dayOff day years => cases leaves
    · obtain ⟨expression, member, inside⟩ := ih later
      exact ⟨expression, List.mem_cons_of_mem _ member, inside⟩

/-- The rules that a text is read as are printable. -/
theorem printable_of_read {text : List Char} {schedule : Schedule}
    (found : (read text).outcome = .ok schedule) : ∀ rule ∈ schedule.rules, rule.Printable := by
  cases shown : isBlankText text with
  | true =>
    -- A blank text has no rules.
    rw [read, shown, if_pos rfl] at found
    cases found
    intro rule listed
    exact absurd listed List.not_mem_nil
  | false =>
    obtain ⟨expressions, readAll, rfl⟩ := (read_eq_ok_iff shown).mp found
    unfold readText at readAll
    split at readAll
    · cases readAll
    · rename_i run scanned
      intro rule listed
      -- The rule comes from an expression, and that from some of the tokens.
      obtain ⟨expression, member, inside⟩ := exists_mem_items_of_mem_rules listed
      obtain ⟨part, cut, partRead⟩ := exists_run_of_readExpressions readAll expression member
      have formed (token : Token) (taken : token ∈ part.tokens) : token.Formed :=
        (TokenRun.formed_of_scan scanned).1 token ((TokenRun.tokens_of_mem_expressions cut).1 taken)
      cases rule with
      | weekly rule =>
        intro range limited
        rw [Expression.years_of_mem_items inside] at limited
        exact printable_of_readExpression formed partRead limited
      | closure season => trivial
      | holiday rule => trivial

end Schedule

end OpeningTimes
