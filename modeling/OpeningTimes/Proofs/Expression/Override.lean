import OpeningTimes.Proofs.Expression.Words

/-! A semicolon overrides: the rules behind it replace those in front of it that share a scope. -/

namespace OpeningTimes

namespace Item

/-- An item survives later scopes when its own is not among them, and always if it has none. -/
def survives (later : List Scope) (item : Item) : Bool :=
  item.scope?.all (· ∉ later)

/-- Surviving scopes in two parts is surviving each of the parts. -/
theorem survives_append (first second : List Scope) (item : Item) :
    item.survives (first ++ second) = (item.survives second && item.survives first) := by
  unfold survives
  cases item.scope? with
  | none => rfl
  | some scope => simp [Bool.and_comm]

/-- What survives leaves the same rules as all rules that survive. -/
theorem filterMap_rule?_filter (later : List Scope) (items : List Item) :
    (items.filter (survives later)).filterMap rule? =
      (items.filterMap rule?).filter fun rule => survives later (.rule rule) := by
  induction items with
  | nil => rfl
  | cons item rest ih =>
    cases item with
    | dayOff day years =>
      -- A day that is closed leaves no rule, whether it survives or not.
      rw [List.filter_cons, List.filterMap_cons_none
        (show rule? (.dayOff day years) = none from rfl)]
      split
      · rw [List.filterMap_cons_none rfl, ih]
      · exact ih
    | rule kept =>
      cases remains : survives later (.rule kept) <;> simp [rule?, remains, ih]

/-- An item replaces the rules for the same days, the same season and the same years. -/
def replaces : Item → Rule → Bool
  | .rule (.weekly other), .weekly kept =>
    kept.day = other.day ∧ kept.season = other.season ∧ kept.years = other.years
  -- Closing a weekday replaces its hours of the whole year and leaves those of a season.
  | .dayOff day years, .weekly kept => kept.day = day ∧ kept.season = none ∧ kept.years = years
  | .rule (.holiday _), .holiday _ => true
  | _, _ => false

/-- An item replaces exactly the rules whose scope it shares. -/
theorem replaces_iff {item : Item} {rule : Rule} :
    item.replaces rule = true ↔
      ∃ scope, item.scope? = some scope ∧ (Item.rule rule).scope? = some scope := by
  rcases item with (_ | _ | _) | _ <;> cases rule <;> simp [replaces, scope?]

end Item

namespace Schedule

/-- The scopes that expressions emit, also those which later ones override. -/
def emittedScopes (expressions : List Expression) : List Scope :=
  expressions.flatMap fun expression => Item.scopes expression.items

/-- Expressions override what was there as if all their scopes were emitted at once. -/
theorem foldl_override (items : List Item) (expressions : List Expression) :
    expressions.foldl (fun items expression => Item.override items expression.items) items =
      items.filter (Item.survives (emittedScopes expressions)) ++ combine expressions := by
  unfold combine
  -- The items of the first expression are overridden by the others in the same way.
  induction expressions generalizing items with
  | nil =>
    -- Where nothing is emitted, everything survives.
    have all : items.filter (Item.survives (emittedScopes [])) = items := by
      rw [List.filter_eq_self]
      intro item _
      cases found : item.scope? <;> simp [Item.survives, found, emittedScopes]
    simp [all]
  | cons first rest ih =>
    have parts : ∀ item, Item.survives (emittedScopes (first :: rest)) item =
        (Item.survives (emittedScopes rest) item && Item.survives (Item.scopes first.items) item) :=
      Item.survives_append (Item.scopes first.items) (emittedScopes rest)
    have alone : Item.override [] first.items = first.items := rfl
    rw [List.foldl_cons, List.foldl_cons, ih, alone, ih first.items, ← List.append_assoc]
    congr 1
    unfold Item.override
    rw [List.filter_append, List.filter_filter]
    congr 1
    -- What survives the first expression and then the others survives all of them.
    exact List.filter_congr fun item _ => (parts item).symm

/-- Later expressions remove the earlier items whose scopes they emit, and add their own items. -/
theorem combine_append (earlier later : List Expression) :
    combine (earlier ++ later) =
      (combine earlier).filter (Item.survives (emittedScopes later)) ++ combine later := by
  rw [combine, List.foldl_append]
  exact foldl_override (combine earlier) later

/-- Later expressions remove the earlier rules whose scopes they emit, and add their own rules. -/
theorem rules_ofExpressions_append (earlier later : List Expression) :
    (ofExpressions (earlier ++ later)).rules =
      ((ofExpressions earlier).rules.filter fun rule =>
        Item.survives (emittedScopes later) (.rule rule)) ++ (ofExpressions later).rules := by
  unfold ofExpressions
  simp only [combine_append, List.filterMap_append, Item.filterMap_rule?_filter]

/-- A rule survives the scopes of expressions when none of their items replaces it. -/
theorem survives_emittedScopes (expressions : List Expression) (rule : Rule) :
    Item.survives (emittedScopes expressions) (.rule rule) =
      expressions.all fun expression => expression.items.all fun item => !item.replaces rule := by
  rw [Bool.eq_iff_iff]
  simp only [List.all_eq_true, Bool.not_eq_true', ← Bool.not_eq_true, Item.replaces_iff, not_exists,
    not_and]
  unfold Item.survives emittedScopes Item.scopes
  simp only [Option.all_eq_true, decide_eq_true_eq, List.mem_flatMap, List.mem_filterMap,
    not_exists, not_and]
  constructor
  · intro survives expression listed item emitted scope own shared
    exact survives scope shared expression listed item emitted own
  · intro kept scope own expression listed item emitted shared
    exact kept expression listed item emitted scope shared own

/-- A text that is not blank describes what its expressions describe. -/
theorem read_eq_ok_iff {text : List Char} (filled : isBlankText text = false)
    {schedule : Schedule} :
    (read text).outcome = .ok schedule ↔
      ∃ expressions, (readText text).value? = some expressions ∧
        ofExpressions expressions = schedule := by
  rw [← Reading.value?_eq_some_iff, read_eq_readText filled, Reading.value?_bind,
    Option.bind_eq_some_iff]
  simp only [Reading.value?_pure, Option.some.injEq]

/-- The expressions of two texts with a semicolon between them are those of both texts. -/
theorem value?_readText_append_iff {left right : List Char} {expressions : List Expression} :
    (readText (left ++ ';' :: right)).value? = some expressions ↔
      ∃ earlier later, (readText left).value? = some earlier ∧
        (readText right).value? = some later ∧ earlier ++ later = expressions := by
  rw [value?_readText_append]
  simp only [bind, Option.bind_eq_some_iff, pure, Option.some.injEq]
  constructor
  · rintro ⟨earlier, first, later, second, same⟩
    exact ⟨earlier, later, first, second, same⟩
  · rintro ⟨earlier, later, first, second, same⟩
    exact ⟨earlier, first, later, second, same⟩

/-- Of the rules in front of a semicolon those survive whose scopes no expression behind it emits. -/
theorem rules_of_joined {left right : List Char} {whole earlier : Schedule}
    {expressions : List Expression} (leftFilled : isBlankText left = false)
    (joined : (read (left ++ ';' :: right)).outcome = .ok whole)
    (first : (read left).outcome = .ok earlier)
    (second : (readText right).value? = some expressions) :
    whole.rules =
      (earlier.rules.filter fun rule => Item.survives (emittedScopes expressions) (.rule rule)) ++
        (ofExpressions expressions).rules := by
  have filled : isBlankText (left ++ ';' :: right) = false := by
    simp [isBlankText, show isBlank ';' = false by decide]
  obtain ⟨_, parts, rfl⟩ := (read_eq_ok_iff filled).mp joined
  obtain ⟨before, behind, firstRead, secondRead, rfl⟩ := value?_readText_append_iff.mp parts
  obtain ⟨_, leftRead, rfl⟩ := (read_eq_ok_iff leftFilled).mp first
  -- A text is read in one way only, so the parts are what the texts are read as.
  cases firstRead.symm.trans leftRead
  cases secondRead.symm.trans second
  exact rules_ofExpressions_append before expressions

/--
A rule in front of a semicolon stays unless an expression behind it speaks about the same days.

Hours of a weekday are replaced by hours with the same weekday, season and years.
Closing a weekday replaces its hours with the same years and without a season.
A rule for public holidays is replaced by any other one, and a closed season by nothing.
-/
theorem rules_of_read_append {left right : List Char} {whole earlier later : Schedule}
    {expressions : List Expression} (leftFilled : isBlankText left = false)
    (rightFilled : isBlankText right = false)
    (joined : (read (left ++ ';' :: right)).outcome = .ok whole)
    (first : (read left).outcome = .ok earlier) (second : (read right).outcome = .ok later)
    (behind : (readText right).value? = some expressions) :
    whole.rules = (earlier.rules.filter fun rule =>
      expressions.all fun expression => expression.items.all fun item => !item.replaces rule) ++
        later.rules := by
  obtain ⟨_, rightRead, rfl⟩ := (read_eq_ok_iff rightFilled).mp second
  cases rightRead.symm.trans behind
  rw [rules_of_joined leftFilled joined first behind]
  simp only [survives_emittedScopes]

end Schedule

end OpeningTimes
