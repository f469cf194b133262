import OpeningTimes.Expression.Meaning
import OpeningTimes.Proofs.Rule.Passages
import Mathlib.Data.List.Induction

/-!
Passages without repetitions are gathered again from their own rules.

Gathering puts each rule behind those with the same label, season and years, so rules that already
stand together stay where they are.
-/

namespace OpeningTimes

/-- The label under which a rule is gathered, if any. -/
def Rule.hoursLabel? : Rule → Option HoursLabel
  | .weekly rule => some (.weekday rule.day)
  | .closure _ => none
  | .holiday (.hours _) => some .holidayHours
  | .holiday .closed => some .holidayClosed

namespace LabelledHours

variable {season : Option Season} {years : Option Years} {label : HoursLabel}
  {hours more : List Hours} {entry : LabelledHours} {entries front : List LabelledHours}

/-- Adding hours under a label that the first entries do not have leaves these as they are. -/
theorem add_append (fresh : label ∉ front.map LabelledHours.label) (back : List LabelledHours) :
    add label hours (front ++ back) = front ++ add label hours back := by
  induction front with
  | nil => rfl
  | cons entry rest ih =>
    rw [List.map_cons, List.mem_cons, not_or] at fresh
    rw [List.cons_append, add, if_neg (Ne.symm fresh.1), ih fresh.2, List.cons_append]

/-- Hours under a label that no entry has become a new entry behind the others. -/
theorem add_fresh (fresh : label ∉ entries.map LabelledHours.label) :
    add label hours entries = entries ++ [⟨label, hours⟩] := by
  simpa [add] using add_append fresh []

/-- Hours under one label may as well be added at once. -/
theorem add_add : add label more (add label hours entries) = add label (hours ++ more) entries := by
  induction entries with
  | nil => simp [add]
  | cons entry rest ih =>
    -- Both times the hours go to the same entry.
    by_cases same : entry.label = label
    · simp [add, same]
    · simp [add, same, ih]

/-- The rules that hours stand for are gathered under the label of these hours. -/
theorem hoursLabel?_of_mem_rules {rule : Rule} (stands : rule ∈ entry.rules season years) :
    rule.hoursLabel? = some entry.label := by
  unfold rules at stands
  cases label : entry.label with
  | weekday day =>
    simp only [label, List.mem_map] at stands
    obtain ⟨hours, -, rfl⟩ := stands
    rfl
  | holidayHours =>
    simp only [label, List.mem_map] at stands
    obtain ⟨hours, -, rfl⟩ := stands
    rfl
  | holidayClosed =>
    simp only [label, List.mem_singleton] at stands
    rw [stands]
    rfl

/-- Hours under a label are tidy when none come twice, and closed holidays have none. -/
structure Tidy (entry : LabelledHours) : Prop where
  /-- No hours come twice. -/
  once : entry.hours.Nodup
  /-- Where public holidays are closed, there are no hours. -/
  closed : entry.label = .holidayClosed → entry.hours = []

/-- Hours in two parts are tidy when both parts are and stand for different rules. -/
theorem Tidy.append (tidy : Tidy ⟨label, hours⟩) (new : Tidy ⟨label, more⟩)
    (apart : ∀ rule ∈ rules season years ⟨label, more⟩, rule ∉ rules season years ⟨label, hours⟩) :
    Tidy ⟨label, hours ++ more⟩ := by
  obtain ⟨once, closed⟩ := tidy
  obtain ⟨newOnce, newClosed⟩ := new
  dsimp only at *
  constructor
  case once =>
    refine List.nodup_append.mpr ⟨once, newOnce, ?_⟩
    -- The same hours under the same label would stand for the same rule.
    rintro each listed _ again rfl
    cases label with
    | weekday day => exact apart _ (List.mem_map_of_mem again) (List.mem_map_of_mem listed)
    | holidayHours => exact apart _ (List.mem_map_of_mem again) (List.mem_map_of_mem listed)
    | holidayClosed =>
      rw [closed rfl] at listed
      cases listed
  case closed =>
    intro isClosed
    rw [closed isClosed, newClosed isClosed, List.append_nil]

/-- Tidy hours stand for no rule twice. -/
theorem Tidy.nodup_rules (tidy : entry.Tidy) : (entry.rules season years).Nodup := by
  unfold rules
  cases entry.label with
  | weekday day => exact tidy.once.map fun _ _ same => by cases same; rfl
  | holidayHours => exact tidy.once.map fun _ _ same => by cases same; rfl
  | holidayClosed => exact List.nodup_singleton _

/-- Entries are tidy when each of them is, with a label of its own. -/
structure AllTidy (entries : List LabelledHours) : Prop where
  /-- No label comes twice. -/
  distinct : (entries.map LabelledHours.label).Nodup
  /-- The hours under each label are tidy. -/
  tidy : ∀ entry ∈ entries, entry.Tidy

/-- Adding hours for new rules keeps entries tidy. -/
theorem AllTidy.add (all : AllTidy entries) (new : Tidy ⟨label, hours⟩)
    (apart : ∀ rule ∈ rules season years ⟨label, hours⟩,
      rule ∉ entries.flatMap (rules season years)) :
    AllTidy (LabelledHours.add label hours entries) := by
  obtain ⟨distinct, tidy⟩ := all
  rcases add_cases label hours entries with ⟨front, old, back, rfl, added⟩ | ⟨fresh, added⟩
  · rw [added]
    simp only [List.forall_mem_append, List.forall_mem_cons] at tidy
    -- What the label stands for already is among the rules of the entries.
    have extended : Tidy ⟨label, old ++ hours⟩ :=
      tidy.2.1.append new fun rule stands before => apart rule stands
        (List.mem_flatMap.mpr ⟨_, List.mem_append_right _ List.mem_cons_self, before⟩)
    constructor
    case distinct => simpa using distinct
    case tidy =>
      simp only [List.forall_mem_append, List.forall_mem_cons]
      exact ⟨tidy.1, extended, tidy.2.2⟩
  · rw [added]
    constructor
    case distinct =>
      rw [List.map_append, List.map_singleton, ← List.concat_eq_append]
      exact List.Nodup.concat fresh distinct
    case tidy =>
      rw [List.forall_mem_append, List.forall_mem_singleton]
      exact ⟨tidy, new⟩

/-- Tidy entries stand for no rule twice. -/
theorem AllTidy.nodup_rules (all : AllTidy entries) :
    (entries.flatMap (rules season years)).Nodup := by
  refine List.nodup_flatMap.mpr ⟨fun entry listed => (all.tidy entry listed).nodup_rules, ?_⟩
  refine (List.pairwise_map.mp all.distinct).imp fun different rule stands again => different ?_
  -- A rule of two entries would be gathered under both of their labels.
  have label := hoursLabel?_of_mem_rules stands
  rw [hoursLabel?_of_mem_rules again] at label
  exact (Option.some.inj label).symm

end LabelledHours

namespace Passage

/-- A passage is tidy when its entries are. -/
def Tidy : Passage → Prop
  | .shared _ _ entries => LabelledHours.AllTidy entries
  | .closure _ => True

variable {season : Option Season} {years : Option Years} {label : HoursLabel}
  {hours more : List Hours} {entry : LabelledHours} {entries : List LabelledHours}
  {passages front : List Passage}

/-- Adding hours for new rules keeps all passages tidy. -/
theorem tidy_add (tidy : ∀ passage ∈ passages, passage.Tidy)
    (new : LabelledHours.Tidy ⟨label, hours⟩)
    (apart : ∀ rule ∈ LabelledHours.rules season years ⟨label, hours⟩,
      rule ∉ passages.flatMap rules) :
    ∀ passage ∈ add season years label hours passages, passage.Tidy := by
  rcases add_cases season years label hours passages with
    ⟨front, entries, back, rfl, added⟩ | ⟨-, added⟩
  · simp only [added, List.forall_mem_append, List.forall_mem_cons] at tidy ⊢
    -- The rules of the passage that takes the hours are among those of all passages.
    have inside : ∀ rule ∈ LabelledHours.rules season years ⟨label, hours⟩,
        rule ∉ entries.flatMap (LabelledHours.rules season years) := fun rule stands before =>
      apart rule stands
        (List.mem_flatMap.mpr ⟨_, List.mem_append_right _ List.mem_cons_self, before⟩)
    exact ⟨tidy.1, LabelledHours.AllTidy.add tidy.2.1 new inside, tidy.2.2⟩
  · simp only [added, List.forall_mem_append, List.forall_mem_singleton]
    -- A new passage has the one label only.
    have opened : LabelledHours.AllTidy (LabelledHours.add label hours []) :=
      ⟨List.nodup_singleton _, List.forall_mem_singleton.mpr new⟩
    exact ⟨tidy, opened⟩

/-- Putting a rule into its passage keeps all passages tidy, unless the rule is there already. -/
theorem tidy_addRule {rule : Rule} (tidy : ∀ passage ∈ passages, passage.Tidy)
    (apart : (Item.rule rule).scope? ≠ none → rule ∉ passages.flatMap rules) :
    ∀ passage ∈ addRule passages rule, passage.Tidy := by
  -- A label that stands for the one rule has one pair of times at most.
  have single {season years label hours} (speaks : (Item.rule rule).scope? ≠ none)
      (stands : LabelledHours.rules season years ⟨label, hours⟩ = [rule])
      (new : LabelledHours.Tidy ⟨label, hours⟩) :
      ∀ passage ∈ add season years label hours passages, passage.Tidy := by
    refine tidy_add tidy new fun other listed => ?_
    rw [stands, List.mem_singleton] at listed
    exact listed ▸ apart speaks
  cases rule with
  | weekly rule => exact single nofun rfl ⟨List.nodup_singleton _, nofun⟩
  | holiday rule =>
    cases rule with
    | hours hours => exact single nofun rfl ⟨List.nodup_singleton _, nofun⟩
    | closed => exact single nofun rfl ⟨List.nodup_nil, fun _ => rfl⟩
  | closure season =>
    -- A closed season is a passage without entries.
    rw [addRule, List.forall_mem_append, List.forall_mem_singleton]
    exact ⟨tidy, trivial⟩

/-- Rules of which only closed seasons are repeated have tidy passages. -/
theorem tidy_ofRules {rules : List Rule}
    (distinct : rules.Pairwise fun left right => left = right → (Item.rule left).scope? = none) :
    ∀ passage ∈ ofRules rules, passage.Tidy := by
  induction rules using List.reverseRecOn with
  | nil => exact List.forall_mem_nil _
  | append_singleton rules rule ih =>
    rw [List.pairwise_append] at distinct
    rw [ofRules, List.foldl_append, List.foldl_cons, List.foldl_nil]
    refine tidy_addRule (ih distinct.1) fun speaks gathered => ?_
    -- The passages in front stand for the rules in front, none of which is the last one.
    have before : rule ∈ rules := ((gather_ofRules rules).mem_iff rule).mp gathered
    exact speaks (distinct.2.2 rule before rule (List.mem_singleton.mpr rfl) rfl)

/-- Adding hours whose season and years the first passages do not have leaves these as they are. -/
theorem add_append (fresh : (season, years) ∉ front.filterMap key?) (back : List Passage) :
    add season years label hours (front ++ back) = front ++ add season years label hours back := by
  induction front with
  | nil => rfl
  | cons passage rest ih =>
    cases passage with
    | closure closed => exact congrArg (.closure closed :: ·) (ih fresh)
    | shared otherSeason otherYears entries =>
      -- The key of the first passage is not the one that is added to.
      change (season, years) ∉ (otherSeason, otherYears) :: rest.filterMap key? at fresh
      rw [List.mem_cons, not_or] at fresh
      have other : ¬(otherSeason = season ∧ otherYears = years) :=
        fun same => fresh.1 (Prod.ext same.1.symm same.2.symm)
      rw [List.cons_append, add, if_neg other, ih fresh.2, List.cons_append]

/-- Hours whose season and years no passage has become a new passage behind the others. -/
theorem add_fresh (fresh : (season, years) ∉ passages.filterMap key?) :
    add season years label hours passages =
      passages ++ [.shared season years [⟨label, hours⟩]] := by
  simpa [add, LabelledHours.add] using add_append fresh []

/-- Hours under one label of a passage may as well be added at once. -/
theorem add_add : add season years label more (add season years label hours passages) =
    add season years label (hours ++ more) passages := by
  induction passages with
  | nil => simp [add, LabelledHours.add_add]
  | cons passage rest ih =>
    cases passage with
    | closure closed => simp [add, ih]
    | shared otherSeason otherYears entries =>
      by_cases same : otherSeason = season ∧ otherYears = years
      · simp [add, same, LabelledHours.add_add]
      · simp [add, same, ih]

/-- Hours that are added one by one behind other ones may as well be added at once. -/
theorem foldl_add (rest : List Hours) :
    rest.foldl (fun passages each => add season years label [each] passages)
        (add season years label hours passages) =
      add season years label (hours ++ rest) passages := by
  induction rest generalizing hours with
  | nil => rw [List.foldl_nil, List.append_nil]
  | cons first rest ih =>
    -- The next ones join those that were added before them.
    rw [List.foldl_cons, add_add, ih, List.append_assoc, List.singleton_append]

/-- The rules behind a label are gathered like the hours that stand for them. -/
theorem foldl_addRule_rules (sound : entry.Sound season years) (tidy : entry.Tidy) :
    (entry.rules season years).foldl addRule passages =
      add season years entry.label entry.hours passages := by
  obtain ⟨label, hours⟩ := entry
  cases label with
  | weekday day =>
    cases hours with
    | nil => exact absurd rfl sound.filled
    | cons first rest =>
      -- The first rule puts the label there, and the others bring one pair of times each.
      rw [LabelledHours.rules, List.foldl_map]
      exact @foldl_add season years (.weekday day) [first] passages rest
  | holidayHours =>
    cases hours with
    | nil => exact absurd rfl sound.filled
    | cons first rest =>
      -- Holiday rules stand in the passage with neither a season nor years.
      obtain ⟨rfl, rfl⟩ := sound.confined (.hours first) List.mem_cons_self
      rw [LabelledHours.rules, List.foldl_map]
      exact foldl_add rest
  | holidayClosed =>
    -- Closed holidays are one rule, which adds no hours.
    obtain ⟨rfl, rfl⟩ := sound.confined .closed List.mem_cons_self
    obtain rfl : hours = [] := tidy.closed rfl
    rfl

/-- The rules of tidy entries are gathered behind the entries that are there. -/
theorem foldl_addRule_entries {done : List LabelledHours}
    (fresh : (season, years) ∉ front.filterMap key?)
    (all : LabelledHours.AllTidy (done ++ entries))
    (sound : ∀ entry ∈ entries, entry.Sound season years) :
    (entries.flatMap (LabelledHours.rules season years)).foldl addRule
        (front ++ [.shared season years done]) =
      front ++ [.shared season years (done ++ entries)] := by
  induction entries generalizing done with
  | nil => rw [List.append_nil]; rfl
  | cons entry rest ih =>
    have tidy := all.tidy entry (List.mem_append_right _ List.mem_cons_self)
    have distinct := all.distinct
    rw [List.map_append, List.map_cons, List.nodup_append] at distinct
    -- None of the entries in front has the label of the next one.
    have unlike : entry.label ∉ done.map LabelledHours.label := fun listed =>
      distinct.2.2 _ listed _ List.mem_cons_self rfl
    -- So its hours become a new entry of the last passage.
    have next : add season years entry.label entry.hours (front ++ [.shared season years done]) =
        front ++ [.shared season years (done ++ [entry])] := by
      rw [add_append fresh, add, if_pos ⟨rfl, rfl⟩, LabelledHours.add_fresh unlike]
    rw [List.flatMap_cons, List.foldl_append,
      foldl_addRule_rules (sound entry List.mem_cons_self) tidy, next]
    have shifted : done ++ entry :: rest = done ++ [entry] ++ rest := by simp
    rw [shifted] at all ⊢
    exact ih all fun other listed => sound other (List.mem_cons_of_mem _ listed)

/-- The rules of a tidy passage are gathered as that passage, behind passages with other keys. -/
theorem foldl_addRule_passage {passage : Passage} (sound : passage.Sound) (tidy : passage.Tidy)
    (fresh : ∀ key, passage.key? = some key → key ∉ front.filterMap key?) :
    passage.rules.foldl addRule front = front ++ [passage] := by
  cases passage with
  | closure season => rfl
  | shared season years entries =>
    obtain ⟨filled, entriesSound⟩ := sound
    obtain ⟨first, rest, rfl⟩ := List.exists_cons_of_ne_nil filled
    have unlike : (season, years) ∉ front.filterMap key? := fresh _ rfl
    -- The first entry opens the passage, and the others come behind it.
    rw [rules, List.flatMap_cons, List.foldl_append,
      foldl_addRule_rules (entriesSound first List.mem_cons_self)
        (tidy.tidy first List.mem_cons_self), add_fresh unlike]
    exact foldl_addRule_entries unlike tidy fun other listed =>
      entriesSound other (List.mem_cons_of_mem _ listed)

/-- Tidy passages with different keys are gathered again from their own rules. -/
theorem ofRules_flatMap_rules (distinct : (passages.filterMap key?).Nodup)
    (sound : ∀ passage ∈ passages, passage.Sound) (tidy : ∀ passage ∈ passages, passage.Tidy) :
    ofRules (passages.flatMap rules) = passages := by
  induction passages using List.reverseRecOn with
  | nil => rfl
  | append_singleton passages passage ih =>
    rw [List.forall_mem_append, List.forall_mem_singleton] at sound tidy
    rw [List.filterMap_append, List.nodup_append] at distinct
    -- The passages in front are there again when the rules of the last one come.
    have before := ih distinct.1 sound.1 tidy.1
    unfold ofRules at before ⊢
    rw [List.flatMap_append, List.foldl_append, before, List.flatMap_singleton]
    refine foldl_addRule_passage sound.2 tidy.2 fun key isKey listed => ?_
    exact distinct.2.2 key listed key (by simp [isKey]) rfl

end Passage

end OpeningTimes
