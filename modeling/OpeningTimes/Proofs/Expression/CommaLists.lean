import OpeningTimes.Proofs.Expression.Grammar
import OpeningTimes.Proofs.Rule.Written

/-!
Lists with commas between their items, derived from phrases and read item by item.

What readers take is compared with phrases, and the tokens that they leave with the rest of a list.
-/

namespace OpeningTimes

namespace Separated

variable {sign : TokenKind} {phrase other : List Token → Prop} {tokens rest : List Token}

/-- Phrases of one sort in a row are phrases of another sort when each of them is. -/
theorem mono (separated : Separated sign phrase tokens)
    (weaker : ∀ tokens, phrase tokens → other tokens) : Separated sign other tokens := by
  induction separated with
  | single only => exact .single (weaker _ only)
  | cons first parts _ ih => exact .cons (weaker _ first) parts ih

/-- Two rows of phrases with a sign between them are one row. -/
theorem append {parting : Token} (front : Separated sign phrase tokens)
    (parts : parting.kind = sign) (back : Separated sign phrase rest) :
    Separated sign phrase (tokens ++ parting :: rest) := by
  -- The front is taken apart, since the sign stands behind its last phrase.
  induction front with
  | single only => exact .cons only parts back
  | cons first inner _ ih =>
    rw [List.append_assoc, List.cons_append]
    exact .cons first inner ih

/-- A row of rows is one row. -/
theorem join (rows : Separated sign (Separated sign phrase) tokens) :
    Separated sign phrase tokens := by
  induction rows with
  | single only => exact only
  | cons first parts _ ih => exact first.append parts ih

/-- A row starts as its first phrase does. -/
theorem starts_append {starts : List Token → Bool} (separated : Separated sign phrase tokens)
    (begins : ∀ front rest, phrase front → starts (front ++ rest) = true) (rest : List Token) :
    starts (tokens ++ rest) = true := by
  cases separated with
  | single only => exact begins _ rest only
  | cons first _ _ =>
    rw [List.append_assoc]
    exact begins _ _ first

end Separated

/-- Phrases that stand behind a comma each, followed by tokens that end the list. -/
inductive Continued (phrase ends : List Token → Prop) : List Token → Prop where
  /-- No further phrase follows. -/
  | done {tokens : List Token} (ended : ends tokens) : Continued phrase ends tokens
  /-- A comma and a phrase stand in front of the others. -/
  | more {comma : Token} {front rest : List Token} (isComma : comma.kind = .comma)
    (next : phrase front) (others : Continued phrase ends rest) :
    Continued phrase ends (comma :: (front ++ rest))

/-- A phrase and those that continue it are a list in front of what follows. -/
theorem Continued.exists_separated {phrase : List Token → Prop} {first tokens rest : List Token}
    (begun : phrase first) (continued : Continued phrase (· = rest) tokens) :
    ∃ list, first ++ tokens = list ++ rest ∧ Separated .comma phrase list := by
  -- Every further phrase is the first one of a shorter list.
  induction continued generalizing first with
  | done ended => exact ⟨first, by rw [ended], .single begun⟩
  | more isComma next others ih =>
    obtain ⟨list, same, separated⟩ := ih next
    refine ⟨first ++ _ :: list, ?_, .cons begun isComma separated⟩
    rw [same, List.append_assoc, List.cons_append]

/-- A phrase stands in front of those that continue it. -/
def Leading (phrase ends : List Token → Prop) (tokens : List Token) : Prop :=
  ∃ front rest, tokens = front ++ rest ∧ phrase front ∧ Continued phrase ends rest

section Phrases

variable {phrase ends : List Token → Prop} {tokens rest : List Token}

/-- A list in front of its end is a first phrase and those that continue it. -/
theorem Separated.leading (separated : Separated .comma phrase tokens) (ended : ends rest) :
    Leading phrase ends (tokens ++ rest) := by
  -- Behind the first phrase and its sign stands a shorter list, with a first phrase again.
  induction separated with
  | single only => exact ⟨_, rest, rfl, only, .done ended⟩
  | cons first parts _ ih =>
    obtain ⟨front, behind, same, next, continued⟩ := ih
    refine ⟨_, _, List.append_assoc _ _ _, first, ?_⟩
    rw [List.cons_append, same]
    exact .more parts next continued

/-- Behind a comma stands a phrase, where the end of the list has no comma. -/
theorem Continued.leading {comma : Token} (continued : Continued phrase ends (comma :: tokens))
    (isComma : comma.kind = .comma)
    (closed : ∀ tokens, ends tokens → startsWith .comma tokens = false) :
    Leading phrase ends tokens := by
  cases continued with
  | done ended =>
    -- The list would be at its end, but a comma stands there.
    have noComma := closed _ ended
    simp [startsWith, isComma] at noComma
  | more _ next others => exact ⟨_, _, rfl, next, others⟩

/-- Where no phrase follows a comma, the list is at its end. -/
theorem Continued.ends_of_endsList {starts : List Token → Bool}
    (continued : Continued phrase ends tokens) (ended : EndsList starts tokens)
    (begins : ∀ front rest, phrase front → starts (front ++ rest) = true) : ends tokens := by
  cases continued with
  | done last => exact last
  | more isComma next others =>
    -- The phrase behind the comma starts an item, so the list would go on.
    have stops := ended (by simp [startsWith, isComma])
    rw [List.tail_cons, begins _ _ next] at stops
    contradiction

/-- Only commas continue a list, and its end starts as it does. -/
theorem Continued.startsWith_eq_false {kind : TokenKind} (continued : Continued phrase ends tokens)
    (notComma : kind ≠ .comma)
    (closed : ∀ tokens, ends tokens → startsWith kind tokens = false) :
    startsWith kind tokens = false := by
  cases continued with
  | done ended => exact closed _ ended
  | more isComma next others => simp [startsWith, isComma, notComma.symm]

end Phrases

section Readers

variable {Value : Type} {item : Reader Value} {starts : List Token → Bool}

/-- A list ends, or there is a comma in front of tokens that start an item. -/
theorem endsList_or_exists_comma (starts : List Token → Bool) (tokens : List Token) :
    EndsList starts tokens ∨
      ∃ text position rest, tokens = ⟨.comma, text, position⟩ :: rest ∧ starts rest = true := by
  by_cases comma : startsWith .comma tokens = true
  · obtain ⟨text, position, rest, rfl⟩ := exists_of_startsWith comma
    cases started : starts rest with
    | false => exact .inl fun _ => started
    | true => exact .inr ⟨text, position, rest, rfl, started⟩
  · exact .inl fun impossible => absurd impossible comma

/-- Behind a comma an item is read, and then all others. -/
theorem value?_readMore_eq_some_iff {text : List Char} {position limit : Nat}
    {tokens rest : List Token} {values : List Value} (started : starts tokens = true) :
    (readMore item starts (limit + 1) (⟨.comma, text, position⟩ :: tokens)).value? =
        some (values, rest) ↔
      ∃ first middle others, (item tokens).value? = some (first, middle) ∧
        (readMore item starts limit middle).value? = some (others, rest) ∧
          values = first :: others := by
  simp only [readMore, started, if_true, Reading.value?_bind_eq_some_iff,
    Reading.value?_pure_eq_some_iff, Prod.mk.injEq, Prod.exists]
  constructor
  · rintro ⟨first, middle, taken, others, _, more, rfl, rfl⟩
    exact ⟨first, middle, others, taken, more, rfl⟩
  · rintro ⟨first, middle, others, taken, more, rfl⟩
    exact ⟨first, middle, taken, others, rest, more, rfl, rfl⟩

/-- A list is an item and all others behind it. -/
theorem value?_readList_eq_some_iff {tokens rest : List Token} {values : List Value} :
    (readList item starts tokens).value? = some (values, rest) ↔
      ∃ first middle others, (item tokens).value? = some (first, middle) ∧
        (readMore item starts middle.length middle).value? = some (others, rest) ∧
          values = first :: others := by
  simp only [readList, Reading.value?_bind_eq_some_iff, Reading.value?_pure_eq_some_iff,
    Prod.mk.injEq, Prod.exists]
  constructor
  · rintro ⟨first, middle, taken, others, _, more, rfl, rfl⟩
    exact ⟨first, middle, others, taken, more, rfl⟩
  · rintro ⟨first, middle, others, taken, more, rfl⟩
    exact ⟨first, middle, taken, others, rest, more, rfl, rfl⟩

/-- What a reader takes from tokens that start in a given way is a phrase. -/
def TakesPhrase (reader : Reader Value) (starts : List Token → Bool)
    (phrase : List Token → Prop) : Prop :=
  ∀ tokens value rest, starts tokens = true → (reader tokens).value? = some (value, rest) →
    ∃ front, tokens = front ++ rest ∧ phrase front

variable {phrase : List Token → Prop}

/-- The items that are read behind commas are phrases. -/
theorem continued_of_readMore (takes : TakesPhrase item starts phrase) {limit : Nat}
    {tokens rest : List Token} {values : List Value}
    (read : (readMore item starts limit tokens).value? = some (values, rest)) :
    Continued phrase (· = rest) tokens := by
  -- Every item takes one from the limit, and leaves tokens on which the others are read.
  induction limit generalizing tokens values with
  | zero =>
    cases read
    exact .done rfl
  | succ limit ih =>
    rcases endsList_or_exists_comma starts tokens with
      ended | ⟨text, position, behind, rfl, started⟩
    · rw [readMore_of_endsList ended] at read
      cases read
      exact .done rfl
    · obtain ⟨first, middle, others, taken, more, -⟩ :=
        (value?_readMore_eq_some_iff started).mp read
      obtain ⟨front, rfl, isPhrase⟩ := takes _ _ _ started taken
      exact .more rfl isPhrase (ih more)

/-- A list has a first item. -/
theorem ne_nil_of_readList {tokens rest : List Token} {values : List Value}
    (read : (readList item starts tokens).value? = some (values, rest)) : values ≠ [] := by
  obtain ⟨first, middle, others, -, -, rfl⟩ := value?_readList_eq_some_iff.mp read
  exact List.cons_ne_nil first others

/-- A list that is read is made of phrases with commas between them. -/
theorem TakesPhrase.list (takes : TakesPhrase item starts phrase) :
    TakesPhrase (readList item starts) starts (Separated .comma phrase) := by
  intro tokens values rest started read
  obtain ⟨first, middle, others, taken, more, -⟩ := value?_readList_eq_some_iff.mp read
  obtain ⟨front, rfl, isPhrase⟩ := takes _ _ _ started taken
  exact (continued_of_readMore takes more).exists_separated isPhrase

/-- What a reader takes is a phrase, or it takes nothing and comes to a value that says so. -/
def TakesOptional (reader : Reader Value) (absent : Value) (phrase : List Token → Prop) : Prop :=
  ∀ tokens value rest, (reader tokens).value? = some (value, rest) →
    ∃ front, tokens = front ++ rest ∧
      ((value = absent ∧ front = []) ∨ (value ≠ absent ∧ phrase front))

/-- Where nothing is there to be read, no token is taken. -/
theorem TakesOptional.eq_of_absent {reader : Reader Value} {absent : Value}
    (takes : TakesOptional reader absent phrase) {tokens rest : List Token}
    (read : (reader tokens).value? = some (absent, rest)) : tokens = rest := by
  obtain ⟨front, same, ⟨-, rfl⟩ | ⟨present, -⟩⟩ := takes _ _ _ read
  · exact same
  · exact absurd rfl present

/-- From tokens of one sort a reader comes to a value, and it leaves tokens of another sort. -/
def Passes (reader : Reader Value) (before after : List Token → Prop) : Prop :=
  ∀ tokens, before tokens → ∃ value rest,
    (reader tokens).value? = some (value, rest) ∧ after rest

variable {before inner : List Token → Prop}

/-- Tokens start an item, and with a comma in front of them they are of some sort. -/
def BehindComma (starts : List Token → Bool) (sort : List Token → Prop) (tokens : List Token) :
    Prop :=
  starts tokens = true ∧ ∃ comma : Token, comma.kind = .comma ∧ sort (comma :: tokens)

/-- Reading goes on as long as items keep tokens of the same sort behind them. -/
theorem exists_value?_readMore (takes : TakesPhrase item starts phrase)
    (passes : Passes item (BehindComma starts inner) inner)
    {limit : Nat} (within : tokens.length ≤ limit) (begun : inner tokens) :
    ∃ values rest, (readMore item starts limit tokens).value? = some (values, rest) ∧
      inner rest ∧ EndsList starts rest := by
  induction limit generalizing tokens with
  | zero =>
    -- No token is left, so the limit cuts nothing off.
    obtain rfl := List.eq_nil_of_length_eq_zero (Nat.le_zero.mp within)
    exact ⟨[], [], rfl, begun, endsList_of_startsWith_comma rfl⟩
  | succ limit ih =>
    rcases endsList_or_exists_comma starts tokens with
      ended | ⟨text, position, behind, rfl, started⟩
    · rw [readMore_of_endsList ended]
      exact ⟨[], tokens, rfl, begun, ended⟩
    · obtain ⟨first, middle, taken, kept⟩ := passes behind ⟨started, _, rfl, begun⟩
      -- The item takes tokens from the front, so the limit stays large enough.
      obtain ⟨front, rfl, -⟩ := takes _ _ _ started taken
      have smaller : middle.length ≤ limit := by
        simp only [List.length_cons, List.length_append] at within
        omega
      obtain ⟨others, rest, more, last⟩ := ih smaller kept
      exact ⟨first :: others, rest,
        (value?_readMore_eq_some_iff started).mpr ⟨first, middle, others, taken, more, rfl⟩, last⟩

/-- A list is read when its first item is and the further ones keep tokens of the same sort. -/
theorem Passes.list (first : Passes item before inner) (takes : TakesPhrase item starts phrase)
    (passes : Passes item (BehindComma starts inner) inner) :
    Passes (readList item starts) before fun rest => inner rest ∧ EndsList starts rest := by
  intro tokens begun
  obtain ⟨value, middle, taken, kept⟩ := first tokens begun
  obtain ⟨others, rest, more, last⟩ := exists_value?_readMore takes passes (Nat.le_refl _) kept
  exact ⟨value :: others, rest,
    value?_readList_eq_some_iff.mpr ⟨value, middle, others, taken, more, rfl⟩, last⟩

/-- A list is read up to its end when each of its phrases is, whatever continues it. -/
theorem Passes.whole {ends derived : List Token → Prop}
    (passes : Passes item (Leading phrase ends) (Continued phrase ends))
    (takes : TakesPhrase item starts derived)
    (closed : ∀ tokens, ends tokens → startsWith .comma tokens = false)
    (begins : ∀ front rest, phrase front → starts (front ++ rest) = true) :
    Passes (readList item starts) (Leading phrase ends) ends := by
  intro tokens leading
  -- Behind a comma stands the first phrase of what is left of the list.
  have further : Passes item (BehindComma starts (Continued phrase ends))
      (Continued phrase ends) := by
    rintro tokens ⟨-, comma, isComma, continued⟩
    exact passes tokens (continued.leading isComma closed)
  obtain ⟨values, rest, read, continued, ended⟩ := passes.list takes further tokens leading
  exact ⟨values, rest, read, continued.ends_of_endsList ended begins⟩

end Readers

end OpeningTimes
