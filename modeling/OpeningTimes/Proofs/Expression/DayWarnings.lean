import OpeningTimes.Proofs.Expression.CommaLists
import OpeningTimes.Proofs.Expression.Terminals

/-!
Every day number that no month has leads to one warning, which names its month.

With the nearest day in its place, the same is read without the warning.
-/

namespace OpeningTimes

namespace Token

/-- A token is the number of a day that no month has. -/
def isClamped (token : Token) : Bool :=
  token.kind = .number && (digitsValue token.text = 0 || 31 < digitsValue token.text)

/-- A token with the first or the last day in the place of its number, if that one is clamped. -/
def clamped (token : Token) : Token :=
  { token with text :=
      if token.isClamped then
        if digitsValue token.text = 0 then ['0', '1'] else ['3', '1']
      else token.text }

variable {token : Token}

/-- Only numbers are clamped. -/
theorem isClamped_of_kind_ne (other : token.kind ≠ .number) : token.isClamped = false := by
  simp [isClamped, other]

/-- A token that is not clamped stays as it is. -/
theorem clamped_eq_self (kept : token.isClamped = false) : token.clamped = token := by
  simp [clamped, kept]

/-- A number is clamped when it is not its own nearest day. -/
theorem isClamped_iff (isNumber : token.kind = .number) : token.isClamped = true ↔
    nearestDay (digitsValue token.text) ≠ digitsValue token.text := by
  rw [Ne, nearestDay_eq_self_iff]
  simp only [isClamped, isNumber, decide_true, Bool.true_and, Bool.or_eq_true, decide_eq_true_eq]
  omega

/-- A clamped number gives way to its nearest day. -/
theorem readByte?_clamped (isNumber : token.kind = .number) {number : Nat}
    (read : readByte? token.text = some number) :
    readByte? token.clamped.text = some (nearestDay number) := by
  obtain rfl := digitsValue_of_readByte? read
  cases outside : token.isClamped with
  | false =>
    have kept := (isClamped_iff isNumber).not.mp (by simp [outside])
    rw [clamped_eq_self outside, read, not_not.mp kept]
  | true =>
    -- Zero is below all days, and any other clamped number is above them.
    have above := (isClamped_iff isNumber).mp outside
    rw [Ne, nearestDay_eq_self_iff] at above
    simp only [clamped, outside, if_true, nearestDay]
    split
    · rfl
    · have last : min (digitsValue token.text) 31 = 31 := by omega
      rw [last]
      rfl

end Token

/-- A warning tells the number of a token and the month whose name stands right in front of it. -/
def DayWarning.TellsOf (warning : DayWarning) (source : List Token) (number : Token) : Prop :=
  ∃ name : Token, [name, number] <:+: source ∧ name.kind = .month ∧
    sameLetters warning.month.abbreviation name.text = true ∧
      warning.number = digitsValue number.text

/-- There is one warning for each clamped number among some tokens, in the same order. -/
def WarnsOf (tokens : List Token) (warnings : List DayWarning) : Prop :=
  List.Forall₂ (fun number warning => warning.TellsOf tokens number)
    (tokens.filter Token.isClamped) warnings

namespace WarnsOf

variable {front rest : List Token} {before after : List DayWarning}

/-- Tokens without a clamped number lead to no warning. -/
theorem nil (kept : ∀ token ∈ front, token.isClamped = false) : WarnsOf front [] := by
  unfold WarnsOf
  rw [List.filter_eq_nil_iff.mpr (by simpa using kept)]
  exact .nil

/-- The warnings about two parts come one behind the other. -/
theorem append (first : WarnsOf front before) (second : WarnsOf rest after) :
    WarnsOf (front ++ rest) (before ++ after) := by
  -- A name and a number that are neighbours in one part are so in both together.
  have widen {tokens : List Token} (inside : tokens <:+: front ++ rest) (number : Token)
      (warning : DayWarning) (tells : warning.TellsOf tokens number) :
      warning.TellsOf (front ++ rest) number := by
    obtain ⟨name, neighbours, others⟩ := tells
    exact ⟨name, neighbours.trans inside, others⟩
  unfold WarnsOf at *
  rw [List.filter_append]
  exact List.rel_append (first.imp (widen (List.infix_append' [] front rest)))
    (second.imp (widen (List.suffix_append front rest).isInfix))

end WarnsOf

namespace Reading

variable {Left Right NextLeft NextRight : Type}

/-- Whenever one reading succeeds, the other one does so without warnings, in a related way. -/
def Quieted (relation : List DayWarning → Left → Right → Prop) (left : Reading Left)
    (right : Reading Right) : Prop :=
  ∀ value, left.outcome = .ok value →
    ∃ other, right = pure other ∧ relation left.warnings value other

namespace Quieted

variable {relation : List DayWarning → Left → Right → Prop}
  {result : List DayWarning → NextLeft → NextRight → Prop} {left : Reading Left}
  {right : Reading Right} {nextLeft : Left → Reading NextLeft}
  {nextRight : Right → Reading NextRight}

/-- Values that are given without warnings need only be related themselves. -/
theorem pure {value : Left} {other : Right} (related : relation [] value other) :
    Quieted relation (Pure.pure value) (Pure.pure other) := by
  intro given same
  cases same
  exact ⟨other, rfl, related⟩

/-- Nothing is asked for when a reading fails. -/
theorem fail {fault : Fault} : Quieted relation (Reading.fail fault) right := by
  intro value impossible
  cases impossible

/-- A reading without warnings comes to the same value once more. -/
theorem same {reading : Reading Left} (silent : reading.warnings = []) :
    Quieted (fun warnings value other => warnings = [] ∧ other = value ∧
      reading.outcome = .ok value) reading reading := by
  obtain ⟨warnings, outcome⟩ := reading
  intro value given
  dsimp only at silent given ⊢
  subst silent given
  exact ⟨value, rfl, rfl, rfl, rfl⟩

/-- Reading on adds the warnings of the second reading to those of the first one. -/
theorem bind (first : Quieted relation left right)
    (second : ∀ warnings value other, relation warnings value other →
      Quieted (fun more => result (warnings ++ more)) (nextLeft value) (nextRight other)) :
    Quieted result (left >>= nextLeft) (right >>= nextRight) := by
  intro last given
  rw [outcome_bind] at given
  cases begun : left.outcome with
  | error fault =>
    rw [begun] at given
    cases given
  | ok value =>
    -- The other reading goes on from a value without warnings, as it began without any.
    rw [begun] at given
    obtain ⟨other, rfl, related⟩ := first value begun
    obtain ⟨result, behind, ended⟩ := second _ value other related last given
    refine ⟨result, behind, ?_⟩
    rw [warnings_bind, begun]
    exact ended

end Quieted

end Reading

/--
One reading takes tokens from the front, with warnings about them, and leaves the others.

The other reading comes to the same value and leaves the same tokens, but for their clamped numbers.
-/
abbrev ReadsClamped {Value : Type} (tokens : List Token)
    (left right : Reading (Value × List Token)) : Prop :=
  Reading.Quieted (fun warnings before after =>
    after = (before.1, before.2.map Token.clamped) ∧
      ∃ front, tokens = front ++ before.2 ∧ WarnsOf front warnings) left right

namespace ReadsClamped

variable {Value Next : Type} {tokens rest : List Token}

/-- A value is given, and no token is taken. -/
theorem pure (value : Value) (tokens : List Token) :
    ReadsClamped tokens (Pure.pure (value, tokens))
      (Pure.pure (value, tokens.map Token.clamped)) :=
  Reading.Quieted.pure ⟨rfl, [], rfl, .nil (by simp)⟩

/-- Reading on takes further tokens. -/
theorem bind {left right : Reading (Value × List Token)}
    {nextLeft nextRight : Value × List Token → Reading (Next × List Token)}
    (first : ReadsClamped tokens left right)
    (second : ∀ value rest,
      ReadsClamped rest (nextLeft (value, rest)) (nextRight (value, rest.map Token.clamped))) :
    ReadsClamped tokens (left >>= nextLeft) (right >>= nextRight) := by
  refine Reading.Quieted.bind first ?_
  rintro warnings ⟨value, middle⟩ _ ⟨rfl, front, same, warned⟩ result given
  obtain ⟨other, comes, leaves, next, parts, more⟩ := second value middle result given
  refine ⟨other, comes, leaves, front ++ next, ?_, warned.append more⟩
  rw [same, parts, List.append_assoc]

/-- A token in front that is no clamped number may be taken as well. -/
theorem cons {token : Token} {left right : Reading (Value × List Token)}
    (kept : token.isClamped = false) (reads : ReadsClamped rest left right) :
    ReadsClamped (token :: rest) left right := by
  intro result given
  obtain ⟨other, comes, leaves, front, parts, more⟩ := reads result given
  have first : WarnsOf [token] [] := .nil (by simp [kept])
  exact ⟨other, comes, leaves, token :: front, by rw [parts]; rfl, first.append more⟩

/-- What is read without warnings is read before any token is taken. -/
theorem skip {reading : Reading Value} {nextLeft nextRight : Value → Reading (Next × List Token)}
    (silent : reading.warnings = [])
    (next : ∀ value, reading.outcome = .ok value →
      ReadsClamped tokens (nextLeft value) (nextRight value)) :
    ReadsClamped tokens (reading >>= nextLeft) (reading >>= nextRight) := by
  refine (Reading.Quieted.same silent).bind ?_
  rintro _ _ _ ⟨rfl, rfl, given⟩
  exact next _ given

/-- What is made of a value that is read without warnings is given, and no token is taken. -/
theorem make {reading : Reading Value} (silent : reading.warnings = []) (make : Value → Next)
    (tokens : List Token) :
    ReadsClamped tokens (do return (make (← reading), tokens))
      (do return (make (← reading), tokens.map Token.clamped)) :=
  .skip silent fun value _ => .pure (make value) tokens

end ReadsClamped

end OpeningTimes
