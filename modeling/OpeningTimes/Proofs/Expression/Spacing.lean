import OpeningTimes.Proofs.Expression.MaximalMunch
import OpeningTimes.Proofs.Expression.Words

/-!
The words of a text may be spaced out at will.

Each of them stands for itself, whatever its neighbours are, and blanks between them add nothing.
-/

namespace OpeningTimes

/-- The blanks that may stand between words. -/
def gapCharacters : List Char :=
  [' ', '\t', '\r', '\n']

/-- A text is made of such blanks only. -/
def IsGap (gap : List Char) : Prop :=
  ∀ c ∈ gap, c ∈ gapCharacters

-- The gap is finite, which is easier to decide on than that there are finitely many characters.
instance (gap : List Char) : Decidable (IsGap gap) :=
  List.decidableBAll (· ∈ gapCharacters) gap

/-- A text has given words in order, with a blank at least between any two of them. -/
inductive SpacedOut : List Word → List Char → Prop where
  /-- Blanks may follow the last word. -/
  | last {word : Word} {gap : List Char} (blank : IsGap gap) : SpacedOut [word] (word.text ++ gap)
  /-- There are blanks between a word and the others. -/
  | cons {word : Word} {gap : List Char} {words : List Word} {text : List Char}
    (blank : IsGap gap) (filled : gap ≠ []) (others : SpacedOut words text) :
    SpacedOut (word :: words) (word.text ++ (gap ++ text))

/-- No token goes on past a blank. -/
theorem endsTokens_of_mem_gap : ∀ c ∈ gapCharacters, EndsTokens c := by
  intro c blank
  simp only [gapCharacters, List.mem_cons, List.not_mem_nil, or_false] at blank
  rcases blank with rfl | rfl | rfl | rfl <;> decide

/-- Blanks are passed over. -/
theorem isSkipped_of_mem_gap : ∀ c ∈ gapCharacters, TokenRun.isSkipped c = true := by
  intro c blank
  simp only [gapCharacters, List.mem_cons, List.not_mem_nil, or_false] at blank
  rcases blank with rfl | rfl | rfl | rfl <;> decide

/-- Blanks in front of a text add no word. -/
theorem words?_gap {gap : List Char} (blank : IsGap gap) (text : List Char) :
    words? (gap ++ text) = words? text := by
  induction gap with
  | nil => rfl
  | cons c gap ih =>
    obtain ⟨first, others⟩ := List.forall_mem_cons.mp blank
    rw [List.cons_append, words?_skipped (isSkipped_of_mem_gap c first)]
    exact ih others

/-- Two texts with blanks between them have the words of both. -/
theorem words?_append_gap {gap : List Char} (blank : IsGap gap) (filled : gap ≠ [])
    (left right : List Char) :
    words? (left ++ (gap ++ right)) = (do
      let first ← words? left
      let second ← words? right
      return first ++ second) := by
  cases gap with
  | nil => exact absurd rfl filled
  | cons c gap =>
    -- The text is parted at the first blank, and the others are in front of the second part.
    have first := (List.forall_mem_cons.mp blank).1
    have behind := words?_gap blank right
    rw [List.cons_append] at behind ⊢
    rw [words?_append (endsTokens_of_mem_gap c first) left, behind]

/-- A word is cut out of its own characters again. -/
def Word.StandsAlone (word : Word) : Prop :=
  words? word.text = some [word]

/-- A text whose characters are one longest token is that word. -/
theorem TokenKind.Longest.standsAlone {kind : TokenKind} {text : List Char}
    (longest : kind.Longest text) (whole : text.length = kind.width) :
    Word.StandsAlone ⟨kind, text⟩ := by
  cases text with
  | nil =>
    -- A token has some characters.
    have filled := TokenKind.width_pos longest.begins.1
    rw [← whole] at filled
    exact absurd filled (Nat.lt_irrefl 0)
  | cons c rest =>
    have shown : TokenRun.isSkipped c = false := by
      -- The character begins a token, and separators begin none.
      rw [← Bool.not_eq_true, TokenRun.isSkipped_iff]
      intro parts
      exact TokenKind.not_begins_of_separator parts rest kind longest.begins
    exact words?_token shown longest.leading? whole.symm

/-- The words of a text stand for themselves without their neighbours. -/
theorem TokenRun.standsAlone_of_scan {text : List Char} {run : TokenRun}
    (scanned : scan text = .ok run) : ∀ word ∈ run.words, word.StandsAlone := by
  have munch := scanFrom_eq_ok_iff.mp scanned
  intro word listed
  obtain ⟨token, inRun, rfl⟩ := List.mem_map.mp listed
  obtain ⟨front, back, -, -, whole, longest⟩ := munch.stands token inRun
  -- What is the longest token in front of other text is so in front of none.
  rw [← List.nil_append back] at longest
  have alone := longest.of_append whole
  rw [List.append_nil] at alone
  exact alone.standsAlone whole

namespace SpacedOut

variable {words : List Word} {text : List Char}

/-- There is a word at least. -/
theorem ne_nil (spaced : SpacedOut words text) : words ≠ [] := by
  cases spaced <;> exact List.cons_ne_nil _ _

/-- Words that stand for themselves are found again when they are spaced out. -/
theorem words?_eq (spaced : SpacedOut words text) (alone : ∀ word ∈ words, word.StandsAlone) :
    words? text = some words := by
  induction spaced with
  | @last word gap blank =>
    have single := alone word List.mem_cons_self
    cases gap with
    | nil => rw [List.append_nil, single]
    | cons c gap =>
      -- Behind the blanks there is no further word.
      have ended := words?_append_gap blank (List.cons_ne_nil c gap) word.text []
      rw [List.append_nil, single] at ended
      exact ended
  | @cons word gap words text blank filled others ih =>
    obtain ⟨first, later⟩ := List.forall_mem_cons.mp alone
    rw [words?_append_gap blank filled, first, ih later]
    rfl

end SpacedOut

/-- The words of a text are those of the run that it is cut into. -/
theorem words?_eq_some_iff {text : List Char} {words : List Word} :
    words? text = some words ↔ ∃ run, TokenRun.scan text = .ok run ∧ run.words = words := by
  unfold words?
  cases TokenRun.scan text with
  | error fault => simp [Except.toOption]
  | ok run => simp [Except.toOption]

/-- The tokens of a text say what its words do, up to the end that says nothing. -/
theorem TokenRun.map_word_toList {text : List Char} {run : TokenRun}
    (scanned : scan text = .ok run) :
    run.toList.map Token.word = run.words ++ [⟨.finish, []⟩] := by
  have munch := scanFrom_eq_ok_iff.mp scanned
  rw [toList, List.map_append, List.map_singleton, munch.stop]
  rfl

/-- Texts with the same words, of which there are some, describe the same schedule if any. -/
theorem Schedule.value?_read_eq {left right : List Char} {words : List Word}
    (leftWords : words? left = some words) (rightWords : words? right = some words)
    (filled : words ≠ []) : (read left).value? = (read right).value? := by
  -- Neither text is blank, as a blank one has no words.
  have shown {text : List Char} (cut : words? text = some words) : isBlankText text = false := by
    rw [← Bool.not_eq_true]
    intro blank
    exact filled (words?_of_isBlankText blank cut)
  rw [read_eq_readText (shown leftWords), read_eq_readText (shown rightWords)]
  simp only [Reading.value?_bind, value?_readText, leftWords, rightWords]

/--
The words of a text that are spaced out are cut into tokens of the same kinds with the same texts.

They describe the schedule that the text describes, if it describes any.
-/
theorem Schedule.read_spacedOut {text front spaced : List Char} {run : TokenRun}
    (scanned : TokenRun.scan text = .ok run) (blank : IsGap front)
    (spacedOut : SpacedOut run.words spaced) :
    (∃ again, TokenRun.scan (front ++ spaced) = .ok again ∧
      again.toList.map Token.word = run.toList.map Token.word) ∧
      ∀ schedule, (read (front ++ spaced)).outcome = .ok schedule ↔
        (read text).outcome = .ok schedule := by
  have words : words? text = some run.words := words?_eq_some_iff.mpr ⟨run, scanned, rfl⟩
  have wordsAgain : words? (front ++ spaced) = some run.words := by
    rw [words?_gap blank]
    exact spacedOut.words?_eq (TokenRun.standsAlone_of_scan scanned)
  constructor
  · -- The same words are the same tokens, wherever these stand.
    obtain ⟨again, scannedAgain, same⟩ := words?_eq_some_iff.mp wordsAgain
    refine ⟨again, scannedAgain, ?_⟩
    rw [TokenRun.map_word_toList scannedAgain, TokenRun.map_word_toList scanned, same]
  · intro schedule
    have same := value?_read_eq wordsAgain words spacedOut.ne_nil
    rw [← Reading.value?_eq_some_iff, ← Reading.value?_eq_some_iff, same]

namespace HolidayMorning

/-- Words that touch one another or a colon. -/
def text : List Char :=
  "Jan31:PH10:00-12:00;Mo:off".toList

/-- The same words over several lines. -/
def lines : List Char :=
  "Jan 31\tPH\r\n10:00  - 12:00 ;\nMo off\n".toList

/-- The words of both texts. -/
def words : List Word :=
  [⟨.month, "Jan".toList⟩, ⟨.number, "31".toList⟩, ⟨.day, "PH".toList⟩, ⟨.time, "10:00".toList⟩,
    ⟨.dash, "-".toList⟩, ⟨.time, "12:00".toList⟩, ⟨.semicolon, ";".toList⟩, ⟨.day, "Mo".toList⟩,
    ⟨.off, "off".toList⟩]

/-- The words are spaced out over the lines. -/
theorem spacedOut_lines : SpacedOut words lines := by
  have parts : lines = "Jan".toList ++ (" ".toList ++ ("31".toList ++ ("\t".toList ++
      ("PH".toList ++ ("\r\n".toList ++ ("10:00".toList ++ ("  ".toList ++ ("-".toList ++
        (" ".toList ++ ("12:00".toList ++ (" ".toList ++ (";".toList ++ ("\n".toList ++
          ("Mo".toList ++ (" ".toList ++ ("off".toList ++ "\n".toList)))))))))))))))) := by
    decide
  -- Each word is followed by the blanks behind it.
  rw [parts]
  refine .cons (by decide) (by decide) (.cons (by decide) (by decide) ?_)
  refine .cons (by decide) (by decide) (.cons (by decide) (by decide) ?_)
  refine .cons (by decide) (by decide) (.cons (by decide) (by decide) ?_)
  refine .cons (by decide) (by decide) (.cons (by decide) (by decide) ?_)
  exact .last (by decide)

end HolidayMorning

/-- Words that touch one another or a colon may be spaced out over several lines. -/
theorem Schedule.read_spacedOut_lines :
    ∃ run, TokenRun.scan HolidayMorning.text = .ok run ∧ IsGap [' '] ∧
      SpacedOut run.words HolidayMorning.lines ∧
      (∃ again, TokenRun.scan (' ' :: HolidayMorning.lines) = .ok again ∧
        again.toList.map Token.word = run.toList.map Token.word) ∧
      ∃ schedule, (read HolidayMorning.text).outcome = .ok schedule ∧ schedule.rules.length = 1 ∧
        (read (' ' :: HolidayMorning.lines)).outcome = .ok schedule := by
  have blank : IsGap [' '] := by decide
  have cut : words? HolidayMorning.text = some HolidayMorning.words := by decide
  obtain ⟨run, scanned, words⟩ := words?_eq_some_iff.mp cut
  have spacedOut : SpacedOut run.words HolidayMorning.lines :=
    words ▸ HolidayMorning.spacedOut_lines
  obtain ⟨scannedAgain, same⟩ := read_spacedOut scanned blank spacedOut
  exact ⟨run, scanned, blank, spacedOut, scannedAgain, _, rfl, rfl, (same _).mpr rfl⟩

end OpeningTimes
