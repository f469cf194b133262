import OpeningTimes.Proofs.Expression.OtherDigits
import OpeningTimes.Proofs.Expression.QuietedReaders

/-!
Every warning about a text tells of a day number in it, and each such number leads to one warning.

The text with the nearest days written over those numbers means the same and leads to no warning.
-/

namespace OpeningTimes

/-- Characters written over those of a text from some byte on. -/
def overwrite (new : List Char) : Nat → List Char → List Char
  | _, [] => []
  | position, c :: rest =>
    if position = 0 then new ++ (c :: rest).drop new.length
    else c :: overwrite new (position - c.utf8Size) rest

/-- Behind the front part of a text the other part is written over. -/
theorem overwrite_append (new front text : List Char) (position : Nat) :
    overwrite new (byteCount front + position) (front ++ text) =
      front ++ overwrite new position text := by
  induction front with
  | nil => rw [byteCount_nil, Nat.zero_add, List.nil_append, List.nil_append]
  | cons c front ih =>
    have positive := c.utf8Size_pos
    have inside : c.utf8Size + byteCount front + position ≠ 0 := by omega
    have behind : c.utf8Size + byteCount front + position - c.utf8Size =
        byteCount front + position := by
      omega
    rw [List.cons_append, List.cons_append, overwrite, byteCount_cons, if_neg inside, behind, ih]

/-- A text that begins with as many characters begins with the new ones. -/
theorem overwrite_zero {new text : List Char} (same : text.length = new.length)
    (filled : text ≠ []) (rest : List Char) : overwrite new 0 (text ++ rest) = new ++ rest := by
  cases text with
  | nil => exact absurd rfl filled
  | cons c others =>
    rw [List.cons_append, overwrite, if_pos rfl, ← List.cons_append, ← same, List.drop_left]

/-- A text that begins at some byte, with the nearest day written over each clamped number. -/
def clampFrom (position : Nat) (tokens : List Token) (text : List Char) : List Char :=
  (tokens.filter Token.isClamped).foldl (fun text token =>
    overwrite token.clamped.text (token.position - position) text) text

/-- Nothing is written over the front part of a text when all tokens stand behind it. -/
theorem clampFrom_append {position : Nat} {front : List Char} {tokens : List Token}
    (behind : ∀ token ∈ tokens, position + byteCount front ≤ token.position) (text : List Char) :
    clampFrom position tokens (front ++ text) =
      front ++ clampFrom (position + byteCount front) tokens text := by
  unfold clampFrom
  induction tokens generalizing text with
  | nil => rfl
  | cons token rest ih =>
    rw [List.forall_mem_cons] at behind
    rw [List.filter_cons]
    split
    · have place : token.position - position =
          byteCount front + (token.position - (position + byteCount front)) := by
        omega
      rw [List.foldl_cons, List.foldl_cons, place, overwrite_append, ih behind.2]
    · exact ih behind.2 text

/-- Digits are written over digits. -/
theorem Token.Formed.sameButDigits {token : Token} (formed : token.Formed) :
    SameButDigits token.text token.clamped.text := by
  cases outside : token.isClamped with
  | false =>
    rw [Token.clamped_eq_self outside]
    exact .refl token.text
  | true =>
    have isNumber : token.kind = .number := by
      simp only [Token.isClamped, Bool.and_eq_true, decide_eq_true_eq] at outside
      exact outside.1
    obtain ⟨fits, length⟩ := formed
    have digits : TokenKind.number.pattern = List.replicate 2 Char.isDigit := rfl
    rw [isNumber] at fits length
    rw [digits] at fits
    -- The digits of the first or the last day are as many as those of a number.
    have nearest : token.clamped.text.all Char.isDigit = true ∧ token.clamped.text.length = 2 := by
      simp only [Token.clamped, outside, if_true]
      split <;> decide
    refine .of_digits (all_isDigit_of_beginsWith fits length) nearest.1 ?_
    rw [nearest.2]
    exact length

/-- The nearest day is written over a number in front of a text, and others behind it. -/
theorem clampFrom_token {token : Token} {tokens : List Token} (formed : token.Formed)
    (filled : token.text ≠ [])
    (behind : ∀ other ∈ tokens, token.position + byteCount token.text ≤ other.position)
    (rest : List Char) :
    clampFrom token.position (token :: tokens) (token.text ++ rest) =
      token.clamped.text ++ clampFrom (token.position + byteCount token.text) tokens rest := by
  have first : clampFrom token.position (token :: tokens) (token.text ++ rest) =
      clampFrom token.position tokens (token.clamped.text ++ rest) := by
    unfold clampFrom
    rw [List.filter_cons]
    split
    · rw [List.foldl_cons, Nat.sub_self, overwrite_zero formed.sameButDigits.length_eq filled]
    · rename_i kept
      rw [Token.clamped_eq_self (Bool.eq_false_iff.mpr kept)]
  -- The other tokens stand as far behind as before, since the new digits take the same bytes.
  have bytes := formed.sameButDigits.byteCount_eq
  rw [bytes] at behind ⊢
  rw [first, clampFrom_append behind]

namespace TokenRun

/-- A stroke begins no token. -/
theorem ne_stroke_of_scanFrom {text : List Char} {position : Nat} {run : TokenRun}
    (scanned : scanFrom position 0 text = .ok run) (behind : List Char) : text ≠ '/' :: behind := by
  rintro rfl
  cases scanned

/-- All tokens of a text stand in it. -/
theorem le_position_of_scanFrom {text : List Char} {position : Nat} {run : TokenRun}
    (scanned : scanFrom position 0 text = .ok run) :
    ∀ token ∈ run.tokens, position ≤ token.position := by
  intro token listed
  exact ((scanFrom_eq_ok_iff.mp scanned).stands token listed).position_le

/-- A text with the nearest days written over its clamped numbers is cut into the clamped tokens. -/
theorem scanFrom_clampFrom {text : List Char} {position : Nat} {run : TokenRun}
    (scanned : scanFrom position 0 text = .ok run) :
    SameButDigits text (clampFrom position run.tokens text) ∧
      scanFrom position 0 (clampFrom position run.tokens text) = .ok run.clamped := by
  induction text using scan_induction generalizing position run with
  | nil =>
    cases scanned
    exact ⟨.nil, rfl⟩
  | separator c rest parts ih =>
    rw [scanFrom_separator parts] at scanned
    have behind := le_position_of_scanFrom scanned
    obtain ⟨same, again⟩ := ih scanned
    have front : clampFrom position run.tokens (c :: rest) =
        c :: clampFrom (position + c.utf8Size) run.tokens rest := by
      have alone : byteCount [c] = c.utf8Size := byteCount_cons c []
      rw [← alone] at behind ⊢
      exact clampFrom_append behind rest
    rw [front, scanFrom_separator parts]
    exact ⟨.cons (.inl rfl) same, again⟩
  | token kind text rest longest whole ih =>
    rw [scanFrom_token longest whole] at scanned
    cases others : scanFrom (position + byteCount text) 0 rest with
    | error fault =>
      rw [others] at scanned
      cases scanned
    | ok behind =>
      rw [others] at scanned
      cases scanned
      obtain ⟨same, again⟩ := ih others
      have formed := longest.formed whole position
      have sameText := formed.sameButDigits
      have front := clampFrom_token formed (formed.text_ne_nil longest.begins.1)
        (le_position_of_scanFrom others) rest
      dsimp only at sameText front
      have fixed (isAlways : kind = .always) :
          (Token.clamped ⟨kind, text, position⟩).text = text := by
        rw [Token.clamped_eq_self (Token.isClamped_of_kind_ne (by simp [isAlways]))]
      -- The new digits are a token of the same kind, and it is the longest one as before.
      have longestAgain := longest.of_sameButDigits whole sameText same fixed
        (ne_stroke_of_scanFrom others)
      have wholeAgain := sameText.length_eq ▸ whole
      refine ⟨front ▸ List.rel_append sameText same, ?_⟩
      rw [front, scanFrom_token longestAgain wholeAgain, ← sameText.byteCount_eq, again]
      rfl
  | stuck c rest shown nothing =>
    rw [scanFrom_stuck shown nothing] at scanned
    cases scanned

end TokenRun

/-- All tokens of a text up to its end, or none if it cannot be cut into tokens. -/
def scannedTokens (text : List Char) : List Token :=
  match TokenRun.scan text with
  | .ok run => run.toList
  | .error _ => []

/-- A text with the nearest day written over each of its clamped numbers. -/
def clampNumbers (text : List Char) : List Char :=
  clampFrom 0 (scannedTokens text) text

section Clamped

variable {text : List Char} {run : TokenRun}

/-- The end of a text is no number. -/
theorem isClamped_stop (scanned : TokenRun.scan text = .ok run) :
    run.stop.isClamped = false := by
  have closing := (TokenRun.formed_of_scan scanned).2
  exact Token.isClamped_of_kind_ne (by simp [closing])

/-- The end of a text is not written over. -/
theorem clampNumbers_eq (scanned : TokenRun.scan text = .ok run) :
    clampNumbers text = clampFrom 0 run.tokens text := by
  unfold clampNumbers scannedTokens clampFrom
  rw [scanned]
  dsimp only
  rw [TokenRun.toList, List.filter_append, List.filter_singleton, isClamped_stop scanned]
  simp

/-- A blank text has no clamped numbers. -/
theorem filter_isClamped_of_isBlankText (blank : isBlankText text = true) :
    (scannedTokens text).filter Token.isClamped = [] := by
  unfold scannedTokens
  cases scanned : TokenRun.scan text with
  | error fault => rfl
  | ok run =>
    have words : run.words = [] :=
      words?_of_isBlankText blank (by rw [words?, scanned]; rfl)
    have noTokens : run.tokens = [] := List.map_eq_nil_iff.mp words
    simp [TokenRun.toList, noTokens, isClamped_stop scanned]

/-- A text that can be scanned leads to the warnings about its numbers, and clamped to none. -/
theorem quieted_readText (scanned : TokenRun.scan text = .ok run) :
    Reading.Quieted (fun warnings expressions other => other = expressions ∧
      WarnsOf (scannedTokens text) warnings) (readText text) (readText (clampNumbers text)) := by
  have again : TokenRun.scan (clampNumbers text) = .ok run.clamped := by
    rw [clampNumbers_eq scanned]
    exact (TokenRun.scanFrom_clampFrom scanned).2
  unfold readText scannedTokens
  rw [scanned, again]
  exact TokenRun.quieted_readExpressions (isClamped_stop scanned)

end Clamped

namespace Schedule

/--
Each number of a day that no month has leads to one warning, which tells that number and its month.

With the first or the last day written over these numbers, the same schedule is described without
warnings.
-/
theorem read_warnings_exact {text : List Char} {schedule : Schedule}
    (readable : (read text).outcome = .ok schedule) :
    WarnsOf (scannedTokens text) (read text).warnings ∧
      read (clampNumbers text) = pure schedule := by
  cases blank : isBlankText text with
  | true =>
    -- No token is in a blank text, so nothing is written over in it.
    have noNumbers := filter_isClamped_of_isBlankText blank
    have kept : clampNumbers text = text := by
      rw [clampNumbers, clampFrom, noNumbers, List.foldl_nil]
    have readsEmpty : read text = pure empty := by
      rw [read, if_pos blank]
    rw [kept, WarnsOf, noNumbers, readsEmpty]
    rw [readsEmpty] at readable
    cases readable
    exact ⟨.nil, rfl⟩
  | false =>
    cases scanned : TokenRun.scan text with
    | error fault =>
      rw [read_eq_readText blank, readText, scanned] at readable
      cases readable
    | ok run =>
      have same := (TokenRun.scanFrom_clampFrom scanned).1
      have blankAgain : isBlankText (clampNumbers text) = false := by
        rw [clampNumbers_eq scanned, ← same.isBlankText_eq, blank]
      have quieted : Reading.Quieted (fun warnings schedule other => other = schedule ∧
          WarnsOf (scannedTokens text) warnings) (read text) (read (clampNumbers text)) := by
        rw [read_eq_readText blank, read_eq_readText blankAgain]
        refine (quieted_readText scanned).bind ?_
        rintro warnings expressions _ ⟨rfl, warned⟩
        exact .pure ⟨rfl, by rwa [List.append_nil]⟩
      obtain ⟨_, again, rfl, warned⟩ := quieted schedule readable
      exact ⟨warned, again⟩

/-- Numbers below and above all days give way to the first and the last day of their months. -/
theorem read_warnings_exact_august :
    let text := "Aug 00 - Aug 45 Mo; 2020+ feb31,Mar:99 off".toList
    ∃ schedule, (read text).outcome = .ok schedule ∧ schedule.rules ≠ [] ∧
      (read text).warnings = [⟨.august, 0⟩, ⟨.august, 45⟩, ⟨.march, 99⟩] ∧
      WarnsOf (scannedTokens text) (read text).warnings ∧
      clampNumbers text = "Aug 01 - Aug 31 Mo; 2020+ feb31,Mar:31 off".toList ∧
      read (clampNumbers text) = pure schedule := by
  intro text
  have readable : ∃ schedule, (read text).outcome = .ok schedule ∧ schedule.rules ≠ [] :=
    ⟨_, rfl, by decide⟩
  obtain ⟨schedule, read, filled⟩ := readable
  obtain ⟨warned, quiet⟩ := read_warnings_exact read
  exact ⟨schedule, read, filled, rfl, warned, by decide, quiet⟩

end Schedule

end OpeningTimes
