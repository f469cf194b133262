import OpeningTimes.Proofs.Expression.LongestKind

/-!
A text is cut into the longest tokens that begin where they stand, with nothing left but separators.

There is one way only to cut it so. Where there is none, some character begins nothing.
-/

namespace OpeningTimes

/-- The number of bytes that characters take in UTF-8. -/
def byteCount (text : List Char) : Nat :=
  (String.ofList text).utf8ByteSize

/-- No characters take no bytes. -/
@[simp] theorem byteCount_nil : byteCount [] = 0 :=
  rfl

/-- Every character adds its own bytes. -/
@[simp] theorem byteCount_cons (c : Char) (rest : List Char) :
    byteCount (c :: rest) = c.utf8Size + byteCount rest := by
  unfold byteCount
  rw [String.ofList_cons, String.utf8ByteSize_append, String.utf8ByteSize_singleton]

/-- Characters in two parts take the bytes of both. -/
@[simp] theorem byteCount_append (front back : List Char) :
    byteCount (front ++ back) = byteCount front + byteCount back := by
  unfold byteCount
  rw [String.ofList_append, String.utf8ByteSize_append]

/-- Only the empty text takes no bytes. -/
theorem eq_nil_of_byteCount {text : List Char} (noBytes : byteCount text = 0) : text = [] := by
  cases text with
  | nil => rfl
  | cons c rest =>
    have positive := c.utf8Size_pos
    rw [byteCount_cons] at noBytes
    omega

/-- The characters that are passed over between tokens. -/
def separators : List Char :=
  [' ', '\t', '\r', '\n', ':']

/-- The separators are what the scanner passes over. -/
theorem TokenRun.isSkipped_iff {c : Char} : isSkipped c = true ↔ c ∈ separators := by
  simp [isSkipped, separators, or_assoc]

/-- No token begins with a separator. -/
theorem TokenKind.not_begins_of_separator {c : Char} (parts : c ∈ separators) (rest : List Char)
    (kind : TokenKind) : ¬ kind.Begins (c :: rest) := by
  intro begins
  obtain ⟨shown, begun⟩ := begins
  simp only [separators, List.mem_cons, List.not_mem_nil, or_false] at parts
  cases kind with
  | finish => exact shown rfl
  | _ =>
    -- The first test of any other kind refuses each of the five characters.
    rcases parts with rfl | rfl | rfl | rfl | rfl <;> cases begun

namespace TokenRun

/-- The characters of a token behind its first one are passed over. -/
theorem scanFrom_inside (position : Nat) (text rest : List Char) :
    scanFrom position text.length (text ++ rest) = scanFrom (position + byteCount text) 0 rest := by
  induction text generalizing position with
  | nil => rfl
  | cons c text ih =>
    rw [List.length_cons, List.cons_append, scanFrom, ih, byteCount_cons, Nat.add_assoc]

/-- A separator in front of a text is passed over. -/
theorem scanFrom_separator {c : Char} (parts : c ∈ separators) (position : Nat) (rest : List Char) :
    scanFrom position 0 (c :: rest) = scanFrom (position + c.utf8Size) 0 rest := by
  rw [scanFrom, if_pos (isSkipped_iff.mpr parts)]

/-- The longest token in front of a text is cut off. -/
theorem scanFrom_token {kind : TokenKind} {text rest : List Char}
    (longest : kind.Longest (text ++ rest)) (whole : text.length = kind.width) (position : Nat) :
    scanFrom position 0 (text ++ rest) =
      (scanFrom (position + byteCount text) 0 rest).map fun run =>
        { run with tokens := ⟨kind, text, position⟩ :: run.tokens } := by
  cases text with
  | nil =>
    have filled := TokenKind.width_pos longest.begins.1
    rw [← whole] at filled
    exact absurd filled (Nat.lt_irrefl 0)
  | cons c text =>
    have shown : isSkipped c = false := by
      -- The character begins a token, and separators begin none.
      rw [← Bool.not_eq_true, isSkipped_iff]
      intro parts
      exact TokenKind.not_begins_of_separator parts _ kind longest.begins
    have taken : (c :: (text ++ rest)).take kind.width = c :: text := by
      rw [← List.cons_append, ← whole, List.take_left]
    have behind : kind.width - 1 = text.length := by
      rw [← whole, List.length_cons, Nat.add_sub_cancel]
    have found := longest.leading?
    rw [List.cons_append] at found ⊢
    -- What is left of the token is passed over, and the others are found behind it.
    simp only [scanFrom, shown, found, taken, behind, scanFrom_inside, byteCount_cons,
      Nat.add_assoc]
    cases scanFrom (position + (c.utf8Size + byteCount text)) 0 rest <;> rfl

/-- A character that begins nothing stops the scan. -/
theorem scanFrom_stuck {c : Char} {rest : List Char} (shown : c ∉ separators)
    (nothing : ∀ kind : TokenKind, ¬ kind.Begins (c :: rest)) (position : Nat) :
    scanFrom position 0 (c :: rest) = .error (.character position c) := by
  rw [← isSkipped_iff] at shown
  simp only [scanFrom, shown, TokenKind.leading?_eq_none_iff.mpr nothing]
  rfl

/-- A text is empty, or it begins with a separator, with a longest token or with nothing. -/
theorem scan_induction {motive : List Char → Prop} (nil : motive [])
    (separator : ∀ c rest, c ∈ separators → motive rest → motive (c :: rest))
    (token : ∀ (kind : TokenKind) (text rest : List Char), kind.Longest (text ++ rest) →
      text.length = kind.width → motive rest → motive (text ++ rest))
    (stuck : ∀ c rest, c ∉ separators → (∀ kind : TokenKind, ¬ kind.Begins (c :: rest)) →
      motive (c :: rest))
    (text : List Char) : motive text := by
  match text with
  | [] => exact nil
  | c :: rest =>
    by_cases parts : c ∈ separators
    · exact separator c rest parts (scan_induction nil separator token stuck rest)
    · cases found : TokenKind.leading? (c :: rest) with
      | none => exact stuck c rest parts (TokenKind.leading?_eq_none_iff.mp found)
      | some kind =>
        -- The token takes as many characters as its kind has, and at least one.
        have longest := TokenKind.longest_of_leading? found
        have filled := TokenKind.width_pos longest.begins.1
        have whole := List.length_take_of_le (TokenKind.width_le_of_leading? found)
        rw [← List.take_append_drop kind.width (c :: rest)] at longest ⊢
        exact token kind _ _ longest whole (scan_induction nil separator token stuck _)
termination_by text.length
decreasing_by
  · exact Nat.lt_succ_self _
  · rw [List.length_drop, List.length_cons]
    omega

end TokenRun

/-- A token stands in a text that begins at a position, and it is the longest in its place. -/
def Token.StandsIn (token : Token) (position : Nat) (text : List Char) : Prop :=
  ∃ front back, text = front ++ (token.text ++ back) ∧
    token.position = position + byteCount front ∧
      token.text.length = token.kind.width ∧ token.kind.Longest (token.text ++ back)

/-- A token takes a byte of the text. -/
def Token.Takes (token : Token) (byte : Nat) : Prop :=
  token.position ≤ byte ∧ byte < token.position + byteCount token.text

/-- A run is what a text that begins at a position is cut into, with the longest tokens first. -/
structure TokenRun.MaximalMunch (run : TokenRun) (position : Nat) (text : List Char) : Prop where
  /-- Each token stands in the text and is the longest in its place. -/
  stands : ∀ token ∈ run.tokens, token.StandsIn position text
  /-- The tokens come in order and do not overlap. -/
  ordered : run.tokens.Pairwise fun left right =>
    left.position < right.position ∧ left.position + byteCount left.text ≤ right.position
  /-- Nothing but separators is between the tokens. -/
  between : ∀ front c back, text = front ++ c :: back →
    c ∈ separators ∨ ∃ token ∈ run.tokens, token.Takes (position + byteCount front)
  /-- None of the tokens is the end. -/
  inner : ∀ token ∈ run.tokens, token.kind ≠ .finish
  /-- The end comes behind all characters and has none itself. -/
  stop : run.stop = ⟨.finish, [], position + byteCount text⟩

namespace Token.StandsIn

variable {token : Token} {position : Nat} {text : List Char}

/-- A token has some bytes. -/
theorem byteCount_pos (stands : token.StandsIn position text) : 0 < byteCount token.text := by
  obtain ⟨front, back, -, -, whole, longest⟩ := stands
  refine Nat.pos_of_ne_zero ?_
  intro noBytes
  have filled := TokenKind.width_pos longest.begins.1
  rw [← whole, eq_nil_of_byteCount noBytes] at filled
  exact Nat.lt_irrefl 0 filled

/-- A token does not stand in front of the text. -/
theorem position_le (stands : token.StandsIn position text) : position ≤ token.position := by
  obtain ⟨front, -, -, place, -⟩ := stands
  omega

/-- More text in front does not matter to where a token stands. -/
theorem append_left (front : List Char)
    (stands : token.StandsIn (position + byteCount front) text) :
    token.StandsIn position (front ++ text) := by
  obtain ⟨before, back, same, place, whole, longest⟩ := stands
  refine ⟨front ++ before, back, ?_, ?_, whole, longest⟩
  · rw [same, List.append_assoc]
  · rw [place, byteCount_append, Nat.add_assoc]

/-- A token that does not begin within the front part of a text stands in the other part. -/
theorem of_append {front : List Char} (stands : token.StandsIn position (front ++ text))
    (behind : position + byteCount front ≤ token.position) :
    token.StandsIn (position + byteCount front) text := by
  obtain ⟨before, back, same, place, whole, longest⟩ := stands
  rcases List.append_eq_append_iff.mp same with ⟨gap, rfl, rfl⟩ | ⟨gap, rfl, begun⟩
  · -- There is a gap between the front part and the token.
    refine ⟨gap, back, rfl, ?_, whole, longest⟩
    rw [place, byteCount_append, Nat.add_assoc]
  · -- The front part would go on within the token, so it ends where the token begins.
    rw [byteCount_append] at behind
    obtain rfl : gap = [] := eq_nil_of_byteCount (by omega)
    refine ⟨[], back, begun.symm, ?_, whole, longest⟩
    rw [place, List.append_nil, byteCount_nil, Nat.add_zero]

/-- What a text begins with is its longest token, if a token stands there. -/
theorem longest_of_position (stands : token.StandsIn position text)
    (first : token.position = position) :
    token.kind.Longest text ∧ ∃ back, text = token.text ++ back := by
  obtain ⟨front, back, rfl, place, -, longest⟩ := stands
  -- Nothing is in front of the token.
  obtain rfl : front = [] := eq_nil_of_byteCount (by omega)
  exact ⟨longest, back, rfl⟩

end Token.StandsIn

namespace TokenRun.MaximalMunch

variable {run : TokenRun} {position : Nat} {rest : List Char}

/-- Nothing is cut into no tokens. -/
theorem nil (position : Nat) : MaximalMunch ⟨[], ⟨.finish, [], position⟩⟩ position [] := by
  refine ⟨?_, List.Pairwise.nil, ?_, ?_, rfl⟩
  · intro token listed
    cases listed
  · intro front c back same
    cases front <;> cases same
  · intro token listed
    cases listed

/-- A separator in front adds no token. -/
theorem separator {c : Char} (parts : c ∈ separators)
    (munch : run.MaximalMunch (position + c.utf8Size) rest) :
    run.MaximalMunch position (c :: rest) := by
  refine ⟨?_, munch.ordered, ?_, munch.inner, ?_⟩
  · intro token listed
    have alone : byteCount [c] = c.utf8Size := byteCount_cons c []
    exact Token.StandsIn.append_left [c] (alone ▸ munch.stands token listed)
  · intro front d back same
    cases front with
    | nil =>
      cases same
      exact .inl parts
    | cons first front =>
      -- A later character is one of the rest.
      cases same
      rw [byteCount_cons, ← Nat.add_assoc]
      exact munch.between front d back rfl
  · rw [munch.stop, byteCount_cons, Nat.add_assoc]

/-- A longest token in front is put before the others. -/
theorem token {kind : TokenKind} {text : List Char} (longest : kind.Longest (text ++ rest))
    (whole : text.length = kind.width) (munch : run.MaximalMunch (position + byteCount text) rest) :
    MaximalMunch { run with tokens := ⟨kind, text, position⟩ :: run.tokens } position
      (text ++ rest) := by
  have stands : Token.StandsIn ⟨kind, text, position⟩ position (text ++ rest) :=
    ⟨[], rest, rfl, rfl, whole, longest⟩
  refine ⟨?_, ?_, ?_, ?_, ?_⟩
  · intro token listed
    rcases List.mem_cons.mp listed with rfl | later
    · exact stands
    · exact (munch.stands token later).append_left text
  · -- The others stand behind the text of the token, which has some bytes.
    refine List.pairwise_cons.mpr ⟨?_, munch.ordered⟩
    intro other listed
    have filled : 0 < byteCount text := stands.byteCount_pos
    obtain ⟨front, -, -, place, -⟩ := munch.stands other listed
    dsimp only
    omega
  · intro front c back same
    rcases List.append_eq_append_iff.mp same with ⟨gap, rfl, rfl⟩ | ⟨gap, rfl, begun⟩
    · -- A character of the rest is a separator, or one of the other tokens takes it.
      rcases munch.between gap c back rfl with parts | ⟨other, listed, takes⟩
      · exact .inl parts
      · rw [byteCount_append, ← Nat.add_assoc]
        exact .inr ⟨other, List.mem_cons_of_mem _ listed, takes⟩
    · cases gap with
      | nil =>
        -- The first character of the rest is one of the rest as well.
        rw [List.append_nil]
        rcases munch.between [] c back begun.symm with parts | ⟨other, listed, takes⟩
        · exact .inl parts
        · rw [List.append_nil] at takes
          exact .inr ⟨other, List.mem_cons_of_mem _ listed, takes⟩
      | cons d gap =>
        -- A character within the text of the token is taken by it.
        refine .inr ⟨_, List.mem_cons_self, Nat.le_add_right _ _, ?_⟩
        have positive := d.utf8Size_pos
        dsimp only
        rw [byteCount_append, byteCount_cons]
        omega
  · intro token listed
    rcases List.mem_cons.mp listed with rfl | later
    · exact longest.begins.1
    · exact munch.inner token later
  · rw [munch.stop, byteCount_append, Nat.add_assoc]

/-- No tokens are all that nothing can be cut into. -/
theorem of_nil (munch : run.MaximalMunch position []) :
    run = ⟨[], ⟨.finish, [], position⟩⟩ := by
  obtain ⟨tokens, stop⟩ := run
  have closed : stop = ⟨.finish, [], position⟩ := munch.stop
  cases tokens with
  | nil => rw [closed]
  | cons first others =>
    -- A token would have some bytes.
    have stands := munch.stands first List.mem_cons_self
    have filled := stands.byteCount_pos
    obtain ⟨front, back, same, -⟩ := stands
    obtain ⟨-, empty⟩ := List.append_eq_nil_iff.mp same.symm
    rw [(List.append_eq_nil_iff.mp empty).1] at filled
    exact absurd filled (Nat.lt_irrefl 0)

/-- Behind a separator the rest is cut into the same tokens. -/
theorem of_separator {c : Char} (parts : c ∈ separators)
    (munch : run.MaximalMunch position (c :: rest)) :
    run.MaximalMunch (position + c.utf8Size) rest := by
  refine ⟨?_, munch.ordered, ?_, munch.inner, ?_⟩
  · intro token listed
    obtain ⟨front, back, same, place, whole, longest⟩ := munch.stands token listed
    cases front with
    | nil =>
      -- The separator would begin the token.
      rw [List.nil_append] at same
      rw [← same] at longest
      exact absurd longest.begins (TokenKind.not_begins_of_separator parts rest token.kind)
    | cons d front =>
      cases same
      rw [byteCount_cons, ← Nat.add_assoc] at place
      exact ⟨front, back, rfl, place, whole, longest⟩
  · intro front d back same
    have later := munch.between (c :: front) d back (by rw [same, List.cons_append])
    rwa [byteCount_cons, ← Nat.add_assoc] at later
  · rw [munch.stop, byteCount_cons, Nat.add_assoc]

/-- The longest token in front is one of the tokens. -/
theorem mem_tokens {kind : TokenKind} {text : List Char} (longest : kind.Longest (text ++ rest))
    (whole : text.length = kind.width) (munch : run.MaximalMunch position (text ++ rest)) :
    ⟨kind, text, position⟩ ∈ run.tokens := by
  have first : ∃ token ∈ run.tokens, token.position = position := by
    cases text with
    | nil =>
      have filled := TokenKind.width_pos longest.begins.1
      rw [← whole] at filled
      exact absurd filled (Nat.lt_irrefl 0)
    | cons c text =>
      -- The first character begins a token, so it is no separator, and some token takes it.
      rcases munch.between [] c (text ++ rest) rfl with parts | ⟨token, listed, takes⟩
      · exact absurd longest.begins (TokenKind.not_begins_of_separator parts _ kind)
      · have behind := (munch.stands token listed).position_le
        exact ⟨token, listed, Nat.le_antisymm takes.1 behind⟩
  obtain ⟨token, listed, place⟩ := first
  -- The longest kind and the number of its characters leave no choice for that token.
  have stands := munch.stands token listed
  obtain ⟨tokenLongest, back, parts⟩ := stands.longest_of_position place
  obtain ⟨-, -, -, -, tokenWhole, -⟩ := stands
  have sameKind := tokenLongest.unique longest
  have sameText : token.text = text :=
    List.append_inj_left parts.symm (by rw [tokenWhole, sameKind, whole])
  rwa [← sameKind, ← sameText, ← place]

/-- The first of the tokens is the longest one in front, and the rest is cut into the others. -/
theorem of_token {kind : TokenKind} {text : List Char} (longest : kind.Longest (text ++ rest))
    (whole : text.length = kind.width) (munch : run.MaximalMunch position (text ++ rest)) :
    ∃ others, run.tokens = ⟨kind, text, position⟩ :: others ∧
      MaximalMunch { run with tokens := others } (position + byteCount text) rest := by
  have listed := munch.mem_tokens longest whole
  obtain ⟨tokens, stop⟩ := run
  obtain ⟨stands, ordered, between, inner, closed⟩ := munch
  dsimp only at listed stands ordered between inner closed ⊢
  cases tokens with
  | nil => cases listed
  | cons head others =>
    -- The longest token in front can only be the first one, as the others come later.
    obtain ⟨before, orderedOthers⟩ := List.pairwise_cons.mp ordered
    rcases List.mem_cons.mp listed with rfl | behind
    · refine ⟨others, rfl, ?_, orderedOthers, ?_, ?_, ?_⟩
      · intro other later
        have stands := stands other (List.mem_cons_of_mem _ later)
        exact stands.of_append (before other later).2
      · -- What the first token takes is in front of the rest.
        intro front c back same
        have later := between (text ++ front) c back (by rw [same, List.append_assoc])
        rw [byteCount_append, ← Nat.add_assoc] at later
        rcases later with parts | ⟨other, otherListed, takes⟩
        · exact .inl parts
        · rcases List.mem_cons.mp otherListed with rfl | later
          · have ended := takes.2
            dsimp only at ended
            omega
          · exact .inr ⟨other, later, takes⟩
      · intro other later
        exact inner other (List.mem_cons_of_mem _ later)
      · rw [closed, byteCount_append, Nat.add_assoc]
    · -- Another token in front of it would stand in front of the text.
      have notBefore := (stands head List.mem_cons_self).position_le
      have early := (before _ behind).1
      dsimp only at early
      omega

end TokenRun.MaximalMunch

namespace TokenRun

/-- A text is scanned into what it is cut into with the longest tokens first, and only so. -/
theorem scanFrom_eq_ok_iff {text : List Char} {position : Nat} {run : TokenRun} :
    scanFrom position 0 text = .ok run ↔ run.MaximalMunch position text := by
  induction text using scan_induction generalizing position run with
  | nil =>
    rw [scanFrom, Except.ok.injEq]
    constructor
    · intro same
      rw [← same]
      exact .nil position
    · intro munch
      exact munch.of_nil.symm
  | separator c rest parts ih =>
    rw [scanFrom_separator parts, ih]
    exact ⟨.separator parts, .of_separator parts⟩
  | token kind text rest longest whole ih =>
    rw [scanFrom_token longest whole]
    constructor
    · intro scanned
      cases others : scanFrom (position + byteCount text) 0 rest with
      | error fault =>
        rw [others] at scanned
        cases scanned
      | ok behind =>
        rw [others] at scanned
        cases scanned
        exact (ih.mp others).token longest whole
    · intro munch
      obtain ⟨others, same, behind⟩ := munch.of_token longest whole
      rw [ih.mpr behind]
      show Except.ok { run with tokens := ⟨kind, text, position⟩ :: others } = .ok run
      rw [← same]
  | stuck c rest shown nothing =>
    rw [scanFrom_stuck shown nothing]
    constructor
    · intro impossible
      cases impossible
    · intro munch
      -- A token that takes the character would begin with it.
      rcases munch.between [] c rest rfl with parts | ⟨token, listed, takes⟩
      · exact absurd parts shown
      · have stands := munch.stands token listed
        have place := Nat.le_antisymm takes.1 stands.position_le
        have begins := (stands.longest_of_position place).1.begins
        exact absurd begins (nothing token.kind)

end TokenRun

/-- A fault names a character of a text that begins nothing, while all in front of it can be cut. -/
def Fault.StuckIn (fault : Fault) (position : Nat) (text : List Char) : Prop :=
  ∃ front c back, text = front ++ c :: back ∧
    fault = .character (position + byteCount front) c ∧ c ∉ separators ∧
      (∀ kind : TokenKind, ¬ kind.Begins (c :: back)) ∧
        ∃ run, TokenRun.scanFrom position 0 front = .ok run

namespace TokenRun

/-- A text that is not scanned is stuck at a character of it. -/
theorem stuckIn_of_scanFrom {text : List Char} {position : Nat} {fault : Fault}
    (failed : scanFrom position 0 text = .error fault) : fault.StuckIn position text := by
  induction text using scan_induction generalizing position with
  | nil => cases failed
  | separator c rest parts ih =>
    rw [scanFrom_separator parts] at failed
    obtain ⟨front, d, back, rfl, rfl, shown, nothing, run, scanned⟩ := ih failed
    refine ⟨c :: front, d, back, rfl, ?_, shown, nothing, run, ?_⟩
    · rw [byteCount_cons, Nat.add_assoc]
    · rw [scanFrom_separator parts, scanned]
  | token kind text rest longest whole ih =>
    rw [scanFrom_token longest whole] at failed
    cases behind : scanFrom (position + byteCount text) 0 rest with
    | ok run =>
      rw [behind] at failed
      cases failed
    | error other =>
      rw [behind] at failed
      cases failed
      obtain ⟨front, c, back, rfl, rfl, shown, nothing, run, scanned⟩ := ih behind
      refine ⟨text ++ front, c, back, ?_, ?_, shown, nothing, ?_⟩
      · rw [List.append_assoc]
      · rw [byteCount_append, Nat.add_assoc]
      · -- The token in front is the longest one without what follows, too.
        rw [scanFrom_token (longest.of_append whole) whole, scanned]
        exact ⟨_, rfl⟩
  | stuck c rest shown nothing =>
    rw [scanFrom_stuck shown nothing] at failed
    cases failed
    exact ⟨[], c, rest, rfl, rfl, shown, nothing, _, rfl⟩

end TokenRun

/--
A text is scanned into its longest tokens exactly when it can be cut into them, and in one way only.

Otherwise the scan stops at a character that begins nothing, and the text in front of it is scanned.
-/
theorem TokenRun.scan_maximalMunch (text : List Char) :
    (∀ run, scan text = .ok run ↔ run.MaximalMunch 0 text) ∧
      ∀ fault, scan text = .error fault → fault.StuckIn 0 text :=
  ⟨fun _ => scanFrom_eq_ok_iff, fun _ => stuckIn_of_scanFrom⟩

/-- A colon parts tokens outside of times, and a sign that begins nothing is a fault. -/
theorem TokenRun.scan_maximalMunch_euro :
    let whole := "2020 24/7:20:20 Off Oct".toList
    let broken := "24/7 Off€ Mo".toList
    (∃ run, scan whole = .ok run ∧
      run.tokens.map Token.kind = [.year, .always, .time, .off, .month] ∧
      run.MaximalMunch 0 whole) ∧
      scan broken = .error (.character 8 '€') ∧ (Fault.character 8 '€').StuckIn 0 broken := by
  intro whole broken
  have refused : scan broken = .error (.character 8 '€') := rfl
  refine ⟨⟨_, rfl, rfl, ?_⟩, refused, (scan_maximalMunch broken).2 _ refused⟩
  exact ((scan_maximalMunch whole).1 _).mp rfl

end OpeningTimes
