import Bindings.Native.Token

/-!
# Splitting into tokens

What it means that a row of characters splits into tokens: blanks may go before each token, and where a
token begins no longer one does. There is at most one way to split a row, and reading its tokens finds
that way or says that there is none.
-/

namespace Bindings.Signature
open Bindings.Text

/-! ## Tokens as they may be written -/

/-- A name as it may be written: a letter or an underscore, and then letters, digits, underscores and
    points. -/
def IsWord (name : String) : Prop :=
  ∃ first more, name.toList = first :: more ∧ isWordStart first = true ∧
    ∀ c ∈ more, isWordChar c = true

/-- A token as it may be written: its name is one, and between its brackets there are digits. -/
def Token.IsWritten : Token → Prop
  | word name => IsWord name
  | bracket digits => ∀ c ∈ digits, isDigit c = true
  | _ => True

/-- A token begins a row, and no longer one does. -/
structure Longest (token : Token) (cs rest : List Char) : Prop where
  written : token.IsWritten
  begins : cs = token.text.toList ++ rest
  longest : ∀ other : Token, other.IsWritten → other.text.toList <+: cs →
    other.text.toList.length ≤ token.text.toList.length

/-- A row of characters splits into tokens. -/
inductive Splits : List Char → List Token → Prop
  | blanks {blanks : List Char} (blank : ∀ c ∈ blanks, isBlank c = true) : Splits blanks []
  | token {blanks cs rest : List Char} {token : Token} {tokens : List Token}
      (blank : ∀ c ∈ blanks, isBlank c = true) (longest : Longest token cs rest)
      (more : Splits rest tokens) : Splits (blanks ++ cs) (token :: tokens)

variable {cs rest : List Char} {token : Token} {tokens : List Token}

/-! ## Characters -/

theorem isBlank_of_isWordStart {c : Char} (start : isWordStart c = true) : isBlank c = false := by
  have bounds : (65 ≤ c.toNat ∧ c.toNat ≤ 90) ∨ (97 ≤ c.toNat ∧ c.toNat ≤ 122) ∨ c.toNat = 95 := by
    simp [isWordStart, Char.le_def, UInt32.le_iff_toNat_le] at start
    rcases start with (upper | lower) | rfl
    · exact .inl upper
    · exact .inr (.inl lower)
    · exact .inr (.inr rfl)
  simp [isBlank, blankRanges, Ranges.contains]
  omega

theorem isWordChar_of_isWordStart {c : Char} (start : isWordStart c = true) : isWordChar c = true := by
  simp [isWordChar, start]

theorem IsWord.all {name : String} (word : IsWord name) : ∀ c ∈ name.toList, isWordChar c = true := by
  obtain ⟨first, more, same, start, chars⟩ := word
  rw [same]
  intro c member
  rcases List.mem_cons.mp member with rfl | later
  · exact isWordChar_of_isWordStart start
  · exact chars c later

/-- A row that begins with a name begins like one. -/
theorem IsWord.start {name : String} (word : IsWord name) {c : Char} (begins : name.toList <+: c :: cs) :
    isWordStart c = true := by
  obtain ⟨first, more, same, start, _⟩ := word
  rw [same] at begins
  rwa [← (List.cons_prefix_cons.mp begins).1]

/-- What a row begins with that begins with a name begins like the name. -/
theorem IsWord.start_before {name : String} (word : IsWord name) {c : Char} {part : List Char}
    (begins : c :: part <+: name.toList ++ rest) : isWordStart c = true := by
  obtain ⟨first, more, same, start, _⟩ := word
  rw [same, List.cons_append] at begins
  rwa [(List.cons_prefix_cons.mp begins).1]

/-- A written token begins with a character that is no blank. -/
theorem Token.IsWritten.head (written : token.IsWritten) :
    ∃ first more, token.text.toList = first :: more ∧ isBlank first = false := by
  cases token with
  | word name =>
    obtain ⟨first, more, same, start, _⟩ := written
    exact ⟨first, more, same, isBlank_of_isWordStart start⟩
  | bracket digits => exact ⟨'[', digits ++ [']'], by simp [Token.text], by decide⟩
  | functionOpen => exact ⟨'f', ['n', '('], rfl, by decide⟩
  | arrow => exact ⟨'-', ['>'], rfl, by decide⟩
  | star => exact ⟨'*', [], rfl, by decide⟩
  | openParen => exact ⟨'(', [], rfl, by decide⟩
  | closeParen => exact ⟨')', [], rfl, by decide⟩
  | comma => exact ⟨',', [], rfl, by decide⟩

/-- Where a row goes on with characters of a class, it does so at least as far as any of its beginnings
    that has only such characters. -/
theorem length_le_takeWhile {p : Char → Bool} {part : List Char} (begins : part <+: cs)
    (all : ∀ c ∈ part, p c = true) : part.length ≤ (cs.takeWhile p).length := by
  obtain ⟨rest, rfl⟩ := begins
  rw [List.takeWhile_append_of_pos all, List.length_append]
  omega

/-- Where the characters of a class end, what goes on with them is cut from what follows. -/
theorem span_eq {α : Type} {p : α → Bool} {part : List α} (rest : List α) (all : ∀ c ∈ part, p c = true)
    (ends : ∀ c, rest.head? = some c → p c = false) :
    (part ++ rest).takeWhile p = part ∧ (part ++ rest).dropWhile p = rest := by
  rw [List.takeWhile_append_of_pos all, List.dropWhile_append_of_pos all]
  cases rest with
  | nil => simp
  | cons c rest => simp [ends c rfl]

/-! ## One token -/

theorem longest_functionOpen : Longest .functionOpen ('f' :: 'n' :: '(' :: rest) rest where
  written := trivial
  begins := rfl
  longest other written begins := by
    cases other with
    | word name =>
      have chars := written.all
      change name.toList <+: _ at begins
      change name.toList.length ≤ 3
      have short := length_le_takeWhile begins chars
      simp [isWordChar, isWordStart] at short
      omega
    | bracket digits => simp [Token.text] at begins
    | functionOpen | arrow | star | openParen | closeParen | comma => simp [Token.text]

theorem longest_arrow : Longest .arrow ('-' :: '>' :: rest) rest where
  written := trivial
  begins := rfl
  longest other written begins := by
    cases other with
    | word name => exact absurd (IsWord.start written begins) (by decide)
    | bracket digits => simp [Token.text] at begins
    | functionOpen => simp [Token.text] at begins
    | arrow | star | openParen | closeParen | comma => simp [Token.text]

/-- A token of one character that begins no longer one. -/
theorem longest_single {c : Char} (written : token.IsWritten) (single : token.text.toList = [c])
    (plain : isWordStart c = false) (other : c ≠ '[' ∧ c ≠ '-') : Longest token (c :: rest) rest where
  written := written
  begins := by simp [single]
  longest another writtenOther begins := by
    rw [single]
    cases another with
    | word name => cases plain.symm.trans (IsWord.start writtenOther begins)
    | bracket digits =>
      simp [Token.text] at begins
      exact absurd begins.1.symm other.1
    | functionOpen =>
      simp [Token.text] at begins
      rw [← begins.1] at plain
      simp [isWordStart] at plain
    | arrow =>
      simp [Token.text] at begins
      exact absurd begins.1.symm other.2
    | star | openParen | closeParen | comma => simp [Token.text]

theorem bracket_ends : ∀ c, (']' :: rest).head? = some c → isDigit c = false := by
  rintro c ⟨⟩
  decide

theorem longest_bracket (rest : List Char) {digits : List Char} (written : ∀ c ∈ digits, isDigit c = true) :
    Longest (.bracket digits) ('[' :: digits ++ ']' :: rest) rest where
  written := written
  begins := by simp [Token.text]
  longest other writtenOther begins := by
    cases other with
    | word name => exact absurd (IsWord.start writtenOther begins) (by decide)
    | bracket others =>
      have inside : others ++ [']'] <+: digits ++ ']' :: rest := by simpa [Token.text] using begins
      have short := length_le_takeWhile ((List.prefix_append others [']']).trans inside) writtenOther
      rw [(span_eq _ written bracket_ends).1] at short
      simpa [Token.text] using short
    | functionOpen => simp [Token.text] at begins
    | arrow => simp [Token.text] at begins
    | star | openParen | closeParen | comma => simp [Token.text]

/-- A name is a token where no character follows that it could go on with, unless it is that of the
    opening of a function type. -/
theorem longest_word {name : String} (word : IsWord name)
    (ends : ∀ c, rest.head? = some c → isWordChar c = false)
    (plain : ¬['f', 'n', '('] <+: name.toList ++ rest) :
    Longest (.word name) (name.toList ++ rest) rest where
  written := word
  begins := rfl
  longest other written begins := by
    cases other with
    | word longer =>
      have short := length_le_takeWhile begins written.all
      rw [(span_eq rest word.all ends).1] at short
      exact short
    | bracket digits =>
      have inside : '[' :: (digits ++ [']']) <+: name.toList ++ rest := by simpa [Token.text] using begins
      exact absurd (word.start_before inside) (by decide)
    | functionOpen => exact absurd begins plain
    | arrow => exact absurd (word.start_before (c := '-') begins) (by decide)
    | star | openParen | closeParen | comma =>
      obtain ⟨first, more, same, _⟩ := word
      simp [Token.text, same]

/-- The next token is a longest one. -/
theorem nextToken?_longest (found : nextToken? cs = some (token, rest)) : Longest token cs rest := by
  unfold nextToken? at found
  split at found
  · cases found
    exact longest_functionOpen
  · cases found
    exact longest_arrow
  · cases found
    exact longest_single trivial rfl (by decide) (by decide)
  · cases found
    exact longest_single trivial rfl (by decide) (by decide)
  · cases found
    exact longest_single trivial rfl (by decide) (by decide)
  · cases found
    exact longest_single trivial rfl (by decide) (by decide)
  · next row =>
    split at found
    · next after ends =>
      cases found
      have whole : row = row.takeWhile isDigit ++ ']' :: rest := by
        rw [← ends, List.takeWhile_append_dropWhile]
      have longest := longest_bracket rest
        (List.all_eq_true.mp List.all_takeWhile : ∀ c ∈ row.takeWhile isDigit, isDigit c = true)
      rwa [List.cons_append, ← whole] at longest
    · cases found
  · next c row open_ _ _ _ _ _ _ =>
    split at found
    · next start =>
      cases found
      have word : IsWord (String.ofList (c :: row.takeWhile isWordChar)) :=
        ⟨c, _, String.toList_ofList, start, List.all_eq_true.mp List.all_takeWhile⟩
      have whole : c :: row =
          (String.ofList (c :: row.takeWhile isWordChar)).toList ++ row.dropWhile isWordChar := by
        rw [String.toList_ofList, List.cons_append, List.takeWhile_append_dropWhile]
      rw [whole]
      apply longest_word word
      · intro d there
        have stops := List.head?_dropWhile_not isWordChar row
        rw [there] at stops
        exact stops
      · rw [← whole]
        rintro ⟨after, same⟩
        obtain ⟨rfl, rfl⟩ := List.cons.inj same
        exact open_ after rfl rfl
    · cases found
  · cases found

/-- A row that begins like a name, and not with the opening of a function type, begins with a name. -/
theorem nextToken?_word {first : Char} {row : List Char} (start : isWordStart first = true)
    (plain : ¬['f', 'n', '('] <+: first :: row) : nextToken? (first :: row) =
      some (.word (String.ofList (first :: row.takeWhile isWordChar)), row.dropWhile isWordChar) := by
  unfold nextToken?
  split
  · next same => exact absurd ⟨_, same.symm⟩ plain
  · next same => simp [(List.cons.inj same).1, isWordStart] at start
  · next same => simp [(List.cons.inj same).1, isWordStart] at start
  · next same => simp [(List.cons.inj same).1, isWordStart] at start
  · next same => simp [(List.cons.inj same).1, isWordStart] at start
  · next same => simp [(List.cons.inj same).1, isWordStart] at start
  · next same => simp [(List.cons.inj same).1, isWordStart] at start
  · next same =>
    obtain ⟨rfl, rfl⟩ := List.cons.inj same
    rw [if_pos start]
  · next same => cases same

/-- A longest token is the next one. -/
theorem Longest.nextToken? (longest : Longest token cs rest) : nextToken? cs = some (token, rest) := by
  obtain ⟨written, rfl, most⟩ := longest
  cases token with
  | word name =>
    obtain ⟨first, more, same, start, chars⟩ := written
    have row : (Token.word name).text.toList ++ rest = first :: (more ++ rest) := by simp [Token.text, same]
    have plain : ¬['f', 'n', '('] <+: first :: (more ++ rest) := by
      intro opens
      have long : 3 ≤ name.toList.length := most .functionOpen trivial (row ▸ opens)
      rw [same] at long
      have inside : ['f', 'n', '('] <+: first :: more :=
        List.prefix_of_prefix_length_le opens (List.prefix_append (first :: more) rest) long
      have opening : isWordChar '(' = true := by
        apply IsWord.all ⟨first, more, same, start, chars⟩
        rw [same]
        exact inside.subset (by simp)
      exact absurd opening (by decide)
    have ends : ∀ c, rest.head? = some c → isWordChar c = false := by
      intro c there
      apply Bool.eq_false_iff.mpr
      intro goes
      obtain ⟨after, rfl⟩ := List.head?_eq_some_iff.mp there
      have longer := most (.word (String.ofList (first :: (more ++ [c]))))
        ⟨first, _, String.toList_ofList, start, by simpa [or_imp, forall_and, goes] using chars⟩
        ⟨after, by simp [Token.text, same]⟩
      simp only [Token.text, same, String.toList_ofList, List.length_cons, List.length_append,
        List.length_nil] at longer
      omega
    rw [row, nextToken?_word start plain, (span_eq rest chars ends).1, (span_eq rest chars ends).2, ← same,
      String.ofList_toList]
  | bracket digits =>
    have row : (Token.bracket digits).text.toList ++ rest = '[' :: (digits ++ ']' :: rest) := by
      simp [Token.text]
    obtain ⟨inside, after⟩ := span_eq (']' :: rest) written bracket_ends
    rw [row]
    simp [Signature.nextToken?, inside, after]
  | functionOpen | arrow | star | openParen | closeParen | comma => rfl

theorem nextToken?_eq_some_iff : nextToken? cs = some (token, rest) ↔ Longest token cs rest :=
  ⟨nextToken?_longest, Longest.nextToken?⟩

/-! ## Rows of tokens -/

/-- What follows a token is shorter than the row that begins with it. -/
theorem Longest.shorter (longest : Longest token cs rest) : rest.length < cs.length := by
  obtain ⟨first, more, same, _⟩ := longest.written.head
  rw [longest.begins, same]
  simp only [List.length_append, List.length_cons]
  omega

/-- Blanks before a token do not belong to it. -/
theorem Longest.dropBlanks {blanks : List Char} (longest : Longest token cs rest)
    (blank : ∀ c ∈ blanks, isBlank c = true) : (blanks ++ cs).dropWhile isBlank = cs := by
  obtain ⟨first, more, same, visible⟩ := longest.written.head
  apply (span_eq cs blank ?_).2
  rw [longest.begins, same]
  rintro c ⟨⟩
  exact visible

/-- A row splits into no tokens if it is blank. -/
theorem splits_nil_iff : Splits cs [] ↔ cs.dropWhile isBlank = [] := by
  constructor
  · intro splits
    cases splits with
    | blanks blank => simpa using (span_eq [] blank nofun).2
  · intro blank
    have whole := List.takeWhile_append_dropWhile (p := isBlank) (l := cs)
    rw [blank, List.append_nil] at whole
    rw [← whole]
    exact .blanks (List.all_eq_true.mp List.all_takeWhile)

/-- A row splits into a token and others if the token comes after the blanks and what follows it splits
    into the others. -/
theorem splits_cons_iff : Splits cs (token :: tokens) ↔
    ∃ rest, Longest token (cs.dropWhile isBlank) rest ∧ Splits rest tokens := by
  constructor
  · intro splits
    cases splits with
    | @token blanks cs rest token tokens blank longest more =>
      rw [longest.dropBlanks blank]
      exact ⟨rest, longest, more⟩
  · rintro ⟨rest, longest, more⟩
    rw [← List.takeWhile_append_dropWhile (p := isBlank) (l := cs)]
    exact .token (List.all_eq_true.mp List.all_takeWhile) longest more

/-- A blank row splits into no tokens only. -/
theorem splits_blank_iff (blank : cs.dropWhile isBlank = []) : Splits cs tokens ↔ tokens = [] := by
  cases tokens with
  | nil => simp [splits_nil_iff, blank]
  | cons token tokens =>
    rw [splits_cons_iff, blank]
    constructor
    · rintro ⟨rest, longest, _⟩
      have shorter := longest.shorter
      simp at shorter
    · simp

/-- With enough fuel, tokens are read from a row if it splits into them. -/
theorem readTokens?_eq_some_iff {fuel : Nat} (enough : cs.length ≤ fuel) :
    readTokens? fuel cs = some tokens ↔ Splits cs tokens := by
  induction fuel generalizing cs tokens with
  | zero =>
    obtain rfl : cs = [] := List.length_eq_zero_iff.mp (by omega)
    rw [splits_blank_iff rfl]
    simp [readTokens?, eq_comm]
  | succ fuel ih =>
    have bound := (List.dropWhile_suffix isBlank (l := cs)).length_le
    unfold readTokens?
    cases visible : cs.dropWhile isBlank with
    | nil =>
      rw [splits_blank_iff visible]
      simp [eq_comm]
    | cons first more =>
      rw [visible] at bound
      simp only [Option.bind_eq_some_iff, Option.map_eq_some_iff, Prod.exists, nextToken?_eq_some_iff]
      constructor
      · rintro ⟨token, rest, longest, others, found, rfl⟩
        have shorter := longest.shorter
        apply splits_cons_iff.mpr
        exact ⟨rest, visible ▸ longest, (ih (by omega)).mp found⟩
      · intro splits
        cases tokens with
        | nil =>
          rw [splits_nil_iff, visible] at splits
          cases splits
        | cons token others =>
          obtain ⟨rest, longest, further⟩ := splits_cons_iff.mp splits
          rw [visible] at longest
          have shorter := longest.shorter
          exact ⟨token, rest, longest, others, (ih (by omega)).mpr further, rfl⟩

/-- The tokens of a signature are those that it splits into. -/
theorem tokens?_eq_some_iff {signature : String} :
    tokens? signature = some tokens ↔ Splits signature.toList tokens :=
  readTokens?_eq_some_iff (Nat.le_refl _)

/-- The tokens that a row splits into are written as they may be. -/
theorem Splits.written (splits : Splits cs tokens) : ∀ token ∈ tokens, token.IsWritten := by
  induction splits with
  | blanks blank => simp
  | token blank longest more ih =>
    intro token member
    rcases List.mem_cons.mp member with rfl | later
    · exact longest.written
    · exact ih token later

end Bindings.Signature
