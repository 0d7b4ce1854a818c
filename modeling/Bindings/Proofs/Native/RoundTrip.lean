import Bindings.Proofs.Native.Grammar

/-!
# Signatures of types

The signature of a type that was read is read as that type again. The way back meets the way out at the
grammar: the signature splits into tokens that derive the type, whatever follows it that ends a name.
-/

namespace Bindings.Signature
open Bindings.Text

variable {scope text name : String} {rest : List Char} {tokens more : List Token} {token : Token}
  {type base : NativeType}

/-! ## Names in front of a row -/

/-- A row that goes on neither with a name nor with the opening of a function type. -/
def Ends (rest : List Char) : Prop := ∀ c, rest.head? = some c → isWordChar c = false ∧ c ≠ '('

theorem ends_cons {c : Char} (plain : isWordChar c = false ∧ c ≠ '(') : Ends (c :: rest) := by
  rintro _ ⟨⟩
  exact plain

theorem Splits.cons {cs : List Char} (longest : Longest token cs rest) (more : Splits rest tokens) :
    Splits cs (token :: tokens) := by
  show Splits ([] ++ cs) (token :: tokens)
  exact .token nofun longest more

theorem longest_comma : Longest .comma (',' :: rest) rest :=
  longest_single trivial rfl (by decide) (by decide)

theorem longest_closeParen : Longest .closeParen (')' :: rest) rest :=
  longest_single trivial rfl (by decide) (by decide)

theorem Splits.behind_blank (splits : Splits rest tokens) : Splits (' ' :: rest) tokens := by
  have blank : isBlank ' ' = true := by decide
  cases tokens with
  | nil =>
    apply splits_nil_iff.mpr
    rw [List.dropWhile_cons_of_pos blank]
    exact splits_nil_iff.mp splits
  | cons token tokens =>
    apply splits_cons_iff.mpr
    rw [List.dropWhile_cons_of_pos blank]
    exact splits_cons_iff.mp splits

theorem splits_word (word : IsWord name) (ends : Ends rest) (splits : Splits rest tokens) :
    Splits (name.toList ++ rest) (.word name :: tokens) := by
  apply Splits.cons _ splits
  apply longest_word word (fun c there => (ends c there).1)
  rintro ⟨after, opens⟩
  have inside := word.all
  obtain ⟨first, others, same, start, _⟩ := word
  rw [same] at opens inside
  -- The opening would end inside the name, or at the character after it.
  match others with
  | [] =>
    have head : rest.head? = some 'n' := congrArg List.head? (List.cons.inj opens).2.symm
    exact absurd (ends 'n' head).1 (by decide)
  | [c] =>
    have head : rest.head? = some '(' := congrArg List.head? (List.cons.inj (List.cons.inj opens).2).2.symm
    exact (ends '(' head).2 rfl
  | c :: d :: others =>
    have third : d = '(' := (List.cons.inj (List.cons.inj (List.cons.inj opens).2).2).1.symm
    exact absurd (inside d (by simp)) (by rw [third]; decide)

/-! ## Names in a scope -/

theorem cutLast?_of_not_mem {c : Char} {cs : List Char} (missing : c ∉ cs) : cutLast? c cs = none := by
  induction cs with
  | nil => rfl
  | cons d cs ih =>
    have other : d ≠ c := fun same => missing (by simp [same])
    rw [cutLast?, ih fun inside => missing (List.mem_cons_of_mem d inside)]
    exact if_neg other

theorem cutLast?_append {c : Char} {after : List Char} (before : List Char) (last : c ∉ after) :
    cutLast? c (before ++ c :: after) = some (before, after) := by
  induction before with
  | nil =>
    rw [List.nil_append, cutLast?, cutLast?_of_not_mem last]
    exact if_pos rfl
  | cons d before ih => rw [List.cons_append, cutLast?, ih]

/-- A row is cut at the last of the characters, and not at all if it is not among them. -/
theorem cutLast?_eq (c : Char) (cs : List Char) :
    (c ∉ cs ∧ cutLast? c cs = none) ∨
      ∃ before after, cs = before ++ c :: after ∧ c ∉ after ∧ cutLast? c cs = some (before, after) := by
  induction cs with
  | nil => exact .inl ⟨List.not_mem_nil, rfl⟩
  | cons d cs ih =>
    rcases ih with ⟨missing, -⟩ | ⟨before, after, rfl, last, -⟩
    · by_cases same : d = c
      · subst same
        exact .inr ⟨[], cs, rfl, missing, cutLast?_append [] missing⟩
      · have absent : c ∉ d :: cs := by simp [missing, Ne.symm same]
        exact .inl ⟨absent, cutLast?_of_not_mem absent⟩
    · exact .inr ⟨d :: before, after, rfl, last, cutLast?_append (d :: before) last⟩

theorem isPrimitiveCode_plain (primitive : NativeType.isPrimitiveCode name = true) : '.' ∉ name.toList := by
  obtain ⟨target, found⟩ := Option.isSome_iff_exists.mp primitive
  obtain ⟨before, after, entries, _⟩ := List.lookup_eq_some_iff.mp found
  have entry : (name, target) ∈ NativeType.primitiveNames := by simp [entries]
  have all : ∀ p ∈ NativeType.primitiveNames, '.' ∉ p.1.toList := by decide
  exact all _ entry

theorem IsWord.some (word : IsWord name) : name ≠ "" := by
  rintro rfl
  obtain ⟨first, more, same, -⟩ := word
  cases same

theorem nameIn_of_cut {before after : List Char} (cut : cutLast? '.' name.toList = some (before, after)) :
    nameIn scope name = ⟨String.ofList before, String.ofList after⟩ := by
  simp [nameIn, cut]

/-- A name stands in its scope for one in a namespace, which is a word with its last point between them. -/
theorem nameIn_full (inScope : IsWord scope) (word : IsWord name) :
    (nameIn scope name).full.toList =
        (nameIn scope name).space.toList ++ '.' :: (nameIn scope name).name.toList ∧
      '.' ∉ (nameIn scope name).name.toList ∧ IsWord (nameIn scope name).full := by
  rcases cutLast?_eq '.' name.toList with ⟨plain, uncut⟩ | ⟨before, after, whole, plain, cut⟩
  · have same : nameIn scope name = ⟨scope, name⟩ := by simp [nameIn, uncut]
    have full : (⟨scope, name⟩ : QualifiedName).full = dotted scope name := if_neg inScope.some
    have row : (dotted scope name).toList = scope.toList ++ '.' :: name.toList := by simp [dotted]
    rw [same, full]
    refine ⟨row, plain, ?_⟩
    obtain ⟨first, more, begins, start, chars⟩ := inScope
    refine ⟨first, more ++ '.' :: name.toList, by rw [row, begins]; rfl, start, ?_⟩
    intro c member
    rcases List.mem_append.mp member with inScope | behind
    · exact chars c inScope
    · rcases List.mem_cons.mp behind with rfl | inName
      · decide
      · exact word.all c inName
  · have same : nameIn scope name = _ := nameIn_of_cut cut
    have some : String.ofList before ≠ "" := by
      intro empty
      obtain ⟨first, more, begins, start, -⟩ := word
      have none : before = [] := by simpa using congrArg String.toList empty
      rw [none] at whole
      rw [begins] at whole
      rw [(List.cons.inj whole).1] at start
      cases start
    have full : (⟨String.ofList before, String.ofList after⟩ : QualifiedName).full = name := by
      apply String.toList_injective
      rw [QualifiedName.full, if_neg some, whole]
      simp [dotted]
    rw [same, full]
    exact ⟨by simpa using whole, by simpa using plain, word⟩

/-- What a name stands for in a scope is shown by a word that stands for the same, and not by the
    qualifier. -/
theorem namedType_text (inScope : IsWord scope) (word : IsWord name) :
    IsWord (namedType scope name).text ∧ (namedType scope name).text ≠ "const" ∧
      namedType scope (namedType scope name).text = namedType scope name := by
  cases primitive : NativeType.isPrimitiveCode name with
  | true =>
    have same : namedType scope name = .primitive name := if_pos primitive
    rw [same]
    refine ⟨word, ?_, same⟩
    rintro rfl
    cases primitive
  | false =>
    have same : namedType scope name = .handle (nameIn scope name) := if_neg (by simp [primitive])
    obtain ⟨row, plain, full⟩ := nameIn_full inScope word
    have point : '.' ∈ (nameIn scope name).full.toList := by simp [row]
    have again : nameIn scope (nameIn scope name).full = nameIn scope name := by
      rw [nameIn_of_cut (row ▸ cutLast?_append _ plain), String.ofList_toList, String.ofList_toList]
    have other : NativeType.isPrimitiveCode (nameIn scope name).full = false :=
      Bool.eq_false_iff.mpr fun primitive => isPrimitiveCode_plain primitive point
    rw [same]
    refine ⟨full, ?_, ?_⟩
    · intro const
      rw [show (nameIn scope name).full = "const" from const] at point
      exact absurd point (by decide)
    · show namedType scope (nameIn scope name).full = _
      simp [namedType, other, again]

/-! ## Suffixes -/

theorem digitValue?_of_isDigit {c : Char} (digit : c.isDigit = true) :
    digitValue? c = some (c.toNat - '0'.toNat) := by
  have bounds : 48 ≤ c.toNat ∧ c.toNat ≤ 57 := by
    simpa [Char.isDigit, UInt32.le_iff_toNat_le] using digit
  have first : digitZeros.find? (fun first => first ≤ c.toNat && c.toNat < first + 10) = some 48 := by
    apply List.find?_cons_of_pos
    simp [bounds.1]
    omega
  rw [digitValue?, first]
  rfl

/-- The digits that a number is shown by stand for it. -/
theorem ofDecimalDigits_toDigits (n : Nat) : Numeral.ofDecimalDigits (Nat.toDigits 10 n) = n := by
  have values : ∀ (digits : List Char) (total : Nat), (∀ c ∈ digits, c.isDigit = true) →
      (digits.filterMap digitValue?).foldl (fun total digit => 10 * total + digit) total =
        Nat.ofDigitChars 10 digits total := by
    intro digits
    induction digits with
    | nil => exact fun _ _ => rfl
    | cons c digits ih =>
      intro total all
      rw [List.filterMap_cons_some (digitValue?_of_isDigit (all c (by simp)))]
      exact ih _ fun d member => all d (by simp [member])
  have digits : ∀ c ∈ Nat.toDigits 10 n, c.isDigit = true := fun c =>
    Nat.isDigit_of_mem_toDigits (by omega) (by omega)
  exact (values _ 0 digits).trans (Nat.ofDigitChars_toDigits (by omega) (by omega))

/-- The digits that a length is shown by. -/
def shownDigits (digits : List Char) : List Char :=
  if digits.isEmpty then [] else Nat.toDigits 10 (Numeral.ofDecimalDigits digits)

/-- The suffix that another one is shown by. -/
def shown : Token → Token
  | .bracket digits => .bracket (shownDigits digits)
  | token => token

theorem shown_isSuffix (token : Token) : (shown token).isSuffix = token.isSuffix := by
  cases token <;> rfl

theorem lengthOf_shownDigits (digits : List Char) : lengthOf (shownDigits digits) = lengthOf digits := by
  cases digits with
  | nil => rfl
  | cons c digits =>
    have some : (Nat.toDigits 10 (Numeral.ofDecimalDigits (c :: digits))).isEmpty = false := by simp
    simp [shownDigits, lengthOf, some, ofDecimalDigits_toDigits]

theorem suffixed_shown (type : NativeType) (token : Token) :
    suffixed type (shown token) = suffixed type token := by
  cases token with
  | bracket digits => simp only [shown, suffixed, lengthOf_shownDigits]
  | functionOpen | arrow | word | star | openParen | closeParen | comma => rfl

theorem dimensionText_lengthOf (digits : List Char) :
    NativeType.dimensionText (lengthOf digits) = (Token.bracket (shownDigits digits)).text := by
  apply String.toList_injective
  cases digits with
  | nil => rfl
  | cons c digits =>
    have positive : ofInt (Numeral.ofDecimalDigits (c :: digits)) =
        Nat.repr (Numeral.ofDecimalDigits (c :: digits)) := if_neg (by omega)
    simp [lengthOf, NativeType.dimensionText, shownDigits, Token.text, positive, Nat.toList_repr]

theorem join_append (parts : List String) (last : String) : join "" (parts ++ [last]) = join "" parts ++ last := by
  induction parts with
  | nil => simp [join]
  | cons part parts ih =>
    cases parts with
    | nil => simp [join]
    | cons next parts =>
      simp only [List.cons_append, join] at ih ⊢
      rw [ih]
      simp [String.append_assoc]

/-- A suffix is written after the type that it is applied to. -/
theorem suffixed_text (suffix : token.isSuffix = true) :
    (suffixed type token).text = type.text ++ (shown token).text := by
  cases token with
  | star => rfl
  | bracket digits =>
    rw [shown, ← dimensionText_lengthOf]
    cases type with
    | array element lengths => simp [suffixed, addDimension, NativeType.text, join_append, String.append_assoc]
    | primitive | pointer | handle | function => rfl
  | functionOpen | arrow | word | openParen | closeParen | comma => cases suffix

/-- Suffixes are written one after the other. -/
theorem foldl_suffixed_text (type : NativeType) {suffixes : List Token}
    (suffix : ∀ t ∈ suffixes, t.isSuffix = true) :
    (suffixes.foldl suffixed type).text.toList =
      type.text.toList ++ suffixes.flatMap fun t => (shown t).text.toList := by
  induction suffixes generalizing type with
  | nil => simp
  | cons t suffixes ih =>
    rw [List.foldl_cons, ih _ fun u member => suffix u (by simp [member]), suffixed_text (suffix t (by simp))]
    simp

theorem foldl_suffixed_shown (type : NativeType) (suffixes : List Token) :
    (suffixes.map shown).foldl suffixed type = suffixes.foldl suffixed type := by
  simp only [List.foldl_map, suffixed_shown]

theorem shownDigits_isDigit (digits : List Char) : ∀ c ∈ shownDigits digits, c.isDigit = true := by
  intro c member
  unfold shownDigits at member
  split at member
  · cases member
  · exact Nat.isDigit_of_mem_toDigits (by omega) (by omega) member

theorem shown_blankless (suffix : token.isSuffix = true) : ' ' ∉ (shown token).text.toList := by
  cases token with
  | star => decide
  | bracket digits =>
    have digits := mt (shownDigits_isDigit digits ' ') (by decide)
    simp [shown, Token.text, digits]
  | functionOpen | arrow | word | openParen | closeParen | comma => cases suffix

/-- A suffix is a token of its own wherever it stands, and ends a name before it. -/
theorem splits_suffix (suffix : token.isSuffix = true) (splits : Splits rest tokens) :
    Splits ((shown token).text.toList ++ rest) (shown token :: tokens) ∧
      Ends ((shown token).text.toList ++ rest) := by
  cases token with
  | star => exact ⟨.cons (longest_single trivial rfl (by decide) (by decide)) splits, ends_cons (by decide)⟩
  | bracket digits =>
    have written : ∀ c ∈ shownDigits digits, isDigit c = true := fun c member => by
      rw [isDigit, digitValue?_of_isDigit (shownDigits_isDigit digits c member)]
      rfl
    have row : (shown (.bracket digits)).text.toList ++ rest = '[' :: shownDigits digits ++ ']' :: rest := by
      simp [shown, Token.text]
    rw [row]
    exact ⟨.cons (longest_bracket rest written) splits, ends_cons (by decide)⟩
  | functionOpen | arrow | word | openParen | closeParen | comma => cases suffix

theorem splits_suffixes {suffixes : List Token} (suffix : ∀ t ∈ suffixes, t.isSuffix = true)
    (ends : Ends rest) (splits : Splits rest tokens) :
    Splits ((suffixes.flatMap fun t => (shown t).text.toList) ++ rest) (suffixes.map shown ++ tokens) ∧
      Ends ((suffixes.flatMap fun t => (shown t).text.toList) ++ rest) := by
  induction suffixes with
  | nil => exact ⟨splits, ends⟩
  | cons t suffixes ih =>
    rw [List.flatMap_cons, List.append_assoc]
    exact splits_suffix (suffix t (by simp)) (ih fun u member => suffix u (by simp [member])).1

/-! ## The qualifier -/

theorem not_begins_const {inner : String} (blankless : ' ' ∉ inner.toList) : begins "const " inner = false := by
  apply Bool.eq_false_iff.mpr
  intro starts
  exact blankless ((List.isPrefixOf_iff_prefix.mp starts).subset (by decide))

/-- The text of a pointer without blanks is that of its element and a star. -/
theorem pointer_text {element : NativeType} {isConst : Bool}
    (blankless : ' ' ∉ (NativeType.pointer element isConst).text.toList) :
    (NativeType.pointer element isConst).text = element.text ++ "*" ∧ ' ' ∉ element.text.toList := by
  simp only [NativeType.text, NativeType.markConst] at blankless ⊢
  split
  · next marked => simp [marked] at blankless
  · next unmarked => simpa [unmarked] using blankless

/-- The qualifier stands in front of the text of the type whose innermost pointer it marks. -/
theorem withConst_text : (type : NativeType) → type.holdsPointer = true → ' ' ∉ type.text.toList →
    type.withConst.text = "const " ++ type.text
  | .pointer element isConst, _, blankless => by
    obtain ⟨same, plain⟩ := pointer_text blankless
    rw [same]
    by_cases holds : element.holdsPointer = true
    · have inner := withConst_text element holds plain
      have marked : begins "const " ("const " ++ element.text) = true := by
        simp [begins]
      simp [NativeType.withConst, holds, NativeType.text, NativeType.markConst, inner, marked, String.append_assoc]
    · simp [NativeType.withConst, holds, NativeType.text, NativeType.markConst, not_begins_const plain,
        String.append_assoc]
  | .array element lengths, holds, blankless => by
    have plain : ' ' ∉ element.text.toList := by
      simp only [NativeType.text, String.toList_append, List.mem_append, not_or] at blankless
      exact blankless.1
    have inner := withConst_text element holds plain
    simp [NativeType.withConst, NativeType.text, inner, String.append_assoc]

theorem qualified_holdsPointer (isConst : Bool) (type : NativeType) :
    NativeType.qualified (isConst && type.holdsPointer) type = .qualified isConst type := by
  cases isConst with
  | false => rfl
  | true =>
    cases holds : type.holdsPointer with
    | true => rfl
    | false => exact (NativeType.withConst_of_pointerless type holds).symm

/-! ## Types -/

/-- Whatever ends a name may follow the signature of a type: it splits into tokens that derive the type. -/
def ReadsBack (scope : String) (type : NativeType) : Prop :=
  ∃ tokens, Derives scope tokens type ∧
    ∀ {rest : List Char} {more : List Token}, Ends rest → Splits rest more →
      Splits (type.text.toList ++ rest) (tokens ++ more)

theorem const_isWord : IsWord "const" := by
  have plain : ['o', 'n', 's', 't'].all isWordChar = true := by decide
  exact ⟨'c', _, rfl, by decide, List.all_eq_true.mp plain⟩

/-- A named type reads back: its qualifier is shown if it marks anything, its name is shown in full, and
    each of its suffixes is shown as a suffix that does the same. -/
theorem readsBack_named {isConst : Bool} {suffixes : List Token} (inScope : IsWord scope) (word : IsWord name)
    (suffix : ∀ t ∈ suffixes, t.isSuffix = true) :
    ReadsBack scope (.qualified isConst (suffixes.foldl suffixed (namedType scope name))) := by
  obtain ⟨shownWord, notConst, same⟩ := namedType_text inScope word
  have row := foldl_suffixed_text (namedType scope name) suffix
  have again := foldl_suffixed_shown (namedType scope name) suffixes
  rw [← qualified_holdsPointer]
  generalize whole : suffixes.foldl suffixed (namedType scope name) = type at row again
  have blankless : ' ' ∉ type.text.toList := by
    rw [row, List.mem_append, List.mem_flatMap]
    rintro (inName | ⟨t, member, inSuffix⟩)
    · exact absurd (shownWord.all ' ' inName) (by decide)
    · exact shown_blankless (suffix t member) inSuffix
  have unmarked {rest : List Char} {more : List Token} (ends : Ends rest) (splits : Splits rest more) :
      Splits (type.text.toList ++ rest)
        (.word (namedType scope name).text :: (suffixes.map shown ++ more)) := by
    obtain ⟨splits, ends⟩ := splits_suffixes suffix ends splits
    rw [row, List.append_assoc]
    exact splits_word shownWord ends splits
  refine ⟨qualifier (isConst && type.holdsPointer) ++
    .word (namedType scope name).text :: suffixes.map shown, ?_, ?_⟩
  · have further : ∀ t ∈ suffixes.map shown, t.isSuffix = true := by simpa [shown_isSuffix] using suffix
    have derived : Derives scope _ _ :=
      .named (isConst && type.holdsPointer) (fun const => absurd const notConst) further
    rwa [same, again] at derived
  · intro rest more ends splits
    cases marked : isConst && type.holdsPointer with
    | false => exact unmarked ends splits
    | true =>
      have holds : type.holdsPointer = true := (Bool.and_eq_true_iff.mp marked).2
      have text : (NativeType.qualified true type).text = "const " ++ type.text :=
        withConst_text type holds blankless
      have front : (NativeType.qualified true type).text.toList ++ rest =
          "const".toList ++ ' ' :: (type.text.toList ++ rest) := by
        rw [text]
        simp
      rw [front]
      exact splits_word const_isWord (ends_cons (by decide)) (unmarked ends splits).behind_blank

/-- Types that read back do so one after the other. -/
theorem readsBack_params {types : List NativeType} (each : ∀ t ∈ types, ReadsBack scope t) :
    ∃ params : List (List Token × NativeType), params.map (·.2) = types ∧
      (∀ p ∈ params, Derives scope p.1 p.2) ∧
      ∀ {rest : List Char} {more : List Token}, Ends rest → Splits rest more →
        Splits ((join ", " (NativeType.textAll types)).toList ++ rest)
          ([Token.comma].intercalate (params.map (·.1)) ++ more) := by
  induction types with
  | nil => exact ⟨[], rfl, nofun, fun _ splits => splits⟩
  | cons type types ih =>
    obtain ⟨tokens, derives, back⟩ := each type (by simp)
    obtain ⟨params, rfl, all, backs⟩ := ih fun t member => each t (by simp [member])
    refine ⟨(tokens, type) :: params, rfl, List.forall_mem_cons.mpr ⟨derives, all⟩, ?_⟩
    intro rest more ends splits
    cases params with
    | nil => simpa [NativeType.textAll, join] using back ends splits
    | cons p params =>
      have behind := back (ends_cons (by decide))
        (.cons longest_comma (backs ends splits).behind_blank)
      simpa [NativeType.textAll, join, List.intercalate_cons_cons] using behind

theorem readsBack_function {params : List NativeType} {returns : NativeType}
    (each : ∀ t ∈ params, ReadsBack scope t) (result : ReadsBack scope returns) :
    ReadsBack scope (.function params returns) := by
  obtain ⟨params, rfl, all, backs⟩ := readsBack_params each
  obtain ⟨tokens, derives, back⟩ := result
  refine ⟨_, .function false all derives, ?_⟩
  intro rest more ends splits
  have arrow := Splits.cons longest_arrow (back ends splits)
  have closed := Splits.cons longest_closeParen arrow
  have opened := Splits.cons longest_functionOpen (backs (ends_cons (by decide)) closed)
  simpa [NativeType.text, qualifier] using opened

theorem mem_intercalate {α : Type} (separator : List α) {row : List α} {rows : List (List α)} {a : α}
    (there : row ∈ rows) (inside : a ∈ row) : a ∈ separator.intercalate rows := by
  induction rows with
  | nil => cases there
  | cons first rows ih =>
    cases rows with
    | nil =>
      rw [List.mem_singleton.mp there] at inside
      simpa using inside
    | cons second rows =>
      rw [List.intercalate_cons_cons]
      rcases List.mem_cons.mp there with rfl | later
      · simp [inside]
      · simp [ih later]

/-- What a row derives reads back if its tokens are written as they may be. -/
theorem Derives.readsBack (derives : Derives scope tokens type) (inScope : IsWord scope)
    (written : ∀ t ∈ tokens, t.IsWritten) : ReadsBack scope type := by
  induction derives with
  | named isConst unqualified suffix => exact readsBack_named inScope (written (.word _) (by simp)) suffix
  | @function isConst params tokens returns each result eachBack resultBack =>
    apply readsBack_function
    · intro t member
      obtain ⟨p, there, rfl⟩ := List.mem_map.mp member
      refine eachBack p there fun u inside => written u ?_
      have between := mem_intercalate [Token.comma] (List.mem_map_of_mem there) inside
      simp [between]
    · exact resultBack fun u inside => written u (by simp [inside])

/-- A type that was read in a scope is read again from its signature. -/
theorem read_text (inScope : IsWord scope) (read : NativeType.read text scope = .ok type) :
    NativeType.read type.text scope = .ok type := by
  obtain ⟨tokens, splits, derives⟩ := read_ok_iff.mp read
  obtain ⟨shown, derivesAgain, back⟩ := derives.readsBack inScope splits.written
  have ended : Ends [] := nofun
  have splitsAgain : Splits (type.text.toList ++ []) (shown ++ []) := back ended (.blanks nofun)
  rw [List.append_nil, List.append_nil] at splitsAgain
  exact read_ok_iff.mpr ⟨shown, splitsAgain, derivesAgain⟩

/-- The signature of the type differs from the one that it was read from in the blanks, in a name that is
    shown in full, in the script of a digit and in a qualifier that marks nothing. -/
theorem nested_read_text : ∃ type, IsWord "N" ∧
    NativeType.read "const  fn(const a.*[2][]*, X)-> const u4 [٣]" "N" = .ok type ∧
    type.text = "fn(const a.*[2][]*, N.X)->u4[3]" ∧ NativeType.read type.text "N" = .ok type := by
  have inScope : IsWord "N" := ⟨'N', [], rfl, by decide, nofun⟩
  have read : NativeType.read "const  fn(const a.*[2][]*, X)-> const u4 [٣]" "N" = .ok (.function
      [.pointer (.array (.pointer (.handle ⟨"a", ""⟩) true) [some 2, none]) false, .handle ⟨"N", "X"⟩]
      (.array (.primitive "u4") [some 3])) := rfl
  exact ⟨_, inScope, read, rfl, read_text inScope read⟩

end Bindings.Signature
