import Bindings.Request.Run

/-!
# Request lines

The language of request lines against what they ask for. A line is accepted if, without the blanks
around it, it is the text of a form: all functions of a module, all constants that begin with a stem, or
a name. The text tells the form, since a stem and a name have no stars and do not end with a point.
-/

namespace Bindings
open Bindings.Text

/-! ## Blanks around a text -/

theorem dropBlankEnd_eq_self {cs : List Char} (last : ∀ c ∈ cs.getLast?, isBlank c = false) :
    dropBlankEnd cs = cs := by
  rcases List.eq_nil_or_concat cs with rfl | ⟨front, c, rfl⟩
  · rfl
  · have visible := last c (by simp)
    simp [dropBlankEnd, visible]

/-- A row stays as it is if it has no blank at either end. -/
theorem dropBlanks_eq_self {cs : List Char} (first : ∀ c ∈ cs.head?, isBlank c = false)
    (last : ∀ c ∈ cs.getLast?, isBlank c = false) : dropBlanks cs = cs := by
  have begun : cs.dropWhile isBlank = cs := by
    cases cs with
    | nil => rfl
    | cons c cs => simp [first c rfl]
  rw [dropBlanks, begun, dropBlankEnd_eq_self last]

namespace Request

/-! ## Dotted names -/

theorem cutAll_ne_nil (c : Char) (cs : List Char) : cutAll c cs ≠ [] := by
  cases cs with
  | nil => simp [cutAll]
  | cons d cs =>
    rw [cutAll]
    split
    · simp
    · split <;> simp

/-- A row is cut where it has the character. -/
theorem cutAll_append (c : Char) (before after : List Char) :
    cutAll c (before ++ c :: after) = cutAll c before ++ cutAll c after := by
  induction before with
  | nil => simp [cutAll]
  | cons d before ih =>
    obtain ⟨part, parts, cut⟩ := List.exists_cons_of_ne_nil (cutAll_ne_nil c before)
    by_cases same : d = c
    · simp [cutAll, same, ih]
    · simp [cutAll, same, ih, cut]

theorem mem_cutAll {c d : Char} {cs : List Char} (member : d ∈ cs) :
    d = c ∨ ∃ part ∈ cutAll c cs, d ∈ part := by
  induction cs with
  | nil => cases member
  | cons e cs ih =>
    obtain ⟨part, parts, cut⟩ := List.exists_cons_of_ne_nil (cutAll_ne_nil c cs)
    by_cases same : e = c
    · rcases List.mem_cons.mp member with rfl | later
      · exact .inl same
      · refine (ih later).imp_right fun ⟨part, inside, there⟩ => ⟨part, ?_, there⟩
        simp [cutAll, same, inside]
    · have whole : cutAll c (e :: cs) = (e :: part) :: parts := by simp [cutAll, same, cut]
      rw [whole]
      rw [cut] at ih
      rcases List.mem_cons.mp member with rfl | later
      · exact .inr ⟨_, List.mem_cons_self, List.mem_cons_self⟩
      · refine (ih later).imp_right fun ⟨other, inside, there⟩ => ?_
        rcases List.mem_cons.mp inside with rfl | further
        · exact ⟨_, List.mem_cons_self, List.mem_cons_of_mem e there⟩
        · exact ⟨other, List.mem_cons_of_mem _ further, there⟩

variable {cs : List Char}

theorem isIdentifierChar_of_isIdentifier (identifier : isIdentifier cs = true) :
    ∀ c ∈ cs, isIdentifierChar c = true := by
  cases cs with
  | nil => cases identifier
  | cons first rest =>
    simp only [isIdentifier, Bool.and_eq_true, List.all_eq_true] at identifier
    intro c member
    rcases List.mem_cons.mp member with rfl | later
    · have start := identifier.1
      simp only [isIdentifierChar, Bool.or_eq_true] at start ⊢
      exact start.imp_left .inl
    · exact identifier.2 c later

/-- A dotted name has points and characters of identifiers. -/
theorem chars_of_isDottedName (name : isDottedName cs = true) :
    ∀ c ∈ cs, c = '.' ∨ isIdentifierChar c = true := by
  intro c member
  refine (mem_cutAll (c := '.') member).imp_right fun ⟨part, inside, there⟩ => ?_
  exact isIdentifierChar_of_isIdentifier (List.all_eq_true.mp name part inside) c there

theorem ne_empty_of_isDottedName {name : String} (dotted : isDottedName name.toList = true) :
    name ≠ "" := by
  rintro rfl
  cases dotted

/-- No dotted name ends with a point. -/
theorem isDottedName_point (cs : List Char) : isDottedName (cs ++ ['.']) = false := by
  rw [isDottedName, cutAll_append, List.all_append]
  simp [cutAll, isIdentifier]

theorem isBlank_of_isIdentifierChar {c : Char} (char : isIdentifierChar c = true) : isBlank c = false := by
  have bounds : (65 ≤ c.toNat ∧ c.toNat ≤ 90) ∨ (97 ≤ c.toNat ∧ c.toNat ≤ 122) ∨
      (48 ≤ c.toNat ∧ c.toNat ≤ 57) ∨ c.toNat = 95 := by
    simp [isIdentifierChar, isLetter, isFigure, Char.le_def, UInt32.le_iff_toNat_le] at char
    rcases char with ((upper | lower) | figure) | rfl
    · exact .inl upper
    · exact .inr (.inl lower)
    · exact .inr (.inr (.inl figure))
    · exact .inr (.inr (.inr rfl))
  simp [isBlank, blankRanges, Ranges.contains]
  omega

theorem isBlank_of_isDottedName (name : isDottedName cs = true) : ∀ c ∈ cs, isBlank c = false := by
  intro c member
  rcases chars_of_isDottedName name c member with rfl | char
  · decide
  · exact isBlank_of_isIdentifierChar char

theorem star_not_mem (name : isDottedName cs = true) : '*' ∉ cs := by
  intro star
  rcases chars_of_isDottedName name '*' star with point | char
  · cases point
  · cases char

/-! ## Forms -/

/-- What a line may ask for: all functions of a module, all constants that begin with a stem, or a
    namespace or a definition by its name. -/
inductive Form
  | module (name : String)
  | constants (stem : String)
  | single (name : String)

/-- The line that asks for a form. -/
def Form.text : Form → String
  | .module name => name ++ ".*"
  | .constants stem => stem ++ "*"
  | .single name => name

/-- A form with a module, a stem or a name that there may be. -/
def Form.Proper : Form → Prop
  | .module name => name ≠ "" ∧ (isDottedName name.toList = true ∨ isModuleName name.toList = true)
  | .constants stem => stem ≠ "" ∧ '*' ∉ stem.toList ∧ isDottedName stem.toList = true
  | .single name => isDottedName name.toList = true

/-- The form that a text asks for by its end. -/
def Form.of (text : String) : Form :=
  if ends ".*" text then .module (dropEnd 2 text)
  else if ends "*" text then .constants (withoutStars text)
  else .single text

theorem ends_iff (part s : String) : ends part s = true ↔ ∃ front, s = front ++ part := by
  rw [ends, List.isSuffixOf_iff_suffix]
  constructor
  · rintro ⟨front, whole⟩
    exact ⟨String.ofList front, String.toList_inj.mp (by simp [whole])⟩
  · rintro ⟨front, rfl⟩
    exact ⟨front.toList, by simp⟩

theorem withoutEnd?_eq_some {ending body : List Char} :
    withoutEnd? ending cs = some body ↔ cs = body ++ ending := by
  unfold withoutEnd?
  constructor
  · split
    · next suffix =>
      rintro ⟨⟩
      obtain ⟨front, rfl⟩ := List.isSuffixOf_iff_suffix.mp suffix
      simp
    · nofun
  · rintro rfl
    simp

theorem withoutStars_append {stem : String} (starless : '*' ∉ stem.toList) :
    withoutStars (stem ++ "*") = stem ∧ withoutStars stem = stem := by
  have stays : stem.toList.reverse.dropWhile (· = '*') = stem.toList.reverse := by
    cases reversed : stem.toList.reverse with
    | nil => rfl
    | cons c cs =>
      have member : c ∈ stem.toList := List.mem_reverse.mp (by simp [reversed])
      have other : c ≠ '*' := fun same => starless (same ▸ member)
      simp [other]
  simp [withoutStars, stays]

namespace Form
variable {form : Form}

/-- The text of a form tells it. -/
theorem of_text (proper : form.Proper) : Form.of form.text = form := by
  cases form with
  | module name =>
    have pointed : ends ".*" (name ++ ".*") = true := (ends_iff _ _).mpr ⟨name, rfl⟩
    simp [Form.of, Form.text, pointed, dropEnd]
  | constants stem =>
    obtain ⟨-, starless, dotted⟩ := proper
    have pointless : ends ".*" (stem ++ "*") = false := by
      refine Bool.eq_false_iff.mpr fun pointed => ?_
      obtain ⟨front, same⟩ := (ends_iff _ _).mp pointed
      have row : stem.toList = front.toList ++ ['.'] :=
        (List.append_left_inj ['*']).mp (by simpa using congrArg String.toList same)
      rw [row, isDottedName_point] at dotted
      cases dotted
    have star : ends "*" (stem ++ "*") = true := (ends_iff _ _).mpr ⟨stem, rfl⟩
    simp [Form.of, Form.text, pointless, star, (withoutStars_append starless).1]
  | single name =>
    have starless := star_not_mem proper
    have plain : ∀ part : String, '*' ∈ part.toList → ends part name = false := by
      intro part star
      refine Bool.eq_false_iff.mpr fun ending => starless ?_
      obtain ⟨front, rfl⟩ := (ends_iff _ _).mp ending
      simp [star]
    simp [Form.of, Form.text, plain]

/-- Different forms have different texts. -/
theorem text_injective {other : Form} (proper : form.Proper) (properly : other.Proper)
    (same : form.text = other.text) : form = other := by
  rw [← of_text proper, ← of_text properly, same]

theorem dropBlanks_starred {front : List Char} (ending : List Char) (some : front ≠ [])
    (first : ∀ c ∈ front.head?, isBlank c = false) :
    dropBlanks (front ++ (ending ++ ['*'])) = front ++ (ending ++ ['*']) := by
  refine dropBlanks_eq_self (fun c head => first c ?_) fun c last => ?_
  · obtain ⟨d, rest, rfl⟩ := List.exists_cons_of_ne_nil some
    exact head
  · rw [← List.append_assoc, List.getLast?_concat] at last
    cases last
    decide

/-- There are no blanks around the text of a form. -/
theorem strip_text (proper : form.Proper) : strip form.text = form.text := by
  have dotted : ∀ {cs : List Char}, isDottedName cs = true → ∀ c ∈ cs.head?, isBlank c = false :=
    fun name c head => isBlank_of_isDottedName name c (List.mem_of_mem_head? head)
  suffices idle : dropBlanks form.text.toList = form.text.toList by rw [strip, idle, String.ofList_toList]
  cases form with
  | module name =>
    obtain ⟨some, named⟩ := proper
    have first : ∀ c ∈ name.toList.head?, isBlank c = false := by
      intro c head
      rcases named with name | name
      · exact dotted name c head
      · have known := (Bool.and_eq_true_iff.mp name).1
        rw [head] at known
        exact isBlank_of_isIdentifierChar known
    simpa [Form.text] using dropBlanks_starred ['.'] (some ∘ String.toList_eq_nil_iff.mp) first
  | constants stem =>
    obtain ⟨some, -, name⟩ := proper
    simpa [Form.text] using dropBlanks_starred [] (some ∘ String.toList_eq_nil_iff.mp) (dotted name)
  | single name =>
    have visible := isBlank_of_isDottedName proper
    exact dropBlanks_eq_self (dotted proper) fun c last => visible c (List.mem_of_mem_getLast? last)

end Form

/-! ## Lines that are accepted -/

/-- A row has the form of a request if it is the text of a form. -/
theorem isRequest_iff {text : String} :
    isRequest text.toList = true ↔ ∃ form : Form, form.Proper ∧ form.text = text := by
  have written : ∀ {body : List Char} {ending : String}, text.toList = body ++ ending.toList →
      String.ofList body ++ ending = text :=
    fun row => String.toList_inj.mp (by simp [row])
  constructor
  · intro accepted
    unfold isRequest at accepted
    split at accepted
    · next body found =>
      have row := withoutEnd?_eq_some.mp found
      have named : isDottedName body = true ∨ isModuleName body = true := by simpa using accepted
      refine ⟨.module (String.ofList body), ⟨?_, by simpa using named⟩, written row⟩
      rintro nothing
      obtain rfl := String.ofList_eq_empty_iff.mp nothing
      simp [isDottedName, cutAll, isIdentifier, isModuleName] at named
    · split at accepted
      · next body found =>
        have row := withoutEnd?_eq_some.mp found
        have dotted : isDottedName (String.ofList body).toList = true := by simpa using accepted
        exact ⟨.constants (String.ofList body),
          ⟨ne_empty_of_isDottedName dotted, star_not_mem dotted, dotted⟩, written row⟩
      · exact ⟨.single text, accepted, rfl⟩
  · rintro ⟨form, proper, rfl⟩
    cases form with
    | module name =>
      have cut : withoutEnd? ['.', '*'] (name ++ ".*").toList = some name.toList :=
        withoutEnd?_eq_some.mpr (by simp)
      simpa only [isRequest, Form.text, cut, Bool.or_eq_true] using proper.2
    | constants stem =>
      obtain ⟨-, -, dotted⟩ := proper
      have uncut : withoutEnd? ['.', '*'] (stem ++ "*").toList = none := by
        refine Option.eq_none_iff_forall_ne_some.mpr fun body found => ?_
        have row : stem.toList ++ ['*'] = body ++ ['.'] ++ ['*'] := by
          simpa using withoutEnd?_eq_some.mp found
        rw [List.append_cancel_right row, isDottedName_point] at dotted
        cases dotted
      have cut : withoutEnd? ['*'] (stem ++ "*").toList = some stem.toList :=
        withoutEnd?_eq_some.mpr (by simp)
      simpa only [isRequest, Form.text, uncut, cut] using dotted
    | single name =>
      have uncut : ∀ ending, '*' ∈ ending → withoutEnd? ending name.toList = none := by
        intro ending star
        refine Option.eq_none_iff_forall_ne_some.mpr fun body found => star_not_mem proper ?_
        simp [withoutEnd?_eq_some.mp found, star]
      simpa only [isRequest, Form.text, uncut ['.', '*'] (by simp), uncut ['*'] (by simp),
        Form.Proper] using proper

/-- A line is accepted if, without the blanks around it, it is the text of a form. -/
theorem validate_ok_iff {line text : String} : validate line = .ok text ↔
    text = strip line ∧ ∃ form : Form, form.Proper ∧ form.text = text := by
  unfold validate
  split
  · next accepted =>
    constructor
    · rintro ⟨⟩
      exact ⟨rfl, isRequest_iff.mp accepted⟩
    · rintro ⟨rfl, _⟩
      rfl
  · next refused =>
    constructor
    · nofun
    · rintro ⟨rfl, form⟩
      exact absurd (isRequest_iff.mpr form) refused

end Request
end Bindings
