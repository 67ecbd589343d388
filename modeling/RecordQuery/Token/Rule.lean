import RecordQuery.Literal.Reading
import RecordQuery.Token.Basic
import RecordQuery.Token.Scan

/-!
# The rules for tokens

Every token that is no punctuation mark is recognised by a rule.  A rule has a shape,
which says how far the token reaches, and a conversion, which says what token the text
stands for.  The rules are tried in a fixed order, and the first whose shape is found
decides: a date and time before a date, a date before a time, and all of them before a
number, which each of them starts with.
-/

namespace RecordQuery

/-- A rule for tokens. -/
inductive Rule where
  /-- A colon and a name. -/
  | actionKey
  /-- A comparison operator that starts with a symbol. -/
  | operator
  /-- A name or a path of names, among them the operators that are words. -/
  | identifier
  | dateTime
  | date
  | time
  | string
  | number
  deriving DecidableEq, Repr

namespace Rule

/-- All rules, in the order in which they are tried. -/
def all : List Rule :=
  [actionKey, operator, identifier, dateTime, date, time, string, number]

/-! ## Shapes -/

/-- Whether a character is a letter of ASCII or a low line, which a name can start
with. -/
def isNameStart (c : Char) : Bool :=
  c.isAlpha || c == '_'

/-- Whether a character can stand in a name. -/
def isNamePart (c : Char) : Bool :=
  isNameStart c || c.isDigit

/-- What follows the first character of a path: names, and a point wherever another
name starts behind it. -/
def scanPath : List Char → List Char × List Char
  | [] => ([], [])
  | c :: cs =>
    if isNamePart c then
      let (text, rest) := scanPath cs
      (c :: text, rest)
    else if c = '.' then
      match cs with
      | [] => ([], c :: cs)
      | d :: ds =>
        if isNameStart d then
          let (text, rest) := scanPath ds
          (c :: d :: text, rest)
        else
          ([], c :: cs)
    else
      ([], c :: cs)

/-- What follows the quote that opens a string, up to the next such quote that does not
stand behind a backslash of its own. -/
def scanToQuote (quote : Char) : Scan
  | [] => none
  | c :: cs =>
    if c = quote then
      some ([c], cs)
    else if c = '\\' then
      match cs with
      | [] => none
      | d :: ds => (scanToQuote quote ds).map fun (text, rest) => (c :: d :: text, rest)
    else
      (scanToQuote quote cs).map fun (text, rest) => (c :: text, rest)

/-- Whether a character opens a string. -/
def isQuote (c : Char) : Bool :=
  c == '"' || c == '\''

/-- A string between quotes of one kind. -/
def scanString : Scan
  | [] => none
  | quote :: cs =>
    if isQuote quote then
      (scanToQuote quote cs).map fun (text, rest) => (quote :: text, rest)
    else
      none

/-- A colon and the letters and digits behind it. -/
def scanActionKey : Scan :=
  .sequence [.one (· == ':'), .many1 fun c => c.isAlpha || c.isDigit]

/-- A comparison operator that starts with a symbol.  The longer ones come first, and
one that ends in a word needs the word to end there. -/
def scanOperator : Scan :=
  .firstOf [.word ['=', '='], .word ['!', '='], .word ['>', '='], .word ['<', '='],
    .word ['>'], .word ['<'],
    .sequence [.word ['!', 'i', 'n'], .wordEnd],
    .sequence [.word ['!', 'c', 'o', 'n', 't', 'a', 'i', 'n', 's'], .wordEnd]]

/-- A name, or names with points between them. -/
def scanIdentifier : Scan :=
  .sequence [.one isNameStart, fun cs => some (scanPath cs)]

/-- Four digits, and twice a hyphen with one or two digits. -/
def scanDate : Scan :=
  .sequence [.digits 4 4, .one (· == '-'), .digits 1 2, .one (· == '-'), .digits 1 2]

/-- One half of the day, as a word of its own, with white space allowed before it. -/
def scanHalf : Scan :=
  .sequence [.many Text.isBlank, .firstOf [.wordAnyCase ['a', 'm'], .wordAnyCase ['p', 'm']],
    .wordEnd]

/-- One or two digits on both sides of a colon, perhaps with a half of the day. -/
def scanTime : Scan :=
  .sequence [.digits 1 2, .one (· == ':'), .digits 1 2, .optional scanHalf]

/-- A date and a time with white space between them. -/
def scanDateTime : Scan :=
  .sequence [scanDate, .many1 Text.isBlank, scanTime]

/-- Digits, perhaps with a sign before them and a point and more digits behind them. -/
def scanNumber : Scan :=
  .sequence [.optional (.one fun c => c == '+' || c == '-'), .many1 Char.isDigit,
    .optional (.sequence [.one (· == '.'), .many1 Char.isDigit])]

/-- The shape of a rule: the text at the start of the input that the rule takes. -/
def scan : Rule → Scan
  | actionKey => scanActionKey
  | operator => scanOperator
  | identifier => scanIdentifier
  | dateTime => scanDateTime
  | date => scanDate
  | time => scanTime
  | string => scanString
  | number => scanNumber

/-- The first rule whose shape is found, the text it takes, and the rest. -/
def find? (cs : List Char) : Option (Rule × List Char × List Char) :=
  all.findSome? fun rule => (rule.scan cs).map fun (text, rest) => (rule, text, rest)

/-! ## A rule splits the text and takes something -/

theorem scanPath_append (cs : List Char) : (scanPath cs).1 ++ (scanPath cs).2 = cs := by
  fun_induction scanPath cs with
  | case1 => rfl
  | case2 c cs hc text rest heq ih => simpa [heq] using ih
  | case3 => rfl
  | case4 d ds hd text rest heq hdot ih => simpa [heq] using ih
  | case5 => rfl
  | case6 => rfl

theorem splits_scanToQuote (quote : Char) : (scanToQuote quote).Splits := by
  intro cs
  fun_induction scanToQuote quote cs with
  | case1 => intro text rest h; cases h
  | case2 cs => intro text rest h; cases h; rfl
  | case3 => intro text rest h; cases h
  | case4 d ds hc ih =>
      intro text rest h
      obtain ⟨⟨more, left⟩, hmore, hpair⟩ := Option.map_eq_some_iff.mp h
      cases hpair
      simp [ih more rest hmore]
  | case5 c cs hc hslash ih =>
      intro text rest h
      obtain ⟨⟨more, left⟩, hmore, hpair⟩ := Option.map_eq_some_iff.mp h
      cases hpair
      simp [ih more rest hmore]

theorem splits_scanString : Scan.Splits scanString := by
  intro cs text rest h
  cases cs with
  | nil => cases h
  | cons quote cs =>
      simp only [scanString] at h
      split at h
      · obtain ⟨⟨more, left⟩, hmore, hpair⟩ := Option.map_eq_some_iff.mp h
        cases hpair
        simp [splits_scanToQuote quote cs more left hmore]
      · cases h

theorem advances_scanString : Scan.Advances scanString := by
  intro cs text rest h
  cases cs with
  | nil => cases h
  | cons quote cs =>
      simp only [scanString] at h
      split at h
      · obtain ⟨⟨more, left⟩, hmore, hpair⟩ := Option.map_eq_some_iff.mp h
        cases hpair
        simp
      · cases h

theorem splits_scanDate : Scan.Splits scanDate := by
  apply Scan.splits_sequence
  simp [Scan.splits_digits, Scan.splits_one]

theorem splits_scanHalf : Scan.Splits scanHalf := by
  apply Scan.splits_sequence
  simp only [List.forall_mem_cons, List.not_mem_nil, false_implies, implies_true, and_true]
  refine ⟨Scan.splits_many _, Scan.splits_firstOf ?_, Scan.splits_wordEnd⟩
  simp [Scan.splits_wordAnyCase]

theorem splits_scanTime : Scan.Splits scanTime := by
  apply Scan.splits_sequence
  simp [Scan.splits_digits, Scan.splits_one, Scan.splits_optional splits_scanHalf]

/-- What a rule takes, followed by what it leaves, is the text it was given. -/
theorem splits_scan (rule : Rule) : rule.scan.Splits := by
  cases rule with
  | actionKey =>
      apply Scan.splits_sequence
      simp [Scan.splits_one, Scan.splits_many1]
  | operator =>
      apply Scan.splits_firstOf
      simp only [List.forall_mem_cons, List.not_mem_nil, false_implies, implies_true, and_true]
      refine ⟨Scan.splits_word _, Scan.splits_word _, Scan.splits_word _, Scan.splits_word _,
        Scan.splits_word _, Scan.splits_word _, Scan.splits_sequence ?_,
        Scan.splits_sequence ?_⟩ <;> simp [Scan.splits_word, Scan.splits_wordEnd]
  | identifier =>
      apply Scan.splits_sequence
      simp only [List.forall_mem_cons, List.not_mem_nil, false_implies, implies_true, and_true]
      refine ⟨Scan.splits_one _, ?_⟩
      intro cs text rest h
      have hpath := Option.some.inj h
      rw [← scanPath_append cs, hpath]
  | dateTime =>
      apply Scan.splits_sequence
      simp [splits_scanDate, Scan.splits_many1, splits_scanTime]
  | date => exact splits_scanDate
  | time => exact splits_scanTime
  | string => exact splits_scanString
  | number =>
      apply Scan.splits_sequence
      simp only [List.forall_mem_cons, List.not_mem_nil, false_implies, implies_true, and_true]
      refine ⟨Scan.splits_optional (Scan.splits_one _), Scan.splits_many1 _,
        Scan.splits_optional (Scan.splits_sequence ?_)⟩
      simp [Scan.splits_one, Scan.splits_many1]

theorem advances_scanDate : Scan.Advances scanDate :=
  Scan.advances_sequence ⟨_, List.mem_cons_self, Scan.advances_digits (by omega)⟩

/-- A rule never takes an empty text. -/
theorem advances_scan (rule : Rule) : rule.scan.Advances := by
  cases rule with
  | actionKey => exact Scan.advances_sequence ⟨_, List.mem_cons_self, Scan.advances_one _⟩
  | operator =>
      apply Scan.advances_firstOf
      simp only [List.forall_mem_cons, List.not_mem_nil, false_implies, implies_true, and_true]
      refine ⟨Scan.advances_word (by simp), Scan.advances_word (by simp),
        Scan.advances_word (by simp), Scan.advances_word (by simp),
        Scan.advances_word (by simp), Scan.advances_word (by simp),
        Scan.advances_sequence ⟨_, List.mem_cons_self, Scan.advances_word (by simp)⟩,
        Scan.advances_sequence ⟨_, List.mem_cons_self, Scan.advances_word (by simp)⟩⟩
  | identifier => exact Scan.advances_sequence ⟨_, List.mem_cons_self, Scan.advances_one _⟩
  | dateTime => exact Scan.advances_sequence ⟨_, List.mem_cons_self, advances_scanDate⟩
  | date => exact advances_scanDate
  | time =>
      exact Scan.advances_sequence ⟨_, List.mem_cons_self, Scan.advances_digits (by omega)⟩
  | string => exact advances_scanString
  | number =>
      exact Scan.advances_sequence
        ⟨_, List.mem_cons_of_mem _ List.mem_cons_self, Scan.advances_many1 _⟩

theorem scan_of_find? {cs text rest : List Char} {rule : Rule}
    (h : find? cs = some (rule, text, rest)) : rule.scan cs = some (text, rest) := by
  obtain ⟨found, _, hfound⟩ := List.exists_of_findSome?_eq_some h
  obtain ⟨pair, hpair, heq⟩ := Option.map_eq_some_iff.mp hfound
  cases heq
  exact hpair

/-! ## Conversions -/

/-- The names that are operators. -/
def keywords : List (String × Token) :=
  [(Joiner.and.spelling, .joiner .and), (Joiner.or.spelling, .joiner .or),
   (Comparison.isIn.spelling, .comparison .isIn),
   (Comparison.contains.spelling, .comparison .contains)]

/-- A name, unless all of it is one of the operators that are words. -/
def nameOrKeyword (text : String) : Token :=
  (keywords.lookup text).getD (.key text)

/-- The token that a text with the shape of a rule stands for.  With `validate`, times
and dates have to be real ones. -/
def convert (validate : Bool) (rule : Rule) (text : List Char) : Except LiteralFault Token :=
  match rule with
  | actionKey => .ok (.actionKey (String.ofList text))
  | operator =>
    match Comparison.ofSpelling? (String.ofList text) with
    | some comparison => .ok (.comparison comparison)
    | none => .error ⟨.operator, .unknownComparison (String.ofList text)⟩
  | identifier => .ok (nameOrKeyword (String.ofList text))
  | dateTime => (Literal.readDateTime validate text).map .literal
  | date => (Literal.readDate validate text).map .literal
  | time => (Literal.readTime validate text).map .literal
  | string => .ok (.literal (.string (String.ofList (Literal.unquote text))))
  | number => (Literal.readNumber text).map .literal

end Rule

end RecordQuery
