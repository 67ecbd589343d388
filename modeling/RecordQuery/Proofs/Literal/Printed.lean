import RecordQuery.Proofs.Number.ReadBack
import RecordQuery.Proofs.Token.Words

/-!
# Literals as they are printed

Times and dates are printed as they were written, so there is nothing to show for them
but that a text that was read is read again (`Rule.find?_self`).  Strings and numbers
change their text: a string loses the backslashes it was written with, a number its plus
sign, its zeros in front, and the digits that did not fit.

What is printed is the same literal again, with one exception.  A decimal that has lost
all digits behind its point is printed without a point, and there it is no decimal any
more (`Literal.showsKind`).
-/

namespace RecordQuery

variable {validate : Bool} {rule : Rule} {cs text rest : List Char} {token : Token}
  {literal : Literal}

/-! ## The text of a number -/

namespace Rule

open Scan

variable {sign digits behind : List Char}

theorem scanNumber_digits (hsign : sign = [] ∨ sign = ['-']) (hne : digits ≠ [])
    (hdigits : ∀ c ∈ digits, c.isDigit = true) (hbehind : IsFraction behind) :
    scanNumber (sign ++ (digits ++ behind)) = some (sign ++ (digits ++ behind), []) := by
  have hrun : many1 Char.isDigit (digits ++ behind) = some (digits, behind) :=
    many1_eq_some.mpr ⟨hne, many_eq_some.mpr ⟨hdigits, rfl, hbehind.stops_isDigit⟩⟩
  have hfraction : Scan.optional (.sequence [.one (· == '.'), .many1 Char.isDigit]) behind =
      some (behind, []) := by
    rcases hbehind with rfl | ⟨fraction, hne', hdigits', rfl⟩
    · rfl
    · have hmany : many1 Char.isDigit fraction = some (fraction, []) :=
        many1_eq_some.mpr ⟨hne', many_eq_some.mpr ⟨hdigits', by simp, stops_nil _⟩⟩
      exact optional_eq_some.mpr (Or.inl (by simp [Scan.sequence, one, hmany]))
  have hfirst : Scan.optional (.one fun c => c == '+' || c == '-') (sign ++ (digits ++ behind)) =
      some (sign, digits ++ behind) := by
    rcases hsign with rfl | rfl
    · cases digits with
      | nil => exact absurd rfl hne
      | cons c digits =>
          have hc := hdigits c List.mem_cons_self
          have hplus : c ≠ '+' := ne_of_isDigit hc (by decide)
          have hminus : c ≠ '-' := ne_of_isDigit hc (by decide)
          simp [Scan.optional, one, hplus, hminus]
    · rfl
  exact sequence_cons_eq_some.mpr ⟨sign, _, digits ++ behind, hfirst, sequence_cons_eq_some.mpr
    ⟨digits, behind, behind, hrun, sequence_cons_eq_some.mpr ⟨behind, [], [], hfraction,
      sequence_nil_eq_some.mpr ⟨rfl, rfl⟩, by simp⟩, rfl⟩, rfl⟩

/-- A number is taken by no rule before that for numbers. -/
theorem find?_digits (hsign : sign = [] ∨ sign = ['-']) (hne : digits ≠ [])
    (hdigits : ∀ c ∈ digits, c.isDigit = true) (hbehind : IsFraction behind) :
    find? (sign ++ (digits ++ behind)) = some (number, sign ++ (digits ++ behind), []) := by
  refine find?_eq_some.mpr ⟨scanNumber_digits hsign hne hdigits hbehind, fun earlier hmem => ?_⟩
  rcases hsign with rfl | rfl
  · -- the text starts with a digit, and it has neither hyphens nor colons
    have hnot : ∀ d : Char, d.isDigit = false → d ≠ '.' → d ∉ digits ++ behind := by
      intro d hd hpoint hmem
      rcases List.mem_append.mp hmem with hmem | hmem
      · exact not_mem_of_isDigit hdigits hd hmem
      · rcases hbehind.mem d hmem with hdigit | rfl
        · exact ne_of_isDigit hdigit hd rfl
        · exact hpoint rfl
    have hdate := scanDate_of_not_mem (hnot '-' (by decide) (by decide))
    have hclock := scanClock_of_not_mem (hnot ':' (by decide) (by decide))
    rw [List.nil_append]
    cases earlier with
    | dateTime => exact scanDateTime_none hdate
    | date => exact hdate
    | time => exact scanTime_none hclock
    | number => exact absurd hmem (by decide)
    | _ =>
        cases digits with
        | nil => exact absurd rfl hne
        | cons c digits =>
            have hc := hdigits c List.mem_cons_self
            exact scan_none_of_not_starts (not_starts_of_isDigit hc _ (by simp))
  · refine scan_none_of_not_starts ?_
    revert hmem
    cases earlier <;> decide

end Rule

/-! ## The text of a string -/

namespace Literal

open Rule

/-- A character of a string as it is printed. -/
def writeChar (c : Char) : List Char :=
  if c = '"' then ['\\', '"'] else [c]

theorem writeString_eq (cs : List Char) : writeString cs = '"' :: (cs.flatMap writeChar ++ ['"']) :=
  rfl

/-- Strings that were read have no backslashes. -/
theorem backslash_not_mem_unquote (cs : List Char) : '\\' ∉ unquote cs := by
  simp [unquote]

/-- A printed string ends at its own quote, whatever stands behind it. -/
theorem scanToQuote_flatMap (h : '\\' ∉ cs) (ds : List Char) :
    scanToQuote '"' (cs.flatMap writeChar ++ '"' :: ds) =
      some (cs.flatMap writeChar ++ ['"'], ds) := by
  induction cs with
  | nil => exact scanToQuote_quote '"' ds
  | cons c cs ih =>
      rw [List.mem_cons, not_or] at h
      obtain ⟨hc, hcs⟩ := h
      rw [List.flatMap_cons]
      by_cases hquote : c = '"'
      · simp [writeChar, hquote, scanToQuote_escaped, ih hcs]
      · simp [writeChar, hquote, scanToQuote_plain hquote (Ne.symm hc), ih hcs]

theorem filter_flatMap (h : '\\' ∉ cs) : (cs.flatMap writeChar).filter (· ≠ '\\') = cs := by
  induction cs with
  | nil => rfl
  | cons c cs ih =>
      rw [List.mem_cons, not_or] at h
      obtain ⟨hc, hcs⟩ := h
      rw [List.flatMap_cons, List.filter_append, ih hcs]
      by_cases hquote : c = '"'
      · simp [writeChar, hquote]
      · simp [writeChar, hquote, Ne.symm hc]

/-- A string is what is between its quotes. -/
theorem unquote_writeString (h : '\\' ∉ cs) : unquote (writeString cs) = cs := by
  rw [unquote, writeString_eq, List.tail_cons, List.dropLast_concat, filter_flatMap h]

theorem find?_writeString (h : '\\' ∉ cs) (ds : List Char) :
    find? (writeString cs ++ ds) = some (Rule.string, writeString cs, ds) := by
  have hscan : scanString (writeString cs ++ ds) = some (writeString cs, ds) := by
    have hinner := scanToQuote_flatMap h ds
    rw [← List.singleton_append, ← List.append_assoc] at hinner
    rw [writeString_eq, List.cons_append, scanString, if_pos (by decide), hinner]
    rfl
  refine find?_eq_some.mpr ⟨hscan, fun earlier hmem => ?_⟩
  rw [writeString_eq, List.cons_append]
  refine scan_none_of_not_starts ?_
  revert hmem
  cases earlier <;> decide

end Literal

/-! ## Literals that are one token -/

/-- Whether the text of a literal tells its kind.  A decimal without a digit behind its
point is printed as a whole number is. -/
def Literal.showsKind : Literal → Bool
  | decimal d => d.scale != 0
  | _ => true

theorem lexeme_string (h : '\\' ∉ cs) :
    Lexeme validate .string (Literal.writeString cs) (.literal (.string (String.ofList cs))) where
  find := by simpa using Literal.find?_writeString h []
  convert := by rw [Rule.convert, Literal.unquote_writeString h]

theorem find?_writeInt (n : Int) :
    Rule.find? (Numeral.writeInt n) = some (Rule.number, Numeral.writeInt n, []) := by
  have hdigits := isDigit_toDigits n.natAbs
  have hne : Nat.toDigits 10 n.natAbs ≠ [] := Nat.toDigits_ne_nil
  obtain ⟨sign, hsign, hwrite⟩ : ∃ sign, (sign = [] ∨ sign = ['-']) ∧
      Numeral.writeInt n = sign ++ (Nat.toDigits 10 n.natAbs ++ []) := by
    unfold Numeral.writeInt
    split
    · exact ⟨['-'], Or.inr rfl, by simp⟩
    · exact ⟨[], Or.inl rfl, by simp⟩
  rw [hwrite]
  exact Rule.find?_digits hsign hne hdigits (Or.inl rfl)

theorem point_not_mem_writeInt (n : Int) : '.' ∉ Numeral.writeInt n := by
  have hdigits : '.' ∉ Nat.toDigits 10 n.natAbs :=
    not_mem_of_isDigit (isDigit_toDigits _) (by decide)
  unfold Numeral.writeInt
  split <;> simp [hdigits]

theorem lexeme_integer (value : Int64) :
    Lexeme validate .number (Numeral.writeInt value.toInt) (.literal (.integer value)) where
  find := find?_writeInt value.toInt
  convert := by
    simp [Rule.convert, Literal.readNumber, point_not_mem_writeInt, Numeral.readInt64_writeInt,
      Except.map]

theorem lexeme_decimal (d : Decimal) (hscale : d.scale ≠ 0) :
    Lexeme validate .number d.write (.literal (.decimal d)) := by
  have hpoint := (Decimal.point_mem_write_iff d).mpr hscale
  constructor
  · have hsign : d.sign = [] ∨ d.sign = ['-'] := by
      unfold Decimal.sign
      split
      · exact Or.inr rfl
      · exact Or.inl rfl
    rw [Decimal.write_eq hscale]
    exact Rule.find?_digits hsign (Decimal.wholeDigits_ne_nil d) (Decimal.isDigit_wholeDigits d)
      (Or.inr ⟨d.fractionDigits, Decimal.fractionDigits_ne_nil hscale,
        Decimal.isDigit_fractionDigits d, rfl⟩)
  · simp [Rule.convert, Literal.readNumber, hpoint, Decimal.read_write d hscale, Except.map]

/-- A literal that was read prints as one word, unless it is a decimal without a digit
behind its point. -/
theorem lexeme_write (hfind : Rule.find? cs = some (rule, text, rest))
    (hconvert : rule.convert validate text = .ok (.literal literal))
    (hkind : literal.showsKind = true) :
    Lexeme validate rule literal.write (.literal literal) := by
  have hmade := Rule.convert_ok hconvert
  -- times and dates keep their text
  have hkept : literal.write = text → rule ≠ .operator → rule ≠ .string → rule ≠ .number →
      Lexeme validate rule literal.write (.literal literal) := by
    intro hwrite hoperator hstring hnumber
    rw [hwrite]
    exact ⟨Rule.find?_self hfind hoperator hstring hnumber, hconvert⟩
  cases rule with
  | actionKey => cases hmade
  | operator =>
      obtain ⟨operator, hmade⟩ := hmade
      cases hmade
  | identifier =>
      simp only at hmade
      rcases Rule.nameOrKeyword_cases (String.ofList text) with hname | ⟨_, hname⟩ | ⟨_, hname⟩ <;>
        · rw [hname] at hmade
          cases hmade
  | dateTime =>
      cases hmade
      exact hkept (String.toList_ofList) (by simp) (by simp) (by simp)
  | date =>
      cases hmade
      exact hkept (String.toList_ofList) (by simp) (by simp) (by simp)
  | time =>
      cases hmade
      exact hkept (String.toList_ofList) (by simp) (by simp) (by simp)
  | string =>
      cases hmade
      have hwrite : (Literal.string (String.ofList (Literal.unquote text))).write =
          Literal.writeString (Literal.unquote text) :=
        congrArg Literal.writeString String.toList_ofList
      rw [hwrite]
      exact lexeme_string (Literal.backslash_not_mem_unquote text)
  | number =>
      obtain ⟨made, heq, hread⟩ := hmade
      cases heq
      rcases Rule.readNumber_ok hread with ⟨value, rfl, -⟩ | ⟨value, rfl, -⟩
      · exact lexeme_integer value
      · exact lexeme_decimal value (bne_iff_ne.mp hkind)

theorem lexeme_of_startsWith (h : StartsWith validate cs (.literal literal) text rest)
    (hkind : literal.showsKind = true) :
    ∃ rule, Lexeme validate rule literal.write (.literal literal) := by
  rcases readToken_cases (h .start) with ⟨mark, hmark, -, -⟩ | ⟨rule, hfind, hconvert⟩
  · cases hmark
  · exact ⟨rule, lexeme_write hfind hconvert hkind⟩

/-! ## Printing and reading again -/

/-- Reading the text of a literal yields one token, and that is the literal. -/
def Literal.SelfPrinting (validate : Bool) (literal : Literal) : Prop :=
  ∃ spanned : Spanned,
    ((Lexer.start literal.display).withValidation validate).items = [.ok spanned] ∧
      (spanned.token == .literal literal) = true

theorem beq_self_literal (literal : Literal) :
    (Token.literal literal == .literal literal) = true := by
  cases literal with
  | decimal d => exact beq_self_eq_true (d.coefficient * (Nat.pow 10 d.scale : Nat))
  | string text => exact beq_self_eq_true text
  | integer value => exact beq_self_eq_true value
  | time text => exact beq_self_eq_true text
  | date text => exact beq_self_eq_true text
  | dateTime text => exact beq_self_eq_true text

theorem Lexeme.items_display (h : Lexeme validate rule literal.write (.literal literal)) :
    ((Lexer.start literal.display).withValidation validate).items =
      [.ok ⟨.literal literal, .start, literal.display.utf8ByteSize⟩] := by
  rw [Literal.display, Text.utf8ByteSize_ofList]
  exact items_of_startsWith h.startsWith

theorem selfPrinting_of_startsWith (h : StartsWith validate cs (.literal literal) text rest)
    (hkind : literal.showsKind = true) : literal.SelfPrinting validate := by
  obtain ⟨rule, hlexeme⟩ := lexeme_of_startsWith h hkind
  exact ⟨_, hlexeme.items_display, beq_self_literal literal⟩

/-! ## Decimals that have lost their point -/

/-- A decimal that was read without keeping a digit behind its point is too large for a
whole number. -/
theorem isLarge_of_startsWith {d : Decimal}
    (h : StartsWith validate cs (.literal (.decimal d)) text rest) (hscale : d.scale = 0) :
    Decimal.IsLarge d.coefficient.natAbs := by
  rcases readToken_cases (h .start) with ⟨mark, hmark, -, -⟩ | ⟨rule, hfind, hconvert⟩
  · cases hmark
  obtain rfl := Rule.eq_finder hconvert rfl
  obtain ⟨literal, heq, hread⟩ := Rule.convert_ok hconvert
  cases heq
  rcases Rule.readNumber_ok hread with ⟨value, hvalue, -⟩ | ⟨value, hvalue, hread, hpoint⟩
  · cases hvalue
  cases hvalue
  obtain ⟨sign, digits, behind, hsign, hne, hdigits, hbehind, rfl⟩ :=
    Rule.exists_of_scanNumber (Rule.scan_of_find? hfind)
  rcases hbehind with rfl | ⟨fraction, hne', hdigits', rfl⟩
  · -- the point is neither in the sign nor among the digits
    have hnot : '.' ∉ digits := not_mem_of_isDigit hdigits (by decide)
    rcases hsign with rfl | rfl | rfl <;> simp [hnot] at hpoint
  · cases fraction with
    | nil => exact absurd rfl hne'
    | cons c fraction =>
        have hc := hdigits' c List.mem_cons_self
        exact (Decimal.scale_of_read hsign hne hdigits hc hread).resolve_left
          (not_not_intro hscale)

theorem exists_error_display {d : Decimal} (hscale : d.scale = 0)
    (hlarge : Decimal.IsLarge d.coefficient.natAbs) :
    ∃ fault, ((Lexer.start (Literal.decimal d).display).withValidation validate).items =
      [.error (.invalidLiteral .start (Literal.decimal d).display ⟨.integer, .integer fault⟩)] := by
  obtain ⟨fault, hfault⟩ := Numeral.readInt64_writeInt_beyond hlarge
  have hwrite : (Literal.decimal d).write = Numeral.writeInt d.coefficient :=
    Decimal.write_of_scale_zero hscale
  have hfind := find?_writeInt d.coefficient
  obtain ⟨c, more, htext, hc⟩ := Rule.starts_of_scan (Rule.scan_of_find? hfind)
  refine ⟨fault, ?_⟩
  rw [Literal.display, hwrite]
  have hblank : Text.dropBlanks (Numeral.writeInt d.coefficient) =
      Numeral.writeInt d.coefficient := by
    rw [htext]
    exact Scan.dropBlanks_of_stops (Scan.stops_cons (Rule.not_isBlank_of_starts hc) more)
  have hconvert : Rule.convert validate .number (Numeral.writeInt d.coefficient) =
      .error ⟨.integer, .integer fault⟩ := by
    simp [Rule.convert, Literal.readNumber, point_not_mem_writeInt, hfault, Except.map]
  have hhead : (Numeral.writeInt d.coefficient).head?.bind Mark.ofChar? = none := by
    rw [htext]
    exact ofChar?_of_starts hc
  refine items_of_refused (by rw [htext]; simp) hblank ?_
  simp only [Lexer.readToken, hhead, hfind, hconvert]

theorem Literal.SelfPrinting.showsKind
    (h : StartsWith validate cs (.literal literal) text rest)
    (hprints : literal.SelfPrinting validate) : literal.showsKind = true := by
  by_contra hkind
  cases literal with
  | decimal d =>
      have hscale : d.scale = 0 := by simpa [Literal.showsKind] using hkind
      obtain ⟨spanned, hitems, -⟩ := hprints
      obtain ⟨fault, herror⟩ :=
        @exists_error_display validate d hscale (isLarge_of_startsWith h hscale)
      rw [herror] at hitems
      cases hitems
  | _ => exact hkind rfl

/-- A literal that was read from a text is printed as a text that is read as this literal,
unless it is a decimal that has lost all digits behind its point.  The printed text is
then one token from its first byte to its last; the text of such a decimal is refused. -/
theorem Literal.selfPrinting_iff (text : String) (validate : Bool) (spanned : Spanned)
    (literal : Literal)
    (hitem : .ok spanned ∈ ((Lexer.start text).withValidation validate).items)
    (hliteral : spanned.token = .literal literal) :
    (literal.SelfPrinting validate ↔ literal.showsKind = true) ∧
      (literal.showsKind = true →
        ((Lexer.start literal.display).withValidation validate).items =
          [.ok ⟨spanned.token, .start, literal.display.utf8ByteSize⟩]) ∧
      (literal.showsKind = false →
        ∃ fault, ((Lexer.start literal.display).withValidation validate).items =
          [.error (.invalidLiteral .start literal.display ⟨.integer, .integer fault⟩)]) := by
  obtain ⟨cs, word, rest, hword⟩ := exists_startsWith_of_mem_items rfl hitem
  rw [hliteral] at hword ⊢
  refine ⟨⟨fun h => h.showsKind hword, selfPrinting_of_startsWith hword⟩, ?_, ?_⟩
  · intro hkind
    obtain ⟨rule, hlexeme⟩ := lexeme_of_startsWith hword hkind
    exact hlexeme.items_display
  · intro hkind
    cases literal with
    | decimal d =>
        have hscale : d.scale = 0 := by simpa [showsKind] using hkind
        exact exists_error_display hscale (isLarge_of_startsWith hword hscale)
    | _ => cases hkind

theorem Literal.selfPrinting_decimal :
    .ok ⟨.literal (.decimal ⟨150, 2, by decide, by decide⟩), .start, 4⟩ ∈
        ((Lexer.start "1.50").withValidation false).items ∧
      Literal.SelfPrinting false (.decimal ⟨150, 2, by decide, by decide⟩) := by
  have hword : StartsWith false "1.50".toList
      (.literal (.decimal ⟨150, 2, by decide, by decide⟩)) "1.50".toList [] := fun _ => rfl
  have hitems := items_of_startsWith hword
  have hitem : .ok ⟨.literal (.decimal ⟨150, 2, by decide, by decide⟩), .start, 4⟩ ∈
      ((Lexer.start "1.50").withValidation false).items := by
    rw [String.ofList_toList] at hitems
    rw [hitems]
    exact List.mem_singleton_self _
  exact ⟨hitem, (selfPrinting_iff "1.50" false _ _ hitem rfl).1.mpr rfl⟩

/-- The digit behind the point does not fit any more. -/
theorem Literal.not_selfPrinting_decimal : ∃ spanned literal,
    .ok spanned ∈ ((Lexer.start "79228162514264337593543950335.4").withValidation false).items ∧
      spanned.token = .literal literal ∧ ¬ literal.SelfPrinting false := by
  have hword : StartsWith false "79228162514264337593543950335.4".toList
      (.literal (.decimal ⟨79228162514264337593543950335, 0, by decide, by decide⟩))
      "79228162514264337593543950335.4".toList [] := fun _ => rfl
  have hitems := items_of_startsWith hword
  rw [String.ofList_toList] at hitems
  refine ⟨_, _, by rw [hitems]; exact List.mem_singleton_self _, rfl, fun hprints => ?_⟩
  have hkind := hprints.showsKind hword
  cases hkind

end RecordQuery
