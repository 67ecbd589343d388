import RecordQuery.Proofs.Number.Nearest
import RecordQuery.Proofs.Token.Temporal

/-!
# Literals that are refused

A rule finds a text by its form, and a reader of its own makes the value of it.  The reader
looks at the form once more and has words for whatever may be wrong there, but the rules are
at least as strict.  So a text that a rule has found is refused for its value only
(`LiteralFault.IsOfValue`): it is a number that is too large, or there is no such time or date.
What the readers say about the form no lexer ever says (`Lexer.isOfValue_of_invalidLiteral`).
-/

namespace RecordQuery

/-! ## Faults of value and of form -/

/-- The form of a text is wrong, and not only its value. -/
def FaultReason.IsOfForm : FaultReason → Prop
  | integer fault => fault = .empty ∨ fault = .invalidDigit
  | decimal fault => fault ≠ .tooManyDigits ∧ fault ≠ .roundingOverflow
  | missingColon | missingTime | badHour _ | badMinute _ | unknownSuffix _ | badDatePart _ _
  | unknownComparison _ | other _ => True
  | hourOutOfRange _ _ | notTimeOfDay _ | notCalendarDate _ => False

/-- A text has the form of a literal, but there is no such value. -/
inductive LiteralFault.IsOfValue : List Char → LiteralFault → Prop where
  /-- A whole number above sixty-four bits. -/
  | tooLarge {text : List Char} (hpoint : '.' ∉ text)
      (hvalue : 2 ^ 63 - 1 < Numeral.writtenValue text) :
      IsOfValue text ⟨.integer, .integer .tooLarge⟩
  /-- A whole number below sixty-four bits. -/
  | tooSmall {text : List Char} (hpoint : '.' ∉ text)
      (hvalue : Numeral.writtenValue text < -2 ^ 63) :
      IsOfValue text ⟨.integer, .integer .tooSmall⟩
  /-- A number with a point that is beyond all decimals. -/
  | overflow {text : List Char} {fault : DecimalFault} (hpoint : '.' ∈ text)
      (hfault : fault = .tooManyDigits ∨ fault = .roundingOverflow)
      (hvalue : Decimal.overflowLimit ≤ |Numeral.writtenValue text|) :
      IsOfValue text ⟨.decimal, .decimal fault⟩
  /-- A time or a date that there is not. -/
  | moment {moment : Literal.Moment} {reason : FaultReason} (h : moment.Fault reason) :
      IsOfValue moment.text ⟨moment.kind, reason⟩

namespace Literal

theorem Clock.Fault.not_isOfForm {clock : Clock} {reason : FaultReason} (h : clock.Fault reason) :
    ¬ reason.IsOfForm := by
  cases h <;> exact id

theorem Moment.Fault.not_isOfForm {moment : Moment} {reason : FaultReason}
    (h : moment.Fault reason) : ¬ reason.IsOfForm := by
  cases h with
  | time h => exact h.not_isOfForm
  | date h => exact id
  | dayOf h => exact id
  | clockOf hday h => exact h.not_isOfForm

end Literal

namespace LiteralFault.IsOfValue

variable {text : List Char} {fault : LiteralFault}

theorem not_isOfForm (h : fault.IsOfValue text) : ¬ fault.reason.IsOfForm := by
  cases h with
  | tooLarge => simp [FaultReason.IsOfForm]
  | tooSmall => simp [FaultReason.IsOfForm]
  | overflow hpoint hfault => rcases hfault with rfl | rfl <;> simp [FaultReason.IsOfForm]
  | moment h => exact h.not_isOfForm

theorem kind_ne_operator (h : fault.IsOfValue text) : fault.kind ≠ .operator := by
  cases h with
  | @moment moment reason h => cases moment <;> simp [Literal.Moment.kind]
  | _ => simp

end LiteralFault.IsOfValue

variable {cs whole fraction text rest sign : List Char}

/-! ## Numbers -/

namespace Numeral

variable {fault : IntegerFault}

/-- Digits with a sign or without one are refused if the number is too large or too small. -/
theorem readInt64_error (hsign : sign = [] ∨ sign = ['+'] ∨ sign = ['-']) (hne : whole ≠ [])
    (hdigits : ∀ c ∈ whole, c.isDigit = true) (h : readInt64 (sign ++ whole) = .error fault) :
    (fault = .tooLarge ∧ 2 ^ 63 - 1 < writtenValue (sign ++ whole)) ∨
      (fault = .tooSmall ∧ writtenValue (sign ++ whole) < -2 ^ 63) := by
  have hmagnitude := magnitude_digits hdigits
  have habove : maxInt64 < Nat.ofDigitChars 10 whole 0 →
      (2 ^ 63 - 1 : ℚ) < Nat.ofDigitChars 10 whole 0 := by
    intro hlarge
    have hcast : ((maxInt64 : Nat) : ℚ) < Nat.ofDigitChars 10 whole 0 := by exact_mod_cast hlarge
    norm_num [maxInt64] at hcast ⊢
    exact hcast
  have hbelow : maxInt64 + 1 < Nat.ofDigitChars 10 whole 0 →
      (2 ^ 63 : ℚ) < Nat.ofDigitChars 10 whole 0 := by
    intro hlarge
    have hcast : ((maxInt64 + 1 : Nat) : ℚ) < Nat.ofDigitChars 10 whole 0 := by
      exact_mod_cast hlarge
    norm_num [maxInt64] at hcast ⊢
    exact hcast
  rcases hsign with rfl | rfl | rfl
  · have hvalue : writtenValue (whole ++ []) = magnitude (whole ++ []) :=
      writtenValue_digits hdigits hne
    rw [List.append_nil] at hvalue
    rw [List.nil_append, readInt64_digits hdigits hne, readDigits_digits hdigits hne] at h
    rw [List.nil_append, hvalue, hmagnitude]
    split at h
    · cases h
    · next hfits =>
        cases h
        exact Or.inl ⟨rfl, habove (not_le.mp hfits)⟩
  · rw [List.singleton_append, readInt64, readDigits_digits hdigits hne] at h
    rw [List.singleton_append, writtenValue, hmagnitude]
    split at h
    · cases h
    · next hfits =>
        cases h
        exact Or.inl ⟨rfl, habove (not_le.mp hfits)⟩
  · rw [List.singleton_append, readInt64, readDigits_digits hdigits hne] at h
    rw [List.singleton_append, writtenValue, hmagnitude, neg_lt_neg_iff]
    split at h
    · cases h
    · next hfits =>
        cases h
        exact Or.inr ⟨rfl, hbelow (not_le.mp hfits)⟩

end Numeral

namespace Decimal

variable {fault : DecimalFault} {digits : Digits}

theorem roundBy_error {digit : Nat} (h : digits.roundBy digit = .error fault) :
    fault = .roundingOverflow := by
  unfold Digits.roundBy at h
  split at h
  · cases h
  · split at h
    · cases h
    · split at h
      · cases h
        rfl
      · cases h

theorem readFraction_error (hdigits : ∀ c ∈ cs, c.isDigit = true)
    (h : readFraction digits true cs = .error fault) : fault = .roundingOverflow := by
  induction cs generalizing digits with
  | nil => cases h
  | cons c cs ih =>
      have htail : ∀ d ∈ cs, d.isDigit = true := fun d hd => hdigits d (List.mem_cons_of_mem c hd)
      rw [readFraction, if_pos (hdigits c List.mem_cons_self)] at h
      -- with room left the digit is taken, else it rounds and those behind it have no say
      split at h
      · exact ih htail h
      · cases hround : digits.roundBy (Numeral.digitValue c) with
        | error other =>
            rw [hround] at h
            cases h
            exact roundBy_error hround
        | ok rounded =>
            rw [hround, checkRest_digits htail] at h
            cases h

/-- Digits on both sides of a point are refused if there are too many of them. -/
theorem readWhole_error (hne : whole ≠ []) (hdigits : ∀ c ∈ whole, c.isDigit = true)
    (hfraction : ∀ c ∈ fraction, c.isDigit = true)
    (h : readWhole 0 (by decide) false (whole ++ '.' :: fraction) = .error fault) :
    fault = .tooManyDigits ∨ fault = .roundingOverflow := by
  by_cases hfits : Nat.ofDigitChars 10 whole 0 < coefficientBound
  · rw [readWhole_digits (by decide) hdigits hfits (Or.inr hne)] at h
    exact Or.inr (readFraction_error hfraction h)
  · rw [readWhole_beyond (by decide) hdigits (not_lt.mp hfits)] at h
    cases h
    exact Or.inl rfl

theorem read_error (hsign : sign = [] ∨ sign = ['+'] ∨ sign = ['-']) (hne : whole ≠ [])
    (hdigits : ∀ c ∈ whole, c.isDigit = true) (hfraction : ∀ c ∈ fraction, c.isDigit = true)
    (h : read (sign ++ (whole ++ '.' :: fraction)) = .error fault) :
    (fault = .tooManyDigits ∨ fault = .roundingOverflow) ∧
      overflowLimit ≤ |Numeral.writtenValue (sign ++ (whole ++ '.' :: fraction))| := by
  have hread : ∃ negative, read (sign ++ (whole ++ '.' :: fraction)) =
      (readWhole 0 (by decide) false (whole ++ '.' :: fraction)).map (ofDigits negative) := by
    rcases hsign with rfl | rfl | rfl
    · rw [List.nil_append]
      exact ⟨false, read_digits hdigits hne⟩
    · exact ⟨false, rfl⟩
    · exact ⟨true, rfl⟩
  constructor
  · obtain ⟨negative, hread⟩ := hread
    rw [hread] at h
    cases hwhole : readWhole 0 (by decide) false (whole ++ '.' :: fraction) with
    | ok digits =>
        rw [hwhole] at h
        cases h
    | error other =>
        rw [hwhole] at h
        cases h
        exact readWhole_error hne hdigits hfraction hwhole
  · -- below the limit the number would have been read
    by_contra hbelow
    obtain ⟨d, hd, -⟩ := (read_nearest hsign hne hdigits hfraction).1 (not_le.mp hbelow)
    rw [hd] at h
    cases h

end Decimal

/-! ## Rules -/

/-- A number that a rule has found is refused for its value. -/
theorem Literal.readNumber_error {fault : LiteralFault}
    (hscan : Rule.scanNumber cs = some (text, rest)) (h : readNumber text = .error fault) :
    fault.IsOfValue text := by
  obtain ⟨sign, whole, behind, hsign, hne, hdigits, hbehind, rfl⟩ := Rule.exists_of_scanNumber hscan
  rcases hbehind with rfl | ⟨fraction, -, hfraction, rfl⟩
  · have hpoint : '.' ∉ sign ++ whole := by
      have hnone : '.' ∉ whole := not_mem_of_isDigit hdigits (by decide)
      rcases hsign with rfl | rfl | rfl <;> simp [hnone]
    rw [List.append_nil] at h ⊢
    rw [readNumber, if_neg (by simpa using hpoint)] at h
    split at h
    · cases h
    · next integerFault hread =>
        cases h
        rcases Numeral.readInt64_error hsign hne hdigits hread with ⟨rfl, hvalue⟩ | ⟨rfl, hvalue⟩
        · exact .tooLarge hpoint hvalue
        · exact .tooSmall hpoint hvalue
  · have hpoint : '.' ∈ sign ++ (whole ++ '.' :: fraction) := by simp
    rw [readNumber, if_pos (List.contains_iff_mem.mpr hpoint)] at h
    split at h
    · cases h
    · next decimalFault hread =>
        cases h
        obtain ⟨hfault, hvalue⟩ := Decimal.read_error hsign hne hdigits hfraction hread
        exact .overflow hpoint hfault hvalue

/-- A time or a date that a rule has found is refused for its value, and only if values are
checked. -/
theorem Literal.Moment.isOfValue (moment : Moment) {validate : Bool} {fault : LiteralFault}
    (h : moment.rule.convert validate moment.text = .error fault) :
    fault.IsOfValue moment.text := by
  have hconvert : moment.rule.convert validate moment.text =
      (readChecked validate moment.kind moment.check moment.literal moment.text).map .literal := by
    cases moment <;> rfl
  rw [hconvert] at h
  cases validate with
  | false => cases h
  | true =>
      rcases moment.readChecked_cases with ⟨-, hread⟩ | ⟨reason, hfault, hread⟩
      · rw [hread] at h
        cases h
      · rw [hread] at h
        cases h
        exact .moment hfault

/-- What a rule has found is refused for its value only. -/
theorem Rule.isOfValue_of_convert {rule : Rule} {validate : Bool} {fault : LiteralFault}
    (hscan : rule.scan cs = some (text, rest)) (h : rule.convert validate text = .error fault) :
    fault.IsOfValue text := by
  have hmoment : rule ∈ [Rule.time, .date, .dateTime] → fault.IsOfValue text := by
    intro htemporal
    obtain ⟨moment, rfl, rfl⟩ := Literal.exists_moment htemporal hscan
    exact moment.isOfValue h
  cases rule with
  | actionKey => cases h
  | operator =>
      obtain ⟨operator, htext⟩ := Shape.exists_spelling (Rule.operator.finds_scan.isMatch hscan)
      simp only [convert, htext, String.ofList_toList, Comparison.ofSpelling?_spelling] at h
      cases h
  | identifier => cases h
  | dateTime => exact hmoment (by decide)
  | date => exact hmoment (by decide)
  | time => exact hmoment (by decide)
  | string => cases h
  | number =>
      refine Literal.readNumber_error hscan ?_
      cases hread : Literal.readNumber text with
      | ok literal =>
          simp only [convert, hread] at h
          cases h
      | error other =>
          simp only [convert, hread] at h
          cases h
          rfl

/-! ## Lexers -/

namespace Lexer

variable {lexer : Lexer} {validate : Bool} {place place' : Text.Place} {fault : LiteralFault}

theorem isOfValue_of_readToken {refused : String}
    (h : readToken validate place cs = .error (.invalidLiteral place' refused fault)) :
    fault.IsOfValue refused.toList := by
  rcases readToken_error_cases h with
    ⟨-, herror⟩ | ⟨rule, text, rest, found, hfind, hconvert, herror⟩
  · -- what cannot be read at all is not taken for a literal
    unfold unreadable at herror
    split at herror <;> cases herror
  · cases herror
    rw [String.toList_ofList]
    exact Rule.isOfValue_of_convert (Rule.scan_of_find? hfind) hconvert

theorem isOfValue_of_nextToken {refused : String}
    (h : lexer.nextToken.1 = .error (.invalidLiteral place refused fault)) :
    fault.IsOfValue refused.toList := by
  rcases hcall : lexer.nextToken with ⟨result, after⟩
  rw [hcall] at h
  cases call_of_eq hcall with
  | atEnd hrest => cases h
  | reads hread => cases h
  | fails hrest hread =>
      cases h
      exact isOfValue_of_readToken hread

/-- An error in a stream is one of the next token. -/
theorem nextToken_of_next {error : LexError} (h : lexer.next.1 = some (.error error)) :
    lexer.nextToken.1 = .error error := by
  unfold next at h
  split at h
  · cases h
  · rcases hcall : lexer.nextToken with ⟨_ | _ | _, after⟩ <;> rw [hcall] at h <;> cases h
    rfl

/-- Whatever has been asked of a lexer, and whether it checks times and dates or does not: the
literal that it refuses has no value.  It is never an operator, and what is wrong is never
its form. -/
theorem isOfValue_of_invalidLiteral (lexer : Lexer) (place : Text.Place) (text : String)
    (fault : LiteralFault)
    (h : lexer.nextToken.1 = .error (.invalidLiteral place text fault) ∨
      lexer.next.1 = some (.error (.invalidLiteral place text fault))) :
    fault.IsOfValue text.toList ∧ fault.kind ≠ .operator ∧ ¬ fault.reason.IsOfForm := by
  have hnext : lexer.nextToken.1 = .error (.invalidLiteral place text fault) := by
    rcases h with h | h
    · exact h
    · exact nextToken_of_next h
  have hvalue := isOfValue_of_nextToken hnext
  exact ⟨hvalue, hvalue.kind_ne_operator, hvalue.not_isOfForm⟩

/-- A clock of twelve hours does not show thirteen. -/
theorem isOfValue_of_invalidLiteral_hour :
    ((Lexer.start "\n13:05 pm").withValidation true).next.1 =
        some (.error (.invalidLiteral ⟨1, 2⟩ "13:05 pm" ⟨.time, .hourOutOfRange 13 .pm⟩)) ∧
      (⟨.time, .hourOutOfRange 13 .pm⟩ : LiteralFault).IsOfValue "13:05 pm".toList := by
  have hnext : ((Lexer.start "\n13:05 pm").withValidation true).next.1 =
      some (.error (.invalidLiteral ⟨1, 2⟩ "13:05 pm" ⟨.time, .hourOutOfRange 13 .pm⟩)) := by
    rfl
  exact ⟨hnext, (isOfValue_of_invalidLiteral _ _ _ _ (Or.inr hnext)).1⟩

end Lexer

end RecordQuery
