import RecordQuery.Proofs.Query.Conclusion
import RecordQuery.Proofs.Token.Words

/-!
# What validation changes

With validation, times and dates have to be real ones.  That refuses some literals and
changes nothing else: where a literal passes it makes the same token, and everything that
is no time and no date is read without a look at the setting.

Two lexers, one with validation and one without, go through a text in step.  Either they
yield the same items, or up to some token they do and there the one with validation yields
its error, which ends its items (`Lexer.Parts`).  Since a query is one pass over the items,
the two passes go in step as well.  They part only if the pass gets as far as that token,
and then nothing in front of it was wrong.
-/

namespace RecordQuery

variable {cs text rest : List Char} {place : Text.Place} {token : Token}

/-- A fault of a time, of a date or of both together. -/
def LiteralFault.IsTemporal (fault : LiteralFault) : Prop :=
  fault.kind ∈ [.time, .date, .dateTime]

/-! ## One literal -/

/-- A check passes or refuses, and is not part of what is read. -/
theorem Literal.readChecked_cases (kind : LiteralKind)
    (check : List Char → Except FaultReason Unit) (make : String → Literal) (cs : List Char) :
    readChecked true kind check make cs = readChecked false kind check make cs ∨
      ∃ literal reason, readChecked false kind check make cs = .ok literal ∧
        readChecked true kind check make cs = .error ⟨kind, reason⟩ := by
  cases hcheck : check cs with
  | ok checked => exact Or.inl (by simp [readChecked, hcheck])
  | error reason => exact Or.inr ⟨_, reason, rfl, by simp [readChecked, hcheck]⟩

/-- A conversion with validation is one without, or refuses a time or a date. -/
theorem Rule.convert_cases (rule : Rule) (text : List Char) :
    rule.convert true text = rule.convert false text ∨
      ∃ token fault, rule.convert false text = .ok token ∧
        rule.convert true text = .error fault ∧ fault.IsTemporal := by
  have hchecked : ∀ {kind : LiteralKind} {check : List Char → Except FaultReason Unit}
      {make : String → Literal}, kind ∈ [.time, .date, .dateTime] →
      (∀ validate, rule.convert validate text =
        (Literal.readChecked validate kind check make text).map .literal) →
      rule.convert true text = rule.convert false text ∨
        ∃ token fault, rule.convert false text = .ok token ∧
          rule.convert true text = .error fault ∧ fault.IsTemporal := by
    intro kind check make hkind hconvert
    rw [hconvert, hconvert]
    rcases Literal.readChecked_cases kind check make text with hsame | ⟨literal, reason, hoff, hon⟩
    · exact Or.inl (by rw [hsame])
    · exact Or.inr ⟨.literal literal, ⟨kind, reason⟩, by rw [hoff]; rfl, by rw [hon]; rfl, hkind⟩
  cases rule with
  | dateTime => exact hchecked (by simp) fun _ => rfl
  | date => exact hchecked (by simp) fun _ => rfl
  | time => exact hchecked (by simp) fun _ => rfl
  | actionKey | operator | identifier | string | number => exact Or.inl rfl

namespace Lexer

/-- Reading with validation is reading without, or refuses a time or a date there. -/
theorem readToken_cases_validate (place : Text.Place) (cs : List Char) :
    readToken true place cs = readToken false place cs ∨
      ∃ token text rest fault, readToken false place cs = .ok (token, text, rest) ∧
        readToken true place cs = .error (.invalidLiteral place (String.ofList text) fault) ∧
          fault.IsTemporal := by
  unfold readToken
  cases cs.head?.bind Mark.ofChar? with
  | some mark => exact Or.inl rfl
  | none =>
      cases Rule.find? cs with
      | none => exact Or.inl rfl
      | some found =>
          obtain ⟨rule, text, rest⟩ := found
          rcases rule.convert_cases text with hsame | ⟨token, fault, hoff, hon, htemporal⟩
          · exact Or.inl (by simp only [hsame])
          · exact Or.inr ⟨token, text, rest, fault, by simp only [hoff], by simp only [hon],
              htemporal⟩

/-! ## All items -/

/-- The items with validation and those without: they part at a token that only validation
refuses, which is an error with it and a token without. -/
def Parts (on off : List (Except LexError Spanned)) : Prop :=
  ∃ (tokens : List Spanned) (spanned : Spanned) (items : List (Except LexError Spanned))
      (text : String) (fault : LiteralFault),
    off = tokens.map .ok ++ .ok spanned :: items ∧
      on = tokens.map .ok ++ [.error (.invalidLiteral spanned.place text fault)] ∧
        fault.IsTemporal

variable {on off : List (Except LexError Spanned)}

theorem Parts.cons (h : Parts on off) (spanned : Spanned) :
    Parts (.ok spanned :: on) (.ok spanned :: off) := by
  obtain ⟨tokens, other, items, text, fault, hoff, hon, htemporal⟩ := h
  exact ⟨spanned :: tokens, other, items, text, fault, by rw [hoff]; rfl, by rw [hon]; rfl,
    htemporal⟩

/-- Both lexers yield the same, or they part. -/
theorem Yields.eq_or_parts (hoff : Yields false place cs off) (hon : Yields true place cs on) :
    on = off ∨ Parts on off := by
  induction hoff generalizing on with
  | atEnd hend =>
      cases hon with
      | atEnd hend' => exact Or.inl rfl
      | fails hne hread => exact absurd hend hne
      | reads hword hrest => exact absurd hend hword.ne_nil
  | @fails place cs error hne hread =>
      rcases readToken_cases_validate (place.advance (cs.takeWhile Text.isBlank))
        (Text.dropBlanks cs) with hsame | ⟨token, text, rest, fault, hok, -⟩
      · rw [hread] at hsame
        exact Or.inl (hon.unique (.fails hne hsame))
      · rw [hread] at hok
        cases hok
  | @reads place cs text rest token items hword hrest ih =>
      rcases readToken_cases_validate (place.advance (cs.takeWhile Text.isBlank))
        (Text.dropBlanks cs) with hsame | ⟨token', text', rest', fault, hok, herror, htemporal⟩
      · rw [hword _] at hsame
        cases hon with
        | atEnd hend => exact absurd hend hword.ne_nil
        | fails hne hread =>
            rw [hsame] at hread
            cases hread
        | reads hword' hrest' =>
            rw [hword' _] at hsame
            cases hsame
            rcases ih hrest' with hitems | hparts
            · exact Or.inl (by rw [hitems])
            · exact Or.inr (hparts.cons _)
      · have hitems := hon.unique (.fails hword.ne_nil herror)
        exact Or.inr ⟨[], _, items, _, fault, rfl, hitems, htemporal⟩

/-- Nothing is different but whether the items part. -/
theorem items_eq_or_parts (text : String) :
    ((start text).withValidation true).items = ((start text).withValidation false).items ∨
      Parts ((start text).withValidation true).items ((start text).withValidation false).items :=
  (yields_start_iff.mpr rfl).eq_or_parts (yields_start_iff.mpr rfl)

/-- No item starts behind the end of the text. -/
theorem offset_le_endPlace {text : String} {validate : Bool} {spanned : Spanned}
    (h : .ok spanned ∈ ((start text).withValidation validate).items) :
    spanned.place.offset ≤ ((start text).withValidation validate).endPlace.offset := by
  obtain ⟨front, back, hsplit, hstands⟩ := (yields_start_iff.mpr rfl).exists_stands h
  have hsize := Text.byteLength_toList text
  rw [hsplit, Text.byteLength_append] at hsize
  cases hstands with
  | token hword =>
      show (Text.Place.start.advance front).offset ≤ text.utf8ByteSize
      rw [Text.offset_advance, ← hsize]
      show 0 + Text.byteLength front ≤ _
      omega

end Lexer

/-! ## All queries -/

/-- A pass finds no error in front of the items that it starts with. -/
theorem Progress.offset_le_of_conclude {progress : Progress} {endPlace : Text.Place}
    {items : List (Except LexError Spanned)} {offset : Nat} {error : Error}
    (hitems : ∀ item ∈ items, offset ≤ Lexer.offsetOf item) (hend : offset ≤ endPlace.offset)
    (h : progress.conclude endPlace items = .error error) : offset ≤ error.place.offset := by
  cases isOf_of_conclude h with
  | lexical hmem => exact hitems _ hmem
  | unexpectedToken hmem expected => exact hitems _ hmem
  | unexpectedEnd expected => exact hend

namespace Lexer

/-- A text comes to the same with both settings, or validation refuses a literal of it, and
without validation nothing in front of that literal is wrong. -/
theorem concludes_eq_or_invalidLiteral (text : String) :
    concludes text true = concludes text false ∨ ∃ place written fault,
      concludes text true = .error (.lexical (.invalidLiteral place written fault)) ∧
        fault.IsTemporal ∧ ∀ error, concludes text false = .error error →
          place.offset ≤ error.place.offset := by
  unfold concludes
  rcases items_eq_or_parts text with hsame | hparts
  · exact Or.inl (by rw [hsame])
  have hpairwise :=
    pairwise_offset_items (show ((start text).withValidation false).finished = false from rfl)
  have hend := @offset_le_endPlace text false
  obtain ⟨tokens, spanned, items, written, fault, hoff, hon, htemporal⟩ := hparts
  rw [hoff, List.pairwise_append, List.pairwise_cons] at hpairwise
  obtain ⟨-, ⟨hlater, -⟩, -⟩ := hpairwise
  rw [hoff, hon]
  cases hrun : Progress.start.run (tokens.map Spanned.token) with
  | none => exact Or.inl (Progress.conclude_of_stuck hrun _ _)
  | some progress =>
      rw [Progress.conclude_of_run hrun, Progress.conclude_of_run hrun]
      refine Or.inr ⟨spanned.place, written, fault, rfl, htemporal, fun error herror => ?_⟩
      refine Progress.offset_le_of_conclude (fun item hitem => ?_) (hend ?_) herror
      · rcases List.mem_cons.mp hitem with hfirst | hitem
        · rw [hfirst]
          exact le_rfl
        · exact (hlater item hitem).le
      · rw [hoff]
        exact List.mem_append_right _ List.mem_cons_self

end Lexer

namespace Query

/-- Validation only adds rejections of its own.

* The results with it and without it are the same, or the one with it is the rejection of
  a time, of a date or of both together, and any error without it is found there or later.
* What is accepted with validation is accepted without it, as the same query.
* What is refused without validation is refused with it. -/
theorem parse_validate (trim : Bool) (input : String) :
    (parse ⟨trim, true⟩ input = parse ⟨trim, false⟩ input ∨
      ∃ place text fault,
        parse ⟨trim, true⟩ input = .error (.lexical (.invalidLiteral place text fault)) ∧
          fault.kind ∈ [.time, .date, .dateTime] ∧
            ∀ error, parse ⟨trim, false⟩ input = .error error →
              place.offset ≤ error.place.offset) ∧
    (∀ q, parse ⟨trim, true⟩ input = .ok q → parse ⟨trim, false⟩ input = .ok q) ∧
    ∀ error, parse ⟨trim, false⟩ input = .error error →
      ∃ error', parse ⟨trim, true⟩ input = .error error' := by
  -- both settings read the same text
  have hon : parse ⟨trim, true⟩ input =
      Lexer.concludes ((Options.mk trim true).textOf input) true := parse_eq_concludes _ _
  have hoff : parse ⟨trim, false⟩ input =
      Lexer.concludes ((Options.mk trim true).textOf input) false := parse_eq_concludes _ _
  have hcases := Lexer.concludes_eq_or_invalidLiteral ((Options.mk trim true).textOf input)
  rw [← hon, ← hoff] at hcases
  refine ⟨hcases, fun q haccepted => ?_, fun error hrefused => ?_⟩
  · rcases hcases with hsame | ⟨_, _, _, herror, -⟩
    · rw [← hsame, haccepted]
    · rw [haccepted] at herror
      cases herror
  · rcases hcases with hsame | ⟨_, _, _, herror, -⟩
    · exact ⟨error, hsame.trans hrefused⟩
    · exact ⟨_, herror⟩

/-- The time is no time of day, and without validation only the end of the text is wrong. -/
theorem parse_validate_hour : ∃ place text fault error,
    parse ⟨true, true⟩ "a == 25:00 or" = .error (.lexical (.invalidLiteral place text fault)) ∧
      parse ⟨true, false⟩ "a == 25:00 or" = .error error ∧
        place.offset ≤ error.place.offset := by
  have hoffset : ∀ validate, ((parse ⟨true, validate⟩ "a == 25:00 or").map fun _ => ()).mapError
      (fun error => error.place.offset) = .error (if validate then 5 else 13) := by
    decide +kernel
  rcases (parse_validate true "a == 25:00 or").1 with hsame | ⟨place, text, fault, hon, -, hle⟩
  · have hon := hoffset true
    rw [hsame, hoffset false] at hon
    cases hon
  · cases hoff : parse ⟨true, false⟩ "a == 25:00 or" with
    | ok q =>
        have hnone := hoffset false
        rw [hoff] at hnone
        cases hnone
    | error error => exact ⟨place, text, fault, error, hon, rfl, hle error hoff⟩

end Query

end RecordQuery
