import RecordQuery.Proofs.Query.Trimmed
import RecordQuery.Proofs.Text.Marker
import RecordQuery.Proofs.Token.Session

/-!
# Where a query went wrong

An error has the place in its text where the query went wrong, and that is where the text
or the token stands which the error is about (`Error.StandsAt`).  The line of the place is
counted while the text is read.  The diagnostic looks for the line in the text again, and
shows that very line with the place marked under it (`Error.Located`).

Every item that a text yields stands at its place (`Lexer.Yields.exists_stands`), and every
error is that of an item or of the end of the text (`Progress.isOf_of_conclude`).
-/

namespace RecordQuery

variable {validate : Bool} {front back : List Char} {error : Error} {source : String}

/-! ## Errors in their texts -/

/-- What stands where a query went wrong, in a text that goes on like this from there. -/
inductive Error.StandsAt (source : String) (validate : Bool) (back : List Char) : Error → Prop where
  /-- The text that an error is about. -/
  | lexical {error : LexError} (htext : error.text ≠ "") (hleads : error.text.toList <+: back) :
      StandsAt source validate back (.lexical error)
  /-- A token of the text, with its first character. -/
  | unexpectedToken {token : Token} {place : Text.Place} {text rest : List Char}
      (hmem : .ok ⟨token, place, Text.byteLength text⟩ ∈
        ((Lexer.start source).withValidation validate).items)
      (htext : text ≠ []) (hback : back = text ++ rest) (expected : Expectation) :
      StandsAt source validate back (.syntactic (.unexpectedToken place token.describe expected))
  /-- Nothing but the end. -/
  | unexpectedEnd (hback : back = []) (place : Text.Place) (expected : Expectation) :
      StandsAt source validate back (.syntactic (.unexpectedEnd place expected))

/-- The place of an error in its text.  The line of the place is in two parts, what stands
in front of the place and what follows; other lines may stand above and below. -/
structure Error.Located (source : String) (validate : Bool)
    (above consumed remaining below : List Char) (error : Error) : Prop where
  source_eq : source.toList = (above ++ consumed) ++ (remaining ++ below)
  /-- The position is the number of bytes in front of the place. -/
  offset_eq : error.place.offset = Text.byteLength (above ++ consumed)
  offset_le : error.place.offset ≤ source.utf8ByteSize
  /-- The position is between two characters. -/
  isValid : String.Pos.Raw.IsValid source ⟨error.place.offset⟩
  line_eq : error.place.line = 1 + (above ++ consumed).count '\n'
  standsAt : error.StandsAt source validate (remaining ++ below)
  /-- The line with the number that the error has. -/
  getElem?_splitOn : (source.toList.splitOn '\n')[error.place.line - 1]? =
    some (consumed ++ remaining)
  /-- The diagnostic shows that line and marks each of its characters. -/
  render_eq : error.render source =
    error.message ++ "\n" ++ String.ofList (consumed ++ remaining) ++ "\n" ++
      String.ofList (List.replicate consumed.length '_' ++
        List.replicate (max 1 remaining.length) '^')

/-- An error that stands at its place is on the line of that place. -/
theorem Error.exists_located (hsource : source.toList = front ++ back)
    (hplace : error.place = .behind front) (h : error.StandsAt source validate back) :
    ∃ above consumed remaining below,
      error.Located source validate above consumed remaining below := by
  obtain ⟨above, habove⟩ := Text.lastLine_suffix front
  obtain ⟨below, hbelow⟩ := Text.firstLine_prefix back
  obtain ⟨hle, hvalid⟩ := Session.offset_behind hsource
  refine ⟨above, Text.lastLine front, Text.firstLine back, below, ?_⟩
  constructor
  case source_eq => rw [habove, hbelow, hsource]
  case offset_eq => rw [habove, hplace, Text.Place.behind]
  case offset_le => rwa [hplace]
  case isValid => rwa [hplace]
  case line_eq => rw [habove, hplace, Text.Place.behind]
  case standsAt => rwa [hbelow]
  case getElem?_splitOn =>
    rw [hplace, Text.Place.behind, Nat.add_sub_cancel_left, hsource]
    exact Text.getElem?_splitOn_count front back
  case render_eq =>
    rw [render, hplace, Text.Place.behind, Text.underline_byteLength hsource]
    simp only [String.append_assoc]

/-- An error of an item, or of the end, stands at its place. -/
theorem Error.IsOf.exists_standsAt (h : error.IsOf (.behind source.toList)
      ((Lexer.start source).withValidation validate).items) :
    ∃ front back, source.toList = front ++ back ∧ error.place = .behind front ∧
      error.StandsAt source validate back := by
  have hyields : Lexer.Yields validate .start source.toList
      ((Lexer.start source).withValidation validate).items := yields_start_iff.mpr rfl
  cases h with
  | lexical hmem =>
      obtain ⟨front, back, hsource, hstands⟩ := hyields.exists_stands hmem
      rw [Text.Place.advance_start] at hstands
      cases hstands with
      | error hplace htext hleads => exact ⟨front, back, hsource, hplace, .lexical htext hleads⟩
  | unexpectedToken hmem expected =>
      obtain ⟨front, back, hsource, hstands⟩ := hyields.exists_stands hmem
      rw [Text.Place.advance_start] at hstands
      cases hstands with
      | token hword =>
          obtain ⟨hback, htext⟩ := Lexer.readToken_splits (hword .start)
          exact ⟨front, back, hsource, rfl, .unexpectedToken hmem htext hback expected⟩
  | unexpectedEnd expected =>
      exact ⟨source.toList, [], (List.append_nil _).symm, rfl, .unexpectedEnd rfl _ expected⟩

/-- Where a text is refused, its error is located in the text that was read.  The position
is between two characters, and what the error is about stands there.  The number of the line
is that of the line which the diagnostic shows and marks. -/
theorem Query.parse_located (options : Options) (input : String) (error : Error)
    (h : parse options input = .error error) : ∃ above consumed remaining below,
      error.Located (options.textOf input) options.validate above consumed remaining below := by
  rw [parse_eq_concludes, Lexer.concludes, Lexer.endPlace_start] at h
  obtain ⟨front, back, hsource, hplace, hstands⟩ :=
    (Progress.isOf_of_conclude h).exists_standsAt
  exact Error.exists_located hsource hplace hstands

/-- A bracket without its other half, behind a string of two lines. -/
theorem Query.parse_located_bracket : ∃ error above consumed remaining below,
    parse ⟨true, false⟩ " a == 'é\nü' and\nb == ]" = .error error ∧ error.place = ⟨22, 3⟩ ∧
      error.Located ((Options.mk true false).textOf " a == 'é\nü' and\nb == ]") false
        above consumed remaining below := by
  have hplace : ((parse ⟨true, false⟩ " a == 'é\nü' and\nb == ]").mapError Error.place).map
      Query.isEmpty = .error ⟨22, 3⟩ := by
    decide +kernel
  cases hparse : parse ⟨true, false⟩ " a == 'é\nü' and\nb == ]" with
  | ok q => rw [hparse] at hplace; cases hplace
  | error error =>
      rw [hparse] at hplace
      obtain ⟨above, consumed, remaining, below, hlocated⟩ := parse_located _ _ error hparse
      exact ⟨error, above, consumed, remaining, below, rfl, Except.error.inj hplace, hlocated⟩

end RecordQuery
