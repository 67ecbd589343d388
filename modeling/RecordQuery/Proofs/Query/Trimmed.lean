import RecordQuery.Proofs.Query.Conclusion
import RecordQuery.Proofs.Token.Truncation

/-!
# White space around a query

A text is read with or without the white space at its two ends, and comes to the same query
either way.  Where it is refused, it is refused for the same reason.  Only the place tells
the two apart, since it counts from the start of what is read, and so does the text of a
string that was left open, since it goes on to the end of what is read
(`Error.TrimsTo`).

The items of the two texts go in step: white space in front moves them, and white space
behind them is left over, or is in an open string (`Lexer.Yields.trimsTo`).  A query is one
pass over the items, so the two passes go in step as well (`Query.parse_trimsTo`).
-/

namespace RecordQuery

variable {validate : Bool} {cs gap blanks : List Char} {place : Text.Place}

/-! ## Texts -/

namespace Text

/-- A string without the white space at its end. -/
def trimEnd (text : String) : String :=
  String.ofList (dropBlanks text.toList.reverse).reverse

/-- The white space that a string starts with. -/
def leadingBlanks (text : String) : List Char :=
  text.toList.takeWhile isBlank

theorem trimEnd_ofList_append (hlast : ∀ c ∈ cs.getLast?, isBlank c = false)
    (hgap : ∀ c ∈ gap, isBlank c = true) :
    trimEnd (String.ofList (cs ++ gap)) = String.ofList cs := by
  have hblank : ∀ c ∈ gap.reverse, isBlank c = true := fun c hc => hgap c (List.mem_reverse.mp hc)
  have hstops : Scan.Stops isBlank cs.reverse := by
    intro c hc
    rw [List.head?_reverse] at hc
    exact hlast c hc
  rw [trimEnd, String.toList_ofList, List.reverse_append, dropBlanks_append_of_blank hblank,
    Scan.dropBlanks_of_stops hstops, List.reverse_reverse]

/-- A trimmed text does not end in white space. -/
theorem not_isBlank_getLast_trimBlanks (cs : List Char) :
    ∀ c ∈ (trimBlanks cs).getLast?, isBlank c = false := by
  intro c hc
  rw [trimBlanks, List.getLast?_reverse] at hc
  exact Scan.stops_dropWhile isBlank _ c hc

end Text

/-! ## What is the same about two errors -/

/-- An error of a text behind some white space, and the same error without it: it has moved
to the front, and an open string has lost the white space at its end. -/
inductive LexError.TrimsTo (blanks : List Char) : LexError → LexError → Prop where
  | unrecognized (place : Text.Place) (text : String) :
      TrimsTo blanks (.unrecognized (place.shift blanks) text) (.unrecognized place text)
  | unterminatedString (place : Text.Place) (text : String) :
      TrimsTo blanks (.unterminatedString (place.shift blanks) text)
        (.unterminatedString place (Text.trimEnd text))
  | invalidLiteral (place : Text.Place) (text : String) (fault : LiteralFault) :
      TrimsTo blanks (.invalidLiteral (place.shift blanks) text fault)
        (.invalidLiteral place text fault)

/-- An error of a text, and the same error of the text without the white space at its ends.
Where something is missing at the end, each error has the end of its own text. -/
inductive Error.TrimsTo (input : String) : Error → Error → Prop where
  | lexical {error error' : LexError} (h : error.TrimsTo (Text.leadingBlanks input) error') :
      TrimsTo input (.lexical error) (.lexical error')
  | unexpectedToken (place : Text.Place) (found : String) (expected : Expectation) :
      TrimsTo input
        (.syntactic (.unexpectedToken (place.shift (Text.leadingBlanks input)) found expected))
        (.syntactic (.unexpectedToken place found expected))
  | unexpectedEnd (expected : Expectation) :
      TrimsTo input (.syntactic (.unexpectedEnd (.behind input.toList) expected))
        (.syntactic (.unexpectedEnd (.behind (Text.trim input).toList) expected))

/-- What a text comes to, and what it comes to without the white space at its ends: the same
query or the same error. -/
inductive Query.TrimsTo (input : String) : Except Error Query → Except Error Query → Prop where
  | ok (q : Query) : TrimsTo input (.ok q) (.ok q)
  | error {error error' : Error} (h : error.TrimsTo input error') :
      TrimsTo input (.error error) (.error error')

/-! ## Items -/

namespace Lexer

/-- An item of a text behind some white space, and the same item without it. -/
inductive ItemTrimsTo (blanks : List Char) : Except LexError Spanned → Except LexError Spanned →
    Prop where
  | token (spanned : Spanned) : ItemTrimsTo blanks (.ok (spanned.shift blanks)) (.ok spanned)
  | error {error error' : LexError} (h : error.TrimsTo blanks error') :
      ItemTrimsTo blanks (.error error) (.error error')

theorem unreadable_trimsTo (hcs : cs ≠ []) (hlast : ∀ c ∈ cs.getLast?, Text.isBlank c = false)
    (hgap : ∀ c ∈ gap, Text.isBlank c = true) :
    (unreadable (place.shift blanks) (cs ++ gap)).TrimsTo blanks (unreadable place cs) := by
  have hhead : (cs ++ gap).head? = cs.head? := List.head?_append_of_ne_nil cs hcs
  unfold unreadable
  rw [hhead]
  split
  · rw [← Text.trimEnd_ofList_append hlast hgap]
    exact .unterminatedString place _
  · have hstops : Scan.Stops (fun c => !Text.isBlank c) gap := by
      intro c hc
      simp [hgap c (List.mem_of_mem_head? hc)]
    rw [Scan.takeWhile_append hstops]
    exact .unrecognized place _

/-- What cannot be read in front of white space cannot be read where the text ends. -/
theorem readToken_trimsTo {error : LexError} (hcs : cs ≠ [])
    (hlast : ∀ c ∈ cs.getLast?, Text.isBlank c = false) (hgap : ∀ c ∈ gap, Text.isBlank c = true)
    (h : readToken validate (place.shift blanks) (cs ++ gap) = .error error) :
    ∃ error', readToken validate place cs = .error error' ∧ error.TrimsTo blanks error' := by
  have hhead : (cs ++ gap).head? = cs.head? := List.head?_append_of_ne_nil cs hcs
  have hends : EndsApart cs gap := endsApart_of_blank hgap
  unfold readToken at h ⊢
  rw [hhead] at h
  cases hmark : cs.head?.bind Mark.ofChar? with
  | some mark =>
      rw [hmark] at h
      cases h
  | none =>
      rw [hmark] at h
      cases hfind : Rule.find? (cs ++ gap) with
      | none =>
          simp only [hfind] at h
          cases h
          rw [Rule.find?_cut_none hfind hends]
          exact ⟨_, rfl, unreadable_trimsTo hcs hlast hgap⟩
      | some found =>
          -- the literal that is refused ends in front of the white space
          obtain ⟨rule, text, rest⟩ := found
          have hscan := Rule.scan_of_find? hfind
          obtain ⟨left, -, hrest⟩ := exists_left_of_append_blanks (rule.splits_scan _ _ _ hscan)
            (Rule.not_isBlank_getLast (Rule.scan_text hscan)) hgap
          rw [hrest] at hfind
          rw [Rule.find?_cut hfind hends]
          simp only [hfind] at h
          cases hconvert : rule.convert validate text with
          | ok token =>
              simp only [hconvert] at h
              cases h
          | error fault =>
              simp only [hconvert] at h
              cases h
              exact ⟨.invalidLiteral place (String.ofList text) fault, by simp only [hconvert],
                .invalidLiteral place _ fault⟩

variable {items : List (Except LexError Spanned)}

/-- A text yields the same items without the white space around it. -/
theorem Yields.trimsTo (h : Yields validate (place.shift blanks) (cs ++ gap) items)
    (hlast : ∀ c ∈ cs.getLast?, Text.isBlank c = false) (hgap : ∀ c ∈ gap, Text.isBlank c = true) :
    ∃ items', Yields validate place cs items' ∧ List.Forall₂ (ItemTrimsTo blanks) items items' := by
  induction items generalizing place cs with
  | nil =>
      cases h with
      | atEnd hend =>
          rw [Text.dropBlanks_eq_nil_iff, List.forall_mem_append] at hend
          exact ⟨[], .atEnd (Text.dropBlanks_eq_nil_iff.mpr hend.1), .nil⟩
  | cons item items ih =>
      have hcs : Text.dropBlanks cs ≠ [] := by
        intro hnil
        have hblank : Text.dropBlanks (cs ++ gap) = [] := by
          rw [Text.dropBlanks_eq_nil_iff, List.forall_mem_append]
          exact ⟨Text.dropBlanks_eq_nil_iff.mp hnil, hgap⟩
        cases h with
        | fails hne hread => exact hne hblank
        | reads hword hrest => exact hword.ne_nil hblank
      obtain ⟨hdrop, htake⟩ := dropBlanks_append_of_ne_nil hcs gap
      have hlast' : ∀ c ∈ (Text.dropBlanks cs).getLast?, Text.isBlank c = false := by
        intro c hc
        refine hlast c ?_
        rw [← Text.takeWhile_append_dropBlanks cs]
        exact List.mem_getLast?_append_of_mem_getLast? hc
      cases h with
      | fails hne hread =>
          rw [hdrop, htake, Text.Place.advance_shift] at hread
          obtain ⟨error', hread', herror⟩ := readToken_trimsTo hcs hlast' hgap hread
          exact ⟨_, .fails hcs hread', .cons (.error herror) .nil⟩
      | @reads _ _ text rest token _ hword hrest =>
          rw [hdrop] at hword
          obtain ⟨left, hleft, hword'⟩ := hword.exists_of_append_blanks hgap
          rw [hleft, htake, Text.Place.advance_shift, Text.Place.advance_shift] at hrest
          obtain ⟨items', hitems', hall⟩ := ih hrest fun c hc => hlast' c (by
            rw [(readToken_splits (hword' .start)).1]
            exact List.mem_getLast?_append_of_mem_getLast? hc)
          rw [htake, Text.Place.advance_shift]
          exact ⟨_, .reads hword' hitems', .cons (.token ⟨token, _, _⟩) hall⟩

/-- Every text yields something. -/
theorem exists_yields (validate : Bool) (place : Text.Place) (cs : List Char) :
    ∃ items, Yields validate place cs items :=
  ⟨_, yields_items ⟨"", cs, place, validate, false⟩ rfl⟩

/-- All items of a text are those of the trimmed text behind the white space it starts with. -/
theorem items_trimsTo (validate : Bool) (input : String) :
    List.Forall₂ (ItemTrimsTo (Text.leadingBlanks input))
      ((start input).withValidation validate).items
      ((start (Text.trim input)).withValidation validate).items := by
  obtain ⟨gap, hgap, hsplit⟩ := exists_dropBlanks_eq_trimBlanks input.toList
  have hinput : input.toList =
      Text.leadingBlanks input ++ (Text.trimBlanks input.toList ++ gap) := by
    rw [← hsplit, Text.leadingBlanks, Text.takeWhile_append_dropBlanks]
  obtain ⟨items, hitems⟩ := exists_yields validate (Text.Place.start.shift
    (Text.leadingBlanks input)) (Text.trimBlanks input.toList ++ gap)
  obtain ⟨items', hitems', hall⟩ :=
    hitems.trimsTo (Text.not_isBlank_getLast_trimBlanks input.toList) hgap
  rw [Text.Place.shift_start] at hitems
  have hblank : ∀ c ∈ Text.leadingBlanks input, Text.isBlank c = true :=
    fun c hc => List.mem_takeWhile_imp hc
  have hwhole := hitems.append_blanks hblank
  rw [← hinput] at hwhole
  have htrim : (Text.trim input).toList = Text.trimBlanks input.toList := String.toList_ofList
  rw [← htrim] at hitems'
  rw [yields_start_iff.mp hwhole, yields_start_iff.mp hitems']
  exact hall

/-- The place where a whole text ends is the place behind it. -/
theorem endPlace_start (text : String) : (start text).endPlace = .behind text.toList := by
  show Text.Place.mk text.utf8ByteSize (Text.Place.start.advance text.toList).line = _
  rw [Text.Place.advance_start, Text.Place.behind, Text.byteLength_toList]

end Lexer

/-! ## Queries -/

/-- Passes over items that are the same come to the same. -/
theorem Progress.conclude_trimsTo {input : String} {items items' : List (Except LexError Spanned)}
    (h : List.Forall₂ (Lexer.ItemTrimsTo (Text.leadingBlanks input)) items items')
    (progress : Progress) :
    Query.TrimsTo input (progress.conclude (.behind input.toList) items)
      (progress.conclude (.behind (Text.trim input).toList) items') := by
  induction h generalizing progress with
  | nil =>
      simp only [conclude]
      cases progress.finish with
      | none => exact .error (.unexpectedEnd progress.expectation)
      | some q => exact .ok q
  | cons hitem _ ih =>
      cases hitem with
      | error herror => exact .error (.lexical herror)
      | token spanned =>
          simp only [conclude, Spanned.shift]
          cases progress.step spanned.token with
          | none => exact .error (.unexpectedToken spanned.place _ progress.expectation)
          | some next => exact ih next

/-- White space at the ends of a text does not change what the text comes to.

* With it and without it, the text is the same query or is refused.
* An error is of the same kind with the same cause.  With the white space in front, its
  place is moved behind that; an error at the end is at the end of what was read.
* Its text is the same, but that of an open string goes on to the end of what was read. -/
theorem Query.parse_trimsTo (validate : Bool) (input : String) :
    TrimsTo input (parse ⟨false, validate⟩ input) (parse ⟨true, validate⟩ input) := by
  have hwhole : parse ⟨false, validate⟩ input = Lexer.concludes input validate :=
    parse_eq_concludes _ _
  have htrimmed : parse ⟨true, validate⟩ input = Lexer.concludes (Text.trim input) validate :=
    parse_eq_concludes _ _
  rw [hwhole, htrimmed, Lexer.concludes, Lexer.concludes, Lexer.endPlace_start,
    Lexer.endPlace_start]
  exact Progress.conclude_trimsTo (Lexer.items_trimsTo validate input) .start

end RecordQuery
