import RecordQuery.Proofs.Token.Longest
import RecordQuery.Proofs.Token.Session
import RecordQuery.Proofs.Token.Words

/-!
# Texts one behind the other

Two texts with white space between them are read as if each were read by itself, except
where the first one ends in a date and the second starts with a time, and where the first
one ends in a time and the second starts with a half of the day.

Whether the first text keeps its tokens is decided word by word: a word that has another
word behind it never looks beyond that (`StartsWith.append`), so only the last one can go
on with something of the second text (`StartsWith.append_iff_of_last`).  The items of the
second text are those that it has by itself, moved behind the first
(`Lexer.Yields.shift`).
-/

namespace RecordQuery

variable {validate : Bool} {cs ds text rest gap front back : List Char} {token : Token}
  {place : Text.Place}

/-! ## Leaving out white space -/

theorem takeWhile_append_of_blank (h : ∀ c ∈ gap, Text.isBlank c = true) (cs : List Char) :
    (gap ++ cs).takeWhile Text.isBlank = gap ++ cs.takeWhile Text.isBlank :=
  List.takeWhile_append_of_pos h

theorem delimited_of_blank (h : ∀ c ∈ gap, Text.isBlank c = true) (hne : gap ≠ [])
    (ds : List Char) : Delimited (gap ++ ds) := by
  obtain ⟨c, more, hgap⟩ := List.exists_cons_of_ne_nil hne
  have hblank := h c (by rw [hgap]; exact List.mem_cons_self)
  rw [hgap]
  exact delimited_cons (by simp [isDelimiter, hblank])

/-- White space ends where it did, unless there is nothing else. -/
theorem dropBlanks_append_of_ne_nil (h : Text.dropBlanks cs ≠ []) (ds : List Char) :
    Text.dropBlanks (cs ++ ds) = Text.dropBlanks cs ++ ds ∧
      (cs ++ ds).takeWhile Text.isBlank = cs.takeWhile Text.isBlank := by
  obtain ⟨c, more, hrest⟩ := List.exists_cons_of_ne_nil h
  have hsplit : cs = cs.takeWhile Text.isBlank ++ c :: more := by
    rw [← hrest, Text.takeWhile_append_dropBlanks]
  have hgap : ∀ d ∈ cs.takeWhile Text.isBlank, Text.isBlank d = true :=
    fun d hd => List.mem_takeWhile_imp hd
  have hstops : Text.isBlank c = false := by
    have := Scan.stops_dropWhile Text.isBlank cs
    rw [← Text.dropBlanks, hrest] at this
    exact this c rfl
  have happend : cs ++ ds = cs.takeWhile Text.isBlank ++ (c :: more ++ ds) := by
    rw [← List.append_assoc, ← hsplit]
  rw [happend, Text.dropBlanks_append_of_blank hgap, takeWhile_append_of_blank hgap, hrest]
  exact ⟨by simp [Text.dropBlanks, hstops], by simp [hstops]⟩

namespace Rule

open Scan

/-! ## What a date and a time look for -/

/-- A text starts with one or two digits, a colon and a digit. -/
def StartsClock (cs : List Char) : Prop :=
  ∃ hour minute rest, cs = hour ++ ':' :: minute :: rest ∧ IsDigits 1 2 hour ∧
    minute.isDigit = true

theorem startsClock_of_scanClock (h : scanClock cs = some (text, rest)) : StartsClock cs := by
  obtain ⟨hour, minute, hhour, hminute, htext, hcs, -⟩ := scanClock_eq_some.mp h
  cases minute with
  | nil => exact absurd hminute.least_le (by simp)
  | cons c minute =>
      refine ⟨hour, c, minute ++ rest, ?_, hhour, hminute.isDigit c List.mem_cons_self⟩
      rw [hcs, htext]
      simp

theorem matchesStart_of_startsClock (h : StartsClock cs) : clockPattern.MatchesStart cs := by
  obtain ⟨hour, minute, rest, hcs, hhour, hminute⟩ := h
  have hhour' : (Pattern.digits 1 2).Matches hour ((':' :: [minute]) ++ rest) :=
    (Pattern.matches_digits_iff (by omega)).mpr hhour
  have hminute' : (Pattern.sequence [.digits 1 2]).Matches [minute] rest := by
    refine Pattern.matches_sequence_cons_iff.mpr ⟨[minute], [], ?_, .empty, rfl⟩
    exact (Pattern.matches_digits_iff (by omega)).mpr ⟨by simpa using hminute, by simp, by simp⟩
  have hcolon : (Pattern.sequence [.char ':', .digits 1 2]).Matches (':' :: [minute]) rest :=
    Pattern.matches_sequence_cons_iff.mpr
      ⟨[':'], [minute], Pattern.matches_char_iff.mpr rfl, hminute', rfl⟩
  exact ⟨hour ++ ':' :: [minute], rest, by rw [hcs]; simp, .then hhour' hcolon⟩

theorem scanTime_eq_none_iff : scanTime cs = none ↔ ¬ StartsClock cs := by
  constructor
  · intro hnone hstarts
    have hsplits : Splits scanClock := splits_sequence (by simp [splits_one, splits_digits])
    have hmatch := matchesStart_of_startsClock hstarts
    obtain ⟨text, rest, hscan⟩ := (finds_clock.matchesStart_iff hsplits).mp hmatch
    rw [scanClock_none hnone] at hscan
    cases hscan
  · intro hstarts
    refine scanTime_none (Option.eq_none_iff_forall_ne_some.mpr fun pair hscan => hstarts ?_)
    exact startsClock_of_scanClock hscan

end Rule

/-! ## One word -/

/-- A date. -/
def Token.IsDate (token : Token) : Prop := ∃ written, token = .literal (.date written)

theorem date_of_startsWith (h : StartsWith validate cs token text rest) (hdate : token.IsDate) :
    Rule.find? cs = some (.date, text, rest) := by
  obtain ⟨written, hdate⟩ := hdate
  rcases readToken_cases (h .start) with ⟨mark, hmark, -, -⟩ | ⟨rule, hfind, hconvert⟩
  · rw [hdate] at hmark
    cases hmark
  · rw [hdate] at hconvert
    rw [hfind, Rule.eq_finder hconvert rfl]

/-- A word keeps its text in front of a delimiter just if it does not go on there. -/
theorem StartsWith.append_iff (h : StartsWith validate cs token text rest) (hds : Delimited ds) :
    StartsWith validate (cs ++ ds) token text (rest ++ ds) ↔
      (token.IsDate → Rule.scanDateTime (cs ++ ds) = none) ∧
        (token.LacksHalf → Rule.scanHalf (rest ++ ds) = none) := by
  constructor
  · intro hword
    refine ⟨fun hdate => ?_, scanHalf_of_lacksHalf hword⟩
    have hbefore := (Rule.find?_eq_some.mp (date_of_startsWith hword hdate)).2
    exact hbefore .dateTime (by decide)
  · intro hnone
    obtain ⟨hdateTime, hhalf⟩ := hnone
    rcases readToken_cases (h .start) with ⟨mark, hmark, htext, hcs⟩ | ⟨rule, hfind, hconvert⟩
    · rw [hmark, htext, hcs, List.cons_append]
      exact startsWith_mark mark (rest ++ ds)
    · refine startsWith_of_find? (Rule.find?_extend hfind hds ?_ ?_) hconvert
      · intro hrule
        rw [hrule] at hconvert
        exact hdateTime ⟨_, Rule.convert_ok hconvert⟩
      · intro hrule hdigit
        exact hhalf (lacksHalf_of_convert hconvert hrule hdigit)

theorem scanDate_of_startsWith (h : StartsWith validate cs token text rest) (hdate : token.IsDate) :
    Rule.scanDate cs = some (text, rest) :=
  Rule.scan_of_find? (date_of_startsWith h hdate)

/-- A word with another one behind it does not look beyond that. -/
theorem StartsWith.append (h : StartsWith validate cs token text rest) (hds : Delimited ds)
    (hrest : Text.dropBlanks rest ≠ []) :
    StartsWith validate (cs ++ ds) token text (rest ++ ds) := by
  have hdrop := (dropBlanks_append_of_ne_nil hrest ds).1
  refine (h.append_iff hds).mpr ⟨fun hdate => ?_, fun hlacks => ?_⟩
  · have hscan := scanDate_of_startsWith h hdate
    have hbehind := (Rule.ignores_scanDate hds).extends cs text rest hscan
    have hnone := (Rule.find?_eq_some.mp (date_of_startsWith h hdate)).2 .dateTime (by decide)
    rw [Rule.scanDateTime_eq_none_iff hbehind, hdrop]
    refine ((Rule.scanDateTime_eq_none_iff hscan).mp hnone).imp (fun hstops => ?_) fun htime => ?_
    · cases rest with
      | nil => exact absurd rfl hrest
      | cons c rest => exact hstops
    · exact Rule.scanTime_none ((Rule.ignores_scanClock hds).none (Rule.scanClock_none htime))
  · have hnone := scanHalf_of_lacksHalf h hlacks
    rw [← Rule.scanHalf_dropBlanks] at hnone
    rw [← Rule.scanHalf_dropBlanks, hdrop]
    exact Rule.scanHalf_append_none hds hrest (Scan.stops_dropWhile Text.isBlank rest) hnone

/-- The last word of a text goes on behind white space just if what it could take besides
starts there. -/
theorem StartsWith.append_iff_of_last (h : StartsWith validate cs token text rest)
    (hrest : Text.dropBlanks rest = []) (hgap : ∀ c ∈ gap, Text.isBlank c = true)
    (hne : gap ≠ []) :
    StartsWith validate (cs ++ (gap ++ back)) token text (rest ++ (gap ++ back)) ↔
      ¬ (token.IsDate ∧ Rule.StartsClock (Text.dropBlanks back)) ∧
        ¬ (token.LacksHalf ∧ Rule.StartsHalf (Text.dropBlanks back)) := by
  have hds : Delimited (gap ++ back) := delimited_of_blank hgap hne back
  have hdrop : Text.dropBlanks (rest ++ (gap ++ back)) = Text.dropBlanks back := by
    rw [Text.dropBlanks_append_of_blank (Text.dropBlanks_eq_nil_iff.mp hrest),
      Text.dropBlanks_append_of_blank hgap]
  -- white space stands behind the word, so a time could follow a date
  have hstops : ¬ Scan.Stops Text.isBlank (rest ++ (gap ++ back)) := by
    intro hstops
    cases rest with
    | nil =>
        obtain ⟨c, more, hcons⟩ := List.exists_cons_of_ne_nil hne
        have hblank := hgap c (by rw [hcons]; exact List.mem_cons_self)
        rw [hcons] at hstops
        rw [hstops c rfl] at hblank
        cases hblank
    | cons d rest =>
        have hd := Text.dropBlanks_eq_nil_iff.mp hrest d List.mem_cons_self
        rw [hstops d rfl] at hd
        cases hd
  rw [h.append_iff hds, not_and, not_and, Rule.scanHalf_eq_none_iff, hdrop]
  refine and_congr_left' (imp_congr_right fun hdate => ?_)
  have hbehind := (Rule.ignores_scanDate hds).extends cs text rest (scanDate_of_startsWith h hdate)
  rw [Rule.scanDateTime_eq_none_iff hbehind, hdrop, or_iff_right hstops, Rule.scanTime_eq_none_iff]

/-! ## The first word -/

namespace Lexer

variable {items : List (Except LexError Spanned)}

theorem eq_nil_of_byteLength {more : List Char}
    (h : Text.byteLength (text ++ more) = Text.byteLength text) : more = [] := by
  by_contra hne
  have hpos := Text.byteLength_pos hne
  rw [Text.byteLength_append] at h
  omega

/-- Two starts of a text that take as many bytes are the same. -/
theorem eq_of_byteLength_eq {text' rest' : List Char} (h : text ++ rest = text' ++ rest')
    (hlength : Text.byteLength text = Text.byteLength text') : text = text' ∧ rest = rest' := by
  rcases List.append_eq_append_iff.mp h with ⟨more, htext, hrest⟩ | ⟨more, htext, hrest⟩
  · obtain rfl := eq_nil_of_byteLength (htext ▸ hlength.symm)
    exact ⟨by simpa using htext.symm, by simpa using hrest⟩
  · obtain rfl := eq_nil_of_byteLength (htext ▸ hlength)
    exact ⟨by simpa using htext, by simpa using hrest.symm⟩

/-- Where the text of the first word is known, its item tells whether it is read. -/
theorem yields_cons_iff (hsplit : Text.dropBlanks cs = text ++ rest) :
    Yields validate place cs (.ok ⟨token, place.advance (cs.takeWhile Text.isBlank),
      Text.byteLength text⟩ :: items) ↔ StartsWith validate (Text.dropBlanks cs) token text rest ∧
        Yields validate ((place.advance (cs.takeWhile Text.isBlank)).advance text) rest items := by
  constructor
  · intro h
    generalize hlength : Text.byteLength text = length at h
    cases h with
    | @reads _ _ text' rest' _ _ hword hrest =>
        have hsplit' := (readToken_splits (hword .start)).1
        obtain ⟨htext, hrest'⟩ := eq_of_byteLength_eq (hsplit.symm.trans hsplit') hlength
        rw [htext, hrest']
        exact ⟨hword, hrest⟩
  · intro h
    exact .reads h.1 h.2

end Lexer

/-! ## Moving a text -/

namespace Text.Place

/-- A place moved behind a text. -/
def shift (front : List Char) (place : Place) : Place :=
  ⟨place.offset + byteLength front, place.line + front.count '\n'⟩

theorem step_shift (front : List Char) (place : Place) (c : Char) :
    (place.shift front).step c = (place.step c).shift front := by
  by_cases hc : c = '\n'
  · simp only [step, shift, if_pos hc]
    rw [Nat.add_right_comm, Nat.add_right_comm place.line]
  · simp only [step, shift, if_neg hc]
    rw [Nat.add_right_comm]

theorem advance_shift (front : List Char) (place : Place) (cs : List Char) :
    (place.shift front).advance cs = (place.advance cs).shift front := by
  induction cs generalizing place with
  | nil => rfl
  | cons c cs ih => rw [advance_cons, advance_cons, step_shift, ih]

theorem shift_start (front : List Char) : start.shift front = start.advance front := by
  rw [advance_start, behind, shift, start, Nat.zero_add]

end Text.Place

/-- A token moved behind a text. -/
def Spanned.shift (front : List Char) (spanned : Spanned) : Spanned :=
  { spanned with place := spanned.place.shift front }

/-- An error moved behind a text. -/
def LexError.shift (front : List Char) : LexError → LexError
  | .unrecognized place text => .unrecognized (place.shift front) text
  | .unterminatedString place text => .unterminatedString (place.shift front) text
  | .invalidLiteral place text fault => .invalidLiteral (place.shift front) text fault

namespace Lexer

/-- An item moved behind a text. -/
def shiftItem (front : List Char) : Except LexError Spanned → Except LexError Spanned
  | .ok spanned => .ok (spanned.shift front)
  | .error error => .error (error.shift front)

theorem readToken_shift_error {error : LexError} (front : List Char)
    (h : readToken validate place cs = .error error) :
    readToken validate (place.shift front) cs = .error (error.shift front) := by
  unfold readToken at h ⊢
  split at h
  · cases h
  · split at h
    · cases h
      unfold unreadable
      split
      · rfl
      · rfl
    · split at h
      · cases h
      · cases h
        rfl

variable {items : List (Except LexError Spanned)}

/-- A moved text yields moved items. -/
theorem Yields.shift (front : List Char) (h : Yields validate place cs items) :
    Yields validate (place.shift front) cs (items.map (shiftItem front)) := by
  induction h with
  | atEnd hend => exact .atEnd hend
  | @fails place cs error hne hread =>
      refine .fails hne ?_
      rw [Text.Place.advance_shift]
      exact readToken_shift_error front hread
  | @reads place cs text rest token items hword hrest ih =>
      rw [← Text.Place.advance_shift, ← Text.Place.advance_shift] at ih
      rw [List.map_cons, shiftItem, Spanned.shift, ← Text.Place.advance_shift]
      exact .reads hword ih

/-- White space in front of a text only moves it. -/
theorem Yields.append_blanks (hgap : ∀ c ∈ gap, Text.isBlank c = true)
    (h : Yields validate (place.advance gap) cs items) :
    Yields validate place (gap ++ cs) items := by
  have hplace : (place.advance gap).advance (cs.takeWhile Text.isBlank) =
      place.advance ((gap ++ cs).takeWhile Text.isBlank) := by
    rw [takeWhile_append_of_blank hgap, Text.Place.advance_append]
  have hdrop := Text.dropBlanks_append_of_blank hgap cs
  cases h with
  | atEnd hend => exact .atEnd (hdrop.trans hend)
  | fails hne hread =>
      rw [hplace, ← hdrop] at hread
      exact .fails (hdrop ▸ hne) hread
  | reads hword hrest =>
      rw [hplace] at hrest ⊢
      exact .reads (hdrop ▸ hword) hrest

end Lexer

/-! ## Tokens that could go on -/

/-- A time, by itself or with a date, whose text does not end in a half of the day. -/
def Token.IsPlainTime (token : Token) : Prop :=
  ∃ written, (token = .literal (.time written) ∨ token = .literal (.dateTime written)) ∧
    ∀ front word, written.toList = front ++ word → ¬ Rule.IsHalf word

namespace Rule

theorem endsInDigit_of_scanTime (h : scanTime cs = some (text, rest))
    (hplain : ∀ front word, text = front ++ word → ¬ IsHalf word) : EndsInDigit text := by
  obtain ⟨clock, left, hclock, hleft⟩ := scanTime_eq_some.mp h
  rcases hleft with ⟨half, hhalf, htext⟩ | ⟨-, -, htext⟩
  · obtain ⟨gap, word, -, hword, hsplit, -⟩ := scanHalf_eq_some.mp hhalf
    rw [hsplit, ← List.append_assoc] at htext
    exact absurd hword (hplain (clock ++ gap) word htext)
  · rw [htext]
    exact endsInDigit_of_scanClock hclock

theorem endsInDigit_of_scanDateTime (h : scanDateTime cs = some (text, rest))
    (hplain : ∀ front word, text = front ++ word → ¬ IsHalf word) : EndsInDigit text := by
  obtain ⟨date, gap, time, behind, left, -, -, htime, htext⟩ := scanDateTime_eq_some.mp h
  rw [htext]
  refine (endsInDigit_of_scanTime htime fun front word hsplit => ?_).append (date ++ gap)
  exact hplain (date ++ gap ++ front) word (by rw [htext, hsplit, List.append_assoc _ front])

end Rule

/-- Of the times that are read, those without a half of the day end in a digit. -/
theorem StartsWith.isPlainTime_iff (h : StartsWith validate cs token text rest) :
    token.IsPlainTime ↔ token.LacksHalf := by
  constructor
  · intro hplain
    obtain ⟨written, htime, hplain⟩ := hplain
    refine ⟨written, htime, ?_⟩
    rcases readToken_cases (h .start) with ⟨mark, hmark, -, -⟩ | ⟨rule, hfind, hconvert⟩
    · rcases htime with htime | htime <;> rw [htime] at hmark <;> cases hmark
    · have hscan := Rule.scan_of_find? hfind
      rcases htime with htime | htime
      · rw [htime] at hconvert
        obtain ⟨hrule, hwritten⟩ := Rule.text_of_time hconvert
        rw [hwritten, String.toList_ofList] at hplain ⊢
        rw [hrule] at hscan
        exact Rule.endsInDigit_of_scanTime hscan hplain
      · rw [htime] at hconvert
        obtain ⟨hrule, hwritten⟩ := Rule.text_of_dateTime hconvert
        rw [hwritten, String.toList_ofList] at hplain ⊢
        rw [hrule] at hscan
        exact Rule.endsInDigit_of_scanDateTime hscan hplain
  · intro hlacks
    obtain ⟨written, htime, hdigit⟩ := hlacks
    refine ⟨written, htime, fun front word hsplit hword => ?_⟩
    rw [hsplit] at hdigit
    exact hword.not_endsInDigit front hdigit

namespace Lexer

/-! ## Two texts -/

/-- The last token is a date, and a time starts the text behind it. -/
def DateThenTime (tokens : List Spanned) (back : List Char) : Prop :=
  ∃ last ∈ tokens.getLast?, last.token.IsDate ∧ Rule.StartsClock (Text.dropBlanks back)

/-- The last token is a time without a half of the day, and one starts the text behind it. -/
def TimeThenHalf (tokens : List Spanned) (back : List Char) : Prop :=
  ∃ last ∈ tokens.getLast?, last.token.IsPlainTime ∧ Rule.StartsHalf (Text.dropBlanks back)

variable {items : List (Except LexError Spanned)} {tokens : List Spanned} {spanned : Spanned}

theorem dateThenTime_singleton_iff : DateThenTime [spanned] back ↔
    spanned.token.IsDate ∧ Rule.StartsClock (Text.dropBlanks back) := by
  simp [DateThenTime]

theorem timeThenHalf_singleton_iff : TimeThenHalf [spanned] back ↔
    spanned.token.IsPlainTime ∧ Rule.StartsHalf (Text.dropBlanks back) := by
  simp [TimeThenHalf]

/-- Two texts with white space between them yield what each yields by itself, unless the
last token of the first one goes on. -/
theorem Yields.append_iff (hgap : ∀ c ∈ gap, Text.isBlank c = true) (hne : gap ≠ [])
    (h : Yields validate place cs (tokens.map .ok))
    (hback : Yields validate (place.advance (cs ++ gap)) back items) :
    Yields validate place (cs ++ (gap ++ back)) (tokens.map .ok ++ items) ↔
      ¬ DateThenTime tokens back ∧ ¬ TimeThenHalf tokens back := by
  -- a text of white space is only a part of the gap
  have hblank : ∀ {place : Text.Place} {cs : List Char}, Text.dropBlanks cs = [] →
      Yields validate (place.advance (cs ++ gap)) back items →
      Yields validate place (cs ++ (gap ++ back)) items := by
    intro place cs hend hback
    rw [← List.append_assoc]
    refine hback.append_blanks fun c hc => ?_
    rcases List.mem_append.mp hc with hc | hc
    · exact Text.dropBlanks_eq_nil_iff.mp hend c hc
    · exact hgap c hc
  induction tokens generalizing place cs with
  | nil =>
      cases h with
      | atEnd hend => simp [DateThenTime, TimeThenHalf, hblank hend hback]
  | cons spanned tokens ih =>
      cases h with
      | @reads _ _ text rest token _ hword hrest =>
          obtain ⟨hdrop, htake⟩ := dropBlanks_append_of_ne_nil hword.ne_nil (gap ++ back)
          have hsplit := (readToken_splits (hword .start)).1
          have hcs : cs = cs.takeWhile Text.isBlank ++ (text ++ rest) := by
            rw [← hsplit, Text.takeWhile_append_dropBlanks]
          have hplace : place.advance (cs ++ gap) =
              ((place.advance (cs.takeWhile Text.isBlank)).advance text).advance (rest ++ gap) := by
            rw [← Text.Place.advance_append, ← Text.Place.advance_append, ← List.append_assoc,
              ← List.append_assoc, List.append_assoc _ text rest, ← hcs]
          rw [hplace] at hback
          rw [hsplit, List.append_assoc] at hdrop
          rw [List.map_cons, List.cons_append, ← htake, yields_cons_iff hdrop, htake, hdrop,
            ← List.append_assoc, ← hsplit]
          cases tokens with
          | nil =>
              cases hrest with
              | atEnd hend =>
                  rw [dateThenTime_singleton_iff, timeThenHalf_singleton_iff, hword.isPlainTime_iff,
                    hword.append_iff_of_last hend hgap hne]
                  exact and_iff_left (hblank hend hback)
          | cons next tokens =>
              have hbehind : Text.dropBlanks rest ≠ [] := by
                cases hrest with
                | reads hnext _ => exact hnext.ne_nil
              have hstarts := hword.append (delimited_of_blank hgap hne back) hbehind
              rw [and_iff_right hstarts]
              exact ih hrest hback

/-- Take a text that is read to its end without an error, some white space and any other
text.  All of it is read as the tokens of the first text and then whatever the other one
is read as by itself, moved behind the white space, if and only if neither a date in
front of the white space meets a time behind it, nor a time without a half of the day
meets one. -/
theorem items_append_iff (validate : Bool) (front blanks back : String) (tokens : List Spanned)
    (hfront : ((start front).withValidation validate).items = tokens.map .ok)
    (hblank : ∀ c ∈ blanks.toList, Text.isBlank c = true) (hne : blanks ≠ "") :
    ((start (front ++ blanks ++ back)).withValidation validate).items = tokens.map .ok ++
        ((start back).withValidation validate).items.map (shiftItem (front ++ blanks).toList) ↔
      ¬ DateThenTime tokens back.toList ∧ ¬ TimeThenHalf tokens back.toList := by
  have hshift : Yields validate (Text.Place.start.advance (front.toList ++ blanks.toList))
      back.toList (((start back).withValidation validate).items.map
        (shiftItem (front.toList ++ blanks.toList))) := by
    rw [← Text.Place.shift_start]
    exact (yields_start_iff.mpr rfl).shift _
  have hgap : blanks.toList ≠ [] := by
    intro hnil
    exact hne (String.toList_injective (by simpa using hnil))
  rw [← yields_start_iff, String.toList_append, String.toList_append, List.append_assoc]
  exact (yields_start_iff.mpr hfront).append_iff hblank hgap hshift

/-- Behind a time and a line end, `pm` is a part of the time and `pmx` is not. -/
theorem items_append_iff_half :
    ((start ("9:30" ++ "\n" ++ "pm")).withValidation true).items ≠
        ((start "9:30").withValidation true).items ++
          ((start "pm").withValidation true).items.map (shiftItem "9:30\n".toList) ∧
      ((start ("9:30" ++ "\n" ++ "pmx")).withValidation true).items =
        ((start "9:30").withValidation true).items ++
          ((start "pmx").withValidation true).items.map (shiftItem "9:30\n".toList) := by
  have hword : StartsWith true "9:30".toList (.literal (.time "9:30")) "9:30".toList [] :=
    fun place => rfl
  have hfront : ((start "9:30").withValidation true).items =
      [⟨.literal (.time "9:30"), .start, 4⟩].map .ok := items_of_startsWith hword
  have hblank : ∀ c ∈ "\n".toList, Text.isBlank c = true := by
    intro c hc
    rw [List.mem_singleton.mp hc]
    decide
  have hplain : Token.IsPlainTime (.literal (.time "9:30")) :=
    hword.isPlainTime_iff.mpr ⟨"9:30", Or.inl rfl, '0', rfl, rfl⟩
  rw [hfront]
  constructor
  · intro heq
    have hnone := (items_append_iff true "9:30" "\n" "pm" _ hfront hblank (by decide)).mp heq
    exact hnone.2 (timeThenHalf_singleton_iff.mpr ⟨hplain, ['p', 'm'], [], rfl, Or.inr rfl, rfl⟩)
  · refine (items_append_iff true "9:30" "\n" "pmx" _ hfront hblank (by decide)).mpr ⟨?_, ?_⟩
    · intro hdate
      obtain ⟨⟨written, htoken⟩, -⟩ := dateThenTime_singleton_iff.mp hdate
      cases htoken
    · intro hhalf
      have hnone : Rule.scanHalf "pmx".toList = none := by decide +kernel
      exact Rule.scanHalf_eq_none_iff.mp hnone (timeThenHalf_singleton_iff.mp hhalf).2

end Lexer

end RecordQuery
