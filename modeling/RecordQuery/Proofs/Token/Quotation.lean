import Mathlib.Algebra.Group.Nat.Even
import RecordQuery.Proofs.Token.Session
import RecordQuery.Proofs.Token.Words

/-!
# Where a quoted string ends

A quoted string is scanned by items: a backslash takes the character behind it along, and
the first quote that no backslash has taken ends the string.  Which quote that is can be
told without scanning.  Look back from a quote to the opening one and count the backslashes
that stand directly in front of it: an even number of them take each other, and of an odd
number the last one takes the quote.  So the string ends at the first quote with an even
number of backslashes in front of it (`Rule.closesFirst_of_scanToQuote`), and without such a
quote it does not end (`Rule.not_closes_of_scanToQuote`).

The value of the string is what stands between its quotes without the backslashes
(`Session.quoted_string`).
-/

namespace RecordQuery

namespace Text

/-- How many backslashes stand at the end of a text. -/
def closingBackslashes (cs : List Char) : Nat :=
  (cs.reverse.takeWhile (· = '\\')).length

theorem closingBackslashes_cons {c : Char} (h : c ≠ '\\') (cs : List Char) :
    closingBackslashes (c :: cs) = closingBackslashes cs := by
  have hstop : [c].takeWhile (· = '\\') = [] := by simp [h]
  rw [closingBackslashes, closingBackslashes, List.reverse_cons, List.takeWhile_append, hstop]
  split
  · next hall => rw [List.append_nil, hall]
  · rfl

/-- A backslash and the character that it takes along do not count: if they belong to the
backslashes at the end, then both of them do. -/
theorem even_closingBackslashes_escaped (c : Char) (cs : List Char) :
    Even (closingBackslashes ('\\' :: c :: cs)) ↔ Even (closingBackslashes cs) := by
  by_cases hc : c = '\\'
  · have hpair : ['\\', '\\'].takeWhile (· = '\\') = ['\\', '\\'] := by decide
    have hreverse : ('\\' :: '\\' :: cs).reverse = cs.reverse ++ ['\\', '\\'] := by simp
    rw [hc, closingBackslashes, closingBackslashes, hreverse, List.takeWhile_append, hpair]
    split
    · next hall =>
        have htwo : Even ['\\', '\\'].length := ⟨1, rfl⟩
        rw [List.length_append, hall, Nat.even_add]
        simp only [htwo, iff_true]
    · rfl
  · have hstop : [c, '\\'].takeWhile (· = '\\') = [] := by simp [hc]
    have hreverse : ('\\' :: c :: cs).reverse = cs.reverse ++ [c, '\\'] := by simp
    rw [closingBackslashes, closingBackslashes, hreverse, List.takeWhile_append, hstop]
    split
    · next hall => rw [List.append_nil, hall]
    · rfl

end Text

/-! ## The quote that ends a string -/

/-- Behind its opening quote, a text has a quote that could end it: so much stands in front
of that quote, and so much behind it. -/
structure Closes (quote : Char) (cs inner behind : List Char) : Prop where
  split : cs = inner ++ quote :: behind
  even : Even (Text.closingBackslashes inner)

/-- No earlier quote could end the text. -/
structure ClosesFirst (quote : Char) (cs inner behind : List Char) : Prop
    extends Closes quote cs inner behind where
  first : ∀ inner' behind', Closes quote cs inner' behind' → inner.length ≤ inner'.length

variable {quote c : Char} {cs text rest inner behind : List Char}

/-- A character that is neither a quote nor a backslash does not matter. -/
theorem closes_cons_iff (hquote : c ≠ quote) (hslash : c ≠ '\\') :
    Closes quote (c :: cs) inner behind ↔
      ∃ others, inner = c :: others ∧ Closes quote cs others behind := by
  constructor
  · intro h
    cases inner with
    | nil => exact absurd (List.cons.inj h.split).1 hquote
    | cons d others =>
        obtain ⟨rfl, hsplit⟩ := List.cons.inj h.split
        have heven := h.even
        rw [Text.closingBackslashes_cons hslash] at heven
        exact ⟨others, rfl, hsplit, heven⟩
  · rintro ⟨others, rfl, hsplit, heven⟩
    refine ⟨by rw [hsplit, List.cons_append], ?_⟩
    rwa [Text.closingBackslashes_cons hslash]

/-- A backslash takes a character along, whatever it is. -/
theorem closes_escaped_iff (hslash : quote ≠ '\\') :
    Closes quote ('\\' :: c :: cs) inner behind ↔
      ∃ others, inner = '\\' :: c :: others ∧ Closes quote cs others behind := by
  constructor
  · intro h
    have hsplit := h.split
    have heven := h.even
    cases inner with
    | nil => exact absurd (List.cons.inj hsplit).1.symm hslash
    | cons d inner =>
        rw [List.cons_append, List.cons.injEq] at hsplit
        obtain ⟨rfl, hsplit⟩ := hsplit
        cases inner with
        | nil =>
            -- the quote itself would stand behind one backslash, which is an odd number
            exact absurd heven (by decide)
        | cons e others =>
            rw [List.cons_append, List.cons.injEq] at hsplit
            obtain ⟨rfl, hsplit⟩ := hsplit
            rw [Text.even_closingBackslashes_escaped] at heven
            exact ⟨others, rfl, hsplit, heven⟩
  · rintro ⟨others, rfl, hsplit, heven⟩
    exact ⟨by rw [hsplit]; rfl, (Text.even_closingBackslashes_escaped c others).mpr heven⟩

theorem closesFirst_quote (quote : Char) (cs : List Char) :
    ClosesFirst quote (quote :: cs) [] cs where
  split := rfl
  even := by decide
  first := fun _ _ _ => Nat.zero_le _

theorem ClosesFirst.cons (h : ClosesFirst quote cs inner behind) (hquote : c ≠ quote)
    (hslash : c ≠ '\\') : ClosesFirst quote (c :: cs) (c :: inner) behind where
  toCloses := (closes_cons_iff hquote hslash).mpr ⟨inner, rfl, h.toCloses⟩
  first := by
    intro inner' behind' hcloses
    obtain ⟨others, rfl, hothers⟩ := (closes_cons_iff hquote hslash).mp hcloses
    exact Nat.succ_le_succ (h.first others behind' hothers)

theorem ClosesFirst.escaped (h : ClosesFirst quote cs inner behind) (hslash : quote ≠ '\\') :
    ClosesFirst quote ('\\' :: c :: cs) ('\\' :: c :: inner) behind where
  toCloses := (closes_escaped_iff hslash).mpr ⟨inner, rfl, h.toCloses⟩
  first := by
    intro inner' behind' hcloses
    obtain ⟨others, rfl, hothers⟩ := (closes_escaped_iff hslash).mp hcloses
    exact Nat.succ_le_succ (Nat.succ_le_succ (h.first others behind' hothers))

/-! ## The scanner finds it -/

namespace Rule

/-- The scanner stops at the first quote that could end the text. -/
theorem closesFirst_of_scanToQuote (h : scanToQuote quote cs = some (text, rest)) :
    ∃ inner, text = inner ++ [quote] ∧ ClosesFirst quote cs inner rest := by
  fun_induction scanToQuote quote cs generalizing text with
  | case1 => cases h
  | case2 cs =>
      cases h
      exact ⟨[], rfl, closesFirst_quote quote _⟩
  | case3 => cases h
  | case4 d ds hquote ih =>
      obtain ⟨⟨more, left⟩, hmore, hpair⟩ := Option.map_eq_some_iff.mp h
      cases hpair
      obtain ⟨inner, rfl, hfirst⟩ := ih hmore
      exact ⟨'\\' :: d :: inner, rfl, hfirst.escaped (Ne.symm hquote)⟩
  | case5 c cs hquote hslash ih =>
      obtain ⟨⟨more, left⟩, hmore, hpair⟩ := Option.map_eq_some_iff.mp h
      cases hpair
      obtain ⟨inner, rfl, hfirst⟩ := ih hmore
      exact ⟨c :: inner, rfl, hfirst.cons hquote hslash⟩

/-- The scanner fails only where no quote could end the text. -/
theorem not_closes_of_scanToQuote (h : scanToQuote quote cs = none) (inner behind : List Char) :
    ¬ Closes quote cs inner behind := by
  fun_induction scanToQuote quote cs generalizing inner with
  | case1 => exact fun hcloses => by simpa using hcloses.split
  | case2 => cases h
  | case3 hquote =>
      -- a backslash at the very end takes nothing along, but it is no quote either
      intro hcloses
      have hmem : quote ∈ ['\\'] := by
        rw [hcloses.split]
        simp
      exact hquote (List.mem_singleton.mp hmem).symm
  | case4 d ds hquote ih =>
      intro hcloses
      obtain ⟨others, -, hothers⟩ := (closes_escaped_iff (Ne.symm hquote)).mp hcloses
      exact ih (Option.map_eq_none_iff.mp h) others hothers
  | case5 c cs hquote hslash ih =>
      intro hcloses
      obtain ⟨others, -, hothers⟩ := (closes_cons_iff hquote hslash).mp hcloses
      exact ih (Option.map_eq_none_iff.mp h) others hothers

/-- In front of a quote, only the rule for strings can find something. -/
theorem find?_quote (hquote : isQuote quote = true) (cs : List Char) : find? (quote :: cs) =
    (scanToQuote quote cs).map fun (text, rest) => (string, quote :: text, rest) := by
  have hother : ∀ rule, rule ≠ string → rule.scan (quote :: cs) = none := by
    intro rule hrule
    refine scan_none_of_not_starts ?_
    revert hrule
    rcases Bool.or_eq_true_iff.mp hquote with hchar | hchar <;>
      · rw [eq_of_beq hchar]
        cases rule <;> decide
  have hstring : string.scan (quote :: cs) =
      (scanToQuote quote cs).map fun (text, rest) => (quote :: text, rest) := by
    rw [scan, scanString, if_pos hquote]
  cases hscan : scanToQuote quote cs with
  | some pair =>
      rw [hscan] at hstring
      refine find?_eq_some.mpr ⟨hstring, fun earlier hearlier => hother earlier ?_⟩
      rintro rfl
      exact absurd hearlier (by decide)
  | none =>
      rw [hscan] at hstring
      refine List.findSome?_eq_none_iff.mpr fun rule _ => Option.map_eq_none_iff.mpr ?_
      by_cases hrule : rule = string
      · rw [hrule]
        exact hstring
      · exact hother rule hrule

end Rule

/-! ## Lexers in front of a quote -/

theorem Literal.unquote_quoted (quote : Char) (inner : List Char) :
    unquote (quote :: (inner ++ [quote])) = inner.filter (· ≠ '\\') := by
  rw [unquote, List.tail_cons, List.dropLast_concat]

namespace Lexer

/-- The same lexer at another position of its text. -/
def movedTo (lexer : Lexer) (rest : List Char) (place : Text.Place) : Lexer :=
  { lexer with rest, place }

variable {validate : Bool} {place : Text.Place}

theorem readToken_of_closes (hquote : Rule.isQuote quote = true)
    (h : ∃ inner behind, Closes quote cs inner behind) :
    ∃ inner behind, ClosesFirst quote cs inner behind ∧
      readToken validate place (quote :: cs) =
        .ok (.literal (.string (String.ofList (inner.filter (· ≠ '\\')))),
          quote :: (inner ++ [quote]), behind) := by
  obtain ⟨inner, behind, hcloses⟩ := h
  cases hscan : Rule.scanToQuote quote cs with
  | none => exact absurd hcloses (Rule.not_closes_of_scanToQuote hscan inner behind)
  | some pair =>
      obtain ⟨text, rest⟩ := pair
      obtain ⟨inner, rfl, hfirst⟩ := Rule.closesFirst_of_scanToQuote hscan
      have hfind : Rule.find? (quote :: cs) =
          some (.string, quote :: (inner ++ [quote]), rest) := by
        rw [Rule.find?_quote hquote, hscan]
        rfl
      refine ⟨inner, rest, hfirst, startsWith_of_find? hfind ?_ place⟩
      rw [Rule.convert, Literal.unquote_quoted]

theorem readToken_of_not_closes (hquote : Rule.isQuote quote = true)
    (h : ∀ inner behind, ¬ Closes quote cs inner behind) :
    readToken validate place (quote :: cs) =
      .error (.unterminatedString place (String.ofList (quote :: cs))) := by
  have hscan : Rule.scanToQuote quote cs = none := by
    rw [Option.eq_none_iff_forall_ne_some]
    rintro ⟨text, rest⟩ hscan
    obtain ⟨inner, -, hfirst⟩ := Rule.closesFirst_of_scanToQuote hscan
    exact h inner rest hfirst.toCloses
  have hfind : Rule.find? (quote :: cs) = none := by
    rw [Rule.find?_quote hquote, hscan]
    rfl
  have hstarts : Rule.string.starts quote = true := hquote
  have hmark : Mark.ofChar? quote = none := ofChar?_of_starts hstarts
  simp only [readToken, List.head?_cons, Option.bind_some, hmark, hfind, unreadable,
    Option.any_some, hquote, if_true]

end Lexer

namespace Session

open Lexer

/-- Take any lexer that has come from a text by requests and clones, and that has a quote
in front of it, behind white space.  If some later quote of the kind has an even number of
backslashes directly in front of it, the next token is the string up to the first such
quote, without its quotes and backslashes.  If there is none, the string is not terminated:
the error holds all that is left of the text, and the lexer stays in front of it. -/
theorem quoted_string (source : String) (commands : List Command) (handle : Handle)
    (quote : Char) (body : List Char) (hmem : handle ∈ run source commands)
    (hquote : Rule.isQuote quote = true)
    (hrest : Text.dropBlanks handle.lexer.rest = quote :: body) :
    ∃ front, source.toList = front ++ quote :: body ∧
      ((∃ inner behind, Closes quote body inner behind) →
        ∃ inner behind, ClosesFirst quote body inner behind ∧
          handle.lexer.nextToken =
            (.ok (some ⟨.literal (.string (String.ofList (inner.filter (· ≠ '\\')))),
                .behind front, Text.byteLength (quote :: (inner ++ [quote]))⟩),
              handle.lexer.movedTo behind (.behind (front ++ quote :: (inner ++ [quote]))))) ∧
      ((∀ inner behind, ¬ Closes quote body inner behind) →
        handle.lexer.nextToken =
          (.error (.unterminatedString (.behind front) (String.ofList (quote :: body))),
            handle.lexer.movedTo (quote :: body) (.behind front))) := by
  obtain ⟨front, hsource, hplace⟩ := exists_front commands hmem
  rw [hrest] at hsource
  have hskip : handle.lexer.skipBlanks =
      handle.lexer.movedTo (quote :: body) (.behind front) := by
    rw [← hplace, ← hrest]
    rfl
  have hskipped : handle.lexer.skipBlanks.rest = quote :: body := hrest
  refine ⟨front, hsource, fun hcloses => ?_, fun hnone => ?_⟩
  · obtain ⟨inner, behind, hfirst, hread⟩ := readToken_of_closes hquote hcloses
    refine ⟨inner, behind, hfirst, ?_⟩
    rw [← hskipped] at hread
    rw [nextToken_of_read hread, hplace, Text.Place.advance_behind, hskip]
    rfl
  · have hne : handle.lexer.skipBlanks.rest ≠ [] := by
      rw [hskipped]
      exact List.cons_ne_nil quote body
    have hread := @readToken_of_not_closes quote body handle.lexer.validate
      handle.lexer.skipBlanks.place hquote hnone
    rw [← hskipped] at hread
    rw [nextToken_of_refused hne hread, hskipped, hplace, hskip]

/-- A quote behind one backslash does not end the string, and one behind two does. -/
theorem quoted_string_backslashes : ∃ handle ∈ run "k == 'é\\'\n\\\\' \"x"
      [.ask 0 .next, .ask 0 .nextToken, .clone 0],
    Text.dropBlanks handle.lexer.rest = '\'' :: "é\\'\n\\\\' \"x".toList ∧
      ∃ inner behind, ClosesFirst '\'' "é\\'\n\\\\' \"x".toList inner behind ∧
        handle.lexer.nextToken.1 =
          .ok (some ⟨.literal (.string (String.ofList (inner.filter (· ≠ '\\')))),
            .behind "k == ".toList, Text.byteLength ('\'' :: (inner ++ ['\'']))⟩) := by
  have hread : (run "k == 'é\\'\n\\\\' \"x" [.ask 0 .next, .ask 0 .nextToken, .clone 0]).any
      (fun handle => Text.dropBlanks handle.lexer.rest ==
        '\'' :: "é\\'\n\\\\' \"x".toList) = true := by
    decide +kernel
  obtain ⟨handle, hmem, hfound⟩ := List.any_eq_true.mp hread
  have hrest := eq_of_beq hfound
  have hcloses : Closes '\'' "é\\'\n\\\\' \"x".toList "é\\'\n\\\\".toList " \"x".toList :=
    ⟨by decide, by decide⟩
  obtain ⟨front, hsource, hstring, -⟩ := quoted_string _ _ handle '\'' _ hmem rfl hrest
  obtain ⟨inner, behind, hfirst, hnext⟩ := hstring ⟨_, _, hcloses⟩
  have hfront : "k == ".toList ++ '\'' :: "é\\'\n\\\\' \"x".toList =
      front ++ '\'' :: "é\\'\n\\\\' \"x".toList := by
    rw [← hsource]
    decide
  refine ⟨handle, hmem, hrest, inner, behind, hfirst, ?_⟩
  rw [hnext, List.append_cancel_right hfront]

end Session

end RecordQuery
