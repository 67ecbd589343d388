import Mathlib.Data.List.Chain
import RecordQuery.Proofs.Token.Conversion
import RecordQuery.Proofs.Token.Lexeme
import RecordQuery.Proofs.Token.Stream

/-!
# The words of a text

A text is read word by word: a word is the text of one token, and white space may stand
before each.  `Words` says so without a lexer and without places, and `Lexer.Yields` with
the places and with the error that reading may end in.  A text yields the items of every
lexer that stands in front of it, and no others (`Lexer.yields_iff`).  So a lexer yields
the tokens of the words of its text (`exists_items_of_words`), and where it meets no error
its text has words (`exists_words_of_items`).  Each item stands at its place in the text
(`Lexer.Yields.exists_stands`).

A word also tells what does not stand behind it.  A time without a half of the day never
has one behind it, so no key that could be taken for one follows
(`ReadsAs.isChain_apart`).
-/

namespace RecordQuery

variable {validate : Bool} {cs text rest ds : List Char} {token : Token} {place : Text.Place}

/-! ## One word -/

/-- A text starts with a word, whatever place it stands at. -/
def StartsWith (validate : Bool) (cs : List Char) (token : Token) (text rest : List Char) : Prop :=
  ∀ place, Lexer.readToken validate place cs = .ok (token, text, rest)

theorem ofChar?_char (mark : Mark) : Mark.ofChar? mark.char = some mark := by
  cases mark <;> decide

theorem char_of_ofChar? {c : Char} {mark : Mark} (h : Mark.ofChar? c = some mark) :
    mark.char = c := by
  unfold Mark.ofChar? at h
  have hfound := List.find?_some h
  exact eq_of_beq hfound

theorem startsWith_mark (mark : Mark) (rest : List Char) :
    StartsWith validate (mark.char :: rest) (.mark mark) [mark.char] rest := by
  intro place
  simp [Lexer.readToken, ofChar?_char]

theorem ofChar?_of_starts {rule : Rule} {c : Char} (h : rule.starts c = true) :
    Mark.ofChar? c = none := by
  rw [Option.eq_none_iff_forall_ne_some]
  intro mark hmark
  rw [← char_of_ofChar? hmark] at h
  revert h
  cases mark <;> cases rule <;> decide

theorem startsWith_of_find? {rule : Rule} (h : Rule.find? cs = some (rule, text, rest))
    (hconvert : rule.convert validate text = .ok token) :
    StartsWith validate cs token text rest := by
  intro place
  obtain ⟨c, more, rfl, hc⟩ := Rule.starts_of_scan (Rule.scan_of_find? h)
  have hsplit := Rule.splits_scan rule cs _ rest (Rule.scan_of_find? h)
  rw [Lexer.readToken, hsplit]
  simp only [List.cons_append, List.head?_cons, Option.bind_some, ofChar?_of_starts hc]
  rw [← List.cons_append, ← hsplit, h]
  simp only [hconvert]

/-- A word is a mark or is found by a rule. -/
theorem readToken_cases (h : Lexer.readToken validate place cs = .ok (token, text, rest)) :
    (∃ mark, token = .mark mark ∧ text = [mark.char] ∧ cs = mark.char :: rest) ∨
      ∃ rule, Rule.find? cs = some (rule, text, rest) ∧ rule.convert validate text = .ok token := by
  unfold Lexer.readToken at h
  split at h
  · next mark hmark =>
      cases h
      obtain ⟨c, hc, hof⟩ := Option.bind_eq_some_iff.mp hmark
      obtain ⟨more, rfl⟩ := List.head?_eq_some_iff.mp hc
      have hchar := char_of_ofChar? hof
      exact Or.inl ⟨mark, rfl, by simp [hchar], by simp [hchar]⟩
  · split at h
    · cases h
    · next rule found left hfind =>
        split at h
        · next converted hconvert =>
            cases h
            exact Or.inr ⟨rule, hfind, hconvert⟩
        · cases h

theorem startsWith_of_readToken
    (h : Lexer.readToken validate place cs = .ok (token, text, rest)) :
    StartsWith validate cs token text rest := by
  rcases readToken_cases h with ⟨mark, rfl, rfl, rfl⟩ | ⟨rule, hfind, hconvert⟩
  · exact startsWith_mark mark rest
  · exact startsWith_of_find? hfind hconvert

/-- A word has no white space before it. -/
theorem StartsWith.dropBlanks_eq (h : StartsWith validate cs token text rest) :
    Text.dropBlanks cs = cs := by
  rcases readToken_cases (h .start) with ⟨mark, -, -, rfl⟩ | ⟨rule, hfind, -⟩
  · have hmark : Text.isBlank mark.char = false := by cases mark <;> decide
    exact Scan.dropBlanks_of_stops (Scan.stops_cons hmark rest)
  · have hscan := Rule.scan_of_find? hfind
    obtain ⟨c, more, rfl, hc⟩ := Rule.starts_of_scan hscan
    rw [Rule.splits_scan rule cs _ rest hscan]
    exact Scan.dropBlanks_of_stops (Scan.stops_cons (Rule.not_isBlank_of_starts hc) _)

theorem StartsWith.eq {other : Token} {text' rest' : List Char}
    (h : StartsWith validate cs token text rest) (h' : StartsWith validate cs other text' rest') :
    token = other ∧ text = text' ∧ rest = rest' := by
  have hread := h .start
  rw [h' .start, Except.ok.injEq, Prod.mk.injEq, Prod.mk.injEq] at hread
  exact ⟨hread.1.symm, hread.2.1.symm, hread.2.2.symm⟩

theorem StartsWith.ne_nil (h : StartsWith validate cs token text rest) : cs ≠ [] := by
  obtain ⟨hsplit, htext⟩ := Lexer.readToken_splits (h .start)
  rw [hsplit]
  exact List.append_ne_nil_of_left_ne_nil htext rest

/-! ## Texts that are one token -/

/-- A text that a rule takes as a whole, and makes a token of. -/
structure Lexeme (validate : Bool) (rule : Rule) (text : List Char) (token : Token) : Prop where
  find : Rule.find? text = some (rule, text, [])
  convert : rule.convert validate text = .ok token

namespace Lexeme

variable {rule : Rule}

theorem startsWith (h : Lexeme validate rule text token) : StartsWith validate text token text [] :=
  startsWith_of_find? h.find h.convert

theorem starts (h : Lexeme validate rule text token) :
    ∃ c more, text = c :: more ∧ rule.starts c = true :=
  Rule.starts_of_scan (Rule.scan_of_find? h.find)

theorem ne_nil (h : Lexeme validate rule text token) : text ≠ [] := by
  obtain ⟨c, more, rfl, -⟩ := h.starts
  exact List.cons_ne_nil c more

theorem stops_isBlank (h : Lexeme validate rule text token) : Scan.Stops Text.isBlank text := by
  obtain ⟨c, more, rfl, hc⟩ := h.starts
  exact Scan.stops_cons (Rule.not_isBlank_of_starts hc) more

theorem dropBlanks_append (h : Lexeme validate rule text token) (ds : List Char) :
    Text.dropBlanks (text ++ ds) = text ++ ds := by
  obtain ⟨c, more, rfl, hc⟩ := h.starts
  exact Scan.dropBlanks_of_stops (Scan.stops_cons (Rule.not_isBlank_of_starts hc) (more ++ ds))

/-- A lexeme is read in front of a delimiter, if what it could take besides is not there. -/
theorem startsWith_append (h : Lexeme validate rule text token) (hds : Delimited ds)
    (hdate : rule = .date → Rule.scanTime (Text.dropBlanks ds) = none)
    (hhalf : rule = .time ∨ rule = .dateTime → Rule.EndsInDigit text → Rule.scanHalf ds = none) :
    StartsWith validate (text ++ ds) token text ds :=
  startsWith_of_find? (Rule.find?_append h.find hds hdate hhalf) h.convert

end Lexeme

/-- A word that keeps its text is a lexeme. -/
theorem StartsWith.lexeme {finder : Rule} (h : StartsWith validate cs token text rest)
    (hfinder : Rule.finder? token = some finder) (hoperator : finder ≠ .operator)
    (hstring : finder ≠ .string) (hnumber : finder ≠ .number) :
    Lexeme validate finder text token := by
  rcases readToken_cases (h .start) with ⟨mark, rfl, -, -⟩ | ⟨rule, hfind, hconvert⟩
  · cases hfinder
  · obtain rfl := Rule.eq_finder hconvert hfinder
    exact ⟨Rule.find?_self hfind hoperator hstring hnumber, hconvert⟩

/-- A key is its text. -/
theorem StartsWith.toList_key {name : String} (h : StartsWith validate cs (.key name) text rest) :
    name.toList = text := by
  have hlexeme := h.lexeme rfl (by simp) (by simp) (by simp)
  rw [(Rule.text_of_key hlexeme.convert).2, String.toList_ofList]

theorem StartsWith.lexeme_key {name : String} (h : StartsWith validate cs (.key name) text rest) :
    Lexeme validate .identifier name.toList (.key name) := by
  rw [h.toList_key]
  exact h.lexeme rfl (by simp) (by simp) (by simp)

theorem StartsWith.lexeme_actionKey {name : String}
    (h : StartsWith validate cs (.actionKey name) text rest) :
    Lexeme validate .actionKey name.toList (.actionKey name) := by
  have hlexeme := h.lexeme rfl (by simp) (by simp) (by simp)
  have htext : name.toList = text := by
    rw [(Rule.text_of_actionKey hlexeme.convert).2, String.toList_ofList]
  rwa [htext]

/-! ## All words -/

/-- A text is these words, with nothing but white space between and around them. -/
inductive Words (validate : Bool) : List Char → List (Token × List Char) → Prop where
  | nil {cs : List Char} (hend : Text.dropBlanks cs = []) : Words validate cs []
  | cons {cs text rest : List Char} {token : Token} {words : List (Token × List Char)}
      (hword : StartsWith validate (Text.dropBlanks cs) token text rest)
      (hrest : Words validate rest words) : Words validate cs ((token, text) :: words)

variable {words : List (Token × List Char)}

/-- A text is read as these tokens. -/
def ReadsAs (validate : Bool) (cs : List Char) (tokens : List Token) : Prop :=
  ∃ words, Words validate cs words ∧ words.map Prod.fst = tokens

theorem readsAs_nil_iff : ReadsAs validate cs [] ↔ Text.dropBlanks cs = [] := by
  constructor
  · rintro ⟨words, hwords, hfst⟩
    cases hwords with
    | nil hend => exact hend
    | cons hword hrest => cases hfst
  · intro hend
    exact ⟨[], .nil hend, rfl⟩

variable {tokens : List Token}

theorem ReadsAs.exists_startsWith (h : ReadsAs validate cs (token :: tokens)) :
    ∃ text rest, StartsWith validate (Text.dropBlanks cs) token text rest ∧
      ReadsAs validate rest tokens := by
  obtain ⟨words, hwords, hfst⟩ := h
  cases hwords with
  | nil hend => cases hfst
  | @cons cs text rest found words hword hrest =>
      obtain ⟨rfl, htokens⟩ := List.cons.inj hfst
      exact ⟨text, rest, hword, words, hrest, htokens⟩

theorem ReadsAs.exists_startsWith_of_mem (h : ReadsAs validate cs tokens) (hmem : token ∈ tokens) :
    ∃ cs text rest, StartsWith validate cs token text rest := by
  obtain ⟨words, hwords, rfl⟩ := h
  induction hwords with
  | nil hend => cases hmem
  | @cons cs text rest first words hword hrest ih =>
      rcases List.mem_cons.mp hmem with rfl | hmem
      · exact ⟨_, text, rest, hword⟩
      · exact ih hmem

/-- Behind the first word the text is read as the other tokens. -/
theorem readsAs_cons_iff (h : StartsWith validate (Text.dropBlanks cs) token text rest) :
    ReadsAs validate cs (token :: tokens) ↔ ReadsAs validate rest tokens := by
  constructor
  · intro hreads
    obtain ⟨text', rest', hword, hrest⟩ := hreads.exists_startsWith
    obtain ⟨-, -, rfl⟩ := h.eq hword
    exact hrest
  · rintro ⟨words, hwords, hfst⟩
    exact ⟨(token, text) :: words, .cons h hwords, by rw [List.map_cons, hfst]⟩

theorem StartsWith.readsAs_iff (h : StartsWith validate cs token text rest) :
    ReadsAs validate cs (token :: tokens) ↔ ReadsAs validate rest tokens := by
  apply readsAs_cons_iff
  rw [h.dropBlanks_eq]
  exact h

/-! ## The items of a text -/

namespace Lexer

/-- What a text at a place yields: a token for each word, and an error where there is
none. -/
inductive Yields (validate : Bool) : Text.Place → List Char → List (Except LexError Spanned) →
    Prop where
  | atEnd {place : Text.Place} {cs : List Char} (hend : Text.dropBlanks cs = []) :
      Yields validate place cs []
  | fails {place : Text.Place} {cs : List Char} {error : LexError} (hne : Text.dropBlanks cs ≠ [])
      (hread : readToken validate (place.advance (cs.takeWhile Text.isBlank))
        (Text.dropBlanks cs) = .error error) : Yields validate place cs [.error error]
  | reads {place : Text.Place} {cs text rest : List Char} {token : Token}
      {items : List (Except LexError Spanned)}
      (hword : StartsWith validate (Text.dropBlanks cs) token text rest)
      (hrest : Yields validate ((place.advance (cs.takeWhile Text.isBlank)).advance text) rest
        items) :
      Yields validate place cs
        (.ok ⟨token, place.advance (cs.takeWhile Text.isBlank), Text.byteLength text⟩ :: items)

variable {items items' : List (Except LexError Spanned)}

/-- A lexer yields what its text does. -/
theorem yields_items (lexer : Lexer) (hgoing : lexer.finished = false) :
    Yields lexer.validate lexer.place lexer.rest lexer.items := by
  cases hnext : lexer.nextToken with
  | mk result after =>
      cases call_of_eq hnext with
      | atEnd hrest =>
          rw [items_of_end hnext]
          exact .atEnd hrest
      | fails hrest hread =>
          rw [items_of_error hgoing hnext]
          exact .fails hrest hread
      | @reads token text rest hread =>
          have hshorter : rest.length < lexer.rest.length := by
            simpa [hnext] using @length_rest_nextToken lexer _ (by rw [hnext])
          rw [items_of_token hgoing hnext]
          refine .reads (startsWith_of_readToken hread) ?_
          exact yields_items { lexer.skipBlanks with
            rest, place := lexer.skipBlanks.place.advance text } hgoing
termination_by lexer.rest.length

theorem Yields.unique (h : Yields validate place cs items) (h' : Yields validate place cs items') :
    items = items' := by
  induction h generalizing items' with
  | atEnd hend =>
      cases h' with
      | atEnd hend' => rfl
      | fails hne hread => exact absurd hend hne
      | reads hword hrest => exact absurd hend hword.ne_nil
  | fails hne hread =>
      cases h' with
      | atEnd hend => exact absurd hend hne
      | fails hne' hread' =>
          rw [hread] at hread'
          cases hread'
          rfl
      | reads hword hrest =>
          rw [hword _] at hread
          cases hread
  | reads hword hrest ih =>
      cases h' with
      | atEnd hend => exact absurd hend hword.ne_nil
      | fails hne hread =>
          rw [hword _] at hread
          cases hread
      | reads hword' hrest' =>
          obtain ⟨rfl, rfl, rfl⟩ := hword.eq hword'
          rw [ih hrest']

theorem yields_iff {lexer : Lexer} (hgoing : lexer.finished = false) :
    Yields lexer.validate lexer.place lexer.rest items ↔ lexer.items = items := by
  constructor
  · intro h
    exact (yields_items lexer hgoing).unique h
  · intro h
    rw [← h]
    exact yields_items lexer hgoing

/-! ### Items at their places -/

/-- An item stands at a place from which a text goes on like this. -/
inductive Stands (validate : Bool) (place : Text.Place) (back : List Char) :
    Except LexError Spanned → Prop where
  /-- A token is what is read there. -/
  | token {token : Token} {text rest : List Char}
      (hword : StartsWith validate back token text rest) :
      Stands validate place back (.ok ⟨token, place, Text.byteLength text⟩)
  /-- An error is about some text there. -/
  | error {error : LexError} (hplace : error.place = place) (htext : error.text ≠ "")
      (hleads : error.text.toList <+: back) : Stands validate place back (.error error)

/-- An error is about some text in front of which reading started. -/
theorem text_of_readToken_error {error : LexError} (hne : Text.dropBlanks cs ≠ [])
    (h : readToken validate place (Text.dropBlanks cs) = .error error) :
    error.text ≠ "" ∧ error.text.toList <+: Text.dropBlanks cs := by
  have hnonempty : ∀ text : List Char, text ≠ [] → text <+: Text.dropBlanks cs →
      String.ofList text ≠ "" ∧ (String.ofList text).toList <+: Text.dropBlanks cs := by
    intro text htext hleads
    rw [String.toList_ofList]
    exact ⟨fun hempty => htext (by simpa using congrArg String.toList hempty), hleads⟩
  rcases readToken_error_cases h with ⟨-, rfl⟩ | ⟨rule, text, rest, fault, hfind, -, rfl⟩
  · unfold unreadable
    split
    · exact hnonempty _ hne (List.prefix_refl _)
    · refine hnonempty _ ?_ (List.takeWhile_prefix _)
      -- no white space stands at the start
      obtain ⟨c, more, hcs⟩ := List.exists_cons_of_ne_nil hne
      have hc := Scan.stops_dropWhile Text.isBlank cs c (by
        rw [← Text.dropBlanks, hcs]
        rfl)
      rw [hcs]
      simp [hc]
  · have hscan := Rule.scan_of_find? hfind
    exact hnonempty text (rule.advances_scan _ _ _ hscan)
      ⟨rest, (rule.splits_scan _ _ _ hscan).symm⟩

/-- Every item that a text yields stands at its place. -/
theorem Yields.exists_stands {item : Except LexError Spanned}
    (h : Yields validate place cs items) (hmem : item ∈ items) :
    ∃ front back, cs = front ++ back ∧ Stands validate (place.advance front) back item := by
  induction h with
  | atEnd hend => cases hmem
  | @fails place cs error hne hread =>
      obtain rfl := List.mem_singleton.mp hmem
      obtain ⟨htext, hleads⟩ := text_of_readToken_error hne hread
      exact ⟨_, _, (Text.takeWhile_append_dropBlanks cs).symm,
        .error (place_of_readToken_error hread) htext hleads⟩
  | @reads place cs text rest token items hword hrest ih =>
      have hsplit : cs = cs.takeWhile Text.isBlank ++ (text ++ rest) := by
        rw [← (readToken_splits (hword .start)).1, Text.takeWhile_append_dropBlanks]
      rcases List.mem_cons.mp hmem with rfl | hmem
      · exact ⟨_, _, (Text.takeWhile_append_dropBlanks cs).symm, .token hword⟩
      · obtain ⟨front, back, hrest, hstands⟩ := ih hmem
        refine ⟨cs.takeWhile Text.isBlank ++ (text ++ front), back, ?_, ?_⟩
        · rw [List.append_assoc, List.append_assoc, ← hrest, ← hsplit]
        · rwa [Text.Place.advance_append, Text.Place.advance_append]

end Lexer

theorem exists_yields_of_words (h : Words validate cs words) (place : Text.Place) :
    ∃ tokens : List Spanned, Lexer.Yields validate place cs (tokens.map .ok) ∧
      tokens.map Spanned.token = words.map Prod.fst := by
  induction h generalizing place with
  | nil hend => exact ⟨[], .atEnd hend, rfl⟩
  | @cons cs text rest token words hword hrest ih =>
      obtain ⟨tokens, hyields, htokens⟩ :=
        ih ((place.advance (cs.takeWhile Text.isBlank)).advance text)
      exact ⟨_ :: tokens, .reads hword hyields, by rw [List.map_cons, List.map_cons, htokens]⟩

theorem exists_words_of_yields {tokens : List Spanned}
    (h : Lexer.Yields validate place cs (tokens.map .ok)) :
    ∃ words, Words validate cs words ∧ words.map Prod.fst = tokens.map Spanned.token := by
  induction tokens generalizing place cs with
  | nil =>
      cases h with
      | atEnd hend => exact ⟨[], .nil hend, rfl⟩
  | cons spanned tokens ih =>
      cases h with
      | reads hword hrest =>
          obtain ⟨words, hwords, hfst⟩ := ih hrest
          exact ⟨_ :: words, .cons hword hwords, by rw [List.map_cons, List.map_cons, hfst]⟩

theorem exists_items_of_words {lexer : Lexer} (hgoing : lexer.finished = false)
    (h : Words lexer.validate lexer.rest words) :
    ∃ tokens : List Spanned, lexer.items = tokens.map .ok ∧
      tokens.map Spanned.token = words.map Prod.fst := by
  obtain ⟨tokens, hyields, htokens⟩ := exists_yields_of_words h lexer.place
  exact ⟨tokens, (Lexer.yields_iff hgoing).mp hyields, htokens⟩

theorem exists_words_of_items {lexer : Lexer} (hgoing : lexer.finished = false)
    {tokens : List Spanned} (h : lexer.items = tokens.map .ok) :
    ∃ words, Words lexer.validate lexer.rest words ∧
      words.map Prod.fst = tokens.map Spanned.token :=
  exists_words_of_yields ((Lexer.yields_iff hgoing).mpr h)

theorem readsAs_iff_items {lexer : Lexer} (hgoing : lexer.finished = false) :
    ReadsAs lexer.validate lexer.rest tokens ↔ ∃ read : List Spanned,
      lexer.items = read.map .ok ∧ read.map Spanned.token = tokens := by
  constructor
  · rintro ⟨words, hwords, rfl⟩
    exact exists_items_of_words hgoing hwords
  · rintro ⟨read, hitems, rfl⟩
    exact exists_words_of_items hgoing hitems

/-- Every token of a stream was read from a word. -/
theorem exists_startsWith_of_mem_items {lexer : Lexer} (hgoing : lexer.finished = false)
    {spanned : Spanned} (h : .ok spanned ∈ lexer.items) :
    ∃ cs text rest, StartsWith lexer.validate cs spanned.token text rest := by
  obtain ⟨front, back, -, hstands⟩ := (Lexer.yields_items lexer hgoing).exists_stands h
  cases hstands with
  | token hword => exact ⟨_, _, _, hword⟩

/-- The items of a text are what it yields at the start. -/
theorem yields_start_iff {text : String} {items : List (Except LexError Spanned)} :
    Lexer.Yields validate .start text.toList items ↔
      ((Lexer.start text).withValidation validate).items = items :=
  @Lexer.yields_iff items ((Lexer.start text).withValidation validate) rfl

/-- A word by itself is one token, from the first byte to the last. -/
theorem items_of_startsWith (h : StartsWith validate text token text []) :
    ((Lexer.start (String.ofList text)).withValidation validate).items =
      [.ok ⟨token, .start, Text.byteLength text⟩] := by
  have hword : StartsWith validate (Text.dropBlanks text) token text [] := by
    rwa [h.dropBlanks_eq]
  have hyields : Lexer.Yields validate .start text _ := .reads hword (.atEnd rfl)
  rw [Text.takeWhile_of_dropBlanks h.dropBlanks_eq] at hyields
  exact yields_start_iff.mp (by rwa [String.toList_ofList])

/-- A text that is refused from its first character on yields an error and nothing else. -/
theorem items_of_refused {error : LexError} (hne : text ≠ []) (hblank : Text.dropBlanks text = text)
    (h : Lexer.readToken validate .start text = .error error) :
    ((Lexer.start (String.ofList text)).withValidation validate).items = [.error error] := by
  have hyields : Lexer.Yields validate .start text [.error error] := by
    refine .fails (by rwa [hblank]) ?_
    rw [hblank, Text.takeWhile_of_dropBlanks hblank]
    exact h
  exact yields_start_iff.mp (by rwa [String.toList_ofList])

/-! ## What does not stand behind a time -/

/-- A time, by itself or with a date, that has no half of the day. -/
def Token.LacksHalf (token : Token) : Prop :=
  ∃ written, (token = .literal (.time written) ∨ token = .literal (.dateTime written)) ∧
    Rule.EndsInDigit written.toList

theorem lacksHalf_of_convert {rule : Rule} (h : rule.convert validate text = .ok token)
    (hrule : rule = .time ∨ rule = .dateTime) (hdigit : Rule.EndsInDigit text) :
    token.LacksHalf := by
  refine ⟨String.ofList text, ?_, by rwa [String.toList_ofList]⟩
  rcases hrule with hrule | hrule
  · rw [hrule] at h
    exact Or.inl (Rule.convert_ok h)
  · rw [hrule] at h
    exact Or.inr (Rule.convert_ok h)

/-- A key that starts as a half of the day does. -/
def Token.StartsAsHalf (token : Token) : Prop :=
  ∃ name, token = .key name ∧ Rule.scanHalf name.toList ≠ none

/-- Two tokens can stand next to each other. -/
def Token.Apart (first second : Token) : Prop :=
  first.LacksHalf → ¬ second.StartsAsHalf

theorem scanHalf_of_lacksHalf (h : StartsWith validate cs token text rest)
    (hlacks : token.LacksHalf) : Rule.scanHalf rest = none := by
  obtain ⟨written, htime, hdigit⟩ := hlacks
  rcases readToken_cases (h .start) with ⟨mark, rfl, -, -⟩ | ⟨rule, hfind, hconvert⟩
  · rcases htime with htime | htime <;> cases htime
  · have hscan := Rule.scan_of_find? hfind
    rcases htime with rfl | rfl
    · obtain ⟨rfl, rfl⟩ := Rule.text_of_time hconvert
      rw [String.toList_ofList] at hdigit
      exact Rule.scanHalf_of_scanTime hscan hdigit
    · obtain ⟨rfl, rfl⟩ := Rule.text_of_dateTime hconvert
      rw [String.toList_ofList] at hdigit
      exact Rule.scanHalf_of_scanDateTime hscan hdigit

/-- A word that starts with a word character is a name or a number. -/
theorem isNamePart_of_starts {rule : Rule} {c : Char} (h : rule.starts c = true)
    (hword : Text.isWordCharacter c = true) : Rule.isNamePart c = true := by
  have hlist : ∀ cs : List Char, cs.all (fun d => !Text.isWordCharacter d) = true →
      cs.contains c = true → Rule.isNamePart c = true := by
    intro cs hcs hc
    have hnot := List.all_eq_true.mp hcs c (List.contains_iff_mem.mp hc)
    rw [hword] at hnot
    cases hnot
  cases rule with
  | actionKey => exact hlist [':'] (by decide +kernel) (by simpa [Rule.starts] using h)
  | operator => exact hlist ['=', '!', '>', '<'] (by decide +kernel) h
  | identifier => simp [Rule.isNamePart, show Rule.isNameStart c = true from h]
  | string =>
      exact hlist ['"', '\''] (by decide +kernel) (by simpa [Rule.starts, Rule.isQuote] using h)
  | number =>
      rcases Bool.or_eq_true_iff.mp h with hdigit | hsign
      · simp [Rule.isNamePart, hdigit]
      · exact hlist ['+', '-'] (by decide +kernel) hsign
  | _ => simp [Rule.isNamePart, show c.isDigit = true from h]

/-- Behind a key a word has ended, unless what follows is no word at all. -/
theorem endsWord_of_key {name : String} (h : StartsWith validate cs (.key name) text rest)
    (hrest : Words validate rest words) : Text.endsWord rest = true := by
  cases rest with
  | nil => rfl
  | cons c rest =>
      refine Bool.not_eq_true' _ |>.mpr (Bool.eq_false_iff.mpr fun hword => ?_)
      have hsolid : Text.isBlank c = false := by
        refine Bool.eq_false_iff.mpr fun hblank => ?_
        rw [not_isWordCharacter_of_isBlank hblank] at hword
        cases hword
      have hblank : Text.dropBlanks (c :: rest) = c :: rest :=
        Scan.dropBlanks_of_stops (Scan.stops_cons hsolid rest)
      -- the key would have gone on with a part of a name
      have hstops : Rule.isNamePart c = false := by
        rcases readToken_cases (h .start) with ⟨mark, hmark, -⟩ | ⟨rule, hfind, hconvert⟩
        · cases hmark
        · obtain ⟨rfl, -⟩ := Rule.text_of_key hconvert
          obtain ⟨d, more, -, -, -, hmore⟩ :=
            Rule.scanIdentifier_eq_some.mp (Rule.scan_of_find? hfind)
          exact Rule.stops_scanPath more c (by rw [← hmore]; rfl)
      cases hrest with
      | nil hend => rw [hblank] at hend; cases hend
      | cons hnext _ =>
          rw [hblank] at hnext
          -- a word character that starts a token is a part of a name
          rcases readToken_cases (hnext .start) with ⟨mark, -, -, hmark⟩ | ⟨rule, hfind, -⟩
          · obtain ⟨rfl, -⟩ := List.cons.inj hmark
            revert hword
            cases mark <;> decide +kernel
          · have hscan := Rule.scan_of_find? hfind
            obtain ⟨d, more, rfl, hd⟩ := Rule.starts_of_scan hscan
            obtain ⟨rfl, -⟩ := List.cons.inj (Rule.splits_scan rule _ _ _ hscan)
            rw [isNamePart_of_starts hd hword] at hstops
            cases hstops

theorem apart_of_words {first second : Token} {text' rest' : List Char}
    (hfirst : StartsWith validate cs first text rest)
    (hsecond : StartsWith validate (Text.dropBlanks rest) second text' rest')
    (hrest : Words validate rest' words) : first.Apart second := by
  intro hlacks hstarts
  obtain ⟨name, hname, hhalf⟩ := hstarts
  rw [hname] at hsecond
  rw [ne_eq, Rule.scanHalf_eq_none_iff, not_not,
    Scan.dropBlanks_of_stops hsecond.lexeme_key.stops_isBlank, hsecond.toList_key] at hhalf
  obtain ⟨word, left, hsplit, hword, hleft⟩ := hhalf
  have hend : Text.endsWord (left ++ rest') = true := by
    cases left with
    | nil => exact endsWord_of_key hsecond hrest
    | cons c left => exact hleft
  -- the white space between the two goes to the half of the day
  have hfound : Rule.StartsHalf (Text.dropBlanks rest) := by
    refine ⟨word, left ++ rest', ?_, hword, hend⟩
    rw [(Lexer.readToken_splits (hsecond .start)).1, hsplit, List.append_assoc]
  exact Rule.scanHalf_eq_none_iff.mp (scanHalf_of_lacksHalf hfirst hlacks) hfound

theorem ReadsAs.isChain_apart (h : ReadsAs validate cs tokens) : tokens.IsChain Token.Apart := by
  obtain ⟨words, hwords, rfl⟩ := h
  induction hwords with
  | nil hend => exact .nil
  | cons hword hrest ih =>
      cases hrest with
      | nil hend => exact .singleton _
      | cons hnext hmore => exact .cons_cons (apart_of_words hword hnext hmore) ih

end RecordQuery
