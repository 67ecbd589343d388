import RecordQuery.Token.Lexer

/-!
# The tokens of a text

What a lexer yields, seen as a whole.  `Lexer.Call` says all that one call of
`nextToken` can do; everything below is derived from it.

* `Lexer.Reads` follows a lexer over the tokens that it reads, and `items_of_reads` says
  that these are the first items of its stream.
* The places of all items increase (`pairwise_offset_items`), and no token reaches
  beyond the end of the text (`Reads.offset_add_length_le`).
-/

namespace RecordQuery

theorem Text.byteLength_append (front back : List Char) :
    byteLength (front ++ back) = byteLength front + byteLength back := by
  induction front with
  | nil => simp
  | cons c front ih => simp [ih, Nat.add_assoc]

theorem Text.byteLength_pos {cs : List Char} (h : cs ≠ []) : 0 < byteLength cs := by
  cases cs with
  | nil => exact absurd rfl h
  | cons c cs =>
      have := c.utf8Size_pos
      simp only [byteLength_cons]
      omega

theorem Text.utf8ByteSize_ofList (cs : List Char) :
    (String.ofList cs).utf8ByteSize = byteLength cs := by
  induction cs with
  | nil => rfl
  | cons c cs ih =>
      have hcons : String.ofList (c :: cs) = String.singleton c ++ String.ofList cs := by
        rw [String.singleton_eq_ofList, ← String.ofList_append]
        rfl
      rw [hcons, String.utf8ByteSize_append, String.utf8ByteSize_singleton, ih, byteLength_cons]

theorem Text.byteLength_toList (text : String) : byteLength text.toList = text.utf8ByteSize := by
  rw [← utf8ByteSize_ofList, String.ofList_toList]

/-- A place between two characters is behind the characters in front of it. -/
theorem Text.isValid_iff {source : String} {place : Nat} :
    String.Pos.Raw.IsValid source ⟨place⟩ ↔
      ∃ front back, source.toList = front ++ back ∧ byteLength front = place := by
  rw [String.Pos.Raw.isValid_iff_exists_append]
  constructor
  · rintro ⟨front, back, rfl, hplace⟩
    refine ⟨front.toList, back.toList, String.toList_append, ?_⟩
    rw [byteLength_toList]
    exact (congrArg String.Pos.Raw.byteIdx hplace).symm
  · rintro ⟨front, back, hsource, rfl⟩
    refine ⟨String.ofList front, String.ofList back, ?_, ?_⟩
    · rw [← String.ofList_append, ← hsource, String.ofList_toList]
    · rw [String.rawEndPos, utf8ByteSize_ofList]

namespace Lexer

/-! ## One call -/

/-- What a call of `nextToken` can do: find nothing but white space, fail in front of
the text behind it, or read a token of that text. -/
inductive Call (lexer : Lexer) : Except LexError (Option Spanned) × Lexer → Prop where
  | atEnd (hrest : lexer.skipBlanks.rest = []) : Call lexer (.ok none, lexer.skipBlanks)
  | fails {error : LexError} (hrest : lexer.skipBlanks.rest ≠ [])
      (hread : readToken lexer.validate lexer.skipBlanks.place lexer.skipBlanks.rest =
        .error error) :
      Call lexer (.error error, lexer.skipBlanks)
  | reads {token : Token} {text rest : List Char}
      (hread : readToken lexer.validate lexer.skipBlanks.place lexer.skipBlanks.rest =
        .ok (token, text, rest)) :
      Call lexer (.ok (some ⟨token, lexer.skipBlanks.place, Text.byteLength text⟩),
        { lexer.skipBlanks with rest, place := lexer.skipBlanks.place.advance text })

theorem call_nextToken (lexer : Lexer) : lexer.Call lexer.nextToken := by
  unfold nextToken
  simp only
  split
  · next hrest => exact .atEnd (List.isEmpty_iff.mp hrest)
  · next hrest =>
      split
      · next error hread => exact .fails (fun h => hrest (List.isEmpty_iff.mpr h)) hread
      · next token text rest hread => exact .reads hread

theorem call_of_eq {lexer after : Lexer} {result : Except LexError (Option Spanned)}
    (h : lexer.nextToken = (result, after)) : lexer.Call (result, after) := by
  rw [← h]
  exact call_nextToken lexer

theorem nextToken_of_read {lexer : Lexer} {token : Token} {text rest : List Char}
    (h : readToken lexer.validate lexer.skipBlanks.place lexer.skipBlanks.rest =
      .ok (token, text, rest)) :
    lexer.nextToken = (.ok (some ⟨token, lexer.skipBlanks.place, Text.byteLength text⟩),
      { lexer.skipBlanks with rest, place := lexer.skipBlanks.place.advance text }) := by
  obtain ⟨hsplit, htext⟩ := readToken_splits h
  have hrest : lexer.skipBlanks.rest.isEmpty = false := by
    rw [hsplit]
    cases text with
    | nil => exact absurd rfl htext
    | cons c text => rfl
  have hread : readToken lexer.skipBlanks.validate lexer.skipBlanks.place
      lexer.skipBlanks.rest = .ok (token, text, rest) := h
  simp only [nextToken, hrest, hread, Bool.false_eq_true, if_false]

theorem nextToken_of_refused {lexer : Lexer} {error : LexError} (hne : lexer.skipBlanks.rest ≠ [])
    (h : readToken lexer.validate lexer.skipBlanks.place lexer.skipBlanks.rest = .error error) :
    lexer.nextToken = (.error error, lexer.skipBlanks) := by
  have hrest : lexer.skipBlanks.rest.isEmpty = false := by simpa using hne
  have hread : readToken lexer.skipBlanks.validate lexer.skipBlanks.place
      lexer.skipBlanks.rest = .error error := h
  simp only [nextToken, hrest, hread, Bool.false_eq_true, if_false]

theorem nextToken_of_blank {lexer : Lexer} (h : Text.dropBlanks lexer.rest = []) :
    lexer.nextToken = (.ok none, lexer.skipBlanks) := by
  have hempty : lexer.skipBlanks.rest.isEmpty = true := List.isEmpty_iff.mpr h
  simp only [nextToken, hempty, if_true]

/-- Reading fails where no rule finds a text, or where what a rule has found has no value. -/
theorem readToken_error_cases {validate : Bool} {place : Text.Place} {cs : List Char}
    {error : LexError} (h : readToken validate place cs = .error error) :
    (Rule.find? cs = none ∧ error = unreadable place cs) ∨
      ∃ rule text rest fault, Rule.find? cs = some (rule, text, rest) ∧
        rule.convert validate text = .error fault ∧
          error = .invalidLiteral place (String.ofList text) fault := by
  unfold readToken at h
  split at h
  · cases h
  · split at h
    · next hfind =>
        cases h
        exact Or.inl ⟨hfind, rfl⟩
    · next rule text rest hfind =>
        split at h
        · cases h
        · next fault hconvert =>
            cases h
            exact Or.inr ⟨rule, text, rest, fault, hfind, hconvert, rfl⟩

/-- The place of an error is the place that reading started at. -/
theorem place_of_readToken_error {validate : Bool} {place : Text.Place} {cs : List Char}
    {error : LexError} (h : readToken validate place cs = .error error) :
    error.place = place := by
  rcases readToken_error_cases h with ⟨-, rfl⟩ | ⟨rule, text, rest, fault, -, -, rfl⟩
  · unfold unreadable
    split <;> rfl
  · rfl

theorem skipBlanks_skipBlanks (lexer : Lexer) : lexer.skipBlanks.skipBlanks = lexer.skipBlanks := by
  have hblank : Text.dropBlanks lexer.skipBlanks.rest = lexer.skipBlanks.rest :=
    Text.dropBlanks_dropBlanks lexer.rest
  rw [skipBlanks, hblank, Text.takeWhile_of_dropBlanks hblank]
  rfl

/-- Reading from behind the white space gives the same as reading from in front of it. -/
theorem nextToken_skipBlanks (lexer : Lexer) : lexer.skipBlanks.nextToken = lexer.nextToken := by
  rw [nextToken, nextToken, skipBlanks_skipBlanks]

theorem eq_skipBlanks_of_end {lexer after : Lexer} (h : lexer.nextToken = (.ok none, after)) :
    after = lexer.skipBlanks := by
  cases call_of_eq h with
  | atEnd hrest => rfl

theorem eq_skipBlanks_of_error {lexer after : Lexer} {error : LexError}
    (h : lexer.nextToken = (.error error, after)) : after = lexer.skipBlanks := by
  cases call_of_eq h with
  | fails hrest hread => rfl

/-- Only what is unread changes with a call. -/
theorem kept_nextToken {lexer after : Lexer} {result : Except LexError (Option Spanned)}
    (h : lexer.nextToken = (result, after)) : after.source = lexer.source ∧
      after.validate = lexer.validate ∧ after.finished = lexer.finished := by
  cases call_of_eq h with
  | atEnd hrest => exact ⟨rfl, rfl, rfl⟩
  | fails hrest hread => exact ⟨rfl, rfl, rfl⟩
  | reads hread => exact ⟨rfl, rfl, rfl⟩

/-! ## The stream, item by item -/

theorem items_of_token {lexer after : Lexer} {spanned : Spanned} (hgoing : lexer.finished = false)
    (h : lexer.nextToken = (.ok (some spanned), after)) :
    lexer.items = .ok spanned :: after.items := by
  have hnext : lexer.next = (some (.ok spanned), after) := by simp [next, hgoing, h]
  rw [items]
  split
  · next heq => rw [hnext] at heq; cases heq
  · next item last heq => rw [hnext] at heq; cases heq; rfl

theorem items_of_end {lexer after : Lexer} (h : lexer.nextToken = (.ok none, after)) :
    lexer.items = [] := by
  have hnext : lexer.next.1 = none := by
    unfold next
    split
    · rfl
    · rw [h]
  rw [items]
  split
  · rfl
  · next item last heq => rw [heq] at hnext; cases hnext

theorem items_of_error {lexer after : Lexer} {error : LexError} (hgoing : lexer.finished = false)
    (h : lexer.nextToken = (.error error, after)) : lexer.items = [.error error] := by
  have hnext : lexer.next = (some (.error error), { after with finished := true }) := by
    simp [next, hgoing, h]
  have hlast : ({ after with finished := true } : Lexer).items = [] := by
    rw [items]
    split
    · rfl
    · next item last heq => cases heq
  rw [items]
  split
  · next heq => rw [hnext] at heq; cases heq
  · next item last heq =>
      rw [hnext] at heq
      cases heq
      rw [hlast]

/-- A lexer reads some tokens and then stands behind them. -/
inductive Reads : Lexer → List Spanned → Lexer → Prop where
  | nil (lexer : Lexer) : Reads lexer [] lexer
  | cons {lexer middle last : Lexer} {spanned : Spanned} {tokens : List Spanned}
      (hnext : lexer.nextToken = (.ok (some spanned), middle))
      (hrest : Reads middle tokens last) : Reads lexer (spanned :: tokens) last

theorem Reads.concat {lexer middle last : Lexer} {tokens : List Spanned} {spanned : Spanned}
    (h : lexer.Reads tokens middle)
    (hnext : middle.nextToken = (.ok (some spanned), last)) :
    lexer.Reads (tokens ++ [spanned]) last := by
  induction h with
  | nil lexer => exact .cons hnext (.nil last)
  | cons hfirst _ ih => exact .cons hfirst (ih hnext)

theorem Reads.kept {lexer last : Lexer} {tokens : List Spanned} (h : lexer.Reads tokens last) :
    last.source = lexer.source ∧ last.validate = lexer.validate ∧
      last.finished = lexer.finished := by
  induction h with
  | nil lexer => exact ⟨rfl, rfl, rfl⟩
  | cons hnext _ ih =>
      obtain ⟨hsource, hvalidate, hfinished⟩ := kept_nextToken hnext
      rw [← hsource, ← hvalidate, ← hfinished]
      exact ih

theorem Reads.length_rest_le {lexer last : Lexer} {tokens : List Spanned}
    (h : lexer.Reads tokens last) : last.rest.length + tokens.length ≤ lexer.rest.length := by
  induction h with
  | nil lexer => simp
  | @cons lexer middle last spanned tokens hnext _ ih =>
      have hshorter := @length_rest_nextToken lexer spanned (by rw [hnext])
      rw [hnext] at hshorter
      simp only [List.length_cons] at hshorter ⊢
      omega

/-- A lexer that reads more tokens reads the same ones first. -/
theorem Reads.split {lexer middle last : Lexer} {front tokens : List Spanned}
    (hfront : lexer.Reads front middle) (h : lexer.Reads tokens last)
    (hlonger : front.length ≤ tokens.length) :
    ∃ back, tokens = front ++ back ∧ middle.Reads back last := by
  induction hfront generalizing tokens with
  | nil lexer => exact ⟨tokens, rfl, h⟩
  | cons hnext hrest ih =>
      cases h with
      | nil => simp at hlonger
      | cons hnext' hrest' =>
          rw [hnext] at hnext'
          cases hnext'
          obtain ⟨back, rfl, hback⟩ := ih hrest' (by simpa using hlonger)
          exact ⟨back, rfl, hback⟩

/-- Reading goes on from behind the first tokens. -/
theorem Reads.exists_middle {lexer last : Lexer} {front back : List Spanned}
    (h : lexer.Reads (front ++ back) last) :
    ∃ middle, lexer.Reads front middle ∧ middle.Reads back last := by
  induction front generalizing lexer with
  | nil => exact ⟨lexer, .nil lexer, h⟩
  | cons first front ih =>
      cases h with
      | cons hnext hrest =>
          obtain ⟨middle, hfront, hback⟩ := ih hrest
          exact ⟨middle, .cons hnext hfront, hback⟩

theorem items_of_reads {lexer last : Lexer} {tokens : List Spanned}
    (h : lexer.Reads tokens last) (hgoing : lexer.finished = false) :
    lexer.items = tokens.map .ok ++ last.items := by
  induction h with
  | nil lexer => rfl
  | @cons lexer middle last spanned tokens hnext _ ih =>
      have hfinished := (kept_nextToken hnext).2.2
      rw [items_of_token hgoing hnext, ih (hfinished.trans hgoing)]
      rfl

/-- A stream is read up to its end or up to its error. -/
theorem exists_reads (lexer : Lexer) : ∃ tokens last, lexer.Reads tokens last ∧
    ∀ spanned, last.nextToken.1 ≠ .ok (some spanned) := by
  by_cases h : ∃ spanned, lexer.nextToken.1 = .ok (some spanned)
  · obtain ⟨spanned, hspanned⟩ := h
    have hshorter := length_rest_nextToken hspanned
    -- less is unread behind the token
    obtain ⟨tokens, last, hreads, hlast⟩ := exists_reads lexer.nextToken.2
    exact ⟨spanned :: tokens, last, .cons (Prod.ext hspanned rfl) hreads, hlast⟩
  · exact ⟨[], lexer, .nil lexer, fun spanned hspanned => h ⟨spanned, hspanned⟩⟩
termination_by lexer.rest.length

/-- Where no token can be read, a stream ends or fails once. -/
theorem exists_ending {last : Lexer} (hgoing : last.finished = false)
    (h : ∀ spanned, last.nextToken.1 ≠ .ok (some spanned)) :
    ∃ ending : Option LexError, last.items = ending.toList.map .error := by
  rcases hnext : last.nextToken with ⟨error | _ | spanned, after⟩
  · exact ⟨some error, items_of_error hgoing hnext⟩
  · exact ⟨none, items_of_end hnext⟩
  · exact absurd (by rw [hnext]) (h spanned)

/-- A stream is some tokens, and then it ends or fails once. -/
theorem exists_items_eq {lexer : Lexer} (hgoing : lexer.finished = false) :
    ∃ (tokens : List Spanned) (ending : Option LexError),
      lexer.items = tokens.map .ok ++ ending.toList.map .error := by
  obtain ⟨tokens, last, hreads, hlast⟩ := exists_reads lexer
  obtain ⟨ending, hending⟩ := exists_ending (hreads.kept.2.2.trans hgoing) hlast
  exact ⟨tokens, ending, by rw [items_of_reads hreads hgoing, hending]⟩

/-- The first items of a stream are its first tokens as far as they are tokens. -/
theorem exists_tokens_eq {front tokens : List Spanned} {ending : Option LexError}
    {items : List (Except LexError Spanned)}
    (h : front.map .ok ++ items = tokens.map .ok ++ ending.toList.map .error) :
    ∃ more, tokens = front ++ more ∧ items = more.map .ok ++ ending.toList.map .error := by
  induction front generalizing tokens with
  | nil => exact ⟨tokens, rfl, h⟩
  | cons first front ih =>
      cases tokens with
      | nil => cases ending <;> cases h
      | cons token tokens =>
          obtain ⟨hfirst, hrest⟩ := List.cons.inj h
          cases hfirst
          obtain ⟨more, rfl, hitems⟩ := ih hrest
          exact ⟨more, rfl, hitems⟩

/-! ## Places increase -/

/-- The number of bytes up to the end of the text. -/
def extent (lexer : Lexer) : Nat :=
  lexer.place.offset + Text.byteLength lexer.rest

theorem extent_start (text : String) (validate : Bool) :
    ((start text).withValidation validate).extent = text.utf8ByteSize := by
  show 0 + Text.byteLength text.toList = _
  rw [Text.byteLength_toList, Nat.zero_add]

theorem extent_skipBlanks (lexer : Lexer) : lexer.skipBlanks.extent = lexer.extent := by
  have hsplit := congrArg Text.byteLength (Text.takeWhile_append_dropBlanks lexer.rest)
  rw [Text.byteLength_append] at hsplit
  show (lexer.place.advance _).offset + Text.byteLength (Text.dropBlanks lexer.rest) = _
  rw [Text.offset_advance, extent]
  omega

theorem offset_le_skipBlanks (lexer : Lexer) :
    lexer.place.offset ≤ lexer.skipBlanks.place.offset := by
  show _ ≤ (lexer.place.advance _).offset
  rw [Text.offset_advance]
  omega

/-- A token starts behind what was read before, covers at least one byte, and what was
read then ends with it. -/
theorem offset_of_token {lexer after : Lexer} {spanned : Spanned}
    (h : lexer.nextToken = (.ok (some spanned), after)) :
    lexer.place.offset ≤ spanned.place.offset ∧ 0 < spanned.length ∧
      after.place.offset = spanned.place.offset + spanned.length ∧
      after.extent = lexer.extent := by
  cases call_of_eq h with
  | @reads token text rest hread =>
      obtain ⟨hsplit, htext⟩ := readToken_splits hread
      have hextent := extent_skipBlanks lexer
      rw [extent, hsplit, Text.byteLength_append] at hextent
      refine ⟨offset_le_skipBlanks lexer, Text.byteLength_pos htext, Text.offset_advance _ _, ?_⟩
      show (lexer.skipBlanks.place.advance text).offset + Text.byteLength rest = _
      rw [Text.offset_advance, ← hextent]
      omega

/-- Where an item of a stream starts. -/
def offsetOf : Except LexError Spanned → Nat
  | .ok spanned => spanned.place.offset
  | .error error => error.place.offset

theorem offset_le_of_mem_items {lexer : Lexer} (hgoing : lexer.finished = false)
    {item : Except LexError Spanned} (h : item ∈ lexer.items) :
    lexer.place.offset ≤ offsetOf item := by
  cases hnext : lexer.nextToken with
  | mk result after =>
      cases result with
      | error error =>
          rw [items_of_error hgoing hnext, List.mem_singleton] at h
          cases call_of_eq hnext with
          | fails hrest hread =>
              rw [h, offsetOf, place_of_readToken_error hread]
              exact offset_le_skipBlanks lexer
      | ok found =>
          cases found with
          | none => rw [items_of_end hnext] at h; cases h
          | some spanned =>
              obtain ⟨hle, hpos, hafter, -⟩ := offset_of_token hnext
              have hgoing' := (kept_nextToken hnext).2.2.trans hgoing
              have hshorter : after.rest.length < lexer.rest.length := by
                simpa [hnext] using @length_rest_nextToken lexer spanned (by rw [hnext])
              rw [items_of_token hgoing hnext] at h
              rcases List.mem_cons.mp h with rfl | h
              · exact hle
              · have := offset_le_of_mem_items hgoing' h
                omega
termination_by lexer.rest.length

/-- Each item of a stream starts behind the start of the one before. -/
theorem pairwise_offset_items {lexer : Lexer} (hgoing : lexer.finished = false) :
    lexer.items.Pairwise fun item item' => offsetOf item < offsetOf item' := by
  obtain ⟨tokens, last, hreads, hlast⟩ := exists_reads lexer
  induction hreads with
  | nil last =>
      obtain ⟨ending, hending⟩ := exists_ending hgoing hlast
      rw [hending]
      cases ending with
      | none => exact .nil
      | some error => exact List.pairwise_singleton _ _
  | @cons lexer middle last spanned tokens hnext _ ih =>
      obtain ⟨-, hpos, hplace, -⟩ := offset_of_token hnext
      have hgoing' := (kept_nextToken hnext).2.2.trans hgoing
      rw [items_of_token hgoing hnext, List.pairwise_cons]
      refine ⟨fun item hitem => ?_, ih hgoing' hlast⟩
      have := offset_le_of_mem_items hgoing' hitem
      rw [offsetOf]
      omega

/-- A token covers something, and ends where the text does or before. -/
theorem Reads.offset_add_length_le {lexer last : Lexer} {tokens : List Spanned}
    (h : lexer.Reads tokens last) {spanned : Spanned} (hmem : spanned ∈ tokens) :
    0 < spanned.length ∧ spanned.place.offset + spanned.length ≤ lexer.extent := by
  induction h with
  | nil lexer => cases hmem
  | @cons lexer middle last first tokens hnext _ ih =>
      obtain ⟨-, hpos, hplace, hextent⟩ := offset_of_token hnext
      rw [← hextent]
      rcases List.mem_cons.mp hmem with rfl | hmem
      · refine ⟨hpos, ?_⟩
        rw [← hplace, extent]
        omega
      · exact ih hmem

end Lexer

end RecordQuery
