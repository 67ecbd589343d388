import RecordQuery.Proofs.Literal.Printed
import RecordQuery.Proofs.Query.Parse

/-!
# Actions as they are printed

The parameters of an action are printed with one space between them.  A space keeps
tokens apart, except for the two kinds that have white space inside them: a time takes
the half of the day behind it, and a date takes the time behind it.  The first cannot
happen to parameters that were read, since the time would have taken the half of the day
already where it was read (`ReadsAs.isChain_apart`).  The second can: nothing needs to
stand between a date and a time, and where nothing stands there they are read apart.

So a printed list of actions is read again exactly if in no action a time stands behind
a date.
-/

namespace RecordQuery

variable {validate : Bool} {rule rule' : Rule} {text text' ds : List Char}
  {token token' : Token}

/-! ## One word in front of another -/

/-- Whether two parameters are a date and a time: with white space between the two they
are one token. -/
def Param.mergesWith : Param → Param → Bool
  | literal (.date _), literal (.time _) => true
  | _, _ => false

theorem Param.mergesWith_iff {param next : Param} : param.mergesWith next = true ↔
    ∃ date time, param = literal (.date date) ∧ next = literal (.time time) := by
  constructor
  · intro h
    unfold mergesWith at h
    split at h
    · exact ⟨_, _, rfl, rfl⟩
    · cases h
  · rintro ⟨date, time, rfl, rfl⟩
    rfl

/-- A key shows that it is one; a literal that was read tells whether its text does. -/
def Param.showsKind : Param → Bool
  | literal written => written.showsKind
  | key _ => true

theorem isDelimiter_space : isDelimiter ' ' = true := by decide

theorem dropBlanks_space (cs : List Char) : Text.dropBlanks (' ' :: cs) = Text.dropBlanks cs := by
  have hspace : Text.isBlank ' ' = true := by decide
  simp [Text.dropBlanks, hspace]

/-- The parameter of a lexeme tells whether it is a date. -/
theorem Lexeme.param_eq_date {param : Param} (h : Lexeme validate .date text param.token) :
    param = .literal (.date (String.ofList text)) := by
  have hmade : param.token = .literal (.date (String.ofList text)) := Rule.convert_ok h.convert
  cases param with
  | key name => cases hmade
  | literal literal =>
      cases hmade
      rfl

theorem Lexeme.param_eq_time {param : Param} (h : Lexeme validate .time text param.token) :
    param = .literal (.time (String.ofList text)) := by
  have hmade : param.token = .literal (.time (String.ofList text)) := Rule.convert_ok h.convert
  cases param with
  | key name => cases hmade
  | literal literal =>
      cases hmade
      rfl

/-- A parameter that does not start as a half of the day is none. -/
theorem Lexeme.scanHalf_eq_none {param : Param} (h : Lexeme validate rule text param.token)
    (hstarts : ¬ param.token.StartsAsHalf) : Rule.scanHalf text = none := by
  by_cases hrule : rule = .identifier
  · subst hrule
    by_contra hsome
    have hmade : param.token = Rule.nameOrKeyword (String.ofList text) := Rule.convert_ok h.convert
    have hkey : param.token = .key (String.ofList text) := by
      rcases Rule.nameOrKeyword_cases (String.ofList text) with hname | ⟨_, hname⟩ | ⟨_, hname⟩
      · rw [hmade, hname]
      · cases param <;> cases hmade.trans hname
      · cases param <;> cases hmade.trans hname
    exact hstarts ⟨String.ofList text, hkey, by rwa [String.toList_ofList]⟩
  · -- everything but a name starts with a character that is no letter
    obtain ⟨c, more, rfl, hc⟩ := h.starts
    exact Rule.scanHalf_cons_none (Rule.not_isBlank_of_starts hc)
      (Rule.not_isAlpha_of_starts hc hrule) more

/-- A parameter is read in front of a space and another parameter, unless they merge or
the other one is taken for a half of the day. -/
theorem Lexeme.startsWith_space {param next : Param} (h : Lexeme validate rule text param.token)
    (hnext : Lexeme validate rule' text' next.token) (hds : Delimited ds)
    (hapart : param.token.Apart next.token) (hmerge : param.mergesWith next = false) :
    StartsWith validate (text ++ ' ' :: (text' ++ ds)) param.token text (' ' :: (text' ++ ds)) := by
  apply h.startsWith_append (delimited_cons isDelimiter_space)
  · rintro rfl
    have hrule : rule' ≠ .time := by
      rintro rfl
      rw [h.param_eq_date, hnext.param_eq_time] at hmerge
      cases hmerge
    have hclock := Rule.scanClock_of_find? hnext.find hrule
    rw [dropBlanks_space, hnext.dropBlanks_append]
    exact Rule.scanTime_none ((Rule.ignores_scanClock hds).none hclock)
  · intro hrule hdigit
    have hhalf := hnext.scanHalf_eq_none (hapart (lacksHalf_of_convert h.convert hrule hdigit))
    rw [← Rule.scanHalf_dropBlanks, dropBlanks_space, hnext.dropBlanks_append]
    exact Rule.scanHalf_append_none hds hnext.ne_nil hnext.stops_isBlank hhalf

/-- A date is not read in front of a space and a time. -/
theorem not_startsWith_date {taken rest : List Char} {date : String}
    (h : Lexeme validate .date text token) (hnext : Lexeme validate .time text' token')
    (hds : Delimited ds) : ¬ StartsWith validate (text ++ ' ' :: (text' ++ ds))
      (.literal (.date date)) taken rest := by
  intro hword
  rcases readToken_cases (hword .start) with ⟨mark, hmark, -, -⟩ | ⟨rule, hfind, hconvert⟩
  · cases hmark
  obtain rfl := Rule.eq_finder hconvert rfl
  have hnone : Rule.scanDateTime (text ++ ' ' :: (text' ++ ds)) = none :=
    (Rule.find?_eq_some.mp hfind).2 .dateTime (by decide)
  have hdate : Rule.scanDate (text ++ ' ' :: (text' ++ ds)) = some (text, ' ' :: (text' ++ ds)) :=
    (Rule.ignores_scanDate (delimited_cons isDelimiter_space)).extends text text []
      (Rule.scan_of_find? h.find)
  -- the rule for dates with times comes first, and it would take both
  rcases (Rule.scanDateTime_eq_none_iff hdate).mp hnone with hstops | htime
  · exact absurd (hstops ' ' rfl) (by decide)
  · rw [dropBlanks_space, hnext.dropBlanks_append] at htime
    obtain ⟨clock, left, hclock, -⟩ := Rule.scanTime_eq_some.mp (Rule.scan_of_find? hnext.find)
    have hclock' := (Rule.ignores_scanClock hds).extends text' clock left hclock
    rw [Rule.scanClock_none htime] at hclock'
    cases hclock'

variable {tokens : List Token} {params : List Param}

/-- A space in front of a word is not a part of it. -/
theorem StartsWith.readsAs_space_iff (h : StartsWith validate text token text' ds) :
    ReadsAs validate (' ' :: text) (token :: tokens) ↔ ReadsAs validate ds tokens := by
  apply readsAs_cons_iff
  rw [dropBlanks_space, h.dropBlanks_eq]
  exact h

/-- Two parameters that merge are not read as what they are. -/
theorem not_readsAs_of_mergesWith {param next : Param}
    (h : Lexeme validate rule text param.token) (hnext : Lexeme validate rule' text' next.token)
    (hds : Delimited ds) (hmerge : param.mergesWith next = true) :
    ¬ ReadsAs validate (' ' :: (text ++ ' ' :: (text' ++ ds))) (param.token :: tokens) := by
  intro hreads
  obtain ⟨date, time, rfl, rfl⟩ := Param.mergesWith_iff.mp hmerge
  obtain rfl := Rule.eq_finder h.convert rfl
  obtain rfl := Rule.eq_finder hnext.convert rfl
  obtain ⟨taken, rest, hword, -⟩ := hreads.exists_startsWith
  rw [dropBlanks_space, h.dropBlanks_append] at hword
  exact not_startsWith_date h hnext hds hword

/-! ## The parameters of an action -/

/-- The text of a parameter is the parameter and nothing else. -/
def Param.IsPrinted (validate : Bool) (param : Param) : Prop :=
  ∃ rule, Lexeme validate rule param.write param.token

/-- Parameters as they are printed, a space before each. -/
def writeParams (params : List Param) : List Char :=
  params.flatMap fun param => ' ' :: param.write

theorem writeParams_cons_append (param : Param) (params : List Param) (ds : List Char) :
    writeParams (param :: params) ++ ds = ' ' :: (param.write ++ (writeParams params ++ ds)) := by
  simp [writeParams]

/-- What follows an action: nothing, or a semicolon. -/
def EndsParams (ds : List Char) : Prop :=
  ds = [] ∨ ∃ more, ds = ';' :: more

theorem EndsParams.delimited (h : EndsParams ds) : Delimited ds := by
  rcases h with rfl | ⟨more, rfl⟩
  · exact delimited_nil
  · exact delimited_mark .semicolon more

theorem EndsParams.scanTime (h : EndsParams ds) : Rule.scanTime (Text.dropBlanks ds) = none := by
  rcases h with rfl | ⟨more, rfl⟩
  · rfl
  · exact Rule.scanTime_mark .semicolon more

theorem EndsParams.scanHalf (h : EndsParams ds) : Rule.scanHalf ds = none := by
  rcases h with rfl | ⟨more, rfl⟩
  · rfl
  · exact Rule.scanHalf_mark .semicolon more

theorem delimited_writeParams (hds : EndsParams ds) (params : List Param) :
    Delimited (writeParams params ++ ds) := by
  cases params with
  | nil => exact hds.delimited
  | cons param params => exact delimited_cons isDelimiter_space

/-- Printed parameters are read again exactly if no two of them merge. -/
theorem readsAs_params (hprinted : ∀ param ∈ params, param.IsPrinted validate)
    (hapart : (params.map Param.token).IsChain Token.Apart) (hds : EndsParams ds) :
    ReadsAs validate (writeParams params ++ ds) (params.map Param.token ++ tokens) ↔
      params.IsChain (fun param next => param.mergesWith next = false) ∧
        ReadsAs validate ds tokens := by
  induction params with
  | nil => simp [writeParams]
  | cons param params ih =>
      have hothers : ∀ other ∈ params, other.IsPrinted validate :=
        fun other hother => hprinted other (List.mem_cons_of_mem param hother)
      obtain ⟨rule, hparam⟩ := hprinted param List.mem_cons_self
      rw [writeParams_cons_append, List.map_cons, List.cons_append]
      cases params with
      | nil =>
          have hword : StartsWith validate (param.write ++ (writeParams [] ++ ds)) param.token
              param.write ds :=
            hparam.startsWith_append hds.delimited (fun _ => hds.scanTime) fun _ _ => hds.scanHalf
          rw [hword.readsAs_space_iff]
          simp
      | cons next params =>
          obtain ⟨rule', hnext⟩ := hothers next List.mem_cons_self
          obtain ⟨hpair, hapart'⟩ := List.isChain_cons_cons.mp hapart
          have hds' := delimited_writeParams hds params
          by_cases hmerge : param.mergesWith next = true
          · -- the two are read as one token, which is neither of them
            have hchain : ¬ (param :: next :: params).IsChain
                fun param next => param.mergesWith next = false := by
              intro hchain
              rw [(List.isChain_cons_cons.mp hchain).1] at hmerge
              cases hmerge
            simp only [hchain, false_and, iff_false]
            rw [writeParams_cons_append]
            exact not_readsAs_of_mergesWith hparam hnext hds' hmerge
          · rw [Bool.not_eq_true] at hmerge
            have hword : StartsWith validate (param.write ++ (writeParams (next :: params) ++ ds))
                param.token param.write (writeParams (next :: params) ++ ds) := by
              rw [writeParams_cons_append]
              exact hparam.startsWith_space hnext hds' hpair hmerge
            rw [hword.readsAs_space_iff, ih hothers hapart', List.isChain_cons_cons]
            simp only [hmerge, true_and]

/-! ## A list of actions -/

/-- The texts of an action are its name and its parameters, and nothing else. -/
structure Action.IsPrinted (validate : Bool) (action : Action) : Prop where
  key : Lexeme validate .actionKey action.key.toList (.actionKey action.key)
  params : ∀ param ∈ action.params, param.IsPrinted validate
  apart : (action.params.map Param.token).IsChain Token.Apart

/-- Actions behind a first one as they are printed. -/
def writeOthers (others : List Action) : List Char :=
  others.flatMap fun action => ';' :: ' ' :: action.write

theorem endsParams_writeOthers (others : List Action) : EndsParams (writeOthers others) := by
  cases others with
  | nil => exact Or.inl rfl
  | cons action others => exact Or.inr ⟨_, rfl⟩

/-- Items with a mark and a space between them: the first one, and the others each behind
the two. -/
theorem intercalate_map_cons {α : Type} (mark : Char) (write : α → List Char) (first : α)
    (others : List α) : [mark, ' '].intercalate ((first :: others).map write) =
      write first ++ others.flatMap fun item => mark :: ' ' :: write item := by
  induction others generalizing first with
  | nil => simp [List.intercalate]
  | cons second others ih =>
      calc [mark, ' '].intercalate ((first :: second :: others).map write)
          = write first ++ [mark, ' '] ++
              [mark, ' '].intercalate ((second :: others).map write) := by
            simp [List.intercalate]
        _ = write first ++ (second :: others).flatMap fun item => mark :: ' ' :: write item := by
            rw [ih]
            simp

/-- A printed action is read again exactly if no two of its parameters merge. -/
theorem readsAs_action {action : Action} (h : action.IsPrinted validate) (hds : EndsParams ds) :
    ReadsAs validate (' ' :: (action.write ++ ds)) (action.tokens ++ tokens) ↔
      action.params.IsChain (fun param next => param.mergesWith next = false) ∧
        ReadsAs validate ds tokens := by
  have htext : action.write ++ ds =
      action.key.toList ++ (writeParams action.params ++ ds) := by
    rw [Action.write, List.append_assoc]
    rfl
  have hword : StartsWith validate (action.key.toList ++ (writeParams action.params ++ ds))
      (.actionKey action.key) action.key.toList (writeParams action.params ++ ds) :=
    h.key.startsWith_append (delimited_writeParams hds action.params) (by simp) (by simp)
  rw [htext, Action.tokens, List.cons_append, hword.readsAs_space_iff]
  exact readsAs_params h.params h.apart hds

/-- Printed actions are read again exactly if in none of them two parameters merge. -/
theorem readsAs_actions {first : Action} {others : List Action}
    (hprinted : ∀ action ∈ first :: others, action.IsPrinted validate) :
    ReadsAs validate (' ' :: (first.write ++ writeOthers others))
        (writeSeparated (.mark .semicolon) Action.tokens (first :: others)) ↔
      ∀ action ∈ first :: others,
        action.params.IsChain fun param next => param.mergesWith next = false := by
  induction others generalizing first with
  | nil =>
      have hfirst : ReadsAs validate (' ' :: (first.write ++ writeOthers [])) (first.tokens ++ []) ↔
          first.params.IsChain (fun param next => param.mergesWith next = false) ∧
            ReadsAs validate [] [] :=
        readsAs_action (hprinted first List.mem_cons_self) (endsParams_writeOthers [])
      simpa [writeSeparated, readsAs_nil_iff, Text.dropBlanks] using hfirst
  | cons second others ih =>
      have hsecond := ih fun action haction => hprinted action (List.mem_cons_of_mem first haction)
      have hmark : ReadsAs validate (writeOthers (second :: others))
          (.mark .semicolon :: writeSeparated (.mark .semicolon) Action.tokens
            (second :: others)) ↔
          ReadsAs validate (' ' :: (second.write ++ writeOthers others))
            (writeSeparated (.mark .semicolon) Action.tokens (second :: others)) :=
        (startsWith_mark .semicolon _).readsAs_iff
      calc ReadsAs validate (' ' :: (first.write ++ writeOthers (second :: others)))
            (writeSeparated (.mark .semicolon) Action.tokens (first :: second :: others))
          ↔ first.params.IsChain (fun param next => param.mergesWith next = false) ∧
              ReadsAs validate (writeOthers (second :: others))
                (.mark .semicolon :: writeSeparated (.mark .semicolon) Action.tokens
                  (second :: others)) :=
            readsAs_action (hprinted first List.mem_cons_self)
              (endsParams_writeOthers (second :: others))
        _ ↔ first.params.IsChain (fun param next => param.mergesWith next = false) ∧
              ∀ action ∈ second :: others,
                action.params.IsChain fun param next => param.mergesWith next = false := by
            rw [hmark, hsecond]
        _ ↔ ∀ action ∈ first :: second :: others,
              action.params.IsChain fun param next => param.mergesWith next = false := by
            simp only [List.forall_mem_cons]

/-! ## The end of the text -/

theorem getLast?_append_solid {front back : List Char} (hne : back ≠ [])
    (h : ∀ c ∈ back.getLast?, Text.isBlank c = false) :
    ∀ c ∈ (front ++ back).getLast?, Text.isBlank c = false := by
  rw [List.getLast?_append_of_ne_nil front hne]
  exact h

/-- An action ends with its last parameter. -/
theorem Action.write_eq_append {action : Action} (h : action.params ≠ []) :
    ∃ front, ∃ param ∈ action.params, action.write = front ++ param.write := by
  obtain ⟨others, param, hparams⟩ := (List.eq_nil_or_concat action.params).resolve_left h
  refine ⟨action.key.toList ++ (writeParams others ++ [' ']), param, ?_, ?_⟩
  · simp [hparams]
  · simp [write, hparams, writeParams]

/-- A list of actions ends with its last action. -/
theorem write_append_writeOthers (first : Action) (others : List Action) :
    ∃ front, ∃ action ∈ first :: others,
      first.write ++ writeOthers others = front ++ action.write := by
  rcases List.eq_nil_or_concat others with rfl | ⟨front, action, rfl⟩
  · exact ⟨[], first, List.mem_cons_self, by simp [writeOthers]⟩
  · refine ⟨first.write ++ (writeOthers front ++ [';', ' ']), action, ?_, ?_⟩
    · exact List.mem_cons_of_mem first (by simp)
    · simp [writeOthers]

/-- Printed actions have no white space at their ends that could be left out. -/
theorem textOf_writeActions (options : Options) {first : Action} {others : List Action}
    (hprinted : ∀ action ∈ first :: others, action.IsPrinted validate)
    (hparams : ∀ action ∈ first :: others, action.params ≠ []) :
    options.textOf (String.ofList (Query.writeActions (first :: others))) =
      String.ofList ('|' :: ' ' :: (first.write ++ writeOthers others)) := by
  have htext : Query.writeActions (first :: others) =
      '|' :: ' ' :: (first.write ++ writeOthers others) := by
    rw [Query.writeActions, intercalate_map_cons, writeOthers]
  obtain ⟨front, action, haction, hactions⟩ := write_append_writeOthers first others
  obtain ⟨front', param, hparam, hwrite⟩ := action.write_eq_append (hparams action haction)
  obtain ⟨rule, hlexeme⟩ := (hprinted action haction).params param hparam
  have hlast : ∀ c ∈ ('|' :: ' ' :: (first.write ++ writeOthers others)).getLast?,
      Text.isBlank c = false := by
    have hend : '|' :: ' ' :: (first.write ++ writeOthers others) =
        '|' :: ' ' :: (front ++ front') ++ param.write := by
      rw [hactions, hwrite]
      simp
    rw [hend]
    exact getLast?_append_solid hlexeme.ne_nil
      (Rule.not_isBlank_getLast (Rule.scan_of_find? hlexeme.find))
  have hfirst : Scan.Stops Text.isBlank ('|' :: ' ' :: (first.write ++ writeOthers others)) :=
    Scan.stops_cons (by decide) _
  unfold Options.textOf
  split
  · rw [Text.trim, htext, String.toList_ofList, trimBlanks_eq_self hfirst hlast]
  · rw [htext]

/-! ## Actions that were read -/

namespace Query

/-- A text is read as a query if it is read as the tokens of the query. -/
theorem parse_eq_ok_iff (options : Options) (input : String) (q : Query) :
    parse options input = .ok q ↔
      q.WellFormed ∧ ReadsAs options.validate (options.textOf input).toList q.tokens := by
  have hitems := @readsAs_iff_items q.tokens
    ((Lexer.start (options.textOf input)).withValidation options.validate) rfl
  rw [parse_eq_ofLexer]
  constructor
  · intro h
    obtain ⟨hwell, read, hread, htokens⟩ := tokens_of_ofLexer rfl h
    exact ⟨hwell, hitems.mpr ⟨read, hread, htokens.symm⟩⟩
  · rintro ⟨hwell, hreads⟩
    obtain ⟨read, hread, htokens⟩ := hitems.mp hreads
    exact ofLexer_of_tokens rfl hread hwell htokens.symm

theorem exists_tokens_eq {q : Query} {action : Action} (h : action ∈ q.actions) :
    ∃ front back, q.tokens = front ++ (action.tokens ++ back) := by
  obtain ⟨filter, actions⟩ := q
  cases actions with
  | nil => cases h
  | cons first others =>
      rcases List.mem_cons.mp h with rfl | h
      · exact ⟨filterTokens filter ++ [.mark .pipe], others.flatMap fun other =>
          .mark .semicolon :: other.tokens, by simp [tokens, actionTokens, writeSeparated]⟩
      · obtain ⟨front, back, rfl⟩ := List.append_of_mem h
        exact ⟨filterTokens filter ++ .mark .pipe :: (first.tokens ++ ((front.flatMap fun other =>
          .mark .semicolon :: other.tokens) ++ [.mark .semicolon])), back.flatMap fun other =>
          .mark .semicolon :: other.tokens, by simp [tokens, actionTokens, writeSeparated]⟩

/-- Each token of an action was read from a word. -/
theorem exists_startsWith_of_action {q : Query} {cs : List Char}
    (h : ReadsAs validate cs q.tokens) {action : Action} (haction : action ∈ q.actions)
    (htoken : token ∈ action.tokens) :
    ∃ cs text rest, StartsWith validate cs token text rest := by
  obtain ⟨front, back, htokens⟩ := exists_tokens_eq haction
  apply h.exists_startsWith_of_mem
  rw [htokens]
  exact List.mem_append_right front (List.mem_append_left back htoken)

/-- What a text was read as prints as itself, if its literals do. -/
theorem isPrinted_of_readsAs {q : Query} {cs : List Char} (h : ReadsAs validate cs q.tokens)
    {action : Action} (haction : action ∈ q.actions)
    (hprints : ∀ literal, .literal literal ∈ action.params → literal.SelfPrinting validate) :
    action.IsPrinted validate := by
  constructor
  · have htoken : Token.actionKey action.key ∈ action.tokens := List.mem_cons_self
    obtain ⟨cs, text, rest, hkey⟩ := exists_startsWith_of_action h haction htoken
    exact hkey.lexeme_actionKey
  · intro param hparam
    have htoken : param.token ∈ action.tokens :=
      List.mem_cons_of_mem _ (List.mem_map_of_mem hparam)
    obtain ⟨cs, text, rest, hstarts⟩ := exists_startsWith_of_action h haction htoken
    cases param with
    | key name => exact ⟨.identifier, StartsWith.lexeme_key hstarts⟩
    | literal literal =>
        have hkind := (hprints literal hparam).showsKind hstarts
        exact lexeme_of_startsWith hstarts hkind
  · obtain ⟨front, back, htokens⟩ := exists_tokens_eq haction
    have hchain := h.isChain_apart
    rw [htokens] at hchain
    exact hchain.right_of_append.left_of_append.tail

theorem selfPrinting_of_readsAs {q : Query} {cs : List Char} (h : ReadsAs validate cs q.tokens)
    {action : Action} (haction : action ∈ q.actions) {literal : Literal}
    (hliteral : .literal literal ∈ action.params) (hkind : literal.showsKind = true) :
    literal.SelfPrinting validate := by
  have htoken : Token.literal literal ∈ action.tokens :=
    List.mem_cons_of_mem _ (List.mem_map_of_mem (f := Param.token) hliteral)
  obtain ⟨cs, text, rest, hword⟩ := exists_startsWith_of_action h haction htoken
  exact selfPrinting_of_startsWith hword hkind

/-- Take a query that was read from a text, with literals that each print as themselves.
Its actions by themselves, printed and read again with the same options, are the same
actions, unless a time stands behind a date in one of them; and then they are not. -/
theorem parse_display_actions (options : Options) (input : String) (q : Query)
    (hparse : parse options input = .ok q)
    (hprints : ∀ action ∈ q.actions, ∀ literal, .literal literal ∈ action.params →
      literal.SelfPrinting options.validate) :
    parse options (display ⟨none, q.actions⟩) = .ok ⟨none, q.actions⟩ ↔
      ∀ action ∈ q.actions,
        action.params.IsChain fun param next => param.mergesWith next = false := by
  obtain ⟨hwell, hreads⟩ := (parse_eq_ok_iff options input q).mp hparse
  have hprinted : ∀ action ∈ q.actions, action.IsPrinted options.validate :=
    fun action haction => isPrinted_of_readsAs hreads haction (hprints action haction)
  have hparams := hwell.actions
  have hwell' : WellFormed ⟨none, q.actions⟩ := ⟨by simp, hparams⟩
  rw [parse_eq_ok_iff]
  simp only [hwell', true_and]
  generalize q.actions = actions at hprinted hparams
  cases actions with
  | nil =>
      have htext : options.textOf (display ⟨none, []⟩) = "" := by
        unfold Options.textOf
        split <;> rfl
      rw [htext]
      simp [tokens, filterTokens, actionTokens, readsAs_nil_iff, Text.dropBlanks]
  | cons first others =>
      have htext : options.textOf (display ⟨none, first :: others⟩) =
          String.ofList ('|' :: ' ' :: (first.write ++ writeOthers others)) :=
        textOf_writeActions options hprinted hparams
      have hmark : StartsWith options.validate
          ('|' :: ' ' :: (first.write ++ writeOthers others)) (.mark .pipe) ['|']
          (' ' :: (first.write ++ writeOthers others)) := startsWith_mark .pipe _
      rw [htext, String.toList_ofList]
      show ReadsAs options.validate _ (.mark .pipe :: writeSeparated (.mark .semicolon)
        Action.tokens (first :: others)) ↔ _
      rw [hmark.readsAs_iff]
      exact readsAs_actions hprinted

theorem parse_display_actions_between : ∃ q,
    parse {} "k == 1 | :a 1.50 2020-01-01 'b' 9:30 am; :c d" = .ok q ∧
      (∀ action ∈ q.actions, ∀ literal, .literal literal ∈ action.params →
        literal.SelfPrinting false) ∧
      parse {} (display ⟨none, q.actions⟩) = .ok ⟨none, q.actions⟩ := by
  have hread : (parse {} "k == 1 | :a 1.50 2020-01-01 'b' 9:30 am; :c d").toOption.any
      (fun q => q.actions.all fun action => action.params.all Param.showsKind &&
        decide (action.params.IsChain fun param next => param.mergesWith next = false)) =
      true := by decide +kernel
  cases hparse : parse {} "k == 1 | :a 1.50 2020-01-01 'b' 9:30 am; :c d" with
  | error error =>
      rw [hparse] at hread
      cases hread
  | ok q =>
      rw [hparse] at hread
      simp only [Except.toOption, Option.any_some, List.all_eq_true, Bool.and_eq_true,
        decide_eq_true_eq] at hread
      have hprints : ∀ action ∈ q.actions, ∀ literal, .literal literal ∈ action.params →
          literal.SelfPrinting false := by
        intro action haction literal hliteral
        have hkind := (hread action haction).1 _ hliteral
        have hreads := ((parse_eq_ok_iff _ _ q).mp hparse).2
        exact selfPrinting_of_readsAs hreads haction hliteral hkind
      exact ⟨q, rfl, hprints, (parse_display_actions {} _ q hparse hprints).mpr
        fun action haction => (hread action haction).2⟩

/-- Nothing stands between the date and the time, so they are read apart; printed with a
space between them they are one token. -/
theorem parse_display_actions_date_time :
    parse {} "| :a 2020-01-019:30" =
        .ok ⟨none, [⟨":a", [.literal (.date "2020-01-01"), .literal (.time "9:30")]⟩]⟩ ∧
      Literal.SelfPrinting false (.date "2020-01-01") ∧
      Literal.SelfPrinting false (.time "9:30") ∧
      parse {} (display
          ⟨none, [⟨":a", [.literal (.date "2020-01-01"), .literal (.time "9:30")]⟩]⟩) ≠
        .ok ⟨none, [⟨":a", [.literal (.date "2020-01-01"), .literal (.time "9:30")]⟩]⟩ := by
  refine ⟨?_, ?_, ?_, ?_⟩
  · refine (parse_eq_ok_iff _ _ _).mpr ⟨⟨by simp, by simp⟩, ?_⟩
    iterate 4 refine (readsAs_cons_iff fun _ => rfl).mpr ?_
    exact readsAs_nil_iff.mpr rfl
  · have hdate : StartsWith false "2020-01-01".toList (.literal (.date "2020-01-01"))
        "2020-01-01".toList [] := fun _ => rfl
    exact selfPrinting_of_startsWith hdate rfl
  · have htime : StartsWith false "9:30".toList (.literal (.time "9:30")) "9:30".toList [] :=
      fun _ => rfl
    exact selfPrinting_of_startsWith htime rfl
  · have hmerged : parse {} (display
        ⟨none, [⟨":a", [.literal (.date "2020-01-01"), .literal (.time "9:30")]⟩]⟩) =
        .ok ⟨none, [⟨":a", [.literal (.dateTime "2020-01-01 9:30")]⟩]⟩ := by
      refine (parse_eq_ok_iff _ _ _).mpr ⟨⟨by simp, by simp⟩, ?_⟩
      iterate 3 refine (readsAs_cons_iff fun _ => rfl).mpr ?_
      exact readsAs_nil_iff.mpr rfl
    rw [hmerged]
    simp

end Query

end RecordQuery
