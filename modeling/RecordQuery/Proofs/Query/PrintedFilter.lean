import RecordQuery.Proofs.Filter.Recursion
import RecordQuery.Proofs.Query.Printed

/-!
# Filters as they are printed

A printed filter is its key, its comparison and its operand with one space between them.
No token can take anything across these spaces, since keys and comparisons have no white
space inside them.  The items of a list have a comma or the closing bracket behind them,
and neither continues a literal.

So a filter of a query that was read, printed by itself, is read as this filter
(`parse_filter_display`), provided that its literals are: there are none that merge, as
there are among the parameters of an action.
-/

namespace RecordQuery

variable {validate : Bool} {rule : Rule} {text ds : List Char} {token : Token}
  {tokens : List Token}

/-! ## Words in front of marks and spaces -/

/-- A mark stops every lexeme. -/
theorem Lexeme.startsWith_mark (h : Lexeme validate rule text token) (mark : Mark)
    (ds : List Char) :
    StartsWith validate (text ++ mark.char :: ds) token text (mark.char :: ds) :=
  startsWith_of_find? (Rule.find?_mark h.find mark ds) h.convert

/-- A word that is neither a date nor a time ends in front of a space. -/
theorem Lexeme.startsWith_plain (h : Lexeme validate rule text token)
    (hrule : rule ≠ .date ∧ rule ≠ .time ∧ rule ≠ .dateTime) (ds : List Char) :
    StartsWith validate (text ++ ' ' :: ds) token text (' ' :: ds) :=
  startsWith_of_find? (Rule.find?_space h.find hrule ds) h.convert

/-- The spelling of a comparison is the comparison and nothing else. -/
theorem lexeme_comparison (operator : Comparison) :
    ∃ rule, (rule = .operator ∨ rule = .identifier) ∧
      Lexeme validate rule operator.spelling.toList (.comparison operator) := by
  have hsymbol : ∀ operator : Comparison,
      Rule.find? operator.spelling.toList = some (.operator, operator.spelling.toList, []) →
        Lexeme validate .operator operator.spelling.toList (.comparison operator) := by
    intro operator hfind
    refine ⟨hfind, ?_⟩
    rw [Rule.convert, String.ofList_toList, Comparison.ofSpelling?_spelling]
  -- two comparisons are names of the keyword table, the others start with a symbol
  cases operator with
  | contains => exact ⟨.identifier, Or.inr rfl, by decide +kernel, rfl⟩
  | isIn => exact ⟨.identifier, Or.inr rfl, by decide +kernel, rfl⟩
  | _ => exact ⟨.operator, Or.inl rfl, hsymbol _ (by decide +kernel)⟩

theorem startsWith_comparison (operator : Comparison) (ds : List Char) :
    StartsWith validate (operator.spelling.toList ++ ' ' :: ds) (.comparison operator)
      operator.spelling.toList (' ' :: ds) := by
  obtain ⟨rule, hrule, hlexeme⟩ := @lexeme_comparison validate operator
  rcases hrule with rfl | rfl
  · exact hlexeme.startsWith_plain (by simp) ds
  · exact hlexeme.startsWith_plain (by simp) ds

/-! ## Operands -/

/-- The literals of an operand. -/
def Operand.literals : Operand → List Literal
  | scalar literal => [literal]
  | list items => items

/-- The text of a literal is the literal and nothing else. -/
def Literal.IsPrinted (validate : Bool) (literal : Literal) : Prop :=
  ∃ rule, Lexeme validate rule literal.write (.literal literal)

/-- The items behind the first one as they are printed. -/
def writeItems (items : List Literal) : List Char :=
  items.flatMap fun literal => ',' :: ' ' :: literal.write

/-- An item of a list is read in front of a comma or the closing bracket. -/
theorem startsWith_item {literal : Literal} (h : literal.IsPrinted validate)
    (items : List Literal) :
    StartsWith validate (literal.write ++ (writeItems items ++ [']'])) (.literal literal)
      literal.write (writeItems items ++ [']']) := by
  obtain ⟨rule, hlexeme⟩ := h
  cases items with
  | nil => exact hlexeme.startsWith_mark .closeBracket []
  | cons next items => exact hlexeme.startsWith_mark .comma _

theorem readsAs_items {first : Literal} {others : List Literal}
    (h : ∀ literal ∈ first :: others, literal.IsPrinted validate) :
    ReadsAs validate (first.write ++ (writeItems others ++ [']']))
      (writeSeparated (.mark .comma) (fun literal => [.literal literal]) (first :: others) ++
        [.mark .closeBracket]) := by
  induction others generalizing first with
  | nil =>
      have hfirst := startsWith_item (h first List.mem_cons_self) []
      have hclose : StartsWith validate [']'] (.mark .closeBracket) [']'] [] :=
        startsWith_mark .closeBracket []
      exact hfirst.readsAs_iff.mpr (hclose.readsAs_iff.mpr (readsAs_nil_iff.mpr rfl))
  | cons second others ih =>
      have hothers := ih fun literal hliteral => h literal (List.mem_cons_of_mem first hliteral)
      have hfirst := startsWith_item (h first List.mem_cons_self) (second :: others)
      have hsecond := startsWith_item (h second (by simp)) others
      have hcomma : StartsWith validate (writeItems (second :: others) ++ [']'])
          (.mark .comma) [','] (' ' :: (second.write ++ (writeItems others ++ [']']))) := by
        have hmark := @startsWith_mark validate .comma
          (' ' :: (second.write ++ (writeItems others ++ [']'])))
        simpa [writeItems, Mark.char] using hmark
      -- the first item, its comma, and behind the space the other items
      refine hfirst.readsAs_iff.mpr (hcomma.readsAs_iff.mpr ?_)
      exact hsecond.readsAs_space_iff.mpr (hsecond.readsAs_iff.mp hothers)

/-- A printed operand is read again. -/
theorem readsAs_operand {operand : Operand}
    (h : ∀ literal ∈ operand.literals, literal.IsPrinted validate) :
    ReadsAs validate (' ' :: operand.write) operand.tokens := by
  cases operand with
  | scalar literal =>
      obtain ⟨rule, hlexeme⟩ := h literal (List.mem_singleton_self literal)
      exact hlexeme.startsWith.readsAs_space_iff.mpr (readsAs_nil_iff.mpr rfl)
  | list items =>
      have hopen : StartsWith validate (Operand.list items).write (.mark .openBracket) ['[']
          ([',', ' '].intercalate (items.map Literal.write) ++ [']']) :=
        startsWith_mark .openBracket _
      refine hopen.readsAs_space_iff.mpr ?_
      cases items with
      | nil =>
          have hclose : StartsWith validate [']'] (.mark .closeBracket) [']'] [] :=
            startsWith_mark .closeBracket []
          exact hclose.readsAs_iff.mpr (readsAs_nil_iff.mpr rfl)
      | cons first others =>
          rw [intercalate_map_cons, List.append_assoc]
          exact readsAs_items h

/-! ## Filters -/

/-- The texts of a filter are its key and its literals, and nothing else. -/
structure Filter.IsPrinted (validate : Bool) (filter : Filter) : Prop where
  key : Lexeme validate .identifier filter.key.toList (.key filter.key)
  literals : ∀ literal ∈ filter.operand.literals, literal.IsPrinted validate

theorem Filter.IsPrinted.readsAs_write {filter : Filter} (h : filter.IsPrinted validate) :
    ReadsAs validate filter.write filter.tokens := by
  have hkey : StartsWith validate filter.write (.key filter.key) filter.key.toList
      (' ' :: (filter.operator.spelling.toList ++ ' ' :: filter.operand.write)) :=
    h.key.startsWith_plain (by simp) _
  have hoperator := @startsWith_comparison validate filter.operator filter.operand.write
  refine hkey.readsAs_iff.mpr (hoperator.readsAs_space_iff.mpr ?_)
  exact readsAs_operand h.literals

/-- The last character of a printed operand is the closing bracket or belongs to the
literal. -/
theorem not_isBlank_getLast_operand {operand : Operand}
    (h : ∀ literal ∈ operand.literals, literal.IsPrinted validate) :
    operand.write ≠ [] ∧ ∀ c ∈ operand.write.getLast?, Text.isBlank c = false := by
  cases operand with
  | scalar literal =>
      obtain ⟨rule, hlexeme⟩ := h literal (List.mem_singleton_self literal)
      exact ⟨hlexeme.ne_nil, Rule.not_isBlank_getLast (Rule.scan_of_find? hlexeme.find)⟩
  | list items =>
      refine ⟨List.cons_ne_nil _ _, fun c hc => ?_⟩
      have hlast : (Operand.list items).write.getLast? = some ']' := by
        rw [Operand.write, ← List.cons_append, List.getLast?_concat]
      rw [hlast] at hc
      cases hc
      decide

/-- A printed filter has no white space at its ends that could be left out. -/
theorem Filter.IsPrinted.textOf_write {filter : Filter} (h : filter.IsPrinted validate)
    (options : Options) :
    options.textOf (String.ofList filter.write) = String.ofList filter.write := by
  obtain ⟨hne, hsolid⟩ := not_isBlank_getLast_operand h.literals
  have hfirst : Scan.Stops Text.isBlank filter.write := by
    intro c hc
    apply h.key.stops_isBlank
    rwa [Filter.write, List.head?_append_of_ne_nil _ h.key.ne_nil] at hc
  have hlast : ∀ c ∈ filter.write.getLast?, Text.isBlank c = false := by
    have hend : filter.write = filter.key.toList ++ ' ' ::
        (filter.operator.spelling.toList ++ [' ']) ++ filter.operand.write := by
      simp [Filter.write]
    rw [hend]
    exact getLast?_append_solid hne hsolid
  unfold Options.textOf
  split
  · rw [Text.trim, String.toList_ofList, trimBlanks_eq_self hfirst hlast]
  · rfl

/-! ## Filters that were read -/

theorem FilterTree.exists_tokens_eq {tree : FilterTree} {filter : Filter}
    (h : filter ∈ tree.leaves) :
    ∃ front back, tree.tokens = front ++ (filter.tokens ++ back) := by
  induction tree with
  | leaf found =>
      obtain rfl := List.mem_singleton.mp h
      exact ⟨[], [], by simp [FilterTree.tokens]⟩
  | group inner ih =>
      obtain ⟨front, back, htokens⟩ := ih h
      refine ⟨.mark .openParen :: front, back ++ [.mark .closeParen], ?_⟩
      simp [FilterTree.tokens, htokens]
  | join left joiner right ihLeft ihRight =>
      rcases List.mem_append.mp h with h | h
      · obtain ⟨front, back, htokens⟩ := ihLeft h
        refine ⟨front, back ++ .joiner joiner :: right.tokens, ?_⟩
        simp [FilterTree.tokens, htokens]
      · obtain ⟨front, back, htokens⟩ := ihRight h
        refine ⟨left.tokens ++ .joiner joiner :: front, back, ?_⟩
        simp [FilterTree.tokens, htokens]

theorem Operand.token_mem_tokens {operand : Operand} {literal : Literal}
    (h : literal ∈ operand.literals) : .literal literal ∈ operand.tokens := by
  cases operand with
  | scalar found =>
      rw [List.mem_singleton.mp h]
      exact List.mem_singleton_self _
  | list items =>
      cases items with
      | nil => cases h
      | cons first others =>
          rcases List.mem_cons.mp h with rfl | h
          · simp [Operand.tokens, writeSeparated]
          · simp only [Operand.tokens, writeSeparated, List.mem_cons, List.mem_append,
              List.mem_flatMap]
            exact Or.inr (Or.inl (Or.inr ⟨literal, h, by simp⟩))

theorem Filter.token_mem_tokens {filter : Filter} {literal : Literal}
    (h : literal ∈ filter.operand.literals) : .literal literal ∈ filter.tokens :=
  List.mem_cons_of_mem _ (List.mem_cons_of_mem _ (Operand.token_mem_tokens h))

namespace Query

/-- Each token of a filter was read from a word. -/
theorem exists_startsWith_of_filter {q : Query} {tree : FilterTree} {filter : Filter}
    {cs : List Char} (h : ReadsAs validate cs q.tokens) (htree : q.filter = some tree)
    (hfilter : filter ∈ tree.leaves) (htoken : token ∈ filter.tokens) :
    ∃ cs text rest, StartsWith validate cs token text rest := by
  obtain ⟨front, back, htokens⟩ := FilterTree.exists_tokens_eq hfilter
  apply h.exists_startsWith_of_mem
  rw [tokens, htree, filterTokens, htokens]
  exact List.mem_append_left _ (List.mem_append_right front (List.mem_append_left back htoken))

/-- A filter of a query that was read prints as itself, if its literals do. -/
theorem isPrinted_filter {q : Query} {tree : FilterTree} {filter : Filter} {cs : List Char}
    (h : ReadsAs validate cs q.tokens) (htree : q.filter = some tree)
    (hfilter : filter ∈ tree.leaves)
    (hprints : ∀ literal ∈ filter.operand.literals, literal.SelfPrinting validate) :
    filter.IsPrinted validate := by
  constructor
  · have htoken : Token.key filter.key ∈ filter.tokens := List.mem_cons_self
    obtain ⟨cs, text, rest, hkey⟩ := exists_startsWith_of_filter h htree hfilter htoken
    exact hkey.lexeme_key
  · intro literal hliteral
    obtain ⟨cs, text, rest, hword⟩ :=
      exists_startsWith_of_filter h htree hfilter (Filter.token_mem_tokens hliteral)
    exact lexeme_of_startsWith hword ((hprints literal hliteral).showsKind hword)

/-- Take a query that was read from a text, and a filter of its tree whose literals each
print as themselves.  The filter by itself, printed and read again with the same options,
is a query without actions whose tree is this filter. -/
theorem parse_filter_display (options : Options) (input : String) (q : Query)
    (tree : FilterTree) (filter : Filter) (hparse : parse options input = .ok q)
    (htree : q.filter = some tree) (hfilter : filter ∈ tree.filters)
    (hprints : ∀ literal ∈ filter.operand.literals, literal.SelfPrinting options.validate) :
    parse options (filter.key ++ " " ++ filter.operator.spelling ++ " " ++
      filter.operand.display) = .ok ⟨some (.leaf filter), []⟩ := by
  have hreads := ((parse_eq_ok_iff options input q).mp hparse).2
  rw [FilterTree.filters_eq_leaves] at hfilter
  have hprinted := isPrinted_filter hreads htree hfilter hprints
  have htext : filter.key ++ " " ++ filter.operator.spelling ++ " " ++ filter.operand.display =
      String.ofList filter.write := by
    rw [← String.toList_inj]
    simp [Filter.write, Operand.display]
  rw [htext, parse_eq_ok_iff, hprinted.textOf_write, String.toList_ofList]
  refine ⟨⟨?_, by simp⟩, ?_⟩
  · intro found hfound
    cases hfound
    exact .part (.leaf filter)
  · rw [tokens, filterTokens, actionTokens, List.append_nil]
    exact hprinted.readsAs_write

theorem parse_filter_display_list : ∃ q tree filter,
    parse {} "(a.b !in ['x', 9:30 am, 2.50] or c == 1) | :d e" = .ok q ∧
    q.filter = some tree ∧ filter ∈ tree.filters ∧ filter.operand.literals.length = 3 ∧
    (∀ literal ∈ filter.operand.literals, literal.SelfPrinting false) ∧
    parse {} (filter.key ++ " " ++ filter.operator.spelling ++ " " ++ filter.operand.display) =
      .ok ⟨some (.leaf filter), []⟩ := by
  have hread : (parse {} "(a.b !in ['x', 9:30 am, 2.50] or c == 1) | :d e").toOption.any
      (fun q => q.filter.any fun tree => tree.leaves.any fun filter =>
        filter.operand.literals.length == 3 &&
          filter.operand.literals.all Literal.showsKind) = true := by decide +kernel
  cases hparse : parse {} "(a.b !in ['x', 9:30 am, 2.50] or c == 1) | :d e" with
  | error error =>
      rw [hparse] at hread
      cases hread
  | ok q =>
      rw [hparse] at hread
      rw [Except.toOption, Option.any_some] at hread
      obtain ⟨tree, htree, hany⟩ := (Option.any_eq_true _ _).mp hread
      obtain ⟨filter, hleaf, hlist⟩ := List.any_eq_true.mp hany
      rw [Bool.and_eq_true, beq_iff_eq, List.all_eq_true] at hlist
      have hfilter : filter ∈ tree.filters := by rwa [FilterTree.filters_eq_leaves]
      have hreads := ((parse_eq_ok_iff _ _ q).mp hparse).2
      have hprints : ∀ literal ∈ filter.operand.literals, literal.SelfPrinting false := by
        intro literal hliteral
        obtain ⟨cs, text, rest, hword⟩ :=
          exists_startsWith_of_filter hreads htree hleaf (Filter.token_mem_tokens hliteral)
        exact selfPrinting_of_startsWith hword (hlist.2 literal hliteral)
      exact ⟨q, tree, filter, rfl, htree, hfilter, hlist.1, hprints,
        parse_filter_display {} _ q tree filter hparse htree hfilter hprints⟩

end Query

end RecordQuery
