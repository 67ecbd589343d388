import RecordQuery.Proofs.Filter.Groups
import RecordQuery.Proofs.Query.Joined

/-!
# Parentheses around the first filters of a query

A chain is joined from the left.  So parentheses around its first filters put nothing
together that was not together before: the new text is read as the same chain, with one
group in it.

The parentheses are put right in front of the first key and right behind the last byte of
an operand.  An operand ends in a literal or a bracket, and neither has taken anything of
what stands behind it (`Lexer.Yields.insert_mark`), so all other tokens stay what they are.
-/

namespace RecordQuery

/-! ## The tokens of a chain -/

/-- The number of tokens of some filters that have joiners between them. -/
def Filter.tokenCount (filters : List Filter) : Nat :=
  (filters.flatMap Filter.tokens).length + (filters.length - 1)

theorem Operand.exists_tokens_eq (operand : Operand) :
    ∃ front last, operand.tokens = front ++ [last] ∧ last.EndsValue := by
  cases operand with
  | scalar literal => exact ⟨[], .literal literal, rfl, Or.inr ⟨literal, rfl⟩⟩
  | list items => exact ⟨_ :: _, .mark .closeBracket, rfl, Or.inl ⟨.closeBracket, rfl⟩⟩

namespace FilterTree

variable {tree : FilterTree} {count : Nat}

theorem leaves_ne_nil (tree : FilterTree) : tree.leaves ≠ [] := by
  induction tree with
  | leaf filter => exact List.cons_ne_nil filter []
  | group inner ih => exact ih
  | join left joiner right ihLeft ihRight => exact List.append_ne_nil_of_left_ne_nil ihLeft _

/-- Without groups, a chain of operands is one of plain filters. -/
theorem IsChain.of_groupFree (h : tree.IsChain IsOperand) (hfree : tree.GroupFree) :
    tree.IsChain IsFilter := by
  induction h with
  | part hpart =>
      cases hpart with
      | leaf filter => exact .part (.leaf filter)
      | group hinner => exact absurd hfree not_false
  | join joiner hleft hright ih =>
      cases hright with
      | leaf filter => exact .join joiner (ih hfree.1) (.leaf filter)
      | group hinner => exact absurd hfree.2 not_false

/-- A chain of filters ends in the literal or the bracket of its last operand. -/
theorem IsChain.exists_tokens_eq (h : tree.IsChain IsFilter) :
    ∃ front last, tree.tokens = front ++ [last] ∧ last.EndsValue := by
  have hfilter : ∀ filter : Filter, ∃ front last,
      filter.tokens = front ++ [last] ∧ last.EndsValue := by
    intro filter
    obtain ⟨front, last, hoperand, hlast⟩ := filter.operand.exists_tokens_eq
    exact ⟨.key filter.key :: .comparison filter.operator :: front, last,
      by rw [Filter.tokens, hoperand]; rfl, hlast⟩
  cases h with
  | part hpart =>
      cases hpart with
      | leaf filter => exact hfilter filter
  | @join left right joiner hleft hright =>
      cases hright with
      | leaf filter =>
          obtain ⟨front, last, htokens, hlast⟩ := hfilter filter
          refine ⟨left.tokens ++ .joiner joiner :: front, last, ?_, hlast⟩
          rw [tokens, tokens, htokens, List.append_assoc]
          rfl

theorem IsChain.length_tokens (h : tree.IsChain IsFilter) :
    tree.tokens.length = Filter.tokenCount tree.leaves := by
  induction h with
  | part hpart =>
      cases hpart with
      | leaf filter => simp [tokens, leaves, Filter.tokenCount]
  | @join left right joiner hleft hright ih =>
      cases hright with
      | leaf filter =>
          have hpos := List.length_pos_iff.mpr left.leaves_ne_nil
          simp only [tokens, leaves, Filter.tokenCount, List.length_append, List.length_cons,
            List.flatMap_append, List.flatMap_cons, List.flatMap_nil, List.length_nil, ih]
          omega

/-! ## Its first filters -/

theorem IsChain.first (h : tree.IsChain IsFilter) (count : Nat) :
    (tree.first count).IsChain IsFilter := by
  induction h with
  | part hpart =>
      cases hpart with
      | leaf filter => exact .part (.leaf filter)
  | join joiner hleft hright ih =>
      rw [FilterTree.first]
      split
      · exact ih
      · exact .join joiner hleft hright

theorem IsChain.leaves_first (h : tree.IsChain IsFilter) (hpos : 1 ≤ count)
    (hle : count ≤ tree.leaves.length) : (tree.first count).leaves = tree.leaves.take count := by
  induction h with
  | part hpart =>
      cases hpart with
      | leaf filter => exact (List.take_of_length_le (show [filter].length ≤ count from hpos)).symm
  | @join left right joiner hleft hright ih =>
      cases hright with
      | leaf filter =>
          rw [FilterTree.first]
          split
          · next hleft' => rw [ih hleft', leaves, List.take_append_of_le_length hleft']
          · next hlong =>
              refine (List.take_of_length_le ?_).symm
              simp only [leaves, List.length_append, List.length_cons, List.length_nil]
              omega

theorem IsChain.groupFirst (h : tree.IsChain IsFilter) (count : Nat) :
    (tree.groupFirst count).IsChain IsOperand := by
  induction h with
  | part hpart =>
      cases hpart with
      | leaf filter => exact .part (.group (.part (.leaf filter)))
  | join joiner hleft hright ih =>
      cases hright with
      | leaf filter =>
          rw [FilterTree.groupFirst]
          split
          · exact .join joiner ih (.leaf filter)
          · exact .part (.group (.join joiner hleft (.leaf filter)))

/-- The group is written as two parentheses around the first filters. -/
theorem tokens_groupFirst (count : Nat) (tree : FilterTree) :
    ∃ others, tree.tokens = (tree.first count).tokens ++ others ∧
      (tree.groupFirst count).tokens =
        .mark .openParen :: ((tree.first count).tokens ++ .mark .closeParen :: others) := by
  induction tree with
  | leaf filter => exact ⟨[], (List.append_nil _).symm, rfl⟩
  | group inner ih => exact ⟨[], (List.append_nil _).symm, rfl⟩
  | join left joiner right ihLeft ihRight =>
      rw [first, groupFirst]
      split
      · obtain ⟨others, htokens, hgrouped⟩ := ihLeft
        refine ⟨others ++ .joiner joiner :: right.tokens, ?_, ?_⟩
        · rw [tokens, htokens, List.append_assoc]
        · rw [tokens, hgrouped]
          simp
      · exact ⟨[], (List.append_nil _).symm, rfl⟩

end FilterTree

/-! ## The text with parentheses -/

namespace Lexer

variable {validate : Bool} {place : Text.Place} {cs : List Char}

/-- The first token stands behind the white space of its text. -/
theorem Yields.offset_first {first : Spanned} {items : List (Except LexError Spanned)}
    (h : Yields validate place cs (.ok first :: items)) :
    first.place.offset = place.offset + Text.byteLength (cs.takeWhile Text.isBlank) := by
  cases h with
  | reads hword hrest => exact Text.offset_advance _ _

/-- A text is split in front of its first token and behind one that ends a value, so that
a mark can be put there. -/
theorem Yields.exists_split {tokens : List Spanned} {init behind : List Token} {token : Token}
    (h : Yields validate .start cs (tokens.map .ok))
    (htokens : tokens.map Spanned.token = init ++ token :: behind) (hends : token.EndsValue)
    (mark : Mark) :
    ∃ first last front back, tokens[0]? = some first ∧ tokens[init.length]? = some last ∧
      cs.takeWhile Text.isBlank ++ front ++ back = cs ∧
      Text.byteLength (cs.takeWhile Text.isBlank) = first.place.offset ∧
      Text.byteLength (cs.takeWhile Text.isBlank ++ front) = last.place.offset + last.length ∧
      ReadsAs validate (front ++ mark.char :: back) (init ++ token :: .mark mark :: behind) := by
  obtain ⟨left, right, hsplit, hleft, hright⟩ := List.map_eq_append_iff.mp htokens
  obtain ⟨last, after, hafter, hlast, hbehind⟩ := List.map_eq_cons_iff.mp hright
  rw [hafter] at hsplit
  rw [← hlast] at hends
  obtain ⟨first, more, hfirst⟩ := List.exists_cons_of_ne_nil
    (show tokens ≠ [] by rw [hsplit]; simp)
  have hoffset := Yields.offset_first (by rw [hfirst] at h; exact h)
  rw [hsplit] at h
  obtain ⟨front, back, hdrop, -, -, hextent, hmarked⟩ := h.insert_mark hends mark
  rw [hleft, hlast, hbehind] at hmarked
  refine ⟨first, last, front, back, by rw [hfirst]; rfl, ?_, ?_, ?_, ?_, hmarked⟩
  · rw [hsplit, ← hleft, List.length_map, List.getElem?_append_right le_rfl, Nat.sub_self]
    rfl
  · rw [List.append_assoc, ← hdrop, Text.takeWhile_append_dropBlanks]
  · rw [hoffset]
    exact (Nat.zero_add _).symm
  · rw [← hextent]
    exact (Nat.zero_add _).symm

end Lexer

namespace Query

variable {options : Options} {input : String} {tree : FilterTree} {actions : List Action}

/-- A text of filters is read with a group around the first ones, where parentheses stand
around their text. -/
theorem parse_groupFirst {gap front back : List Char} (count : Nat)
    (hwell : (Query.mk (some tree) actions).WellFormed) (hfree : tree.GroupFree)
    (hgap : ∀ c ∈ gap, Text.isBlank c = true) {others : List Token}
    (htokens : (tree.groupFirst count).tokens =
      .mark .openParen :: ((tree.first count).tokens ++ .mark .closeParen :: others))
    (hreads : ReadsAs options.validate (front ++ Mark.closeParen.char :: back)
      ((tree.first count).tokens ++ .mark .closeParen :: (others ++ actionTokens actions))) :
    parse options (String.ofList gap ++ "(" ++ String.ofList front ++ ")" ++ String.ofList back) =
      .ok ⟨some (tree.groupFirst count), actions⟩ := by
  have hchain := (hwell.filter tree rfl).of_groupFree hfree
  refine (parse_eq_ok_iff_readsAs _ _ _).mpr ⟨⟨?_, hwell.actions⟩, ?_⟩
  · intro grouped hgrouped
    cases hgrouped
    exact hchain.groupFirst count
  · have htext : (String.ofList gap ++ "(" ++ String.ofList front ++ ")" ++
        String.ofList back).toList =
          gap ++ Mark.openParen.char :: (front ++ Mark.closeParen.char :: back) := by
      simp [Mark.char]
    have hall : (Query.mk (some (tree.groupFirst count)) actions).tokens = .mark .openParen ::
        ((tree.first count).tokens ++ .mark .closeParen :: (others ++ actionTokens actions)) := by
      rw [Query.tokens, filterTokens, htokens]
      simp
    have hopen := @startsWith_mark options.validate .openParen
      (front ++ Mark.closeParen.char :: back)
    rw [htext, hall, readsAs_congr_dropBlanks (Text.dropBlanks_append_of_blank hgap _)]
    exact hopen.readsAs_iff.mpr hreads

/-- Take a text that is read as a query whose tree has no group, and some of the first
filters of that tree.  The tokens of the text are those of the query, and a parenthesis can
be put right in front of the first of them and another one right behind the last token of
the last of these filters.  The new text is read as a query with the same actions and a
tree that is not equal to the first one and that nothing which reads a tree as a whole
tells from it. -/
theorem parse_parenthesized (options : Options) (input : String) (tree : FilterTree)
    (actions : List Action) (count : Nat) (hparse : parse options input = .ok ⟨some tree, actions⟩)
    (hfree : tree.GroupFree) (hpos : 1 ≤ count) (hle : count ≤ tree.filters.length) :
    ∃ (tokens : List Spanned) (first last : Spanned) (before inside behind : String)
        (grouped : FilterTree),
      ((Lexer.start input).withValidation options.validate).items = tokens.map .ok ∧
      tokens.map Spanned.token = (Query.mk (some tree) actions).tokens ∧
      tokens[0]? = some first ∧
      tokens[Filter.tokenCount (tree.filters.take count) - 1]? = some last ∧
      input = before ++ inside ++ behind ∧
      before.utf8ByteSize = first.place.offset ∧
      (before ++ inside).utf8ByteSize = last.place.offset + last.length ∧
      parse options (before ++ "(" ++ inside ++ ")" ++ behind) = .ok ⟨some grouped, actions⟩ ∧
      (grouped == tree) = false ∧ grouped.Indistinguishable tree := by
  obtain ⟨hwell, hreads⟩ := (parse_eq_ok_iff_readsAs _ _ _).mp hparse
  have hchain := (hwell.filter tree rfl).of_groupFree hfree
  obtain ⟨tokens, hyields, htokens⟩ := (readsAs_iff_yields .start).mp hreads
  rw [FilterTree.filters_eq_leaves] at hle ⊢
  obtain ⟨others, hothers, hgrouped⟩ := FilterTree.tokens_groupFirst count tree
  obtain ⟨init, lastToken, hinit, hends⟩ := (hchain.first count).exists_tokens_eq
  have hsplit : tokens.map Spanned.token =
      init ++ lastToken :: (others ++ actionTokens actions) := by
    rw [htokens, Query.tokens, filterTokens, hothers, hinit]
    simp
  have hlength : Filter.tokenCount (tree.leaves.take count) - 1 = init.length := by
    rw [← hchain.leaves_first hpos hle, ← (hchain.first count).length_tokens, hinit]
    simp
  obtain ⟨first, last, front, back, hfirst, hlast, htext, hbefore, hextent, hmarked⟩ :=
    hyields.exists_split hsplit hends .closeParen
  have hinside : init ++ lastToken :: .mark .closeParen :: (others ++ actionTokens actions) =
      (tree.first count).tokens ++ .mark .closeParen :: (others ++ actionTokens actions) := by
    rw [hinit]
    simp
  rw [hinside] at hmarked
  have hgap : ∀ c ∈ input.toList.takeWhile Text.isBlank, Text.isBlank c = true :=
    fun c hc => List.mem_takeWhile_imp hc
  refine ⟨tokens, first, last, String.ofList (input.toList.takeWhile Text.isBlank),
    String.ofList front, String.ofList back, tree.groupFirst count,
    yields_start_iff.mp hyields, htokens, hfirst, by rw [hlength, hlast], ?_, ?_, ?_,
    parse_groupFirst count hwell hfree hgap hgrouped hmarked, tree.groupFirst_beq count,
    tree.indistinguishable_groupFirst count⟩
  · rw [← String.ofList_append, ← String.ofList_append, htext, String.ofList_toList]
  · rw [Text.utf8ByteSize_ofList, hbefore]
  · rw [← String.ofList_append, Text.utf8ByteSize_ofList, hextent]

/-- Two of three filters get parentheses, the second of which stands behind a list. -/
theorem parse_parenthesized_list : ∃ tree before inside behind grouped,
    parse {} "a == 'x' or b in ['y'] and c == 'z'" = .ok ⟨some tree, []⟩ ∧
    tree.GroupFree ∧ 2 ≤ tree.filters.length ∧
    "a == 'x' or b in ['y'] and c == 'z'" = before ++ inside ++ behind ∧
    parse {} (before ++ "(" ++ inside ++ ")" ++ behind) = .ok ⟨some grouped, []⟩ ∧
    (grouped == tree) = false ∧ grouped.Indistinguishable tree := by
  have hflat : (parse {} "a == 'x' or b in ['y'] and c == 'z'").toOption.any (fun q =>
      q.filter.any (fun tree => decide (tree.GroupFree ∧ 2 ≤ tree.leaves.length)) &&
        q.actions.isEmpty) = true := by
    decide +kernel
  obtain ⟨tree, hparse, hcheck⟩ := exists_filters_of_any hflat
  obtain ⟨hfree, hle⟩ := of_decide_eq_true hcheck
  rw [← FilterTree.filters_eq_leaves] at hle
  obtain ⟨-, -, -, before, inside, behind, grouped, -, -, -, -, htext, -, -, hgrouped, hbeq,
    hsame⟩ := parse_parenthesized {} _ tree [] 2 hparse hfree (by decide) hle
  exact ⟨tree, before, inside, behind, grouped, hparse, hfree, hle, htext, hgrouped, hbeq, hsame⟩

end Query

end RecordQuery
