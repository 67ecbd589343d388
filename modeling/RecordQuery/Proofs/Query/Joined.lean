import RecordQuery.Proofs.Query.PrintedFilter
import RecordQuery.Proofs.Token.Truncation

/-!
# Queries with a joiner between them

Two texts that are filters by themselves can be joined: a joiner is put between them, with
a space on both sides.  The tree of the second text is not kept as a whole.  Chains are
joined from the left, so the first text goes to the first operand of the second one
(`FilterTree.graft`), and neither joiner binds more tightly than the other.  A text that is
actions by itself can be put behind filters in the same way.

That the texts are read one behind the other is a matter of tokens: a joiner and a bar are
nothing that a date or a time could go on with (`readsAs_joined`, `readsAs_followed`).
What the tokens make is then settled by the trees, since a query is read as the one tree
that is written as its tokens.  A chain of any length follows by induction over its links.
-/

namespace RecordQuery

variable {validate : Bool} {cs text rest front back : List Char} {tokens tokens' : List Token}

/-! ## Trees -/

namespace FilterTree

/-- A tree joined to the first operand of a chain. -/
def graft (left : FilterTree) (joiner : Joiner) : FilterTree → FilterTree
  | join first next last => join (graft left joiner first) next last
  | leaf filter => join left joiner (leaf filter)
  | group inner => join left joiner (group inner)

variable {left tree : FilterTree} {joiner : Joiner}

/-- The tokens of both trees stand one behind the other, with the joiner between them. -/
theorem tokens_graft : (graft left joiner tree).tokens =
    left.tokens ++ .joiner joiner :: tree.tokens := by
  induction tree with
  | leaf filter => rfl
  | group inner => rfl
  | join first next last ih => rw [graft, tokens, tokens, ih, List.append_assoc, List.cons_append]

theorem isChain_graft (hleft : left.IsChain IsOperand) (h : tree.IsChain IsOperand) :
    (graft left joiner tree).IsChain IsOperand := by
  induction h with
  | part hpart =>
      cases hpart with
      | leaf filter => exact .join joiner hleft (.leaf filter)
      | group hinner => exact .join joiner hleft (.group hinner)
  | join next _ hlast ih => exact .join next ih hlast

/-- A single operand is joined as it is. -/
theorem graft_operand (h : tree.joiner? = none) :
    graft left joiner tree = join left joiner tree := by
  cases tree with
  | leaf filter => rfl
  | group inner => rfl
  | join first next last => cases h

theorem exists_join_of_joiner? (h : tree.joiner? = some joiner) :
    ∃ first last, tree = join first joiner last := by
  cases tree with
  | leaf filter => cases h
  | group inner => cases h
  | join first next last =>
      cases h
      exact ⟨first, last, rfl⟩

end FilterTree

/-! ## Texts -/

theorem lexeme_joiner (joiner : Joiner) :
    Lexeme validate .identifier joiner.spelling.toList (.joiner joiner) := by
  cases joiner with
  | and => exact ⟨by decide +kernel, rfl⟩
  | or => exact ⟨by decide +kernel, rfl⟩

theorem readsAs_joiner (h : ReadsAs validate cs tokens) (joiner : Joiner) :
    ReadsAs validate (joiner.spelling.toList ++ ' ' :: cs) (.joiner joiner :: tokens) := by
  have hword := (@lexeme_joiner validate joiner).startsWith_plain (by simp) cs
  refine hword.readsAs_iff.mpr ((readsAs_congr_dropBlanks ?_).mp h)
  exact (dropBlanks_space cs).symm

theorem isBlank_of_mem_space : ∀ c ∈ [' '], Text.isBlank c = true := by
  intro c hc
  rw [List.mem_singleton.mp hc]
  decide

/-- Neither a time nor a half of the day starts like a joiner. -/
theorem readsAs_joined (h : ReadsAs validate front tokens) (hback : ReadsAs validate back tokens')
    (joiner : Joiner) :
    ReadsAs validate (front ++ ([' '] ++ (joiner.spelling.toList ++ ' ' :: back)))
      (tokens ++ .joiner joiner :: tokens') := by
  have hblank : Text.dropBlanks (joiner.spelling.toList ++ ' ' :: back) =
      joiner.spelling.toList ++ ' ' :: back :=
    (@lexeme_joiner validate joiner).dropBlanks_append _
  refine h.append (readsAs_joiner hback joiner) isBlank_of_mem_space (by simp) ?_ ?_
  · rw [← Rule.scanTime_eq_none_iff, hblank]
    cases joiner with
    | and => rfl
    | or => rfl
  · rw [← Rule.scanHalf_eq_none_iff]
    cases joiner with
    | and => rfl
    | or => rfl

theorem Rule.convert_ne_mark {rule : Rule} {mark : Mark} :
    rule.convert validate text ≠ .ok (.mark mark) := by
  intro h
  have hmade := convert_ok h
  cases rule with
  | identifier =>
      replace hmade : Token.mark mark = nameOrKeyword (String.ofList text) := hmade
      rcases nameOrKeyword_cases (String.ofList text) with hname | ⟨_, hname⟩ | ⟨_, hname⟩
      all_goals
        rw [hname] at hmade
        cases hmade
  | operator | number =>
      obtain ⟨_, hmade⟩ := hmade
      simp at hmade
  | _ => cases hmade

/-- What is read as a mark starts with it. -/
theorem StartsWith.eq_mark {mark : Mark} (h : StartsWith validate cs (.mark mark) text rest) :
    cs = mark.char :: rest := by
  rcases readToken_cases (h .start) with ⟨found, hfound, -, hcs⟩ | ⟨rule, -, hconvert⟩
  · cases hfound
    exact hcs
  · exact absurd hconvert Rule.convert_ne_mark

/-- Neither a time nor a half of the day starts with a mark. -/
theorem readsAs_followed {mark : Mark} (h : ReadsAs validate front tokens)
    (hback : ReadsAs validate back (.mark mark :: tokens')) :
    ReadsAs validate (front ++ ([' '] ++ back)) (tokens ++ .mark mark :: tokens') := by
  obtain ⟨text, rest, hword, -⟩ := hback.exists_startsWith
  have hmark := hword.eq_mark
  refine h.append hback isBlank_of_mem_space (by simp) ?_ ?_
  · rw [← Rule.scanTime_eq_none_iff, ← hword.dropBlanks_eq, hmark]
    exact Rule.scanTime_mark mark rest
  · rw [← Rule.scanHalf_eq_none_iff, ← Rule.scanHalf_dropBlanks, hmark]
    exact Rule.scanHalf_mark mark rest

/-! ## Queries -/

namespace Query

/-- White space at the ends of a text never matters to the query. -/
theorem parse_eq_ok_iff_readsAs (options : Options) (input : String) (q : Query) :
    parse options input = .ok q ↔
      q.WellFormed ∧ ReadsAs options.validate input.toList q.tokens := by
  rw [parse_eq_ok_iff, Options.textOf]
  split
  · rw [Text.trim, String.toList_ofList, readsAs_trimBlanks_iff]
  · rfl

theorem tokens_filters (tree : FilterTree) : (Query.mk (some tree) []).tokens = tree.tokens := by
  simp [Query.tokens, filterTokens, actionTokens]

variable {options : Options} {input front back : String} {left tree : FilterTree}
  {actions : List Action}

/-- A text is read as filters alone if it is read as the tokens of the tree. -/
theorem parse_eq_filters_iff : parse options input = .ok ⟨some tree, []⟩ ↔
    tree.IsChain FilterTree.IsOperand ∧ ReadsAs options.validate input.toList tree.tokens := by
  rw [parse_eq_ok_iff_readsAs, tokens_filters]
  refine and_congr_left' ⟨fun h => h.filter tree rfl, fun h => ⟨?_, by simp⟩⟩
  intro found hfound
  cases hfound
  exact h

/-- A filter text in front of another one goes to its first operand. -/
theorem parse_graft (hfront : parse options front = .ok ⟨some left, []⟩)
    (hback : parse options back = .ok ⟨some tree, []⟩) (joiner : Joiner) :
    parse options (front ++ " " ++ joiner.spelling ++ " " ++ back) =
      .ok ⟨some (.graft left joiner tree), []⟩ := by
  obtain ⟨hleft, hreads⟩ := parse_eq_filters_iff.mp hfront
  obtain ⟨htree, hreads'⟩ := parse_eq_filters_iff.mp hback
  have hjoined := readsAs_joined hreads hreads' joiner
  rw [parse_eq_filters_iff, FilterTree.tokens_graft]
  exact ⟨FilterTree.isChain_graft hleft htree, by simpa using hjoined⟩

/-- Actions behind a filter text are the actions of its query. -/
theorem parse_followed (hfront : parse options front = .ok ⟨some left, []⟩)
    (hback : parse options back = .ok ⟨none, actions⟩) (hne : actions ≠ []) :
    parse options (front ++ " " ++ back) = .ok ⟨some left, actions⟩ := by
  obtain ⟨hleft, hreads⟩ := parse_eq_filters_iff.mp hfront
  obtain ⟨hwell, hreads'⟩ := (parse_eq_ok_iff_readsAs _ _ _).mp hback
  refine (parse_eq_ok_iff_readsAs _ _ _).mpr ⟨⟨?_, hwell.actions⟩, ?_⟩
  · intro tree htree
    cases htree
    exact hleft
  · cases actions with
    | nil => exact absurd rfl hne
    | cons first others =>
        have hjoined : ReadsAs options.validate (front.toList ++ ([' '] ++ back.toList))
            (left.tokens ++ actionTokens (first :: others)) := readsAs_followed hreads hreads'
        simpa [Query.tokens, filterTokens] using hjoined

/-! ## Chains -/

/-- One more operand of a chain: its joiner, its text, and the tree that the text is. -/
structure Link where
  joiner : Joiner
  text : String
  tree : FilterTree

/-- The text of a link is read as its tree, and the tree is a filter or a group. -/
structure Link.Reads (options : Options) (link : Link) : Prop where
  parse : parse options link.text = .ok ⟨some link.tree, []⟩
  operand : link.tree.joiner? = none

/-- A text with the texts of some links behind it. -/
def joinTexts (front : String) (links : List Link) : String :=
  links.foldl (fun text link => text ++ " " ++ link.joiner.spelling ++ " " ++ link.text) front

/-- A chain of texts is read as the chain of their trees. -/
theorem parse_joinTexts {links : List Link} (hfront : parse options front = .ok ⟨some left, []⟩)
    (hlinks : ∀ link ∈ links, link.Reads options) :
    parse options (joinTexts front links) =
      .ok ⟨some (left.chain (links.map fun link => (link.joiner, link.tree))), []⟩ := by
  induction links generalizing front left with
  | nil => exact hfront
  | cons link links ih =>
      rw [List.forall_mem_cons] at hlinks
      obtain ⟨hlink, hlinks⟩ := hlinks
      have hjoined := parse_graft hfront hlink.parse link.joiner
      rw [FilterTree.graft_operand hlink.operand] at hjoined
      exact ih hjoined hlinks

/-- Take a text that is read as filters without actions; its tree is a chain that is joined
from the left.

* Behind it, a joiner and another such text are read as the chain of that text with the
  first tree joined to its first operand.
* Behind it, a text of actions is read as the actions of its filters.
* Behind it, the texts of any number of filters and groups, each with its joiner, are joined
  to it one after the other. -/
theorem parse_joined (options : Options) (front : String) (left : FilterTree)
    (hfront : parse options front = .ok ⟨some left, []⟩) :
    left.IsChain FilterTree.IsOperand ∧
    (∀ (joiner : Joiner) (back : String) (tree : FilterTree),
      parse options back = .ok ⟨some tree, []⟩ →
        parse options (front ++ " " ++ joiner.spelling ++ " " ++ back) =
          .ok ⟨some (.graft left joiner tree), []⟩) ∧
    (∀ (back : String) (actions : List Action), actions ≠ [] →
      parse options back = .ok ⟨none, actions⟩ →
        parse options (front ++ " " ++ back) = .ok ⟨some left, actions⟩) ∧
    ∀ links : List Link, (∀ link ∈ links, link.Reads options) →
      parse options (joinTexts front links) =
        .ok ⟨some (left.chain (links.map fun link => (link.joiner, link.tree))), []⟩ := by
  refine ⟨(parse_eq_filters_iff.mp hfront).1, ?_, ?_, ?_⟩
  · intro joiner back tree hback
    exact parse_graft hfront hback joiner
  · intro back actions hne hback
    exact parse_followed hfront hback hne
  · intro links hlinks
    exact parse_joinTexts hfront hlinks

/-- A parse that is checked to yield filters alone does so. -/
theorem exists_filters_of_any {check : FilterTree → Bool} (h : (parse options input).toOption.any
      (fun q => q.filter.any check && q.actions.isEmpty) = true) :
    ∃ tree, parse options input = .ok ⟨some tree, []⟩ ∧ check tree = true := by
  obtain ⟨⟨filter, actions⟩, hparse, hq⟩ := exists_of_any h
  rw [Bool.and_eq_true, List.isEmpty_iff] at hq
  obtain ⟨tree, htree, hcheck⟩ := (Option.any_eq_true _ _).mp hq.1
  exact ⟨tree, by rw [hparse, show filter = some tree from htree, show actions = [] from hq.2],
    hcheck⟩

/-- The first filters stay together, and so do those in parentheses; the last filter of the
second text is joined to all that stands before it. -/
theorem parse_joined_or_and : ∃ left inner last,
    parse {} "a == 1 or b == 2" = .ok ⟨some left, []⟩ ∧ left.joiner? = some .or ∧
    parse {} "(c == 3 or d == 4) or e == 5" = .ok ⟨some (.join inner .or last), []⟩ ∧
    inner.joiner? = none ∧
    parse {} ("a == 1 or b == 2" ++ " " ++ Joiner.and.spelling ++ " " ++
        "(c == 3 or d == 4) or e == 5") =
      .ok ⟨some (.join (.join left .and inner) .or last), []⟩ := by
  have hfront : (parse {} "a == 1 or b == 2").toOption.any (fun q =>
      q.filter.any (fun tree => tree.joiner? == some .or) && q.actions.isEmpty) = true := by
    decide +kernel
  have hback : (parse {} "(c == 3 or d == 4) or e == 5").toOption.any (fun q =>
      q.filter.any (fun tree => tree.joiner? == some .or &&
        tree.left?.any fun inner => inner.joiner? == none) && q.actions.isEmpty) = true := by
    decide +kernel
  obtain ⟨left, hleft, hjoiner⟩ := exists_filters_of_any hfront
  obtain ⟨tree, htree, hshape⟩ := exists_filters_of_any hback
  rw [Bool.and_eq_true] at hshape
  obtain ⟨inner, last, rfl⟩ := FilterTree.exists_join_of_joiner? (eq_of_beq hshape.1)
  have hinner : inner.joiner? = none := eq_of_beq hshape.2
  have hjoined := (parse_joined {} _ left hleft).2.1 .and _ _ htree
  rw [FilterTree.graft, FilterTree.graft_operand hinner] at hjoined
  exact ⟨left, inner, last, hleft, eq_of_beq hjoiner, htree, hinner, hjoined⟩

end Query

end RecordQuery
