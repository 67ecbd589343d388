import RecordQuery.Proofs.Filter.Groups
import RecordQuery.Proofs.Literal.Unique
import RecordQuery.Proofs.Query.PrintedFilter

/-!
# Printed filter trees are unambiguous

A printed tree leaves out its groups, and nothing else.  Behind every piece of it stands
something that ends the piece: a space behind keys and comparisons, a comma or a bracket
behind literals.  What a string has inside it, brackets and braces included, is inside its
quotes.  So a printed tree tells the tree without its groups, and where it ends
(`FilterTree.uniquelyRead_render`).
-/

namespace RecordQuery

variable {validate : Bool} {ds ds' : List Char}

/-! ## Operands -/

theorem startsWithMark_items (items : List Literal) (ds : List Char) :
    StartsWithMark (writeItems items ++ [']'] ++ ds) := by
  cases items with
  | nil => exact ⟨.closeBracket, ds, rfl⟩
  | cons literal items => exact ⟨.comma, _, rfl⟩

/-- The items behind the first one, with the bracket that closes the list. -/
theorem uniquelyRead_items : UniquelyRead (fun items => writeItems items ++ [']'])
    (fun items => ∀ literal ∈ items, literal.IsReadable) fun _ => True := by
  intro items items' ds ds' h h' _ _ heq
  induction items generalizing items' with
  | nil =>
      cases items' with
      | nil => exact ⟨rfl, List.append_cancel_left heq⟩
      | cons literal' items' => simp [writeItems] at heq
  | cons literal items ih =>
      cases items' with
      | nil => simp [writeItems] at heq
      | cons literal' items' =>
          have hsplit : ∀ (literal : Literal) (items : List Literal) (ds : List Char),
              writeItems (literal :: items) ++ [']'] ++ ds =
                ',' :: ' ' :: (literal.write ++ (writeItems items ++ [']'] ++ ds)) := by
            intro literal items ds
            simp [writeItems]
          rw [hsplit, hsplit, List.cons_inj_right, List.cons_inj_right] at heq
          obtain ⟨rfl, hmore⟩ := Literal.uniquelyRead_write (h literal List.mem_cons_self)
            (h' literal' List.mem_cons_self) (startsWithMark_items items ds)
            (startsWithMark_items items' ds') heq
          obtain ⟨rfl, hds⟩ := ih (fun other hother => h other (List.mem_cons_of_mem _ hother))
            (fun other hother => h' other (List.mem_cons_of_mem _ hother)) hmore
          exact ⟨rfl, hds⟩

namespace Operand

/-- The literals of an operand were read. -/
def IsReadable (operand : Operand) : Prop :=
  ∀ literal ∈ operand.literals, literal.IsReadable

/-- A literal does not start with a mark. -/
theorem write_ne_mark {literal : Literal} (h : literal.IsReadable) (mark : Mark) :
    literal.write ++ ds ≠ mark.char :: ds' := by
  intro heq
  obtain ⟨c, more, hwrite, hc⟩ := Literal.exists_cons_write h
  rw [hwrite, List.cons_append, List.cons.injEq] at heq
  rw [heq.1, ofChar?_char] at hc
  cases hc

theorem write_list_nil (ds : List Char) : (list []).write ++ ds = '[' :: ']' :: ds := rfl

theorem write_list_cons (first : Literal) (others : List Literal) (ds : List Char) :
    (list (first :: others)).write ++ ds =
      '[' :: (first.write ++ (writeItems others ++ [']'] ++ ds)) := by
  rw [write, intercalate_map_cons]
  simp [writeItems]

/-- A list ends by itself. -/
theorem uniquelyRead_list : UniquelyRead (fun items => (list items).write)
    (fun items => ∀ literal ∈ items, literal.IsReadable) fun _ => True := by
  intro items items' ds ds' h h' _ _ heq
  cases items with
  | nil =>
      cases items' with
      | nil => exact ⟨rfl, List.append_cancel_left heq⟩
      | cons first' others' =>
          rw [write_list_cons, write_list_nil, List.cons_inj_right] at heq
          exact absurd heq.symm (write_ne_mark (h' first' List.mem_cons_self) .closeBracket)
  | cons first others =>
      cases items' with
      | nil =>
          rw [write_list_cons, write_list_nil, List.cons_inj_right] at heq
          exact absurd heq (write_ne_mark (h first List.mem_cons_self) .closeBracket)
      | cons first' others' =>
          rw [write_list_cons, write_list_cons, List.cons_inj_right] at heq
          obtain ⟨rfl, hmore⟩ := Literal.uniquelyRead_write (h first List.mem_cons_self)
            (h' first' List.mem_cons_self) (startsWithMark_items others ds)
            (startsWithMark_items others' ds') heq
          obtain ⟨rfl, hend⟩ := uniquelyRead_items
            (fun other hother => h other (List.mem_cons_of_mem _ hother))
            (fun other hother => h' other (List.mem_cons_of_mem _ hother)) trivial trivial hmore
          exact ⟨rfl, hend⟩

theorem uniquelyRead_write : UniquelyRead write IsReadable StartsWithMark := by
  intro operand operand' ds ds' h h' hds hds' heq
  cases operand with
  | scalar literal =>
      have hliteral := h literal (List.mem_singleton_self literal)
      cases operand' with
      | scalar literal' =>
          obtain ⟨rfl, hmore⟩ := Literal.uniquelyRead_write hliteral
            (h' literal' (List.mem_singleton_self literal')) hds hds' heq
          exact ⟨rfl, hmore⟩
      | list items' => exact absurd heq (write_ne_mark hliteral .openBracket)
  | list items =>
      cases operand' with
      | scalar literal' =>
          have hliteral' := h' literal' (List.mem_singleton_self literal')
          exact absurd heq.symm (write_ne_mark hliteral' .openBracket)
      | list items' =>
          obtain ⟨rfl, hend⟩ := uniquelyRead_list h h' trivial trivial heq
          exact ⟨rfl, hend⟩

end Operand

/-! ## Filters -/

/-- Words that differ and have no space in them end in front of a space. -/
theorem uniquelyRead_of_spaceless {α : Type} {write : α → List Char}
    (hspace : ∀ item, ' ' ∉ write item) (hinj : Function.Injective write) :
    UniquelyRead write (fun _ => True) fun ds => ∃ more, ds = ' ' :: more := by
  rintro item item' _ _ - - ⟨more, rfl⟩ ⟨more', rfl⟩ heq
  have hcut : ∀ (item : α) (more : List Char),
      (write item ++ ' ' :: more).takeWhile (· != ' ') = write item := by
    intro item more
    refine Scan.takeWhile_exact (fun c hc => ?_) (Scan.stops_cons rfl more)
    exact bne_iff_ne.mpr (ne_of_mem_of_not_mem hc (hspace item))
  have hwrite : write item = write item' := by rw [← hcut item more, heq, hcut]
  rw [hwrite] at heq
  exact ⟨hinj hwrite, List.append_cancel_left heq⟩

theorem Comparison.uniquelyRead_spelling : UniquelyRead
    (fun operator : Comparison => operator.spelling.toList) (fun _ => True)
    fun ds => ∃ more, ds = ' ' :: more :=
  uniquelyRead_of_spaceless (fun operator => by cases operator <;> decide)
    fun _ _ h => eq_of_spelling (String.toList_inj.mp h)

theorem Joiner.uniquelyRead_spelling : UniquelyRead
    (fun joiner : Joiner => joiner.spelling.toList) (fun _ => True)
    fun ds => ∃ more, ds = ' ' :: more :=
  uniquelyRead_of_spaceless (fun joiner => by cases joiner <;> decide)
    fun _ _ h => eq_of_spelling (String.toList_inj.mp h)

namespace Filter

/-- The key and the literals of a filter were read. -/
structure IsReadable (filter : Filter) : Prop where
  key : Rule.find? filter.key.toList = some (.identifier, filter.key.toList, [])
  operand : filter.operand.IsReadable

theorem uniquelyRead_write : UniquelyRead write IsReadable StartsWithMark := by
  intro filter filter' ds ds' h h' hds hds' heq
  have hsplit : ∀ (filter : Filter) (ds : List Char), filter.write ++ ds = filter.key.toList ++
      ' ' :: (filter.operator.spelling.toList ++ ' ' :: (filter.operand.write ++ ds)) := by
    intro filter ds
    simp [write]
  rw [hsplit, hsplit] at heq
  obtain ⟨-, hkey, hmore⟩ := Rule.eq_of_find? (Rule.find?_space h.key (by simp) _)
    (Rule.find?_space h'.key (by simp) _) heq
  rw [List.cons_inj_right] at hmore
  obtain ⟨hoperator, hmore⟩ :=
    Comparison.uniquelyRead_spelling trivial trivial ⟨_, rfl⟩ ⟨_, rfl⟩ hmore
  rw [List.cons_inj_right] at hmore
  obtain ⟨hoperand, hend⟩ :=
    Operand.uniquelyRead_write h.operand h'.operand hds hds' hmore
  refine ⟨?_, hend⟩
  calc filter = ⟨filter.key, filter.operator, filter.operand⟩ := rfl
    _ = ⟨filter'.key, filter'.operator, filter'.operand⟩ := by
        rw [String.toList_inj.mp hkey, hoperator, hoperand]
    _ = filter' := rfl

end Filter

/-! ## Trees -/

namespace FilterTree

theorem groupFree_ungrouped (tree : FilterTree) : tree.ungrouped.GroupFree := by
  induction tree with
  | leaf filter => trivial
  | group inner ih => exact ih
  | join left joiner right ihLeft ihRight => exact ⟨ihLeft, ihRight⟩

theorem leaves_ungrouped (tree : FilterTree) : tree.ungrouped.leaves = tree.leaves := by
  induction tree with
  | leaf filter => rfl
  | group inner ih => exact ih
  | join left joiner right ihLeft ihRight => rw [ungrouped, leaves, leaves, ihLeft, ihRight]

/-- A tree without groups whose filters were read. -/
structure IsReadable (tree : FilterTree) : Prop where
  groupFree : tree.GroupFree
  leaves : ∀ filter ∈ tree.leaves, filter.IsReadable

theorem IsReadable.left {left right : FilterTree} {joiner : Joiner}
    (h : (join left joiner right).IsReadable) : left.IsReadable :=
  ⟨h.groupFree.1, fun filter hfilter => h.leaves filter (List.mem_append_left _ hfilter)⟩

theorem IsReadable.right {left right : FilterTree} {joiner : Joiner}
    (h : (join left joiner right).IsReadable) : right.IsReadable :=
  ⟨h.groupFree.2, fun filter hfilter => h.leaves filter (List.mem_append_right _ hfilter)⟩

theorem toList_render_leaf (filter : Filter) (ds : List Char) :
    (leaf filter).render.toList ++ ds = '[' :: (filter.write ++ ']' :: ds) := by
  simp [render, Filter.display]

theorem toList_render_join (left right : FilterTree) (joiner : Joiner) (ds : List Char) :
    (join left joiner right).render.toList ++ ds =
      '\x7b' :: ' ' :: (left.render.toList ++ ' ' :: (joiner.spelling.toList ++
        ' ' :: (right.render.toList ++ ' ' :: '\x7d' :: ds))) := by
  simp [render]

/-- A printed tree tells the tree and where it ends. -/
theorem uniquelyRead_render :
    UniquelyRead (fun tree => tree.render.toList) IsReadable fun _ => True := by
  intro tree tree' ds ds' h h' _ _ heq
  induction tree generalizing tree' ds ds' with
  | leaf filter =>
      cases tree' with
      | leaf filter' =>
          rw [toList_render_leaf, toList_render_leaf, List.cons_inj_right] at heq
          obtain ⟨rfl, hend⟩ := Filter.uniquelyRead_write
            (h.leaves filter (List.mem_singleton_self filter))
            (h'.leaves filter' (List.mem_singleton_self filter'))
            ⟨.closeBracket, ds, rfl⟩ ⟨.closeBracket, ds', rfl⟩ heq
          exact ⟨rfl, (List.cons_inj_right _).mp hend⟩
      | group inner' => exact absurd h'.groupFree id
      | join left' joiner' right' =>
          rw [toList_render_leaf, toList_render_join] at heq
          cases heq
  | group inner ih => exact absurd h.groupFree id
  | join left joiner right ihLeft ihRight =>
      cases tree' with
      | leaf filter' =>
          rw [toList_render_leaf, toList_render_join] at heq
          cases heq
      | group inner' => exact absurd h'.groupFree id
      | join left' joiner' right' =>
          rw [toList_render_join, toList_render_join, List.cons_inj_right,
            List.cons_inj_right] at heq
          obtain ⟨rfl, hmore⟩ := ihLeft h.left h'.left heq
          rw [List.cons_inj_right] at hmore
          obtain ⟨rfl, hbehind⟩ :=
            Joiner.uniquelyRead_spelling trivial trivial ⟨_, rfl⟩ ⟨_, rfl⟩ hmore
          rw [List.cons_inj_right] at hbehind
          obtain ⟨rfl, hend⟩ := ihRight h.right h'.right hbehind
          rw [List.cons_inj_right, List.cons_inj_right] at hend
          exact ⟨rfl, hend⟩

theorem isReadable_ungrouped {tree : FilterTree}
    (h : ∀ filter ∈ tree.leaves, filter.IsReadable) : tree.ungrouped.IsReadable :=
  ⟨groupFree_ungrouped tree, by rwa [leaves_ungrouped]⟩

/-- Printed trees are the same exactly if the trees are, apart from their groups. -/
theorem display_eq_iff {tree tree' : FilterTree}
    (h : ∀ filter ∈ tree.leaves, filter.IsReadable)
    (h' : ∀ filter ∈ tree'.leaves, filter.IsReadable) :
    tree.display = tree'.display ↔ tree.ungrouped = tree'.ungrouped := by
  constructor
  · intro hdisplay
    rw [display_eq_render, display_eq_render, ← render_ungrouped tree,
      ← render_ungrouped tree'] at hdisplay
    have htext : tree.ungrouped.render.toList ++ [] = tree'.ungrouped.render.toList ++ [] := by
      rw [hdisplay]
    exact (uniquelyRead_render (isReadable_ungrouped h) (isReadable_ungrouped h')
      trivial trivial htext).1
  · intro hungrouped
    exact (indistinguishable_of_ungrouped hungrouped).display

end FilterTree

/-! ## Queries -/

namespace Query

theorem isReadable_leaves {q : Query} {tree : FilterTree} {cs : List Char}
    (h : ReadsAs validate cs q.tokens) (htree : q.filter = some tree) :
    ∀ filter ∈ tree.leaves, filter.IsReadable := by
  intro filter hfilter
  constructor
  · have htoken : Token.key filter.key ∈ filter.tokens := List.mem_cons_self
    obtain ⟨cs, text, rest, hkey⟩ := exists_startsWith_of_filter h htree hfilter htoken
    exact hkey.lexeme_key.find
  · intro literal hliteral
    obtain ⟨cs, text, rest, hword⟩ :=
      exists_startsWith_of_filter h htree hfilter (Filter.token_mem_tokens hliteral)
    exact Literal.isReadable_of_startsWith hword

/-- Take two texts that are read, with any options, as queries with filter trees.  The trees
are printed alike exactly if they are the same without their groups. -/
theorem display_eq_display_iff (options options' : Options) (input input' : String)
    (q q' : Query) (tree tree' : FilterTree) (hparse : parse options input = .ok q)
    (hparse' : parse options' input' = .ok q') (htree : q.filter = some tree)
    (htree' : q'.filter = some tree') :
    tree.display = tree'.display ↔ tree.ungrouped = tree'.ungrouped := by
  have hreads := ((parse_eq_ok_iff options input q).mp hparse).2
  have hreads' := ((parse_eq_ok_iff options' input' q').mp hparse').2
  exact FilterTree.display_eq_iff (isReadable_leaves hreads htree)
    (isReadable_leaves hreads' htree')

/-- One of the trees has a group; the texts also differ in quotes, signs and zeros. -/
theorem display_eq_display_group : ∃ q q' tree tree',
    parse {} "(a == 'x]\x7d' or b in [1, '9:30']) and c != 2.50" = .ok q ∧
    parse {} "a == \"x]\x7d\" or b in [+1, \"9:30\"] and c != 02.50" = .ok q' ∧
    q.filter = some tree ∧ q'.filter = some tree' ∧ tree.nodeCount ≠ tree'.nodeCount ∧
    tree.display = tree'.display ∧ tree.ungrouped = tree'.ungrouped := by
  have hread : (parse {} "(a == 'x]\x7d' or b in [1, '9:30']) and c != 2.50").toOption.any
      (fun q => (parse {} "a == \"x]\x7d\" or b in [+1, \"9:30\"] and c != 02.50").toOption.any
        fun q' => q.filter.any fun tree => q'.filter.any fun tree' =>
          tree.nodeCount != tree'.nodeCount && tree.render == tree'.render) = true := by
    decide +kernel
  obtain ⟨q, hparse, hread⟩ := exists_of_any hread
  obtain ⟨q', hparse', hread⟩ := exists_of_any hread
  obtain ⟨tree, htree, hread⟩ := (Option.any_eq_true _ _).mp hread
  obtain ⟨tree', htree', hread⟩ := (Option.any_eq_true _ _).mp hread
  rw [Bool.and_eq_true, bne_iff_ne, beq_iff_eq] at hread
  have hdisplay : tree.display = tree'.display := by
    rw [FilterTree.display_eq_render, FilterTree.display_eq_render, hread.2]
  exact ⟨q, q', tree, tree', hparse, hparse', htree, htree', hread.1, hdisplay,
    (display_eq_display_iff {} {} _ _ q q' tree tree' hparse hparse' htree htree').mp hdisplay⟩

end Query

end RecordQuery
