import RecordQuery.Proofs.Literal.Printed
import RecordQuery.Proofs.Number.Nearest

/-!
# Literals can be told by their text

A printed literal that stands in front of a mark ends there, whatever the literal is and
whatever stands behind the mark, so its text is cut out in one way only.  The rule that
takes the text tells strings, dates, times and numbers apart.

Whole numbers and decimals share a rule.  Those that were read are told apart by their
point: a decimal without one is larger than a whole number can be.  And a string is what
stands between its quotes, since strings that were read have no backslashes of their own.
These two facts about literals that were read are all it takes (`Literal.IsReadable`).
-/

namespace RecordQuery

variable {rule rule' : Rule} {validate : Bool} {cs text rest text' rest' : List Char}
  {literal literal' : Literal}

/-- A notation is read in one way only in front of certain texts: where the text behind is
one of them, the text in front tells what was written and where it ends. -/
def UniquelyRead {α : Type} (write : α → List Char) (isMember : α → Prop)
    (ends : List Char → Prop) : Prop :=
  ∀ {item item' : α} {ds ds' : List Char}, isMember item → isMember item' → ends ds → ends ds' →
    write item ++ ds = write item' ++ ds' → item = item' ∧ ds = ds'

/-- A text that starts with a mark. -/
def StartsWithMark (ds : List Char) : Prop :=
  ∃ mark more, ds = Mark.char mark :: more

/-- A text is cut in one way only. -/
theorem Rule.eq_of_find? (h : Rule.find? (text ++ rest) = some (rule, text, rest))
    (h' : Rule.find? (text' ++ rest') = some (rule', text', rest'))
    (heq : text ++ rest = text' ++ rest') : rule = rule' ∧ text = text' ∧ rest = rest' := by
  rw [heq, h', Option.some.injEq, Prod.mk.injEq, Prod.mk.injEq] at h
  exact ⟨h.1.symm, h.2.1.symm, h.2.2.symm⟩

namespace Literal

/-! ## Literals that were read -/

/-- What is known of a literal that was read. -/
def IsReadable : Literal → Prop
  | string text => '\\' ∉ text.toList
  | integer _ => True
  | decimal d => d.scale = 0 → Decimal.IsLarge d.coefficient.natAbs
  | time text => Rule.find? text.toList = some (.time, text.toList, [])
  | date text => Rule.find? text.toList = some (.date, text.toList, [])
  | dateTime text => Rule.find? text.toList = some (.dateTime, text.toList, [])

theorem isReadable_of_startsWith (h : StartsWith validate cs (.literal literal) text rest) :
    literal.IsReadable := by
  rcases readToken_cases (h .start) with ⟨mark, hmark, -, -⟩ | ⟨rule, hfind, hconvert⟩
  · cases hmark
  have hmade := Rule.convert_ok hconvert
  cases literal with
  | integer value => trivial
  | decimal d => exact isLarge_of_startsWith h
  | string written =>
      obtain rfl := Rule.eq_finder hconvert rfl
      cases hmade
      rw [IsReadable, String.toList_ofList]
      exact backslash_not_mem_unquote text
  | time written =>
      obtain rfl := Rule.eq_finder hconvert rfl
      cases hmade
      rw [IsReadable, String.toList_ofList]
      exact Rule.find?_self hfind (by simp) (by simp) (by simp)
  | date written =>
      obtain rfl := Rule.eq_finder hconvert rfl
      cases hmade
      rw [IsReadable, String.toList_ofList]
      exact Rule.find?_self hfind (by simp) (by simp) (by simp)
  | dateTime written =>
      obtain rfl := Rule.eq_finder hconvert rfl
      cases hmade
      rw [IsReadable, String.toList_ofList]
      exact Rule.find?_self hfind (by simp) (by simp) (by simp)

/-- The text of a literal is one word, found by the rule for its kind. -/
theorem find?_write (h : literal.IsReadable) : ∃ rule,
    Rule.finder? (.literal literal) = some rule ∧
      Rule.find? literal.write = some (rule, literal.write, []) := by
  cases literal with
  | string written =>
      have hfind := find?_writeString h []
      rw [List.append_nil] at hfind
      exact ⟨_, rfl, hfind⟩
  | integer value => exact ⟨_, rfl, find?_writeInt value.toInt⟩
  | decimal d =>
      refine ⟨_, rfl, ?_⟩
      by_cases hscale : d.scale = 0
      · have hwrite : (decimal d).write = Numeral.writeInt d.coefficient :=
          Decimal.write_of_scale_zero hscale
        rw [hwrite]
        exact find?_writeInt d.coefficient
      · exact (@lexeme_decimal false d hscale).find
  | time written => exact ⟨_, rfl, h⟩
  | date written => exact ⟨_, rfl, h⟩
  | dateTime written => exact ⟨_, rfl, h⟩

/-- A printed literal starts with no mark. -/
theorem exists_cons_write (h : literal.IsReadable) :
    ∃ c more, literal.write = c :: more ∧ Mark.ofChar? c = none := by
  obtain ⟨rule, -, hfind⟩ := find?_write h
  obtain ⟨c, more, hwrite, hc⟩ := Rule.starts_of_scan (Rule.scan_of_find? hfind)
  exact ⟨c, more, hwrite, ofChar?_of_starts hc⟩

/-! ## The text tells the literal -/

/-- A decimal that was read is not printed as a whole number is. -/
theorem write_decimal_ne {d : Decimal} (h : (decimal d).IsReadable) (value : Int64) :
    d.write ≠ Numeral.writeInt value.toInt := by
  intro hwrite
  by_cases hscale : d.scale = 0
  · rw [Decimal.write_of_scale_zero hscale] at hwrite
    have hvalue : d.coefficient = value.toInt := Numeral.writeInt_injective hwrite
    have hlarge := h hscale
    have hleast := value.le_toInt
    have hmost := value.toInt_lt
    unfold Decimal.IsLarge Numeral.maxInt64 at hlarge
    omega
  · have hpoint := (Decimal.point_mem_write_iff d).mpr hscale
    rw [hwrite] at hpoint
    exact point_not_mem_writeInt value.toInt hpoint

theorem decimal_eq_of_write {d d' : Decimal} (h : d.write = d'.write) : d = d' := by
  have hpoint := Decimal.point_mem_write_iff d
  rw [h, Decimal.point_mem_write_iff] at hpoint
  by_cases hscale : d.scale = 0
  · have hscale' : d'.scale = 0 := by
      by_contra hne
      exact hpoint.mp hne hscale
    rw [Decimal.write_of_scale_zero hscale, Decimal.write_of_scale_zero hscale'] at h
    have hcoefficient := Numeral.writeInt_injective h
    cases d
    cases d'
    cases hcoefficient
    cases hscale
    cases hscale'
    rfl
  · have hread := Decimal.read_write d hscale
    rw [h, Decimal.read_write d' (hpoint.mpr hscale), Except.ok.injEq] at hread
    exact hread.symm

theorem string_eq_of_write {written written' : String} (h : '\\' ∉ written.toList)
    (h' : '\\' ∉ written'.toList)
    (hwrite : writeString written.toList = writeString written'.toList) : written = written' := by
  have hchars := congrArg unquote hwrite
  rw [unquote_writeString h, unquote_writeString h'] at hchars
  exact String.toList_inj.mp hchars

/-- Two literals of one rule that were read are told apart by their texts. -/
theorem eq_of_write (h : literal.IsReadable) (h' : literal'.IsReadable)
    (hrule : Rule.finder? (.literal literal) = Rule.finder? (.literal literal'))
    (hwrite : literal.write = literal'.write) : literal = literal' := by
  cases literal with
  | string written =>
      cases literal' with
      | string written' => rw [string_eq_of_write h h' hwrite]
      | _ => cases hrule
  | integer value =>
      cases literal' with
      | integer value' =>
          have hvalue : value.toInt = value'.toInt := Numeral.writeInt_injective hwrite
          rw [Int64.toInt_inj.mp hvalue]
      | decimal d => exact absurd hwrite.symm (write_decimal_ne h' value)
      | _ => cases hrule
  | decimal d =>
      cases literal' with
      | integer value => exact absurd hwrite (write_decimal_ne h value)
      | decimal d' => rw [decimal_eq_of_write hwrite]
      | _ => cases hrule
  | time written =>
      cases literal' with
      | time written' => rw [String.toList_inj.mp hwrite]
      | _ => cases hrule
  | date written =>
      cases literal' with
      | date written' => rw [String.toList_inj.mp hwrite]
      | _ => cases hrule
  | dateTime written =>
      cases literal' with
      | dateTime written' => rw [String.toList_inj.mp hwrite]
      | _ => cases hrule

/-- Literals that were read can be told from each other, and from what follows them, in
front of marks. -/
theorem uniquelyRead_write : UniquelyRead write IsReadable StartsWithMark := by
  rintro literal literal' _ _ h h' ⟨mark, more, rfl⟩ ⟨mark', more', rfl⟩ heq
  obtain ⟨rule, hrule, hfind⟩ := find?_write h
  obtain ⟨rule', hrule', hfind'⟩ := find?_write h'
  obtain ⟨rfl, hwrite, hmore⟩ := Rule.eq_of_find? (Rule.find?_mark hfind mark more)
    (Rule.find?_mark hfind' mark' more') heq
  exact ⟨eq_of_write h h' (hrule.trans hrule'.symm) hwrite, hmore⟩

end Literal

end RecordQuery
