import RecordQuery.Token.Rule

/-!
# What a rule makes of a text

Each rule makes tokens of one kind, so a token tells the rule that it was found by, and
for times, dates and names also the text.
-/

namespace RecordQuery

namespace Rule

variable {validate : Bool} {rule : Rule} {text : List Char} {token : Token}

theorem nameOrKeyword_cases (text : String) : nameOrKeyword text = .key text ∨
    (∃ joiner, nameOrKeyword text = .joiner joiner) ∨
      ∃ operator, nameOrKeyword text = .comparison operator := by
  unfold nameOrKeyword
  cases hlookup : keywords.lookup text with
  | none => exact Or.inl rfl
  | some token =>
      have hmem : (text, token) ∈ keywords := by
        obtain ⟨front, back, hkeywords, -⟩ := List.lookup_eq_some_iff.mp hlookup
        rw [hkeywords]
        simp
      simp only [keywords, List.mem_cons, Prod.mk.injEq, List.not_mem_nil, or_false] at hmem
      rcases hmem with ⟨-, rfl⟩ | ⟨-, rfl⟩ | ⟨-, rfl⟩ | ⟨-, rfl⟩
      · exact Or.inr (Or.inl ⟨_, rfl⟩)
      · exact Or.inr (Or.inl ⟨_, rfl⟩)
      · exact Or.inr (Or.inr ⟨_, rfl⟩)
      · exact Or.inr (Or.inr ⟨_, rfl⟩)

theorem readChecked_ok {kind : LiteralKind} {check : List Char → Except FaultReason Unit}
    {make : String → Literal} {literal : Literal}
    (h : Literal.readChecked validate kind check make text = .ok literal) :
    literal = make (String.ofList text) := by
  unfold Literal.readChecked at h
  split at h
  · split at h
    · cases h
      rfl
    · cases h
  · cases h
    rfl

/-- The outcome of a conversion, rule by rule. -/
theorem convert_ok (h : rule.convert validate text = .ok token) :
    match rule with
    | actionKey => token = .actionKey (String.ofList text)
    | operator => ∃ operator, token = .comparison operator
    | identifier => token = nameOrKeyword (String.ofList text)
    | dateTime => token = .literal (.dateTime (String.ofList text))
    | date => token = .literal (.date (String.ofList text))
    | time => token = .literal (.time (String.ofList text))
    | string => token = .literal (.string (String.ofList (Literal.unquote text)))
    | number => ∃ literal, token = .literal literal ∧ Literal.readNumber text = .ok literal := by
  -- a literal is what its reader yields, as a token
  have hliteral : ∀ {read : Except LiteralFault Literal},
      read.map Token.literal = .ok token → ∃ literal, token = .literal literal ∧
        read = .ok literal := by
    intro read hread
    cases read with
    | error fault => cases hread
    | ok literal => cases hread; exact ⟨literal, rfl, rfl⟩
  cases rule with
  | actionKey => cases h; rfl
  | operator =>
      simp only [convert] at h
      split at h
      · cases h
        exact ⟨_, rfl⟩
      · cases h
  | identifier => cases h; rfl
  | dateTime =>
      obtain ⟨literal, rfl, hread⟩ := hliteral h
      exact congrArg Token.literal (readChecked_ok hread)
  | date =>
      obtain ⟨literal, rfl, hread⟩ := hliteral h
      exact congrArg Token.literal (readChecked_ok hread)
  | time =>
      obtain ⟨literal, rfl, hread⟩ := hliteral h
      exact congrArg Token.literal (readChecked_ok hread)
  | string => cases h; rfl
  | number => exact hliteral h

/-- A number is a whole number or a decimal. -/
theorem readNumber_ok {literal : Literal} (h : Literal.readNumber text = .ok literal) :
    (∃ value, literal = .integer value ∧ Numeral.readInt64 text = .ok value ∧ '.' ∉ text) ∨
      ∃ value, literal = .decimal value ∧ Decimal.read text = .ok value ∧ '.' ∈ text := by
  unfold Literal.readNumber at h
  split at h
  · next hpoint =>
      split at h
      · next value hread =>
          cases h
          exact Or.inr ⟨value, rfl, hread, by simpa using hpoint⟩
      · cases h
  · next hpoint =>
      split at h
      · next value hread =>
          cases h
          exact Or.inl ⟨value, rfl, hread, by simpa using hpoint⟩
      · cases h

/-- The rule that a token is found by.  Operators can be found by two rules. -/
def finder? : Token → Option Rule
  | .mark _ => none
  | .actionKey _ => actionKey
  | .comparison _ => none
  | .joiner _ | .key _ => identifier
  | .literal (.dateTime _) => dateTime
  | .literal (.date _) => date
  | .literal (.time _) => time
  | .literal (.string _) => string
  | .literal (.integer _) | .literal (.decimal _) => number

theorem eq_finder {finder : Rule} (h : rule.convert validate text = .ok token)
    (hfinder : finder? token = some finder) : rule = finder := by
  have hmade := convert_ok h
  cases rule with
  | operator =>
      obtain ⟨operator, rfl⟩ := hmade
      cases hfinder
  | identifier =>
      simp only at hmade
      rcases nameOrKeyword_cases (String.ofList text) with hname | ⟨_, hname⟩ | ⟨_, hname⟩ <;>
        · rw [hmade, hname] at hfinder
          cases hfinder <;> rfl
  | number =>
      obtain ⟨literal, rfl, hread⟩ := hmade
      rcases readNumber_ok hread with ⟨value, rfl, -⟩ | ⟨value, rfl, -⟩ <;> cases hfinder <;> rfl
  | _ =>
      simp only at hmade
      rw [hmade] at hfinder
      cases hfinder
      rfl

theorem text_of_key {name : String} (h : rule.convert validate text = .ok (.key name)) :
    rule = identifier ∧ name = String.ofList text := by
  obtain rfl := eq_finder h rfl
  have hmade : Token.key name = nameOrKeyword (String.ofList text) := convert_ok h
  refine ⟨rfl, ?_⟩
  rcases nameOrKeyword_cases (String.ofList text) with hname | ⟨_, hname⟩ | ⟨_, hname⟩ <;>
    · rw [hname] at hmade
      cases hmade <;> rfl

theorem text_of_actionKey {name : String} (h : rule.convert validate text = .ok (.actionKey name)) :
    rule = actionKey ∧ name = String.ofList text := by
  obtain rfl := eq_finder h rfl
  have hmade : Token.actionKey name = .actionKey (String.ofList text) := convert_ok h
  cases hmade
  exact ⟨rfl, rfl⟩

theorem text_of_time {written : String}
    (h : rule.convert validate text = .ok (.literal (.time written))) :
    rule = time ∧ written = String.ofList text := by
  obtain rfl := eq_finder h rfl
  have hmade : Token.literal (.time written) = .literal (.time (String.ofList text)) := convert_ok h
  cases hmade
  exact ⟨rfl, rfl⟩

theorem text_of_dateTime {written : String}
    (h : rule.convert validate text = .ok (.literal (.dateTime written))) :
    rule = dateTime ∧ written = String.ofList text := by
  obtain rfl := eq_finder h rfl
  have hmade : Token.literal (.dateTime written) = .literal (.dateTime (String.ofList text)) :=
    convert_ok h
  cases hmade
  exact ⟨rfl, rfl⟩

end Rule

end RecordQuery
