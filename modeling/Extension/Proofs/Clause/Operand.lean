import Extension.Proofs.Clause.Reading

namespace Extension.Text

theorem stripRight_prefix (text : List Char) : stripRight text <+: text := by
  rw [stripRight, ← List.reverse_suffix, List.reverse_reverse]
  exact List.dropWhile_suffix _

theorem stripLeft_head (text : List Char) : ∀ c, (stripLeft text).head? = some c → isBlank c = false := by
  intro c first
  have kept := List.head?_dropWhile_not isBlank text
  rw [stripLeft] at first
  simpa [first] using kept

theorem stripRight_last (text : List Char) : ∀ c, (stripRight text).getLast? = some c → isBlank c = false := by
  intro c last
  rw [stripRight, List.getLast?_reverse] at last
  exact stripLeft_head text.reverse c last

theorem trimmed_strip (text : List Char) : Trimmed (strip text) := by
  refine ⟨fun c first => ?_, stripRight_last _⟩
  obtain ⟨rest, split⟩ := stripRight_prefix (stripLeft text)
  refine stripLeft_head text c ?_
  rw [← split, List.head?_append, ← strip, first]
  rfl

theorem stripLeft_append {blanks text : List Char} (gap : ∀ c ∈ blanks, isBlank c = true)
    (start : ∀ c, text.head? = some c → isBlank c = false) : stripLeft (blanks ++ text) = text := by
  rw [stripLeft, List.dropWhile_append_of_pos gap]
  cases text with
  | nil => rfl
  | cons c text => exact stripLeft_kept (start c rfl) text

end Extension.Text

namespace Extension.Clause

open Text

/-! What the operands of a clause say.

An operand is a bare operand behind negation signs.  A bare operand is a word, a key or a comparison; of any
other text `Refused` says what the reader answers.
-/

/-- The text is the bare one behind so many negation signs, each with the blanks after it. -/
inductive Negated : Nat → List Char → List Char → Prop
  | none {bare : List Char} (free : bare.head? ≠ some '!') : Negated 0 bare bare
  | sign {blanks text bare : List Char} {count : Nat} (gap : ∀ c ∈ blanks, isBlank c = true)
      (inside : ∀ c, text.head? = some c → isBlank c = false) (behind : Negated count text bare) :
      Negated (count + 1) ('!' :: blanks ++ text) bare

/-- The text is a key, a sign with blanks before it or not, and a value. -/
structure Compares (text name : List Char) (how : Comparison) (value : List Char) : Prop where
  key : IsKey name
  split : ∃ blanks, (∀ c ∈ blanks, isBlank c = true) ∧ text = name ++ blanks ++ how.sign.toList ++ value

/-- What an operand without negation signs says. -/
inductive Spells : List Char → Expr → Prop
  | yes : Spells "true".toList (.literal (.bool true))
  | no : Spells "false".toList (.literal (.bool false))
  | key {text : List Char} (key : IsKey text) (free : ¬ IsReserved text) : Spells text (.key (String.ofList text))
  | comparison {text name value : List Char} {how : Comparison} (compares : Compares text name how value)
      (given : strip value ≠ []) :
      Spells text (.comparison how (.key (String.ofList name)) (.literal (.text (String.ofList (strip value)))))

/-- Why a text spells nothing, and the message about it. -/
inductive Refused : List Char → SyntaxFault → String → Prop
  | empty : Refused [] .emptyOperand "Empty operand"
  | missing {text name value : List Char} {how : Comparison} (compares : Compares text name how value)
      (missing : strip value = []) :
      Refused text (.missingValue how text)
        s!"Missing operand after {quoted how.sign} in {quoted (String.ofList text)}"
  | unrecognized {text : List Char} (some : text ≠ []) (noKey : ¬ IsKey text)
      (noComparison : ∀ name how value, ¬ Compares text name how value) :
      Refused text (.unrecognized text) s!"Unrecognized operand: {quoted (String.ofList text)}"

/-- What an operand says, with as many negations as it has signs. -/
inductive Denotes (text : List Char) : Expr → Prop
  | intro {count : Nat} {bare : List Char} {expr : Expr} (negated : Negated count text bare)
      (spells : Spells bare expr) :
      Denotes text (negate count expr)

/-! Comparisons -/

theorem Compares.split? {text name value : List Char} {how : Comparison} (compares : Compares text name how value) :
    splitComparison? text = some (name, how, value) := by
  obtain ⟨key, blanks, gap, rfl⟩ := compares
  have start : ∀ c, (how.sign.toList ++ value).head? = some c → isBlank c = false := by
    intro c first
    cases how <;> (cases first; decide)
  have stops : ∀ c, (blanks ++ (how.sign.toList ++ value)).head? = some c → isKeyChar c = false := by
    intro c first
    cases blanks with
    | nil => cases how <;> (cases first; decide)
    | cons d blanks =>
        cases first
        have blank : isBlank c = true := gap c (List.mem_cons_self ..)
        simp [isKeyChar, blank]
  rw [List.append_assoc, List.append_assoc, splitComparison?_eq key stops, stripLeft_append gap start]
  cases how <;> rfl

theorem splitSign?_eq {text value : List Char} {how : Comparison} (found : splitSign? text = some (how, value)) :
    text = how.sign.toList ++ value := by
  unfold splitSign? at found
  split at found <;> cases found <;> rfl

theorem compares_of_split? {text name value : List Char} {how : Comparison}
    (found : splitComparison? text = some (name, how, value)) : Compares text name how value := by
  rw [splitComparison?, List.span_eq_takeWhile_dropWhile] at found
  by_cases empty : text.takeWhile isKeyChar = []
  · simp [empty] at found
  · simp only [if_neg empty, Option.map_eq_some_iff, Prod.exists, Prod.mk.injEq] at found
    obtain ⟨_, _, sign, rfl, rfl, rfl⟩ := found
    refine ⟨⟨empty, fun c member => List.mem_takeWhile_imp member⟩,
      (text.dropWhile isKeyChar).takeWhile isBlank, fun c member => List.mem_takeWhile_imp member, ?_⟩
    rw [List.append_assoc, ← splitSign?_eq sign, List.append_assoc, stripLeft, List.takeWhile_append_dropWhile,
      List.takeWhile_append_dropWhile]

theorem not_compares_of_split? {text : List Char} (none : splitComparison? text = none) (name : List Char)
    (how : Comparison) (value : List Char) : ¬ Compares text name how value := by
  intro compares
  rw [compares.split?] at none
  cases none

theorem Compares.ne_nil {text name value : List Char} {how : Comparison} (compares : Compares text name how value) :
    text ≠ [] := by
  obtain ⟨key, blanks, _, rfl⟩ := compares
  simp [key.1]

theorem Compares.free {text name value : List Char} {how : Comparison} (compares : Compares text name how value) :
    ¬ IsReserved text := by
  have split := compares.split?
  rintro (rfl | rfl)
  · cases split
  · cases split

/-! Bare operands -/

theorem Spells.parseAtom {text : List Char} {expr : Expr} (spells : Spells text expr) :
    parseAtom text = .ok expr := by
  cases spells with
  | yes => rfl
  | no => rfl
  | key key free =>
      obtain ⟨notTrue, notFalse⟩ := not_or.mp free
      have noSign : splitComparison? text = none := by
        have split : splitComparison? (text ++ []) = _ := splitComparison?_eq key fun c first => by cases first
        rwa [List.append_nil] at split
      rw [Clause.parseAtom, if_neg key.1, if_neg notTrue, if_neg notFalse, noSign]
      exact if_pos (List.all_eq_true.mpr key.2)
  | comparison compares given =>
      obtain ⟨notTrue, notFalse⟩ := not_or.mp compares.free
      rw [Clause.parseAtom, if_neg compares.ne_nil, if_neg notTrue, if_neg notFalse, compares.split?]
      exact if_neg given

theorem spells_comparison {name operand : List Char} (how : Comparison) (key : IsKey name) (kept : IsOperand operand) :
    Spells (name ++ ' ' :: how.sign.toList ++ ' ' :: operand)
      (.comparison how (.key (String.ofList name)) (.literal (.text (String.ofList operand)))) := by
  have compares : Compares (name ++ ' ' :: how.sign.toList ++ ' ' :: operand) name how (' ' :: operand) := by
    refine ⟨key, [' '], ?_, by simp⟩
    rw [List.forall_mem_singleton]
    decide
  have value : strip (' ' :: operand) = operand := by
    rw [strip_blank (by decide), kept.2.1.strip]
  have spells := Spells.comparison compares (by rw [value]; exact kept.1)
  rwa [value] at spells

/-- A test spells the expression that is looked up by its text. -/
theorem IsTest.spells {text : List Char} (test : IsTest text) :
    ∃ atom, Spells text atom ∧ atom.atomText? = some (String.ofList text) := by
  cases test with
  | key key free => exact ⟨_, .key key free, rfl⟩
  | @comparison name operand how key kept =>
      refine ⟨_, spells_comparison how key kept, congrArg some (String.toList_inj.mp ?_)⟩
      simp [toString]

/-- A bare operand is read as what it spells, or refused. -/
theorem parseAtom_cases (text : List Char) :
    (∃ expr, Spells text expr ∧ parseAtom text = .ok expr) ∨
      ∃ fault, Refused text fault fault.message ∧ parseAtom text = .error fault := by
  by_cases reserved : IsReserved text
  · rcases reserved with rfl | rfl
    · exact .inl ⟨_, .yes, rfl⟩
    · exact .inl ⟨_, .no, rfl⟩
  by_cases empty : text = []
  · subst empty
    exact .inr ⟨.emptyOperand, .empty, rfl⟩
  obtain ⟨notTrue, notFalse⟩ := not_or.mp reserved
  cases split : splitComparison? text with
  | some found =>
      obtain ⟨name, how, value⟩ := found
      have compares := compares_of_split? split
      by_cases missing : strip value = []
      · refine .inr ⟨.missingValue how text, .missing compares missing, ?_⟩
        rw [parseAtom, if_neg empty, if_neg notTrue, if_neg notFalse, split]
        exact if_pos missing
      · exact .inl ⟨_, .comparison compares missing, (Spells.comparison compares missing).parseAtom⟩
  | none =>
      by_cases key : IsKey text
      · exact .inl ⟨_, .key key reserved, (Spells.key key reserved).parseAtom⟩
      · refine .inr ⟨.unrecognized text, .unrecognized empty key (not_compares_of_split? split), ?_⟩
        have other : ¬ text.all isKeyChar = true := fun all => key ⟨empty, List.all_eq_true.mp all⟩
        rw [parseAtom, if_neg empty, if_neg notTrue, if_neg notFalse, split]
        exact if_neg other

theorem Refused.not_spells {text : List Char} {fault : SyntaxFault} {message : String}
    (refused : Refused text fault message) (expr : Expr) : ¬ Spells text expr := by
  intro spells
  cases refused with
  | empty =>
      have read := spells.parseAtom
      cases read
  | missing compares missing =>
      obtain ⟨notTrue, notFalse⟩ := not_or.mp compares.free
      have read := spells.parseAtom
      rw [parseAtom, if_neg compares.ne_nil, if_neg notTrue, if_neg notFalse, compares.split?] at read
      simp only [if_pos missing] at read
      cases read
  | unrecognized some noKey noComparison =>
      cases spells with
      | yes => exact noKey ⟨some, List.all_eq_true.mp rfl⟩
      | no => exact noKey ⟨some, List.all_eq_true.mp rfl⟩
      | key key free => exact noKey key
      | comparison compares given => exact noComparison _ _ _ compares

/-! Negation signs -/

theorem negations_blanks {blanks text : List Char} (gap : ∀ c ∈ blanks, isBlank c = true) :
    negations (blanks ++ text) = negations text := by
  induction blanks with
  | nil => rfl
  | cons c blanks ih =>
      have blank := gap c (List.mem_cons_self ..)
      have notSign : c ≠ '!' := by
        rintro rfl
        contradiction
      rw [List.cons_append, negations, if_neg notSign, if_pos blank]
      exact ih fun d member => gap d (List.mem_cons_of_mem c member)

theorem Negated.negations {count : Nat} {text bare : List Char} (negated : Negated count text bare)
    (start : ∀ c, text.head? = some c → isBlank c = false) : negations text = (count, bare) := by
  induction negated with
  | @none bare free =>
      cases bare with
      | nil => rfl
      | cons c bare =>
          have notSign : c ≠ '!' := fun sign => free (congrArg some sign)
          rw [Clause.negations, if_neg notSign, start c rfl, if_neg Bool.false_ne_true]
  | sign gap inside behind ih =>
      rw [List.cons_append, Clause.negations, if_pos rfl, negations_blanks gap, ih inside]

theorem negated_stripLeft (text : List Char) : Negated (negations text).1 (stripLeft text) (negations text).2 := by
  induction text with
  | nil => exact .none (by decide)
  | cons c text ih =>
      by_cases sign : c = '!'
      · subst sign
        have split : text.takeWhile isBlank ++ stripLeft text = text := List.takeWhile_append_dropWhile
        have gap : ∀ c ∈ text.takeWhile isBlank, isBlank c = true := fun c member => List.mem_takeWhile_imp member
        have negated := ih.sign gap (stripLeft_head text)
        rw [List.cons_append, split] at negated
        rw [stripLeft_kept (by decide), negations, if_pos rfl]
        exact negated
      · cases blank : isBlank c with
        | true =>
            rw [stripLeft_blank blank, negations, if_neg sign, if_pos blank]
            exact ih
        | false =>
            rw [stripLeft_kept blank, negations, if_neg sign, blank, if_neg Bool.false_ne_true]
            exact .none fun first => sign (Option.some.inj first)

theorem negated_iff {count : Nat} {text bare : List Char} (start : ∀ c, text.head? = some c → isBlank c = false) :
    Negated count text bare ↔ negations text = (count, bare) := by
  constructor
  · exact fun negated => negated.negations start
  · intro read
    have negated := negated_stripLeft text
    rwa [read, ← List.nil_append text, stripLeft_append (by simp) start] at negated

/-! Operands with their signs -/

theorem Denotes.parseOperand {text : List Char} {expr : Expr} (denotes : Denotes text expr)
    (start : ∀ c, text.head? = some c → isBlank c = false) : parseOperand text = .ok expr := by
  obtain ⟨negated, spells⟩ := denotes
  rw [Clause.parseOperand, negated.negations start]
  simp only [spells.parseAtom]
  rfl

theorem parseOperand_cases {text : List Char} (start : ∀ c, text.head? = some c → isBlank c = false) :
    (∃ expr, Denotes text expr ∧ parseOperand text = .ok expr) ∨
      ∃ count bare fault, Negated count text bare ∧ Refused bare fault fault.message ∧
        parseOperand text = .error fault := by
  cases read : negations text with
  | mk count bare =>
      have negated := (negated_iff start).mpr read
      rcases parseAtom_cases bare with ⟨expr, spells, _⟩ | ⟨fault, refused, failed⟩
      · have denotes : Denotes text (negate count expr) := ⟨negated, spells⟩
        exact .inl ⟨_, denotes, denotes.parseOperand start⟩
      · refine .inr ⟨count, bare, fault, negated, refused, ?_⟩
        rw [parseOperand, read]
        simp only [failed]
        rfl

end Extension.Clause
