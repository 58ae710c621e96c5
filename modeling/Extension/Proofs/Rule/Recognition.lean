import Extension.Proofs.Rule.Spelling

namespace Extension.Clause

open Text

/-! Texts that are read as themselves.

A test is looked up by the text that it is printed as.  A text is printed as it was written just when it is a key
that is no word, or a comparison with one blank on each side of its sign; and since a key holds no blank, no two
tests are printed alike.
-/

/-- What is read as a single test and printed as it was is a test. -/
theorem isTest_of_reads_as_itself {text : String} {expr : Expr} (read : parse text = .ok expr)
    (printed : expr.atomText? = some text) : IsTest text.toList := by
  obtain ⟨spells, uncut⟩ := parse_single read printed
  generalize strip text.toList = written at spells
  cases spells with
  | yes => cases printed
  | no => cases printed
  | key key free =>
      cases printed
      rw [String.toList_ofList]
      exact .key key free
  | @comparison _ name value how compares given =>
      have spelled : text.toList = name ++ ' ' :: how.sign.toList ++ ' ' :: strip value := by
        rw [← Option.some.inj printed]
        simp [toString]
      have inside (sign : Connective) : ¬ Holds sign.sign.toList (strip value) := by
        rintro ⟨before, after, split⟩
        refine uncut sign ⟨name ++ ' ' :: how.sign.toList ++ ' ' :: before, after, ?_⟩
        rw [spelled, split]
        simp
      rw [spelled]
      exact .comparison how compares.key ⟨given, trimmed_strip value, inside .both, inside .either⟩

theorem reads_as_itself_iff (text : String) :
    (∃ expr, parse text = .ok expr ∧ expr.atomText? = some text) ↔ IsTest text.toList := by
  constructor
  · rintro ⟨expr, read, printed⟩
    exact isTest_of_reads_as_itself read printed
  · intro test
    obtain ⟨expr, spells, printed⟩ := test.spells
    exact ⟨expr, test.parse spells, by rw [printed, String.ofList_toList]⟩

/-- The key ends at the first blank. -/
theorem IsKey.cancel {name other rest more : List Char} (key : IsKey name) (otherKey : IsKey other)
    (same : name ++ ' ' :: rest = other ++ ' ' :: more) : name = other ∧ rest = more := by
  have front {name rest : List Char} (key : IsKey name) : (name ++ ' ' :: rest).takeWhile isKeyChar = name := by
    rw [List.takeWhile_append_of_pos key.2, List.takeWhile_cons_of_neg (by decide), List.append_nil]
  have names : name = other := by rw [← front key, same, front otherKey]
  subst names
  exact ⟨rfl, (List.cons.inj (List.append_cancel_left same)).2⟩

theorem IsKey.ne_spaced {name : List Char} (key : IsKey name) (front rest : List Char) :
    name ≠ front ++ ' ' :: rest := by
  rintro rfl
  exact absurd (key.2 ' ' (by simp)) (by decide)

end Extension.Clause

namespace Extension.Decision

open Clause

theorem Probe.text_inj {name other : String} (key : IsKey name.toList) (otherKey : IsKey other.toList)
    (probe rival : Probe) :
    probe.text name = rival.text other ↔ name = other ∧ probe.operand? = rival.operand? := by
  constructor
  · intro same
    have spelled := congrArg String.toList same
    rw [text_toList, text_toList] at spelled
    cases first : probe.operand? with
    | none =>
        cases second : rival.operand? with
        | none =>
            rw [first, second] at spelled
            exact ⟨String.toList_inj.mp spelled, rfl⟩
        | some compared =>
            simp only [first, second, List.append_assoc, List.cons_append] at spelled
            exact absurd spelled (key.ne_spaced _ _)
    | some compared =>
        obtain ⟨how, operand⟩ := compared
        cases second : rival.operand? with
        | none =>
            simp only [first, second, List.append_assoc, List.cons_append] at spelled
            exact absurd spelled.symm (otherKey.ne_spaced _ _)
        | some compared =>
            obtain ⟨otherHow, otherOperand⟩ := compared
            simp only [first, second, List.append_assoc, List.cons_append] at spelled
            obtain ⟨names, behind⟩ := key.cancel otherKey spelled
            have tests : how = otherHow ∧ operand.toList = otherOperand.toList := by
              cases how <;> cases otherHow <;> simp_all [Comparison.sign]
            obtain ⟨rfl, operands⟩ := tests
            exact ⟨String.toList_inj.mp names, by rw [String.toList_inj.mp operands]⟩
  · rintro ⟨rfl, operands⟩
    rw [text, text, operands]

/-- Where a test is recorded, a pass accepts the tests of the same text and no other ones. -/
theorem Pass.read_recorded_iff {pass : Pass} {tree : Tree} {atom : Atom} {onTrue onFalse : Branch}
    (active : pass.active = true) (recorded : tree.at? pass.answers = some (.node atom onTrue onFalse)) (test : Test) :
    (∃ answered, pass.read tree test = .ok answered) ↔ atom.text = test.text := by
  simp only [read, if_pos active, recorded]
  by_cases same : atom.text = test.text
  · simp [same]
  · simp [same]

end Extension.Decision

namespace Extension.Rule

open Decision Clause

/-- The texts that are read as themselves are the keys that are no words, and the keys that are compared with an
operand, which are read as that comparison.  Two tests of keys have the same text only if they are the same, so a
pass that comes to a test takes no other one for it. -/
theorem texts_identify_tests :
    (∀ text : String, (∃ expr, parse text = .ok expr ∧ expr.atomText? = some text) ↔
      (IsKey text.toList ∧ ¬ IsReserved text.toList) ∨
        ∃ (name operand : String) (how : Comparison), IsKey name.toList ∧ IsOperand operand.toList ∧
          text = s!"{name} {how.sign} {operand}") ∧
    (∀ (name operand : String) (how : Comparison), IsKey name.toList → IsOperand operand.toList →
      parse s!"{name} {how.sign} {operand}" = .ok (.comparison how (.key name) (.literal (.text operand)))) ∧
    ∀ (key other : Value) (probe rival : Probe) (first second : Test),
      makeTest (.ok key) (.ok probe) = .ok first → makeTest (.ok other) (.ok rival) = .ok second →
      IsKey first.key.toList → IsKey second.key.toList →
      (first.text = second.text ↔ first.key = second.key ∧ probe.operand? = rival.operand?) ∧
      ∀ (pass : Pass) (tree : Tree) (atom : Atom) (onTrue onFalse : Branch), pass.active = true →
        tree.at? pass.answers = some (.node atom onTrue onFalse) → atom.text = first.text →
        ((∃ answered, pass.read tree second = .ok answered) ↔
          first.key = second.key ∧ probe.operand? = rival.operand?) := by
  have toList (name operand : String) (how : Comparison) : (s!"{name} {how.sign} {operand}").toList =
      name.toList ++ ' ' :: how.sign.toList ++ ' ' :: operand.toList := by
    simp [toString]
  refine ⟨fun text => ?_, fun name operand how key kept => ?_, ?_⟩
  · rw [reads_as_itself_iff]
    constructor
    · intro test
      generalize written : text.toList = chars at test
      cases test with
      | key key free => exact .inl ⟨key, free⟩
      | @comparison name operand how key kept =>
          refine .inr ⟨.ofList name, .ofList operand, how, by simpa using key, by simpa using kept, ?_⟩
          rw [← String.toList_inj, toList, String.toList_ofList, String.toList_ofList, written]
    · rintro (⟨key, free⟩ | ⟨name, operand, how, key, kept, rfl⟩)
      · exact .key key free
      · rw [toList]
        exact .comparison how key kept
  · have test : IsTest (s!"{name} {how.sign} {operand}").toList := by
      rw [toList]
      exact .comparison how key kept
    have spells := spells_comparison how key kept
    rw [← toList, String.ofList_toList, String.ofList_toList] at spells
    exact test.parse spells
  · intro key other probe rival first second made beside firstKey secondKey
    obtain ⟨name, _, _, rfl⟩ := makeTest_ok_iff.mp made
    obtain ⟨otherName, _, _, rfl⟩ := makeTest_ok_iff.mp beside
    have told := Probe.text_inj firstKey secondKey probe rival
    refine ⟨told, fun pass tree atom onTrue onFalse active recorded same => ?_⟩
    rw [Pass.read_recorded_iff active recorded, same]
    exact told

/-- A word may be a key if it is compared, an operand may look like a sign, and one more character of a sign makes
another text. -/
theorem near_texts_told_apart :
    (∃ expr, parse "true ~= =!|" = .ok expr ∧ expr.atomText? = some "true ~= =!|") ∧
    parse "true ~= =!|" = .ok (.comparison .matches (.key "true") (.literal (.text "=!|"))) ∧
    (∃ expr, parse "a === b" = .ok expr ∧ expr.atomText? = some "a == = b") ∧
    (¬ ∃ expr, parse "a === b" = .ok expr ∧ expr.atomText? = some "a === b") ∧
    IsKey "true".toList ∧
    makeTest (.ok (.text "true")) (.ok (.equals (.bool true))) = .ok ⟨"true == true", "true"⟩ ∧
    makeTest (.ok (.text "true")) (.ok (.equals (.int 1))) = .ok ⟨"true == 1", "true"⟩ ∧
    ¬ ∃ answered, ({ assignment := 0, capacity := 2 } : Pass).read
      { onTrue := .node ⟨"true == true", 1, "true"⟩ .unresolved .unresolved } ⟨"true == 1", "true"⟩ = .ok answered := by
  obtain ⟨survive, read, told⟩ := texts_identify_tests
  have key : IsKey "true".toList := by decide
  have kept : IsOperand "=!|".toList := by decide
  have short : Number.isWritten 1 = true := by decide +kernel
  have made : makeTest (.ok (.text "true")) (.ok (.equals (.int 1))) = .ok ⟨"true == 1", "true"⟩ := by
    simp only [makeTest, keyName, Test.ofProbe, Value.operand?_eq, Value.isWritten, short, if_true]
    rfl
  have apart := (told (.text "true") (.text "true") (.equals (.bool true)) (.equals (.int 1)) ⟨"true == true", "true"⟩
    ⟨"true == 1", "true"⟩ rfl made key key).2
  refine ⟨(survive _).mpr (.inr ⟨"true", "=!|", .matches, key, kept, rfl⟩), read "true" "=!|" .matches key kept,
    ⟨_, rfl, rfl⟩, ?_, key, rfl, made, ?_⟩
  · rintro ⟨expr, parsed, printed⟩
    cases parsed
    exact absurd printed (by decide)
  · intro accepted
    have same := (apart _ _ ⟨"true == true", 1, "true"⟩ .unresolved .unresolved rfl rfl rfl).mp accepted
    exact absurd same.2 (by decide)

end Extension.Rule
