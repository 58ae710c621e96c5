import Extension.Proofs.Clause.Reading

namespace Extension.Clause

/-! Where a clause is cut.

`Cut` says which signs cut a text without the scan that finds them: each is the leftmost one behind the sign
before it.  There is one such cut of every text, and `pieces` finds it.
-/

/-- The text before the first sign, and each sign with the text that follows it. -/
inductive Cut : List Char → List Char → List (Connective × List Char) → Prop
  | whole {text : List Char} (uncut : ∀ how : Connective, ¬ Holds how.sign.toList text) : Cut text text []
  | sign {text first rest next : List Char} {more : List (Connective × List Char)} (how : Connective)
      (split : text = first ++ how.sign.toList ++ rest)
      (leftmost : ∀ (other : Connective) (before after : List Char),
        text = before ++ other.sign.toList ++ after → first.length ≤ before.length)
      (later : Cut rest next more) : Cut text first ((how, next) :: more)

/-- Does the text start with a sign? -/
def Starts (text : List Char) : Prop :=
  ∃ (how : Connective) (rest : List Char), text = how.sign.toList ++ rest

namespace Cut

theorem here (how : Connective) {rest next : List Char} {more : List (Connective × List Char)}
    (later : Cut rest next more) : Cut (how.sign.toList ++ rest) [] ((how, next) :: more) :=
  .sign how rfl (fun _ _ _ _ => Nat.zero_le _) later

/-- A character that starts no sign belongs to the piece behind it. -/
theorem cons {c : Char} {text first : List Char} {more : List (Connective × List Char)}
    (apart : ¬ Starts (c :: text)) (cut : Cut text first more) : Cut (c :: text) (c :: first) more := by
  -- a sign in the longer text does not stand at its start, so it stands in the shorter one
  have shorter {other : Connective} {before after : List Char}
      (split : c :: text = before ++ other.sign.toList ++ after) :
      ∃ rest, before = c :: rest ∧ text = rest ++ other.sign.toList ++ after := by
    cases before with
    | nil => exact absurd ⟨other, after, split⟩ apart
    | cons d rest =>
        obtain ⟨rfl, inside⟩ := List.cons.inj split
        exact ⟨rest, rfl, inside⟩
  cases cut with
  | whole uncut =>
      refine .whole fun how => ?_
      rintro ⟨before, after, split⟩
      obtain ⟨rest, rfl, inside⟩ := shorter split
      exact uncut how ⟨rest, after, inside⟩
  | sign how split leftmost later =>
      refine .sign how (by rw [split]; rfl) ?_ later
      intro other before after found
      obtain ⟨rest, rfl, inside⟩ := shorter found
      exact Nat.succ_le_succ (leftmost other rest after inside)

theorem unique {text first other : List Char} {more others : List (Connective × List Char)}
    (cut : Cut text first more) (same : Cut text other others) : first = other ∧ more = others := by
  induction cut generalizing other others with
  | whole uncut =>
      cases same with
      | whole _ => exact ⟨rfl, rfl⟩
      | sign how split _ _ => exact absurd ⟨_, _, split⟩ (uncut how)
  | @sign text first rest next more how split leftmost later ih =>
      cases same with
      | whole uncut => exact absurd ⟨_, _, split⟩ (uncut how)
      | @sign _ _ otherRest _ _ otherHow otherSplit otherLeftmost otherLater =>
          have length : first.length = other.length :=
            Nat.le_antisymm (leftmost _ _ _ otherSplit) (otherLeftmost _ _ _ split)
          rw [split, List.append_assoc, List.append_assoc] at otherSplit
          obtain ⟨rfl, signs⟩ := List.append_inj otherSplit length
          have sameSign : how = otherHow ∧ rest = otherRest := by
            cases how with
            | both =>
                cases otherHow with
                | both => exact ⟨rfl, by simpa [Connective.sign] using signs⟩
                | either => simp [Connective.sign] at signs
            | either =>
                cases otherHow with
                | both => simp [Connective.sign] at signs
                | either => exact ⟨rfl, by simpa [Connective.sign] using signs⟩
          obtain ⟨rfl, rfl⟩ := sameSign
          obtain ⟨rfl, rfl⟩ := ih otherLater
          exact ⟨rfl, rfl⟩

end Cut

theorem cut_pieces (text : List Char) : Cut text (pieces text).1 (pieces text).2 := by
  induction text using pieces.induct with
  | case1 rest _ _ _ ih => exact .here .both ih
  | case2 rest _ _ _ ih => exact .here .either ih
  | case3 c rest both either _ _ _ ih =>
      have apart : ¬ Starts (c :: rest) := by
        rintro ⟨how, behind, start⟩
        cases how with
        | both =>
            have start : c :: rest = '&' :: '&' :: behind := start
            exact both behind (List.cons.inj start).1 (List.cons.inj start).2
        | either =>
            have start : c :: rest = '|' :: '|' :: behind := start
            exact either behind (List.cons.inj start).1 (List.cons.inj start).2
      rw [pieces.eq_3 c rest both either]
      exact ih.cons apart
  | case4 =>
      refine .whole fun how => ?_
      rintro ⟨before, after, split⟩
      cases how <;> simp [Connective.sign] at split

theorem cut_iff {text first : List Char} {more : List (Connective × List Char)} :
    Cut text first more ↔ pieces text = (first, more) := by
  constructor
  · intro cut
    obtain ⟨rfl, rfl⟩ := cut.unique (cut_pieces text)
    rfl
  · intro found
    have cut := cut_pieces text
    rwa [found] at cut

end Extension.Clause
