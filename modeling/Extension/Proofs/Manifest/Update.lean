import Extension.Manifest.Files

namespace Extension.Manifest

/-! Updating a file, step by step.

The file is emptied before it is written, so all that can fail has to come before.  Only the number of the events is
asked for behind the writing, and the merge has gone through the same events.
-/

section Counting

variable {existing fragment merged : Json}

theorem ok_of_bind {α β ε : Type} {first : Except ε α} {next : α → Except ε β} {value : β}
    (ran : (first >>= next) = .ok value) : ∃ middle, first = .ok middle ∧ next middle = .ok value := by
  cases first with
  | error reason => cases ran
  | ok middle => exact ⟨middle, rfl, ran⟩

/-- What can be gone through has a number of elements. -/
theorem size_eq (document : Json) : size document = (elements document).map List.length := by
  cases document <;> simp [size, elements, Except.map]

theorem events_of_merge (done : merge existing fragment = .ok merged) :
    ∃ found new, get? fragment "activationEvents" = .ok found ∧ elements (found.getD (.list [])) = .ok new := by
  rw [merge] at done
  obtain ⟨_, _, done⟩ := ok_of_bind done
  obtain ⟨_, _, done⟩ := ok_of_bind done
  obtain ⟨_, _, done⟩ := ok_of_bind done
  obtain ⟨found, present, done⟩ := ok_of_bind done
  obtain ⟨new, gone, _⟩ := ok_of_bind done
  exact ⟨found, new, present, gone⟩

theorem countEvents_of_merge (done : merge existing fragment = .ok merged) :
    ∃ events, countEvents fragment = .ok events := by
  obtain ⟨found, new, present, gone⟩ := events_of_merge done
  refine ⟨new.length, ?_⟩
  simp only [countEvents, present, bind, Except.bind, size_eq, gone, Except.map]

end Counting

namespace Work

variable {α β ε : Type} (cause : ε → UpdateFault) (files : Files)

theorem attempt_ok (value : α) (next : α → Work β) : (attempt cause (.ok value) >>= next) = next value := rfl

theorem attempt_error (reason : ε) (next : α → Work β) :
    (attempt cause (.error reason) >>= next).run files = (.error (cause reason), files) := rfl

theorem get_bind (next : Files → Work β) : ((get : Work Files) >>= next).run files = (next files).run files := rfl

/-- Two texts that are written into an opened file stand there one behind the other. -/
theorem write_bind (name first second : String) (next : Unit → Work β) :
    (openFile name >>= fun _ => append name first >>= fun _ => append name second >>= next).run files =
      (next ()).run (files.put name (first ++ second)) := by
  have emptied : List.lookup name (files.put name "") = some "" := Entries.lookup_put_self ..
  have begun : List.lookup name (files.put name first) = some first := Entries.lookup_put_self ..
  change (next ()).run _ = _
  simp only [emptied, Option.getD_some, String.empty_append, Entries.put_put_self, begun]

end Work

variable {files : Files} {name : String} {fragment : Json}

/-- What updating a file comes to. -/
inductive Updated (files : Files) (name : String) (fragment : Json) : Except UpdateFault (Json × Nat) × Files → Prop
  | unread {fault : UpdateFault} (unread : readFile files name = .error fault) :
      Updated files name fragment (.error fault, files)
  | unfit {existing : Json} {fault : ShapeFault} (read : readFile files name = .ok existing)
      (unfit : merge existing fragment = .error fault) : Updated files name fragment (.error (.shape fault), files)
  | written {existing merged : Json} {events : Nat} (read : readFile files name = .ok existing)
      (done : merge existing fragment = .ok merged) :
      Updated files name fragment (.ok (merged, events), files.put name (fileText merged))

theorem update_updated (files : Files) (name : String) (fragment : Json) :
    Updated files name fragment ((update name fragment).run files) := by
  rw [update, Work.get_bind]
  cases read : readFile files name with
  | error fault =>
      rw [Work.attempt_error]
      exact .unread read
  | ok existing =>
      rw [Work.attempt_ok]
      cases done : merge existing fragment with
      | error fault =>
          rw [Work.attempt_error]
          exact .unfit read done
      | ok merged =>
          obtain ⟨events, counted⟩ := countEvents_of_merge done
          rw [Work.attempt_ok, Work.write_bind, counted, Work.attempt_ok]
          exact .written read done

/-- An update that fails leaves all files as they were, at whichever step it fails.  One that succeeds has written
the merged manifest, and no other file. -/
theorem update_writes_or_leaves (files : Files) (name : String) (fragment : Json) :
    (match (update name fragment).run files with
      | (.error fault, after) =>
          after = files ∧ (readFile files name = .error fault ∨
            ∃ existing cause, readFile files name = .ok existing ∧ merge existing fragment = .error cause ∧
              fault = .shape cause)
      | (.ok (merged, _), after) =>
          (∃ existing, readFile files name = .ok existing ∧ merge existing fragment = .ok merged) ∧
            after.lookup name = some (merged.pretty 2 ++ "\n") ∧
            ∀ other, other ≠ name → after.lookup other = files.lookup other) ∧
      updateFile files name fragment =
        (((update name fragment).run files).1.map Prod.fst, ((update name fragment).run files).2) := by
  have updated := update_updated files name fragment
  generalize (update name fragment).run files = result at updated ⊢
  cases updated with
  | unread unread => exact ⟨⟨rfl, .inl unread⟩, by simp only [updateFile, unread, Except.map]⟩
  | unfit read unfit => exact ⟨⟨rfl, .inr ⟨_, _, read, unfit, rfl⟩⟩, by simp only [updateFile, read, unfit, Except.map]⟩
  | @written existing merged events read done =>
      refine ⟨⟨⟨existing, read, done⟩, Entries.lookup_put_self .., fun other differ => ?_⟩, ?_⟩
      · exact Entries.lookup_put_other _ differ
      · simp only [updateFile, read, done, Except.map]

def gridText : String :=
  "\x7b\"contributes\": \x7b\"menus\": [[\"v\"]]\x7d\x7d"

/-- Its menus are a list, but not of pairs. -/
def grid : Json :=
  .dict [("contributes", .dict [("menus", .list [.list [.text "v"]])])]

def gridFiles : Files :=
  [("readme", "x"), ("package.json", gridText)]

/-- Its events are the characters of a text. -/
def letters : Json :=
  .dict [("activationEvents", .text "ab"), ("contributes", .dict [("menus", .dict [])])]

/-- The menus are found unfit when the events have been joined already. -/
theorem unfit_menus_leave_files : ((update "package.json" letters).run gridFiles).2 = gridFiles := by
  have spelled : gridText.toList = _ := String.toList_ofList
  have reads : Json.parse (String.ofList (lineFeeds gridText.toList)) = .ok grid := by
    rw [spelled, Json.parse, String.toList_ofList]
    rfl
  have found : List.lookup "package.json" gridFiles = some gridText := by
    have differ : ("package.json" == "readme") = false := by decide
    simp [gridFiles, List.lookup_cons, differ]
  have present : readFile gridFiles "package.json" = .ok grid := by
    rw [readFile, found]
    change (Json.parse (String.ofList (lineFeeds gridText.toList))).mapError _ = _
    rw [reads]
    rfl
  have unfit : merge grid letters = .error (.notAPair 0 1) := by rfl
  have kept := update_writes_or_leaves gridFiles "package.json" letters
  generalize (update "package.json" letters).run gridFiles = result at kept ⊢
  obtain ⟨fault | ⟨merged, events⟩, after⟩ := result
  · exact kept.1.1
  · obtain ⟨⟨⟨existing, read, done⟩, _⟩, _⟩ := kept
    obtain rfl := Except.ok.inj (read.symm.trans present)
    rw [unfit] at done
    cases done

end Extension.Manifest
